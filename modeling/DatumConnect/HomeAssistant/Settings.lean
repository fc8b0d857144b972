import DatumConnect.Lib.IpAddr
import DatumConnect.Lib.Json
/-!
# Home Assistant's HTTP settings

What `ha_core.rs` reads in `http/config`: a config is accepted as it is, needs a
change, or has one waiting; `merged` is the change Allow makes.
-/

namespace DatumConnect.HomeAssistant

open DatumConnect.Lib
open DatumConnect.Lib.Json

/-- The add-on's local hop connects to Home Assistant from one of these. -/
def loopbackProxies : List IpAddr := [.v4 0x7f000001#32, .v6 1#128]

/-- What Home Assistant's store adds to each config slot. -/
def metaKeys : List String := ["created_at", "error", "error_message"]

/-- Why a config cannot be read, or would be refused. -/
inductive SettingsError where
  | noStableConfig
  | notAnObject
  | proxyNotText (proxy : Value)
  | proxiesNotAList (proxies : Value)
  | notANetwork (proxy : String)
  | noTrustedProxy
  | storeMetadata (key : String)
  deriving DecidableEq

/-! ## Networks -/

def parseNetwork (s : String) : Option (IpAddr × Nat) := do
  let s := Text.trim s.toList
  let (addr, len) := match Text.splitOnce '/' s with
    | some (a, l) => (a, some l)
    | none => (s, none)
  let addr ← IpAddr.parse addr
  let max := match addr with
    | .v4 _ => 32
    | .v6 _ => 128
  match len with
  | some l =>
      let len ← (Text.parseU8 l).filter fun len => len.toNat ≤ max
      return (addr, len.toNat)
  | none => return (addr, max)

def networkContains (net : IpAddr) (len : Nat) (ip : IpAddr) : Bool :=
  match net, ip with
  | .v4 n, .v4 i =>
      let mask : BitVec 32 := if len = 0 then 0 else BitVec.allOnes 32 <<< (32 - len)
      n &&& mask = i &&& mask
  | .v6 n, .v6 i =>
      let mask : BitVec 128 := if len = 0 then 0 else BitVec.allOnes 128 <<< (128 - len)
      n &&& mask = i &&& mask
  | _, _ => false

/-- One of the entries contains the address. -/
def covers (proxies : List String) (ip : IpAddr) : Bool :=
  (proxies.filterMap parseNetwork).any fun (net, len) => networkContains net len ip

/-! ## One config -/

def proxyText (v : Value) : Except SettingsError String :=
  match v.asStr with
  | some s => .ok s
  | none => .error (.proxyNotText v)

/-- A single entry is a list of one. -/
def trustedProxies (config : Value) : Except SettingsError (List String) :=
  match config.get "trusted_proxies" with
  | none | some .null => .ok []
  | some (.string s) => .ok [s]
  | some (.array a) => a.mapM proxyText
  | some other => .error (.proxiesNotAList other)

def trustedProxiesOrNone (config : Value) : List String :=
  match trustedProxies config with
  | .ok proxies => proxies
  | .error _ => []

/-- `use_x_forwarded_for` on, and both loopback addresses trusted. -/
def acceptsForwarded (config : Value) : Bool :=
  let on := (config.get "use_x_forwarded_for").bind Value.asBool = some true
  let proxies := trustedProxiesOrNone config
  on && loopbackProxies.all fun ip => covers proxies ip

/-- The checks Home Assistant makes on the fields this touches. -/
def validate (config : Value) : Except SettingsError Unit := do
  let proxies ← trustedProxies config
  for p in proxies do
    if (parseNetwork p).isNone then throw (.notANetwork p)
  let on := (config.get "use_x_forwarded_for").bind Value.asBool = some true
  if on ∧ proxies = [] then throw .noTrustedProxy
  match metaKeys.find? fun k => (config.get k).isSome with
  | some key => throw (.storeMetadata key)
  | none => return ()

/-- A network joins the list unless an entry already covers its address. -/
def withNetwork (proxies : List String) (ip : IpAddr) (network : String) : List String :=
  if covers proxies ip then proxies else proxies ++ [network]

/-- `base` with `use_x_forwarded_for` on and the loopback addresses among the
trusted proxies; the store's metadata is dropped. -/
def merged (base : Value) : Except SettingsError Value := do
  let .object fields := base | throw .notAnObject
  let config := metaKeys.foldl (fun fields key => removeKey key fields) fields
  let proxies ← trustedProxies base
  let proxies := withNetwork proxies (.v4 0x7f000001#32) "127.0.0.1/32"
  let proxies := withNetwork proxies (.v6 1#128) "::1/128"
  let config := insertKey "use_x_forwarded_for" (.bool true) config
  let config := insertKey "trusted_proxies" (.array (proxies.map .string)) config
  validate (.object config)
  return .object config

/-! ## Both slots -/

/-- A pending config that has not failed. -/
def livePending (httpConfig : Value) : Option Value :=
  ((httpConfig.get "pending").filter Value.isObject).filter fun p =>
    match p.get "error" with
    | none => true
    | some e => e.isNull

/-- The config without the store's metadata. -/
def withoutMeta (config : Value) : Value :=
  match config with
  | .object fields => .object (metaKeys.foldl (fun fields key => removeKey key fields) fields)
  | other => other

/-- The pending slot holds `wanted`, failed or not. -/
def pendingIs (httpConfig wanted : Value) : Bool :=
  match (httpConfig.get "pending").filter Value.isObject with
  | some p => withoutMeta p = wanted
  | none => false

/-- Home Assistant has started on the pending slot, and that slot is `wanted` and
has not failed. -/
def onTrialWith (httpConfig wanted : Value) : Bool :=
  httpConfig.index "active_config_type" = .string "pending" &&
    (livePending httpConfig).isSome && pendingIs httpConfig wanted

/-- Where Home Assistant is with accepting requests through Datum. -/
inductive ProxySetup where
  | ready
  | needed (config : Value)
  | pending
  | ours (onTrial : Bool)
  deriving DecidableEq

def assess (httpConfig : Value) : Except SettingsError ProxySetup := do
  let some stable := (httpConfig.get "stable").filter Value.isObject | throw .noStableConfig
  if acceptsForwarded stable then return .ready
  if (livePending httpConfig).isSome then
    match merged stable with
    | .ok wanted =>
        if pendingIs httpConfig wanted then return .ours (onTrialWith httpConfig wanted)
        else return .pending
    | .error _ => return .pending
  return .needed (← merged stable)

/-- What `assess` finds. -/
theorem assess_eq_ok {httpConfig : Value} {setup : ProxySetup}
    (h : assess httpConfig = .ok setup) :
    setup = .ready ∨ setup = .pending ∨
      (∃ wanted, setup = .ours (onTrialWith httpConfig wanted) ∧
        merged (httpConfig.index "stable") = .ok wanted) ∨
      ∃ config, setup = .needed config ∧ livePending httpConfig = none ∧
        merged (httpConfig.index "stable") = .ok config := by
  unfold assess at h
  split at h
  · rename_i stable hstable
    have hindex : httpConfig.index "stable" = stable := by
      rw [Value.index, (Option.filter_eq_some_iff.mp hstable).1, Option.getD_some]
    rw [hindex]
    split at h
    · cases h
      exact .inl rfl
    · split at h
      · split at h
        · rename_i wanted hwanted
          split at h
          · cases h
            exact .inr (.inr (.inl ⟨wanted, rfl, hwanted⟩))
          · cases h
            exact .inr (.inl rfl)
        · cases h
          exact .inr (.inl rfl)
      · rename_i hlive
        cases hmerged : merged stable with
        | error e =>
            rw [hmerged] at h
            cases h
        | ok config =>
            rw [hmerged] at h
            cases h
            exact .inr (.inr (.inr ⟨config, rfl, by simpa using hlive, rfl⟩))
  · cases h

end DatumConnect.HomeAssistant
