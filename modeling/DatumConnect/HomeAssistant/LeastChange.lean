import DatumConnect.HomeAssistant.Settings
/-!
# The least change that works

What Allow sends is the config in use with no more changed than what makes Home Assistant accept
forwarded requests, and `assess` knows it again in either slot.
-/

namespace DatumConnect.HomeAssistant

open DatumConnect.Lib
open DatumConnect.Lib.Json

/-! ## The list of trusted proxies -/

/-- What a config may have for its trusted proxies: nothing, one text, or a list. -/
def Listed (config : Value) : Prop :=
  match config.get "trusted_proxies" with
  | none | some .null | some (.string _) | some (.array _) => True
  | _ => False

/-- What is listed, one entry being a list of one. -/
def proxyEntries (config : Value) : List Value :=
  match config.get "trusted_proxies" with
  | none | some .null => []
  | some (.array items) => items
  | some entry => [entry]

/-- The entry parses as an address or a network. -/
def IsNetwork (entry : Value) : Prop := ∃ s, entry = .string s ∧ (parseNetwork s).isSome = true

/-- The networks that are missing in the list. -/
def missingNetworks (proxies : List String) : List String :=
  (if covers proxies (.v4 0x7f000001#32) then [] else ["127.0.0.1/32"]) ++
    if covers proxies (.v6 1#128) then [] else ["::1/128"]

theorem mapM_proxyText {items : List Value} {proxies : List String} :
    items.mapM proxyText = .ok proxies ↔ items = proxies.map .string := by
  induction items generalizing proxies with
  | nil =>
      rw [List.mapM_nil]
      cases proxies with
      | nil => exact iff_of_true rfl rfl
      | cons p ps => exact iff_of_false nofun nofun
  | cons item items ih =>
      rw [List.mapM_cons]
      cases item with
      | string s =>
          cases hrest : items.mapM proxyText with
          | error e =>
              refine iff_of_false nofun fun h => ?_
              cases proxies with
              | nil => cases h
              | cons p ps =>
                  rw [List.map_cons, List.cons.injEq] at h
                  rw [ih.mpr h.2] at hrest
                  cases hrest
          | ok rest =>
              have hitems := ih.mp hrest
              change Except.ok (s :: rest) = _ ↔ _
              rw [hitems, ← List.map_cons, Except.ok.injEq]
              exact ⟨fun h => h ▸ rfl, fun h =>
                List.map_injective_iff.mpr (fun _ _ h => Value.string.inj h) h⟩
      | null | bool _ | number _ | array _ | object _ =>
          refine iff_of_false nofun fun h => ?_
          cases proxies <;> cases h

/-- The proxies are read where all entries are texts. -/
theorem trustedProxies_eq_ok {config : Value} {proxies : List String} :
    trustedProxies config = .ok proxies ↔
      Listed config ∧ proxyEntries config = proxies.map .string := by
  unfold trustedProxies Listed proxyEntries
  cases config.get "trusted_proxies" with
  | none => cases proxies <;> simp
  | some v =>
      cases v with
      | null => cases proxies <;> simp
      | string s =>
          cases proxies with
          | nil => simp
          | cons p ps => cases ps <;> simp
      | array items =>
          change items.mapM proxyText = _ ↔ True ∧ items = _
          rw [mapM_proxyText, true_and]
      | bool _ | number _ | object _ => simp

theorem covers_append (proxies more : List String) (ip : IpAddr) :
    covers (proxies ++ more) ip = (covers proxies ip || covers more ip) := by
  rw [covers, List.filterMap_append, List.any_append, covers, covers]

/-- Each loopback network covers its own address only. -/
theorem covers_loopback : covers ["127.0.0.1/32"] (.v4 0x7f000001#32) = true ∧
    covers ["::1/128"] (.v6 1#128) = true ∧ covers ["127.0.0.1/32"] (.v6 1#128) = false := by
  decide +kernel

/-- The list that Allow sends. -/
def withLoopback (proxies : List String) : List String :=
  withNetwork (withNetwork proxies (.v4 0x7f000001#32) "127.0.0.1/32") (.v6 1#128) "::1/128"

theorem withLoopback_eq (proxies : List String) :
    withLoopback proxies = proxies ++ missingNetworks proxies := by
  unfold withLoopback withNetwork missingNetworks
  cases hv4 : covers proxies (.v4 0x7f000001#32) with
  | true => cases hv6 : covers proxies (.v6 1#128) <;> simp [hv6]
  | false =>
      have hsame : covers (proxies ++ ["127.0.0.1/32"]) (.v6 1#128) = covers proxies (.v6 1#128) := by
        rw [covers_append, covers_loopback.2.2, Bool.or_false]
      cases hv6 : covers proxies (.v6 1#128) <;> simp [hsame, hv6]

theorem covers_withLoopback {proxies : List String} {ip : IpAddr} (hip : ip ∈ loopbackProxies) :
    covers (withLoopback proxies) ip = true := by
  rw [withLoopback_eq, covers_append, missingNetworks, covers_append]
  rcases List.mem_cons.mp hip with rfl | hip
  · cases hv4 : covers proxies (.v4 0x7f000001#32) with
    | true => rfl
    | false => simp [covers_loopback.1]
  · obtain rfl := List.mem_singleton.mp hip
    cases hv6 : covers proxies (.v6 1#128) with
    | true => rfl
    | false => simp [covers_loopback.2.1]

theorem withLoopback_ne_nil (proxies : List String) : withLoopback proxies ≠ [] := by
  intro h
  have hcovers : covers (withLoopback proxies) (.v6 1#128) = true :=
    covers_withLoopback (List.mem_cons_of_mem _ List.mem_cons_self)
  rw [h] at hcovers
  cases hcovers

/-- Nothing is missing in the list that Allow sends. -/
theorem withLoopback_withLoopback (proxies : List String) :
    withLoopback (withLoopback proxies) = withLoopback proxies := by
  rw [withLoopback_eq (withLoopback proxies), missingNetworks,
    if_pos (covers_withLoopback List.mem_cons_self),
    if_pos (covers_withLoopback (List.mem_cons_of_mem _ List.mem_cons_self)), List.append_nil,
    List.append_nil]

/-- What Allow adds is networks. -/
theorem parses_withLoopback {proxies : List String} :
    (∀ p ∈ withLoopback proxies, (parseNetwork p).isSome = true) ↔
      ∀ p ∈ proxies, (parseNetwork p).isSome = true := by
  have hnetworks : ∀ p ∈ ["127.0.0.1/32", "::1/128"], (parseNetwork p).isSome = true := by
    decide +kernel
  have hmissing : ∀ p ∈ missingNetworks proxies, (parseNetwork p).isSome = true := by
    intro p hp
    have hmem : p ∈ ["127.0.0.1/32", "::1/128"] := by
      unfold missingNetworks at hp
      split at hp <;> split at hp <;> simp_all
    exact hnetworks p hmem
  rw [withLoopback_eq]
  refine ⟨fun h p hp => h p (List.mem_append_left _ hp), fun h p hp => ?_⟩
  exact (List.mem_append.mp hp).elim (h p) (hmissing p)

/-! ## The fields -/

/-- The fields Allow may touch. -/
def ownKeys : List String := ["use_x_forwarded_for", "trusted_proxies"] ++ metaKeys

def withoutMetaKeys (fields : List (String × Value)) : List (String × Value) :=
  metaKeys.foldl (fun fields key => removeKey key fields) fields

/-- The fields that Allow sends. -/
def changedFields (fields : List (String × Value)) (proxies : List String) :
    List (String × Value) :=
  insertKey "trusted_proxies" (.array (proxies.map .string))
    (insertKey "use_x_forwarded_for" (.bool true) (withoutMetaKeys fields))

theorem merged_object (fields : List (String × Value)) :
    merged (.object fields) = do
      let proxies ← trustedProxies (.object fields)
      validate (.object (changedFields fields (withLoopback proxies)))
      return .object (changedFields fields (withLoopback proxies)) := rfl

theorem withoutMetaKeys_eq (fields : List (String × Value)) :
    withoutMetaKeys fields = fields.filter fun field => field.1 ∉ metaKeys := by
  simp only [withoutMetaKeys, metaKeys, List.foldl, removeKey, List.filter_filter]
  refine List.filter_congr fun field _ => ?_
  simp only [List.mem_cons, List.not_mem_nil, or_false, not_or, Bool.decide_and]
  exact Bool.and_assoc _ _ _ ▸ by cases decide (¬field.1 = "created_at") <;> simp [Bool.and_comm]

theorem lookup_withoutMetaKeys (fields : List (String × Value)) (key : String) :
    (withoutMetaKeys fields).lookup key = if key ∈ metaKeys then none else fields.lookup key := by
  simp only [withoutMetaKeys, metaKeys, List.foldl, lookup_removeKey]
  by_cases hcreated : key = "created_at"
  · simp [hcreated]
  · by_cases herror : key = "error"
    · simp [herror]
    · simp [hcreated, herror]

theorem get_changedFields (fields : List (String × Value)) (proxies : List String) (key : String) :
    (Value.object (changedFields fields proxies)).get key =
      if key = "trusted_proxies" then some (.array (proxies.map .string))
      else if key = "use_x_forwarded_for" then some (.bool true)
      else if key ∈ metaKeys then none else fields.lookup key := by
  rw [Value.get, changedFields, lookup_insertKey, lookup_insertKey, lookup_withoutMetaKeys]

theorem trustedProxies_changedFields (fields : List (String × Value)) (proxies : List String) :
    trustedProxies (.object (changedFields fields proxies)) = .ok proxies := by
  rw [trustedProxies, get_changedFields, if_pos rfl]
  exact mapM_proxyText.mpr rfl

/-- The store's metadata is gone. -/
theorem not_mem_metaKeys {fields : List (String × Value)} {proxies : List String}
    {field : String × Value} (hmem : field ∈ changedFields fields proxies) :
    field.1 ∉ metaKeys := by
  rcases mem_insertKey hmem with rfl | hmem
  · exact (by decide : "trusted_proxies" ∉ metaKeys)
  · rcases mem_insertKey hmem with rfl | hmem
    · exact (by decide : "use_x_forwarded_for" ∉ metaKeys)
    · rw [withoutMetaKeys_eq] at hmem
      exact of_decide_eq_true (List.mem_filter.mp hmem).2

theorem withoutMetaKeys_changedFields (fields : List (String × Value)) (proxies : List String) :
    withoutMetaKeys (changedFields fields proxies) = changedFields fields proxies := by
  rw [withoutMetaKeys_eq, List.filter_eq_self]
  exact fun field hmem => decide_eq_true (not_mem_metaKeys hmem)

/-- Changing the changed fields in the same way changes nothing. -/
theorem changedFields_changedFields (fields : List (String × Value)) (proxies : List String) :
    changedFields (changedFields fields proxies) proxies = changedFields fields proxies := by
  let proxiesValue := Value.array (proxies.map .string)
  let rest := withoutMetaKeys fields
  calc changedFields (changedFields fields proxies) proxies
      = insertKey "trusted_proxies" proxiesValue (insertKey "use_x_forwarded_for" (.bool true)
          (insertKey "trusted_proxies" proxiesValue
            (insertKey "use_x_forwarded_for" (.bool true) rest))) := by
        rw [changedFields, withoutMetaKeys_changedFields, changedFields]
    _ = insertKey "trusted_proxies" proxiesValue (insertKey "trusted_proxies" proxiesValue
          (insertKey "use_x_forwarded_for" (.bool true)
            (insertKey "use_x_forwarded_for" (.bool true) rest))) := by
        rw [insertKey_comm (by decide : "trusted_proxies" < "use_x_forwarded_for")]
    _ = changedFields fields proxies := by
        rw [insertKey_insertKey, insertKey_insertKey, changedFields]

theorem forIn_networks (proxies : List String) :
    (forIn proxies () fun p _ => do
        if (parseNetwork p).isNone then throw (SettingsError.notANetwork p)
        pure (ForInStep.yield ()) : Except SettingsError Unit) = .ok () ↔
      ∀ p ∈ proxies, (parseNetwork p).isSome = true := by
  induction proxies with
  | nil => exact iff_of_true rfl nofun
  | cons p ps ih =>
      rw [List.forIn_cons, List.forall_mem_cons, ← ih]
      cases hp : parseNetwork p with
      | none => exact iff_of_false nofun fun h => Bool.noConfusion h.1
      | some network => exact ⟨fun h => ⟨rfl, h⟩, fun h => h.2⟩

/-- What Allow would send is refused where an entry is no network, or nothing is listed. -/
theorem validate_changedFields (fields : List (String × Value)) (proxies : List String) :
    validate (.object (changedFields fields proxies)) = .ok () ↔
      (∀ p ∈ proxies, (parseNetwork p).isSome = true) ∧ proxies ≠ [] := by
  have hon : (Value.object (changedFields fields proxies)).get "use_x_forwarded_for" =
      some (.bool true) := by
    rw [get_changedFields, if_neg (by decide), if_pos rfl]
  have hmeta : (metaKeys.find? fun k =>
      ((Value.object (changedFields fields proxies)).get k).isSome) = none := by
    rw [List.find?_eq_none]
    intro key hkey
    rw [get_changedFields, if_neg (by rintro rfl; revert hkey; decide),
      if_neg (by rintro rfl; revert hkey; decide), if_pos hkey]
    exact Bool.false_ne_true
  rw [← forIn_networks, validate, trustedProxies_changedFields, hon, hmeta]
  change Except.bind (forIn proxies () fun p _ => do
      if (parseNetwork p).isNone then throw (SettingsError.notANetwork p)
      pure (ForInStep.yield ()) : Except SettingsError Unit) (fun _ => _) = _ ↔ _
  cases hloop : (forIn proxies () fun p _ => do
      if (parseNetwork p).isNone then throw (SettingsError.notANetwork p)
      pure (ForInStep.yield ()) : Except SettingsError Unit) with
  | error e => exact iff_of_false nofun fun h => nomatch h.1
  | ok _ =>
      cases proxies with
      | nil => exact iff_of_false nofun fun h => h.2 rfl
      | cons p ps => exact iff_of_true rfl ⟨rfl, List.cons_ne_nil _ _⟩

theorem texts_of_networks {entries : List Value} (h : ∀ entry ∈ entries, IsNetwork entry) :
    ∃ texts : List String, entries = texts.map .string ∧
      ∀ p ∈ texts, (parseNetwork p).isSome = true := by
  induction entries with
  | nil => exact ⟨[], rfl, nofun⟩
  | cons entry entries ih =>
      obtain ⟨⟨s, rfl, hs⟩, hrest⟩ := List.forall_mem_cons.mp h
      obtain ⟨texts, rfl, htexts⟩ := ih hrest
      exact ⟨s :: texts, rfl, List.forall_mem_cons.mpr ⟨hs, htexts⟩⟩

/-! ## Knowing it again -/

/-- The config with the store's metadata in it. -/
def withMetadata (metadata : List (String × Value)) : Value → Value
  | .object fields => .object (metadata.foldl (fun fields m => insertKey m.1 m.2 fields) fields)
  | other => other

/-- The config has failed on trial, by its metadata. -/
def failedOnTrial (pending : Value) : Bool :=
  match pending.get "error" with
  | none => false
  | some error => !error.isNull

theorem withoutMetaKeys_metadata {metadata : List (String × Value)}
    (hmeta : ∀ m ∈ metadata, m.1 ∈ metaKeys) (fields : List (String × Value)) :
    withoutMetaKeys (metadata.foldl (fun fields m => insertKey m.1 m.2 fields) fields) =
      withoutMetaKeys fields := by
  induction metadata generalizing fields with
  | nil => rfl
  | cons m metadata ih =>
      obtain ⟨hm, hrest⟩ := List.forall_mem_cons.mp hmeta
      rw [List.foldl_cons, ih hrest, withoutMetaKeys_eq, withoutMetaKeys_eq]
      exact filter_insertKey (fun _ => decide_eq_false (not_not_intro hm)) fields

/-- What is there is what is wanted: it is carried on, unless it failed or is not needed. -/
theorem assess_pending {store stable : Value} {fields : List (String × Value)}
    {proxies : List String} {metadata : List (String × Value)}
    (hmerged : merged stable = .ok (.object (changedFields fields proxies)))
    (hstable : store.get "stable" = some stable) (hmeta : ∀ m ∈ metadata, m.1 ∈ metaKeys)
    (hpending : store.get "pending" =
      some (withMetadata metadata (.object (changedFields fields proxies)))) :
    assess store = .ok
      (if acceptsForwarded stable then .ready
        else if failedOnTrial (withMetadata metadata (.object (changedFields fields proxies))) then
          .needed (.object (changedFields fields proxies))
        else .ours (store.index "active_config_type" = .string "pending")) := by
  have hobject : stable.isObject = true := by
    cases stable with
    | object _ => rfl
    | _ => cases hmerged
  have his : pendingIs store (.object (changedFields fields proxies)) = true := by
    rw [pendingIs, hpending]
    refine decide_eq_true (congrArg Value.object ?_)
    exact (withoutMetaKeys_metadata hmeta _).trans (withoutMetaKeys_changedFields _ _)
  have hlive : (livePending store).isSome =
      !failedOnTrial (withMetadata metadata (.object (changedFields fields proxies))) := by
    rw [livePending, hpending]
    change (Option.filter _ (some _)).isSome = _
    rw [Option.filter_some, failedOnTrial]
    cases (withMetadata metadata (.object (changedFields fields proxies))).get "error" with
    | none => rfl
    | some error => cases error <;> rfl
  unfold assess
  rw [hstable, Option.filter_some, if_pos hobject]
  change (if _ then _ else _) = _
  split
  · rfl
  · rw [hlive]
    cases hfailed : failedOnTrial (withMetadata metadata (.object (changedFields fields proxies))) with
    | true =>
        rw [hmerged]
        rfl
    | false =>
        rw [hmerged]
        change (if pendingIs store _ = true then _ else _) = _
        rw [if_pos his, onTrialWith, his, hlive, hfailed, Bool.not_false, Bool.and_true,
          Bool.and_true]
        rfl

/-- `result` is `stable` with as little changed as makes Home Assistant accept what is forwarded. -/
structure LeastChange (stable result : Value) : Prop where
  accepts : acceptsForwarded result = true
  valid : validate result = .ok ()
  others : ∀ key ∉ ownKeys, result.get key = stable.get key
  trusts : ∃ old, proxyEntries stable = old.map .string ∧
    result.get "trusted_proxies" = some (.array ((old ++ missingNetworks old).map .string))
  again : merged result = .ok result
  ready : ∀ store, store.get "stable" = some result → assess store = .ok .ready
  carriedOn : ∀ store metadata, store.get "stable" = some stable →
    (∀ m ∈ metadata, m.1 ∈ metaKeys) →
    store.get "pending" = some (withMetadata metadata result) →
    assess store = .ok
      (if acceptsForwarded stable then .ready
        else if failedOnTrial (withMetadata metadata result) then .needed result
        else .ours (store.index "active_config_type" = .string "pending"))

theorem acceptsForwarded_changedFields (fields : List (String × Value)) (proxies : List String) :
    acceptsForwarded (.object (changedFields fields (withLoopback proxies))) = true := by
  have hon : (Value.object (changedFields fields (withLoopback proxies))).get
      "use_x_forwarded_for" = some (.bool true) := by
    rw [get_changedFields, if_neg (by decide), if_pos rfl]
  rw [acceptsForwarded, trustedProxiesOrNone, trustedProxies_changedFields, hon]
  refine Bool.and_eq_true_iff.mpr ⟨decide_eq_true rfl, ?_⟩
  exact List.all_eq_true.mpr fun ip hip => covers_withLoopback hip

theorem merged_eq_ok {fields : List (String × Value)} {result : Value} :
    merged (.object fields) = .ok result ↔
      ∃ old, trustedProxies (.object fields) = .ok old ∧
        (∀ p ∈ old, (parseNetwork p).isSome = true) ∧
        result = .object (changedFields fields (withLoopback old)) := by
  rw [merged_object]
  cases trustedProxies (.object fields) with
  | error e => exact iff_of_false nofun fun ⟨_, h, _⟩ => nomatch h
  | ok old =>
      change Except.bind (validate _) (fun _ => .ok _) = _ ↔ _
      cases hvalid : validate (.object (changedFields fields (withLoopback old))) with
      | error e =>
          refine iff_of_false nofun ?_
          rintro ⟨_, heq, hparses, _⟩
          cases heq
          rw [(validate_changedFields _ _).mpr
            ⟨parses_withLoopback.mpr hparses, withLoopback_ne_nil old⟩] at hvalid
          cases hvalid
      | ok _ =>
          have hparses := parses_withLoopback.mp ((validate_changedFields _ _).mp hvalid).1
          refine ⟨fun h => ⟨old, rfl, hparses, (Except.ok.inj h).symm⟩, ?_⟩
          rintro ⟨_, heq, _, rfl⟩
          cases heq
          rfl

/-- All that is read of a result is in the fields that were changed. -/
theorem leastChange_changedFields {fields : List (String × Value)} {old : List String}
    (hold : trustedProxies (.object fields) = .ok old)
    (hparses : ∀ p ∈ old, (parseNetwork p).isSome = true) :
    LeastChange (.object fields) (.object (changedFields fields (withLoopback old))) := by
  have haccepts := acceptsForwarded_changedFields fields old
  have hmerged := merged_eq_ok.mpr ⟨old, hold, hparses, rfl⟩
  refine ⟨haccepts, ?_, fun key hkey => ?_, ?_, ?_, fun store hstable => ?_, ?_⟩
  · exact (validate_changedFields _ _).mpr
      ⟨parses_withLoopback.mpr hparses, withLoopback_ne_nil old⟩
  · simp only [ownKeys, List.cons_append, List.nil_append, List.mem_cons, not_or] at hkey
    rw [get_changedFields, if_neg hkey.2.1, if_neg hkey.1, if_neg hkey.2.2]
    rfl
  · refine ⟨old, (trustedProxies_eq_ok.mp hold).2, ?_⟩
    rw [get_changedFields, if_pos rfl, withLoopback_eq]
  · refine merged_eq_ok.mpr ⟨withLoopback old, trustedProxies_changedFields _ _,
      parses_withLoopback.mpr hparses, congrArg Value.object ?_⟩
    rw [withLoopback_withLoopback, changedFields_changedFields]
  · have hobject : (Value.object (changedFields fields (withLoopback old))).isObject = true := rfl
    unfold assess
    rw [hstable, Option.filter_some, if_pos hobject]
    change (if _ then _ else _) = _
    rw [if_pos haccepts]
    rfl
  · exact fun store metadata hstable hmeta hpending =>
      assess_pending hmerged hstable hmeta hpending

/-- `merged` fails only on entries that are no networks, and else makes the least change. -/
theorem merged_least (fields : List (String × Value)) (hlisted : Listed (.object fields)) :
    ((∃ result, merged (.object fields) = .ok result) ↔
        ∀ entry ∈ proxyEntries (.object fields), IsNetwork entry) ∧
      ∀ result, merged (.object fields) = .ok result → LeastChange (.object fields) result := by
  refine ⟨⟨?_, fun hnetworks => ?_⟩, fun result hmerged => ?_⟩
  · rintro ⟨result, hmerged⟩ entry hentry
    obtain ⟨old, hold, hparses, _⟩ := merged_eq_ok.mp hmerged
    rw [(trustedProxies_eq_ok.mp hold).2] at hentry
    obtain ⟨p, hp, rfl⟩ := List.mem_map.mp hentry
    exact ⟨p, rfl, hparses p hp⟩
  · obtain ⟨old, hentries, hparses⟩ := texts_of_networks hnetworks
    exact ⟨_, merged_eq_ok.mpr ⟨old, trustedProxies_eq_ok.mpr ⟨hlisted, hentries⟩, hparses, rfl⟩⟩
  · obtain ⟨old, hold, hparses, rfl⟩ := merged_eq_ok.mp hmerged
    exact leastChange_changedFields hold hparses

/-- A port and one proxy are set. -/
def oneProxy : List (String × Value) :=
  [("server_port", .number (.posInt 8123)), ("trusted_proxies", .string "192.168.1.5")]

theorem merged_least_oneProxy :
    ∃ result, merged (.object oneProxy) = .ok result ∧
      LeastChange (.object oneProxy) result := by
  obtain ⟨hsucceeds, hleast⟩ := merged_least oneProxy trivial
  have hnetworks : ∀ entry ∈ proxyEntries (.object oneProxy), IsNetwork entry :=
    List.forall_mem_singleton.mpr ⟨"192.168.1.5", rfl, by decide +kernel⟩
  obtain ⟨result, hresult⟩ := hsucceeds.mpr hnetworks
  exact ⟨result, hresult, hleast result hresult⟩

/-- A config that failed on trial is to be sent again, and is not carried on. -/
theorem assess_failed_not_ours :
    ∃ result, merged (.object oneProxy) = .ok result ∧
      assess (.object [
          ("pending", withMetadata [("error", .string "not_promoted")] result),
          ("stable", .object oneProxy)]) = .ok (.needed result) := by
  refine ⟨.object (changedFields oneProxy (withLoopback ["192.168.1.5"])), ?_, ?_⟩ <;>
    decide +kernel

end DatumConnect.HomeAssistant
