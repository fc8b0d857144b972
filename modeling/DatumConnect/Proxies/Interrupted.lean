import Mathlib.Tactic.DeriveEncodable
import Mathlib.Logic.Equiv.List
import DatumConnect.Lib.Runs
import DatumConnect.Proxies.Shared
/-!
# Writes cut short

`write_to_file` rewrites `state.yml` in place: the file is truncated, then its new
bytes reach the disk a few at a time.  The daemon may be killed at any of these
points, and another node may load the file at any of them.
-/

namespace DatumConnect.Proxies.Interrupted

open DatumConnect.Lib
open Store (webProxy sshProxy)

/-- `serde_yml` on a `State`: what is written can be read back. -/
structure Yaml where
  toString : State → List UInt8
  fromSlice : List UInt8 → Option State
  fromSlice_toString : ∀ state, fromSlice (toString state) = some state

/-- A `tokio::fs::write` of `state.yml` on its way: of an update, or of the default
list that `load_state` saves where there is no file. -/
structure Write where
  after : State
  opening : Bool
  /-- How many bytes are on the disk, once the file has been truncated. -/
  onDisk : Option Nat := none
  deriving DecidableEq, Repr

/-- A `load_state`: the list it came back with unless it failed, and the lists
before and after the last update, which the file is to hold one of. -/
structure Load where
  found : Option State
  expected : List State
  deriving DecidableEq, Repr

def Load.Ok (load : Load) : Prop := ∃ state ∈ load.expected, load.found = some state

instance (load : Load) : Decidable load.Ok := by
  unfold Load.Ok
  infer_instance

structure Sys where
  file : Option (List UInt8)
  wrappers : List State := []
  writing : Option Write := none
  expected : List State
  loads : List Load := []
  deriving DecidableEq, Repr

inductive Action where
  | loadState
  | update (wrapper : Nat) (op : Update)
  | truncate
  | append (bytes : Nat)
  | finish
  | kill
  deriving DecidableEq, Repr

variable (yaml : Yaml)

/-- `State::from_file`, with an empty list for a file that is not there. -/
def Sys.read (s : Sys) : Option State :=
  match s.file with
  | none => some {}
  | some bytes => yaml.fromSlice bytes

namespace Sys

variable (s : Sys)

/-- `load_state` has come back. -/
def loaded (found : Option State) (expected : List State) : Sys :=
  { s with
    wrappers := s.wrappers ++ found.toList
    loads := s.loads ++ [{ found, expected }] }

/-- The write has come this far. -/
def reach (write : Write) (bytes : Nat) : Sys :=
  { s with
    file := some ((yaml.toString write.after).take bytes)
    writing := some { write with onDisk := some bytes } }

end Sys

def step (s : Sys) : Action → Option Sys
  | .loadState =>
      match s.file, s.writing with
      | some bytes, _ => some (s.loaded (yaml.fromSlice bytes) s.expected)
      | none, none =>
          some { s with writing := some { after := {}, opening := true }, expected := [{}] }
      | none, some _ => none
  | .update wrapper op =>
      match s.wrappers[wrapper]?, s.writing with
      | some state, none =>
          some { s with
            wrappers := s.wrappers.set wrapper (op.apply state)
            writing := some { after := op.apply state, opening := false }
            expected := (s.read yaml).toList ++ [op.apply state] }
      | _, _ => none
  | .truncate =>
      match s.writing with
      | some ⟨after, opening, none⟩ => some (s.reach yaml ⟨after, opening, none⟩ 0)
      | _ => none
  | .append bytes =>
      match s.writing with
      | some ⟨after, opening, some n⟩ =>
          if n + bytes ≤ (yaml.toString after).length then
            some (s.reach yaml ⟨after, opening, some n⟩ (n + bytes))
          else none
      | _ => none
  | .finish =>
      match s.writing with
      | some ⟨after, opening, some n⟩ =>
          if n = (yaml.toString after).length then
            let done := { s with writing := none, expected := [after] }
            some (if opening then done.loaded (some after) [after] else done)
          else none
      | _ => none
  | .kill => some { s with wrappers := [], writing := none }

/-- A daemon that finds the list on its disk, or no file. -/
def Sys.fresh (saved : Option State) : Sys :=
  { file := saved.map yaml.toString, expected := [saved.getD {}] }

/-- Every `load_state` so far has come back with the list before or the list after
the last update. -/
def Sys.LoadsOk (s : Sys) : Prop := ∀ load ∈ s.loads, load.Ok

/-- The file has not been truncated, or all of its new bytes are on the disk. -/
def Sys.Whole (s : Sys) : Prop :=
  ∀ write ∈ s.writing, ∀ n ∈ write.onDisk, n = (yaml.toString write.after).length

instance (s : Sys) : Decidable (s.Whole yaml) := by
  unfold Sys.Whole
  infer_instance

/-- Nothing looks at the file, and the daemon is not killed, in the middle of a
write. -/
def Undisturbed (s : Sys) : Action → Prop
  | .loadState | .kill => s.Whole yaml
  | _ => True

instance (s : Sys) (a : Action) : Decidable (Undisturbed yaml s a) := by
  unfold Undisturbed
  split <;> infer_instance

/-! ## What the file holds -/

/-- What every run that is not disturbed in a write preserves. -/
structure Inv (s : Sys) : Prop where
  loads : s.LoadsOk
  /-- Until a write begins, the file is one of the expected lists. -/
  read_mem : (∀ write ∈ s.writing, write.onDisk = none) →
    ∃ state ∈ s.expected, s.read yaml = some state
  after_mem : ∀ write ∈ s.writing, write.after ∈ s.expected
  file_eq : ∀ write ∈ s.writing, ∀ n ∈ write.onDisk,
    s.file = some ((yaml.toString write.after).take n)

namespace Inv

variable {yaml} {s t : Sys}

theorem fresh (saved : Option State) : Inv yaml (Sys.fresh yaml saved) where
  loads := nofun
  read_mem _ := by
    cases saved with
    | none => exact ⟨{}, List.mem_singleton_self _, rfl⟩
    | some state => exact ⟨state, List.mem_singleton_self _, yaml.fromSlice_toString state⟩
  after_mem := nofun
  file_eq := nofun

/-- A file that is whole holds one of the expected lists, also if it is being
written. -/
theorem read_of_whole (h : Inv yaml s) (hwhole : s.Whole yaml) :
    ∃ state ∈ s.expected, s.read yaml = some state := by
  by_cases hnone : ∀ write ∈ s.writing, write.onDisk = none
  · exact h.read_mem hnone
  · obtain ⟨write, hwrite, hdisk⟩ : ∃ write ∈ s.writing, write.onDisk ≠ none := by
      simpa using hnone
    obtain ⟨n, hn⟩ := Option.ne_none_iff_exists'.mp hdisk
    refine ⟨write.after, h.after_mem write hwrite, ?_⟩
    have hfile := h.file_eq write hwrite n hn
    rw [hwhole write hwrite n hn, List.take_length] at hfile
    rw [Sys.read, hfile]
    exact yaml.fromSlice_toString write.after

theorem loadsOk_loaded (h : s.LoadsOk) {found : Option State} {expected : List State}
    (hload : ∃ state ∈ expected, found = some state) : (s.loaded found expected).LoadsOk := by
  intro load hmem
  rcases List.mem_append.mp hmem with hold | hnew
  · exact h load hold
  · rw [List.mem_singleton.mp hnew]
    exact hload

theorem reach (h : Inv yaml s) {write : Write} (hwrite : write ∈ s.writing) (bytes : Nat) :
    Inv yaml (s.reach yaml write bytes) where
  loads := h.loads
  read_mem hnone := by
    have hbegun := hnone { write with onDisk := some bytes } rfl
    cases hbegun
  after_mem := by
    rintro _ ⟨⟩
    exact h.after_mem write hwrite
  file_eq := by
    rintro _ ⟨⟩ _ ⟨⟩
    rfl

theorem step (h : Inv yaml s) {a : Action} (ha : Undisturbed yaml s a)
    (hstep : Interrupted.step yaml s a = some t) : Inv yaml t := by
  cases a with
  | loadState =>
      simp only [Interrupted.step] at hstep
      obtain ⟨state, hmem, hread⟩ := h.read_of_whole ha
      split at hstep
      · rename_i bytes hfile
        cases hstep
        have hfound : yaml.fromSlice bytes = some state := by
          rwa [Sys.read, hfile] at hread
        exact ⟨loadsOk_loaded h.loads ⟨state, hmem, hfound⟩, h.read_mem, h.after_mem, h.file_eq⟩
      · rename_i hfile hwriting
        cases hstep
        refine ⟨h.loads, fun _ => ⟨{}, List.mem_singleton_self _, ?_⟩, ?_, ?_⟩
        · simp [Sys.read, hfile]
        · rintro _ ⟨⟩
          exact List.mem_singleton_self _
        · rintro _ ⟨⟩ _ ⟨⟩
      · cases hstep
  | update wrapper op =>
      simp only [Interrupted.step] at hstep
      split at hstep
      · rename_i state hstate hwriting
        cases hstep
        obtain ⟨before, _, hread⟩ := h.read_mem (by simp [hwriting])
        refine ⟨h.loads, fun _ => ⟨before, by simp [hread], hread⟩, ?_, ?_⟩
        · rintro _ ⟨⟩
          simp
        · rintro _ ⟨⟩ _ ⟨⟩
      · cases hstep
  | truncate =>
      simp only [Interrupted.step] at hstep
      split at hstep
      · rename_i after opening hwriting
        cases hstep
        exact h.reach hwriting 0
      · cases hstep
  | append bytes =>
      simp only [Interrupted.step] at hstep
      split at hstep
      · rename_i after opening n hwriting
        split at hstep
        · cases hstep
          exact h.reach hwriting (n + bytes)
        · cases hstep
      · cases hstep
  | finish =>
      simp only [Interrupted.step] at hstep
      split at hstep
      · rename_i after opening n hwriting
        split at hstep
        · rename_i hn
          have hfile := h.file_eq _ hwriting n rfl
          rw [hn, List.take_length] at hfile
          have hread : s.read yaml = some after := by
            rw [Sys.read, hfile]
            exact yaml.fromSlice_toString after
          have hdone : Inv yaml { s with writing := none, expected := [after] } :=
            ⟨h.loads, fun _ => ⟨after, List.mem_singleton_self _, hread⟩, nofun, nofun⟩
          cases hstep
          split
          · exact ⟨loadsOk_loaded hdone.loads ⟨after, List.mem_singleton_self _, rfl⟩,
              hdone.read_mem, hdone.after_mem, hdone.file_eq⟩
          · exact hdone
        · cases hstep
      · cases hstep
  | kill =>
      cases hstep
      exact ⟨h.loads, fun _ => h.read_of_whole ha, nofun, nofun⟩

end Inv

/-- While the daemon is not killed and no node loads the file in the middle of a
write, every `load_state` comes back with the list before or the list after the
last update. -/
theorem interrupted_write_kept (saved : Option State) (actions : List Action) (s : Sys)
    (hrun : Runs.run (step yaml) (Sys.fresh yaml saved) actions = some s)
    (hundisturbed : Runs.Meets (step yaml) (Undisturbed yaml) (Sys.fresh yaml saved) actions) :
    s.LoadsOk :=
  (Runs.invariant (fun _ _ _ hinv ha hst => hinv.step ha hst) (Inv.fresh saved)
    hundisturbed hrun).loads

/-! ## Lists as text -/

instance encodableChar : Encodable Char :=
  Encodable.ofLeftInjection Char.toNat (fun n => some (Char.ofNat n)) fun c => by simp

instance encodableString : Encodable String :=
  Encodable.ofLeftInjection String.toList (fun cs => some (String.ofList cs)) fun s => by simp

instance encodableUInt16 : Encodable UInt16 :=
  Encodable.ofLeftInjection UInt16.toNat (fun n => some (UInt16.ofNat n)) fun n => by simp

deriving instance Encodable for TcpProxyData
deriving instance Encodable for Advertisment
deriving instance Encodable for ProxyState
deriving instance Encodable for State

def ascii (text : String) : List UInt8 := text.toList.map fun c => UInt8.ofNat c.toNat

def noProxies : List UInt8 := ascii "proxies: []\n"

def onlyWeb : List UInt8 :=
  ascii ("proxies:\n- info:\n    resource_id: web\n    label: null\n    data:\n" ++
    "      host: 127.0.0.1\n      port: 80\n  enabled: true\n")

/-- The text of two lists, and a number for each other list. -/
def sampleYaml : Yaml where
  toString state :=
    if state = {} then noProxies
    else if state = { proxies := [webProxy] } then onlyWeb
    else 0 :: List.replicate (Encodable.encode state) 1
  fromSlice bytes :=
    if bytes = noProxies then some {}
    else if bytes = onlyWeb then some { proxies := [webProxy] }
    else match bytes with
      | 0 :: rest => Encodable.decode rest.length
      | _ => none
  fromSlice_toString state := by
    have hno : ∀ rest : List UInt8, 0 :: rest ≠ noProxies := fun rest h =>
      absurd (congrArg List.head? h) (by simp [noProxies, ascii])
    have hweb : ∀ rest : List UInt8, 0 :: rest ≠ onlyWeb := fun rest h =>
      absurd (congrArg List.head? h) (by simp [onlyWeb, ascii])
    by_cases hempty : state = {}
    · simp [hempty]
    by_cases hstate : state = { proxies := [webProxy] }
    · have hne : onlyWeb ≠ noProxies := by simp [onlyWeb, noProxies, ascii]
      have hne' : ({ proxies := [webProxy] } : State) ≠ {} := by decide
      simp [hstate, hne, hne']
    · simp [hempty, hstate, hno, hweb]

/-! ## A write that is cut short -/

/-- The daemon saves `web`, is restarted, and reads it. -/
def savedWeb : List Action :=
  [.loadState, .update 0 (.setProxy webProxy), .truncate,
    .append (yaml.toString { proxies := [webProxy] }).length, .finish, .kill, .loadState]

theorem run_savedWeb :
    Runs.run (step yaml) (Sys.fresh yaml (some {})) (savedWeb yaml) = some
      { file := some (yaml.toString { proxies := [webProxy] })
        wrappers := [{ proxies := [webProxy] }]
        expected := [{ proxies := [webProxy] }]
        loads := [⟨some {}, [{}]⟩,
          ⟨some { proxies := [webProxy] }, [{ proxies := [webProxy] }]⟩] } := by
  have hweb : Update.apply {} (.setProxy webProxy) = { proxies := [webProxy] } := rfl
  simp [Runs.run, savedWeb, step, Sys.fresh, Sys.loaded, Sys.read, Sys.reach, hweb,
    yaml.fromSlice_toString]

theorem undisturbed_savedWeb :
    Runs.Meets (step yaml) (Undisturbed yaml) (Sys.fresh yaml (some {})) (savedWeb yaml) := by
  have hweb : Update.apply {} (.setProxy webProxy) = { proxies := [webProxy] } := rfl
  simp [Runs.Meets, savedWeb, step, Sys.fresh, Sys.loaded, Sys.read, Sys.reach, hweb,
    yaml.fromSlice_toString, Undisturbed, Sys.Whole]

theorem interrupted_write_kept_savedWeb :
    ∃ s, Runs.run (step sampleYaml) (Sys.fresh sampleYaml (some {})) (savedWeb sampleYaml) =
        some s ∧ s.wrappers = [{ proxies := [webProxy] }] ∧ s.LoadsOk :=
  ⟨_, run_savedWeb sampleYaml, rfl,
    interrupted_write_kept sampleYaml (some {}) (savedWeb sampleYaml) _ (run_savedWeb sampleYaml)
      (undisturbed_savedWeb sampleYaml)⟩

/-- The daemon is killed as soon as an update has truncated the file. -/
def killedTruncated (op : Update) : List Action :=
  [.loadState, .update 0 op, .truncate, .kill, .loadState]

theorem run_killedTruncated (before : State) (op : Update) :
    Runs.run (step yaml) (Sys.fresh yaml (some before)) (killedTruncated op) = some
      { file := some []
        wrappers := (yaml.fromSlice []).toList
        expected := [before, op.apply before]
        loads := [⟨some before, [before]⟩,
          ⟨yaml.fromSlice [], [before, op.apply before]⟩] } := by
  simp [Runs.run, killedTruncated, step, Sys.fresh, Sys.loaded, Sys.read, Sys.reach,
    yaml.fromSlice_toString]

/-- Whatever an empty file is read as, there are updates that it loses. -/
theorem truncated_loses (before before' : State) (op op' : Update)
    (hapart : ∀ state ∈ [before, op.apply before], state ∉ [before', op'.apply before']) :
    ¬ ∀ (saved : Option State) (actions : List Action) (s : Sys),
      Runs.run (step yaml) (Sys.fresh yaml saved) actions = some s → s.LoadsOk := by
  intro hall
  have hfirst := hall _ _ _ (run_killedTruncated yaml before op)
    ⟨yaml.fromSlice [], [before, op.apply before]⟩ (by simp)
  have hsecond := hall _ _ _ (run_killedTruncated yaml before' op')
    ⟨yaml.fromSlice [], [before', op'.apply before']⟩ (by simp)
  obtain ⟨state, hmem, hfound⟩ := hfirst
  obtain ⟨state', hmem', hfound'⟩ := hsecond
  have hsame : state = state' := Option.some.inj (hfound.symm.trans hfound')
  exact hapart state hmem (hsame ▸ hmem')

/-- With `web` saved, the write that adds `ssh` is cut short: no list can be read from
the empty file, or at best the one before `web` was saved. -/
theorem interrupted_write_lost :
    ¬ ∀ (yaml : Yaml) (saved : Option State) (actions : List Action) (s : Sys),
      Runs.run (step yaml) (Sys.fresh yaml saved) actions = some s → s.LoadsOk := by
  intro hall
  exact truncated_loses sampleYaml { proxies := [webProxy] } {} (.setProxy sshProxy)
    (.setProxy sshProxy) (by decide) (hall sampleYaml)

end DatumConnect.Proxies.Interrupted
