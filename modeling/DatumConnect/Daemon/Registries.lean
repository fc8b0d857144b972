import Mathlib.Data.Finmap
import DatumConnect.Lib.Mutex
import DatumConnect.Lib.Utf8
/-!
# Registries on disk

`PeerState` has a registry of the resource ids that were advertised, `LogSources` one of the log
files that may be read.  Each is loaded once, changed in memory under a lock and saved as a whole
before the lock is given back; where the save fails the change is undone by hand.
-/

namespace DatumConnect.Daemon.Registries

open DatumConnect.Lib DatumConnect.Lib.Mutex
open DatumConnect.Lib.Prog (SafeWhen)

/-- A hash set is a hash map to `Unit`. -/
abbrev Registry (V : Type) := Finmap fun _ : String => V

variable {V : Type}

/-- What is under the key, or nothing, is put there instead. -/
def Registry.put (registry : Registry V) (key : String) : Option V → Registry V
  | some value => registry.insert key value
  | none => registry.erase key

theorem Registry.lookup_put_self (registry : Registry V) (key : String) (value : Option V) :
    (registry.put key value).lookup key = value := by
  cases value with
  | none => exact Finmap.lookup_erase key registry
  | some v => exact Finmap.lookup_insert registry

theorem Registry.lookup_put_of_ne (registry : Registry V) {key other : String} (h : other ≠ key)
    (value : Option V) : (registry.put key value).lookup other = registry.lookup other := by
  cases value with
  | none => exact Finmap.lookup_erase_ne h
  | some v => exact Finmap.lookup_insert_of_ne registry h

/-- Putting back what was there undoes any change of a key. -/
theorem Registry.put_put_lookup (registry : Registry V) (key : String) (value : Option V) :
    (registry.put key value).put key (registry.lookup key) = registry := by
  apply Finmap.ext_lookup
  intro other
  by_cases h : other = key
  · rw [h, lookup_put_self]
  · rw [lookup_put_of_ne _ h, lookup_put_of_ne _ h]

/-- The bytes of a registry file: JSON of a registry, or anything else. -/
inductive Contents (V : Type) where
  | json (registry : Registry V)
  | other

/-- A file that is not there, or not such JSON, is an empty registry. -/
def load : Option (Contents V) → Registry V
  | some (.json registry) => registry
  | some .other => ∅
  | none => ∅

structure State (V : Type) where
  memory : Registry V
  file : Option (Contents V)
  tmp : Option (Contents V) := none

def State.opened (file : Option (Contents V)) : State V where
  memory := load file
  file := file

inductive Call (V : Type) where
  | insert (key : String) (value : V)
  | remove (key : String)
  | createDirAll
  | snapshot
  | write (registry : Registry V)
  | rename

/-- A change of a key gives what was there; what is asked of the disk may fail. -/
abbrev Call.Reply : Call V → Type
  | .insert _ _ => Option V
  | .remove _ => Option V
  | .createDirAll => Bool
  | .snapshot => Registry V
  | .write _ => Bool
  | .rename => Bool

/-- The answer is whether the disk does it; a write that fails may leave part of the text. -/
def handle (s : State V) : (c : Call V) → Bool → State V × c.Reply
  | .insert key value, _ => ({ s with memory := s.memory.put key (some value) }, s.memory.lookup key)
  | .remove key, _ => ({ s with memory := s.memory.put key none }, s.memory.lookup key)
  | .createDirAll, ok => (s, ok)
  | .snapshot, _ => (s, s.memory)
  | .write registry, ok => ({ s with tmp := some (if ok then .json registry else .other) }, ok)
  | .rename, true => ({ s with file := s.tmp, tmp := none }, true)
  | .rename, false => (s, false)

abbrev Script (V : Type) := Prog (Call V) Call.Reply

def Script.perform (c : Call V) : Script V c.Reply := Prog.perform c

inductive Failure where
  | io
  | panic
  deriving DecidableEq, Repr

/-- `writable` is of the values that can be written as JSON. -/
def save (writable : V → Bool) : Script V (Except Failure Unit) := do
  if ← Script.perform .createDirAll then
    let snapshot ← Script.perform .snapshot
    if snapshot.all fun _ value => writable value then
      if ← Script.perform (.write snapshot) then
        if ← Script.perform .rename then return .ok ()
        else return .error .io
      else return .error .io
    else return .error .panic
  else return .error .io

/-- A change that is saved before anyone else has the lock.  A panic unwinds without the undoing. -/
def persisted {ρ : Type} (writable : V → Bool) (change : Call V) (undo : change.Reply → Script V Unit)
    (result : change.Reply → ρ) : Script V (Except Failure ρ) := do
  let previous ← Script.perform change
  match ← save writable with
  | .ok () => return .ok (result previous)
  | .error .io =>
      undo previous
      return .error .io
  | .error .panic => return .error .panic

/-! ## The advertised resource ids -/

def remove (key : String) : Script V Unit := do
  let _ ← Script.perform (.remove key)

def insert (key : String) (value : V) : Script V Unit := do
  let _ ← Script.perform (.insert key value)

def markAdvertised (resourceId : String) : Script Unit (Except Failure Unit) :=
  persisted (fun _ => true) (.insert resourceId ()) (fun _ => remove resourceId) fun _ => ()

def unmarkAdvertised (resourceId : String) : Script Unit (Except Failure Unit) :=
  persisted (fun _ => true) (.remove resourceId)
    (fun previous : Option Unit =>
      let wasPresent := previous.isSome
      if wasPresent then insert resourceId () else return)
    fun _ => ()

inductive AdvertisedOp where
  | mark (resourceId : String)
  | unmark (resourceId : String)
  deriving DecidableEq, Repr

def advertised : Calls AdvertisedOp (Call Unit) Call.Reply (Except Failure Unit) (State Unit) Bool where
  body
    | .mark resourceId => markAdvertised resourceId
    | .unmark resourceId => unmarkAdvertised resourceId
  handle := handle

/-- What the call is for. -/
def AdvertisedOp.effect (registry : Registry Unit) : AdvertisedOp → Registry Unit
  | .mark resourceId => registry.put resourceId (some ())
  | .unmark resourceId => registry.put resourceId none

/-! ## The log sources -/

/-- The bytes of a path.  Only a path that is UTF-8 can be written as JSON. -/
abbrev FilePath := List UInt8

instance decidableValid (path : FilePath) : Decidable (Utf8.Valid path) :=
  decidable_of_iff _ Utf8.bytes_lossy_iff

def isUtf8 (path : FilePath) : Bool := Utf8.Valid path

def register (name : String) (path : FilePath) : Script FilePath (Except Failure Unit) :=
  persisted isUtf8 (.insert name path)
    (fun previous : Option FilePath =>
      match previous with
      | some p => insert name p
      | none => remove name)
    fun _ => ()

/-- Whether there was a source of this name. -/
def unregister (name : String) : Script FilePath (Except Failure Bool) :=
  persisted isUtf8 (.remove name)
    (fun removed : Option FilePath =>
      match removed with
      | some path => insert name path
      | none => return)
    fun removed : Option FilePath => removed.isSome

inductive LogOp where
  | register (name : String) (path : FilePath)
  | unregister (name : String)
  deriving DecidableEq, Repr

inductive LogReply where
  | registered
  | unregistered (existed : Bool)
  deriving DecidableEq, Repr

def logSources : Calls LogOp (Call FilePath) Call.Reply (Except Failure LogReply) (State FilePath)
    Bool where
  body
    | .register name path => do return (← register name path).map fun () => .registered
    | .unregister name => do return (← unregister name).map .unregistered
  handle := handle

def LogOp.effect (registry : Registry FilePath) : LogOp → Registry FilePath
  | .register name path => registry.put name (some path)
  | .unregister name => registry.put name none

/-! ## Saving -/

variable {writable : V → Bool} {mayFail : Option (Contents V) → Prop}

/-- What is in memory can be written, and the disk fails only where `mayFail` has it. -/
def Allowed (writable : V → Bool) (mayFail : Option (Contents V) → Prop) (s : State V) :
    Call V → Bool → Prop
  | .insert _ _, _ => True
  | .remove _, _ => True
  | .createDirAll, ok => ok = true ∨ mayFail s.file
  | .snapshot, _ => (s.memory.all fun _ value => writable value) = true
  | .write _, ok => ok = true ∨ mayFail s.file
  | .rename, ok => ok = true ∨ mayFail s.file

/-- What `save` makes of the state: memory is not touched, and the file is only where it succeeds. -/
def Saved (mayFail : Option (Contents V) → Prop) (s t : State V) : Except Failure Unit → Prop
  | .ok () => t.memory = s.memory ∧ load t.file = s.memory
  | .error .io => t.memory = s.memory ∧ t.file = s.file ∧ mayFail s.file
  | .error .panic => False

theorem save_spec (s : State V) :
    (save writable).SafeWhen handle (Allowed writable mayFail) (fun _ => True) (Saved mayFail s) s := by
  refine ⟨trivial, fun created hcreated => ?_⟩
  cases created with
  | false => exact ⟨trivial, rfl, rfl, hcreated.resolve_left nofun⟩
  | true =>
      refine ⟨trivial, fun answer hwritable => ?_⟩
      have hwritable : (s.memory.all fun _ value => writable value) = true := hwritable
      show SafeWhen handle _ _ _ (if (s.memory.all fun _ value => writable value) = true then _ else _) s
      rw [if_pos hwritable]
      refine ⟨trivial, fun written hwritten => ?_⟩
      cases written with
      | false => exact ⟨trivial, rfl, rfl, hwritten.resolve_left nofun⟩
      | true =>
          refine ⟨trivial, fun renamed hrenamed => ?_⟩
          cases renamed with
          | false => exact ⟨trivial, rfl, rfl, hrenamed.resolve_left nofun⟩
          | true => exact ⟨trivial, rfl, rfl⟩

/-- Of each of the finished calls in turn, the effect where it returned `Ok`. -/
def applied {Op ρ : Type} (effect : Registry V → Op → Registry V) (initial : Registry V)
    (finished : List (Op × Except Failure ρ)) : Registry V :=
  finished.foldl
    (fun registry call =>
      match call.2 with
      | .ok _ => effect registry call.1
      | .error _ => registry)
    initial

theorem applied_append {Op ρ : Type} (effect : Registry V → Op → Registry V) (initial : Registry V)
    (finished : List (Op × Except Failure ρ)) (op : Op) (result : Except Failure ρ) :
    applied effect initial (finished ++ [(op, result)]) =
      match result with
      | .ok _ => effect (applied effect initial finished) op
      | .error _ => applied effect initial finished := by
  unfold applied
  rw [List.foldl_append]
  rfl

/-- Memory is what the file has, and what the finished calls make of the first registry. -/
def Agrees {Op ρ : Type} (effect : Registry V → Op → Registry V) (initial : Registry V) (s : State V)
    (finished : List (Op × Except Failure ρ)) : Prop :=
  s.memory = load s.file ∧ s.memory = applied effect initial finished

/-- The change of a key is saved, or all is as it was. -/
def Changed {ρ : Type} (s t : State V) (key : String) (value : Option V) : Except Failure ρ → Prop
  | .ok _ => t.memory = s.memory.put key value ∧ load t.file = s.memory.put key value
  | .error _ => t.memory = s.memory ∧ t.file = s.file

theorem persisted_spec {ρ : Type} {change : Call V} {undo : change.Reply → Script V Unit}
    {result : change.Reply → ρ} {key : String} {value : Option V}
    {previous : Registry V → change.Reply}
    (hchange : ∀ s ok, handle s change ok =
      ({ s with memory := s.memory.put key value }, previous s.memory))
    (hundo : ∀ registry s, registry = load s.file → s.memory = registry.put key value →
      mayFail s.file → (undo (previous registry)).SafeWhen handle (Allowed writable mayFail)
        (fun _ => True) (fun t _ => t.memory = registry ∧ t.file = s.file) s)
    {s : State V} (hs : s.memory = load s.file) :
    (persisted writable change undo result).SafeWhen handle (Allowed writable mayFail) (fun _ => True)
      (fun t r => Changed s t key value r) s := by
  apply SafeWhen.bind
  refine ⟨trivial, fun answer _ => ?_⟩
  rw [hchange]
  refine ⟨trivial, ?_⟩
  apply SafeWhen.bind
  apply (save_spec { s with memory := s.memory.put key value }).mono
  intro t saved _ hsaved
  cases saved with
  | ok _ => exact ⟨trivial, hsaved.1, hsaved.2⟩
  | error failure =>
      cases failure with
      | panic => exact hsaved.elim
      | io =>
          obtain ⟨hmemory, hfile, hfail⟩ := hsaved
          apply SafeWhen.bind
          apply (hundo s.memory t (hfile ▸ hs) hmemory (hfile ▸ hfail)).mono
          intro u _ _ hu
          exact ⟨trivial, hu.1, hu.2.trans hfile⟩

/-- A call that makes the change it is for, or none. -/
theorem agrees_of_changed {Op ρ : Type} {effect : Registry V → Op → Registry V}
    {initial : Registry V} {finished : List (Op × Except Failure ρ)} {s t : State V} {op : Op}
    {key : String} {value : Option V} {result : Except Failure ρ}
    (heffect : ∀ registry, effect registry op = registry.put key value)
    (hs : Agrees effect initial s finished) (h : Changed s t key value result) :
    Agrees effect initial t (finished ++ [(op, result)]) := by
  unfold Agrees
  rw [applied_append]
  cases result with
  | ok r =>
      rw [h.1, h.2]
      refine ⟨rfl, ?_⟩
      simp only [heffect, hs.2]
  | error failure =>
      rw [h.1, h.2]
      exact hs

/-! ## Each of the four -/

theorem remove_undoes {registry : Registry V} {s : State V} {key : String} {value : Option V}
    (hlookup : registry.lookup key = none) (hs : s.memory = registry.put key value) :
    (remove key).SafeWhen handle (Allowed writable mayFail) (fun _ => True)
      (fun t _ => t.memory = registry ∧ t.file = s.file) s := by
  refine ⟨trivial, fun answer _ => ⟨trivial, ?_, rfl⟩⟩
  show s.memory.put key none = registry
  rw [hs, ← hlookup, Registry.put_put_lookup]

theorem insert_undoes {registry : Registry V} {s : State V} {key : String} {value : Option V}
    {v : V} (hlookup : registry.lookup key = some v) (hs : s.memory = registry.put key value) :
    (insert key v).SafeWhen handle (Allowed writable mayFail) (fun _ => True)
      (fun t _ => t.memory = registry ∧ t.file = s.file) s := by
  refine ⟨trivial, fun answer _ => ⟨trivial, ?_, rfl⟩⟩
  show s.memory.put key (some v) = registry
  rw [hs, ← hlookup, Registry.put_put_lookup]

/-- There is nothing to put back after a removal of nothing. -/
theorem removed_nothing {registry : Registry V} {key : String} (hlookup : registry.lookup key = none) :
    registry.put key none = registry := by
  apply Finmap.ext_lookup
  intro other
  by_cases hother : other = key
  · rw [hother, Registry.lookup_put_self, hlookup]
  · rw [Registry.lookup_put_of_ne _ hother]

theorem markAdvertised_spec (resourceId : String) {s : State Unit} (hs : s.memory = load s.file) :
    (markAdvertised resourceId).SafeWhen handle
      (Allowed (fun _ => true) fun file => (load file).lookup resourceId = none) (fun _ => True)
      (fun t r => Changed s t resourceId (some ()) r) s := by
  apply persisted_spec (fun _ _ => rfl) _ hs
  intro registry t hload hmemory hfail
  exact remove_undoes (hload ▸ hfail) hmemory

theorem unmarkAdvertised_spec (resourceId : String) {s : State Unit} (hs : s.memory = load s.file) :
    (unmarkAdvertised resourceId).SafeWhen handle (Allowed (fun _ => true) fun _ => True)
      (fun _ => True) (fun t r => Changed s t resourceId none r) s := by
  apply persisted_spec (fun _ _ => rfl) _ hs
  intro registry t _ hmemory _
  cases hlookup : registry.lookup resourceId with
  | none => exact ⟨trivial, hmemory.trans (removed_nothing hlookup), rfl⟩
  | some _ => exact insert_undoes hlookup hmemory

theorem register_spec (name : String) (path : FilePath) {s : State FilePath}
    (hs : s.memory = load s.file) :
    (register name path).SafeWhen handle (Allowed isUtf8 fun _ => True) (fun _ => True)
      (fun t r => Changed s t name (some path) r) s := by
  apply persisted_spec (fun _ _ => rfl) _ hs
  intro registry t _ hmemory _
  cases hlookup : registry.lookup name with
  | none => exact remove_undoes hlookup hmemory
  | some p => exact insert_undoes hlookup hmemory

theorem unregister_spec (name : String) {s : State FilePath} (hs : s.memory = load s.file) :
    (unregister name).SafeWhen handle (Allowed isUtf8 fun _ => True) (fun _ => True)
      (fun t r => Changed s t name none r) s := by
  apply persisted_spec (fun _ _ => rfl) _ hs
  intro registry t _ hmemory _
  cases hlookup : registry.lookup name with
  | none => exact ⟨trivial, hmemory.trans (removed_nothing hlookup), rfl⟩
  | some p => exact insert_undoes hlookup hmemory

/-! ## Every run -/

/-- A mark fails only where its id is not on file. -/
def AdvertisedOp.Allowed : AdvertisedOp → State Unit → Call Unit → Bool → Prop
  | .mark resourceId =>
      Registries.Allowed (fun _ => true) fun file => (load file).lookup resourceId = none
  | .unmark _ => Registries.Allowed (fun _ => true) fun _ => True

/-- Every path that is to be saved is UTF-8. -/
def LogOp.Allowed (_ : LogOp) : State FilePath → Call FilePath → Bool → Prop :=
  Registries.Allowed isUtf8 fun _ => True

theorem advertised_body (initial : Registry Unit) (op : AdvertisedOp) (s : State Unit)
    (finished : List (AdvertisedOp × Except Failure Unit))
    (hs : Agrees AdvertisedOp.effect initial s finished) :
    (advertised.body op).SafeWhen advertised.handle op.Allowed (fun _ => True)
      (fun t r => Agrees AdvertisedOp.effect initial t (finished ++ [(op, r)])) s := by
  cases op with
  | mark resourceId =>
      apply (markAdvertised_spec resourceId hs.1).mono
      intro t r _ hchanged
      exact agrees_of_changed (fun _ => rfl) hs hchanged
  | unmark resourceId =>
      apply (unmarkAdvertised_spec resourceId hs.1).mono
      intro t r _ hchanged
      exact agrees_of_changed (fun _ => rfl) hs hchanged

theorem Changed.map {ρ ρ' : Type} {s t : State V} {key : String} {value : Option V}
    {result : Except Failure ρ} (h : Changed s t key value result) (f : ρ → ρ') :
    Changed s t key value (result.map f) := by
  cases result with
  | ok r => exact h
  | error failure => exact h

theorem logSources_body (initial : Registry FilePath) (op : LogOp) (s : State FilePath)
    (finished : List (LogOp × Except Failure LogReply))
    (hs : Agrees LogOp.effect initial s finished) :
    (logSources.body op).SafeWhen logSources.handle op.Allowed (fun _ => True)
      (fun t r => Agrees LogOp.effect initial t (finished ++ [(op, r)])) s := by
  cases op with
  | register name path =>
      apply SafeWhen.bind
      apply (register_spec name path hs.1).mono
      intro t r _ hchanged
      exact ⟨trivial, agrees_of_changed (fun _ => rfl) hs (hchanged.map _)⟩
  | unregister name =>
      apply SafeWhen.bind
      apply (unregister_spec name hs.1).mono
      intro t r _ hchanged
      exact ⟨trivial, agrees_of_changed (fun _ => rfl) hs (hchanged.map _)⟩

/-- Whenever nobody has the lock, memory is what loading the file gives, and what the calls that
returned `Ok` make of the registry that was loaded: a call that failed has changed neither. -/
theorem registries_agree (marks : Option (Contents Unit)) (sources : Option (Contents (List UInt8))) :
    (∀ acts w, Runs.Meets advertised.step (Calls.Keeps AdvertisedOp.Allowed)
        ⟨.opened marks, [], none, []⟩ acts →
      Runs.run advertised.step ⟨.opened marks, [], none, []⟩ acts = some w → w.inside = none →
        w.state.memory = load w.state.file ∧
          w.state.memory = applied AdvertisedOp.effect (load marks) w.finished) ∧
    (∀ acts w, Runs.Meets logSources.step (Calls.Keeps LogOp.Allowed)
        ⟨.opened sources, [], none, []⟩ acts →
      Runs.run logSources.step ⟨.opened sources, [], none, []⟩ acts = some w → w.inside = none →
        w.state.memory = load w.state.file ∧
          w.state.memory = applied LogOp.effect (load sources) w.finished) := by
  constructor
  · intro acts w hmeets hrun hinside
    exact Calls.holds_unlocked (advertised_body (load marks)) ⟨rfl, rfl⟩ hmeets hrun hinside
  · intro acts w hmeets hrun hinside
    exact Calls.holds_unlocked (logSources_body (load sources)) ⟨rfl, rfl⟩ hmeets hrun hinside

/-- A mark whose save fails is undone, and so is nothing else. -/
theorem registries_agree_marked :
    ∃ w, Runs.run advertised.step ⟨.opened none, [], none, []⟩
        [.arrive (.mark "a"), .lock 0, .step true, .step true, .step true, .step true, .step true,
          .arrive (.mark "b"), .lock 0, .step true, .step false, .step true] = some w ∧
      w.finished = [(.mark "a", .ok ()), (.mark "b", .error .io)] ∧
      w.state.memory = load w.state.file ∧
      w.state.memory = applied AdvertisedOp.effect (load none) w.finished := by
  refine ⟨_, rfl, rfl, ?_⟩
  apply (registries_agree none none).1
    [.arrive (.mark "a"), .lock 0, .step true, .step true, .step true, .step true, .step true,
      .arrive (.mark "b"), .lock 0, .step true, .step false, .step true] _ _ rfl rfl
  exact ⟨trivial, trivial, trivial, Or.inl rfl, rfl, Or.inl rfl, Or.inl rfl, trivial, trivial,
    trivial, Or.inr rfl, trivial, trivial⟩

/-- A mark of an id that is on file, whose save fails, takes it out of memory alone; and a path that
is not UTF-8 stays in memory after the panic. -/
theorem registries_differ :
    (∃ w, Runs.run advertised.step
        ⟨.opened (some (.json (Registry.put ∅ "a" (some ())))), [], none, []⟩
        [.arrive (.mark "a"), .lock 0, .step true, .step false, .step true] = some w ∧
      w.inside.isNone ∧ w.finished = [(.mark "a", .error .io)] ∧
      w.state.memory.lookup "a" = none ∧ (load w.state.file).lookup "a" = some ()) ∧
    (∃ w, Runs.run logSources.step ⟨.opened none, [], none, []⟩
        [.arrive (.register "app" [0xff]), .lock 0, .step true, .step true, .step true] = some w ∧
      w.inside.isNone ∧ w.finished = [(.register "app" [0xff], .error .panic)] ∧
      w.state.memory.lookup "app" = some [0xff] ∧ (load w.state.file).lookup "app" = none) := by
  constructor
  · exact ⟨_, rfl, rfl, rfl, by decide, by decide⟩
  · exact ⟨_, rfl, rfl, rfl, by decide, by decide⟩

end DatumConnect.Daemon.Registries
