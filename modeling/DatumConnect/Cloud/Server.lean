import Mathlib.Logic.Function.Basic
import DatumConnect.Cloud.Calls
/-!
# The API server

What the objects of a project become by the calls made on them.  A call may fail,
or be carried out and its reply get lost; before any call the finalizers of
objects that are being deleted may get done.
-/

namespace DatumConnect.Cloud

open DatumConnect.Lib

/-- The objects of a project. -/
abbrev Cluster := (kind : Kind) → Table kind.Spec

namespace Cluster

def empty : Cluster := fun _ => { objects := [], unique := List.nodup_nil }

def set (s : Cluster) (kind : Kind) (table : Table kind.Spec) : Cluster :=
  Function.update s kind table

@[simp] theorem set_self (s : Cluster) (kind : Kind) (table : Table kind.Spec) :
    s.set kind table kind = table := Function.update_self ..

theorem set_of_ne (s : Cluster) {kind kind' : Kind} (table : Table kind.Spec) (h : kind' ≠ kind) :
    s.set kind table kind' = s kind' := Function.update_of_ne h ..

end Cluster

/-- How a call goes: as it should, with an error before it is carried out, or
with one after.  That an object is not there is only said of one that is not. -/
inductive Outcome where
  | done
  | failed (err : KubeError) (honest : err.isNotFound = false := by decide)
  | lost (err : KubeError) (honest : err.isNotFound = false := by decide)
  deriving DecidableEq

/-- What the surroundings bring to one call: besides its outcome, whether an
object deleted by it is only marked, the suffix of a generated name, and what else
there is to reply. -/
structure Answer where
  finalized : List (Kind × String) := []
  outcome : Outcome := .done
  mark : Bool := false
  suffix : String := ""
  selectedProject : Option String := some "p"
  classes : List String := []
  details : Option ConnectionDetails := none

/-- The call is carried out, whether or not its reply arrives. -/
def Answer.landed (answer : Answer) : Bool :=
  match answer.outcome with
  | .failed _ _ => false
  | _ => true

namespace Cluster

def finalize (s : Cluster) (finalized : List (Kind × String)) : Cluster := fun kind =>
  (s kind).finalize ((finalized.filter fun f => f.1 = kind).map Prod.snd)

def notFound (name : String) : KubeError := .api 404 (name ++ " not found")

def alreadyExists (name : String) : KubeError := .api 409 (name ++ " already exists")

def newName (name : NewName) (suffix : String) : String :=
  match name with
  | .exactly name => name
  | .generate base => base ++ suffix

/-- A create of a name that is taken is refused. -/
def create (s : Cluster) (kind : Kind) (name : String) (spec : kind.Spec) :
    Cluster × Except KubeError (Object kind.Spec) :=
  match (s kind).get? name with
  | some _ => (s, .error (alreadyExists name))
  | none => (s.set kind ((s kind).create name spec), .ok { name, spec })

def patch (s : Cluster) (kind : Kind) (name : String) (patch : Patch kind) :
    Cluster × Except KubeError (Object kind.Spec) :=
  match (s kind).get? name with
  | none => (s, .error (notFound name))
  | some o =>
      (s.set kind ((s kind).patch name patch.merge), .ok { o with spec := patch.merge o.spec })

def delete (s : Cluster) (kind : Kind) (name : String) (mark : Bool) :
    Cluster × Except KubeError Unit :=
  match (s kind).get? name with
  | none => (s, .error (notFound name))
  | some _ => (s.set kind ((s kind).delete name mark), .ok ())

/-- The reply that arrives of a call with the given outcome. -/
def replying {α : Type} (s : Cluster) (outcome : Outcome) (r : Cluster × Except KubeError α) :
    Cluster × Except KubeError α :=
  match outcome with
  | .done => r
  | .failed err _ => (s, .error err)
  | .lost err _ => (r.1, .error err)

/-- The replies of what is no object of the project. -/
def elsewhere {α : Type} (outcome : Outcome) (a : α) : Except Error α :=
  match outcome with
  | .done => .ok a
  | .failed err _ | .lost err _ => .error (.kube "" err)

/-- Carry out a call. -/
def serve (s : Cluster) (answer : Answer) : (c : Call) → Cluster × c.Reply
  | .selectedContext => (s, answer.selectedProject)
  | .projectControlPlaneClient _ => (s, elsewhere answer.outcome ())
  | .get kind name =>
      s.replying answer.outcome (s, ((s kind).get? name).elim (.error (notFound name)) .ok)
  | .getOpt kind name => s.replying answer.outcome (s, .ok ((s kind).get? name))
  | .list kind selector =>
      s.replying answer.outcome
        (s, .ok ((s kind).objects.filter fun o => selector.matches kind o.spec))
  | .create kind name spec =>
      s.replying answer.outcome (s.create kind (newName name answer.suffix) spec)
  | .patch kind name patch => s.replying answer.outcome (s.patch kind name patch)
  | .delete kind name => s.replying answer.outcome (s.delete kind name answer.mark)
  | .listConnectorClasses => s.replying answer.outcome (s, .ok answer.classes)
  | .sleep _ => (s, ())
  | .buildConnectionDetails => (s, answer.details)
  | .updateProxies _ => (s, elsewhere answer.outcome ())
  | .deleteTunnelDir _ _ => (s, elsewhere answer.outcome ())
  | .ensureEdgePolicies _ _ _ _ => (s, ())

def handle (s : Cluster) (c : Call) (answer : Answer) : Cluster × c.Reply :=
  (s.finalize answer.finalized).serve answer c

/-! ## What a call changes -/

/-- A call that is no write leaves the objects alone. -/
theorem serve_fst (s : Cluster) (answer : Answer) {c : Call}
    (hcreate : ∀ kind name spec, c ≠ .create kind name spec)
    (hpatch : ∀ kind name patch, c ≠ .patch kind name patch)
    (hdelete : ∀ kind name, c ≠ .delete kind name) : (s.serve answer c).1 = s := by
  cases c with
  | create kind name spec => exact absurd rfl (hcreate kind name spec)
  | patch kind name patch => exact absurd rfl (hpatch kind name patch)
  | delete kind name => exact absurd rfl (hdelete kind name)
  | get kind name | getOpt kind name | list kind selector | listConnectorClasses =>
      simp only [serve, replying]
      cases answer.outcome <;> rfl
  | _ => rfl

theorem replying_fst {α : Type} {s : Cluster} {outcome : Outcome}
    {r : Cluster × Except KubeError α} {P : Cluster → Prop} (hs : P s) (hr : P r.1) :
    P (s.replying outcome r).1 := by
  cases outcome <;> assumption

theorem replying_landed {α : Type} (s : Cluster) (answer : Answer)
    (r : Cluster × Except KubeError α) :
    (s.replying answer.outcome r).1 = if answer.landed then r.1 else s := by
  unfold replying Answer.landed
  cases answer.outcome <;> rfl

theorem serve_not_landed {s : Cluster} {answer : Answer} {c : Call}
    (h : answer.landed = false) : (s.serve answer c).1 = s := by
  cases c <;> simp [serve, replying_landed, h]

/-- A write to another kind leaves the table as it is. -/
theorem serve_other {s : Cluster} {answer : Answer} {c : Call} {kind : Kind}
    (hcreate : ∀ name spec, c ≠ .create kind name spec)
    (hpatch : ∀ name patch, c ≠ .patch kind name patch)
    (hdelete : ∀ name, c ≠ .delete kind name) : (s.serve answer c).1 kind = s kind := by
  cases c with
  | create kind' name spec =>
      have hk : kind ≠ kind' := by
        rintro rfl
        exact hcreate name spec rfl
      refine replying_fst (P := fun t => t kind = s kind) rfl ?_
      unfold create
      split
      · rfl
      · exact set_of_ne _ _ hk
  | patch kind' name patch =>
      have hk : kind ≠ kind' := by
        rintro rfl
        exact hpatch name patch rfl
      refine replying_fst (P := fun t => t kind = s kind) rfl ?_
      unfold Cluster.patch
      split
      · rfl
      · exact set_of_ne _ _ hk
  | delete kind' name =>
      have hk : kind ≠ kind' := by
        rintro rfl
        exact hdelete name rfl
      refine replying_fst (P := fun t => t kind = s kind) rfl ?_
      unfold Cluster.delete
      split
      · rfl
      · exact set_of_ne _ _ hk
  | _ => rw [serve_fst s answer (by simp) (by simp) (by simp)]

/-- The table after a create. -/
theorem get?_create (s : Cluster) (kind : Kind) (name m : String) (spec : kind.Spec) :
    ((s.create kind name spec).1 kind).get? m =
      if m = name then some (((s kind).get? name).getD { name, spec }) else (s kind).get? m := by
  unfold create
  split
  · rename_i o h
    split
    · rename_i hm
      simp [hm, h]
    · rfl
  · simp only [set_self]
    exact Table.get?_create _ _ _ _

/-- The table after a patch. -/
theorem get?_patch (s : Cluster) (kind : Kind) (name m : String) (patch : Patch kind) :
    ((s.patch kind name patch).1 kind).get? m =
      if m = name then ((s kind).get? name).map fun o => { o with spec := patch.merge o.spec }
      else (s kind).get? m := by
  unfold Cluster.patch
  split
  · rename_i h
    split
    · rename_i hm
      simp [hm, h]
    · rfl
  · simp only [set_self]
    exact Table.get?_patch _ _ _ _

/-- The table after a delete. -/
theorem get?_delete (s : Cluster) (kind : Kind) (name m : String) (mark : Bool) :
    ((s.delete kind name mark).1 kind).get? m =
      if m = name then
        if mark then ((s kind).get? name).map fun o => { o with deleting := true } else none
      else (s kind).get? m := by
  unfold Cluster.delete
  split
  · rename_i h
    split
    · rename_i hm
      simp [hm, h]
    · rfl
  · simp only [set_self]
    exact Table.get?_delete _ _ _ _

/-- What the call writes is the spec, under the name. -/
def Wrote (s : Cluster) (answer : Answer) (c : Call) (kind : Kind) (name : String)
    (spec : kind.Spec) : Prop :=
  (∃ newName, c = .create kind newName spec ∧ answer.landed = true ∧
    name = Cluster.newName newName answer.suffix ∧ (s kind).get? name = none) ∨
  ∃ patch o, c = .patch kind name patch ∧ answer.landed = true ∧ (s kind).get? name = some o ∧
    spec = patch.merge o.spec

/-- An object there is after a call was there before it with the same spec, or has been
written by it. -/
theorem spec_of_serve {s : Cluster} {answer : Answer} {c : Call} {kind : Kind} {name : String}
    {o' : Object kind.Spec} (h : ((s.serve answer c).1 kind).get? name = some o') :
    (∃ o, (s kind).get? name = some o ∧ o'.spec = o.spec) ∨ s.Wrote answer c kind name o'.spec := by
  by_cases hlanded : answer.landed = true
  · by_cases hwrites : (∀ name spec, c ≠ .create kind name spec) ∧
      (∀ name patch, c ≠ .patch kind name patch) ∧ ∀ name, c ≠ .delete kind name
    · rw [serve_other hwrites.1 hwrites.2.1 hwrites.2.2] at h
      exact Or.inl ⟨o', h, rfl⟩
    · cases c with
      | create kind' newName spec =>
          have hkind : kind' = kind := by
            by_contra hne
            exact hwrites ⟨by rintro _ _ ⟨⟩; exact hne rfl, by simp, by simp⟩
          subst hkind
          rw [serve, replying_landed, if_pos hlanded, get?_create] at h
          by_cases hname : name = Cluster.newName newName answer.suffix
          · rw [if_pos hname, Option.some.injEq, ← hname] at h
            cases hold : (s kind').get? name with
            | some o =>
                rw [hold] at h
                exact Or.inl ⟨o, rfl, congrArg Object.spec h.symm⟩
            | none =>
                rw [hold] at h
                subst h
                exact Or.inr (Or.inl ⟨newName, rfl, hlanded, hname, hold⟩)
          · rw [if_neg hname] at h
            exact Or.inl ⟨o', h, rfl⟩
      | patch kind' name' patch =>
          have hkind : kind' = kind := by
            by_contra hne
            exact hwrites ⟨by simp, by rintro _ _ ⟨⟩; exact hne rfl, by simp⟩
          subst hkind
          rw [serve, replying_landed, if_pos hlanded, get?_patch] at h
          by_cases hname : name = name'
          · subst hname
            rw [if_pos rfl] at h
            obtain ⟨o, ho, rfl⟩ := Option.map_eq_some_iff.mp h
            exact Or.inr (Or.inr ⟨patch, o, rfl, hlanded, ho, rfl⟩)
          · rw [if_neg hname] at h
            exact Or.inl ⟨o', h, rfl⟩
      | delete kind' name' =>
          have hkind : kind' = kind := by
            by_contra hne
            exact hwrites ⟨by simp, by simp, by rintro _ ⟨⟩; exact hne rfl⟩
          subst hkind
          rw [serve, replying_landed, if_pos hlanded, get?_delete] at h
          by_cases hname : name = name'
          · rw [if_pos hname] at h
            split at h
            · obtain ⟨o, ho, rfl⟩ := Option.map_eq_some_iff.mp h
              rw [← hname] at ho
              exact Or.inl ⟨o, ho, rfl⟩
            · cases h
          · rw [if_neg hname] at h
            exact Or.inl ⟨o', h, rfl⟩
      | _ => exact absurd ⟨by simp, by simp, by simp⟩ hwrites
  · rw [serve_not_landed (Bool.eq_false_iff.mpr hlanded)] at h
    exact Or.inl ⟨o', h, rfl⟩

/-! ## What a reply tells -/

theorem replying_ok {α : Type} {s : Cluster} {answer : Answer} {r : Cluster × Except KubeError α}
    {a : α} (h : (s.replying answer.outcome r).2 = .ok a) : answer.landed = true ∧ r.2 = .ok a := by
  unfold Answer.landed
  cases hout : answer.outcome with
  | done =>
      rw [hout] at h
      exact ⟨rfl, h⟩
  | failed err honest =>
      rw [hout] at h
      cases h
  | lost err honest =>
      rw [hout] at h
      cases h

theorem create_ok {s : Cluster} {kind : Kind} {newName : NewName} {spec : kind.Spec}
    {answer : Answer} {o : Object kind.Spec}
    (h : (s.serve answer (.create kind newName spec)).2 = .ok o) :
    answer.landed = true ∧ o.name = Cluster.newName newName answer.suffix ∧
      (s kind).get? (Cluster.newName newName answer.suffix) = none := by
  obtain ⟨hlanded, h⟩ := replying_ok h
  unfold create at h
  split at h
  · cases h
  · rename_i hnone
    cases h
    exact ⟨hlanded, rfl, hnone⟩

theorem patch_ok {s : Cluster} {kind : Kind} {name : String} {patch : Patch kind}
    {answer : Answer} {o : Object kind.Spec}
    (h : (s.serve answer (.patch kind name patch)).2 = .ok o) : o.name = name := by
  obtain ⟨_, h⟩ := replying_ok h
  unfold Cluster.patch at h
  split at h
  · cases h
  · rename_i old hold
    cases h
    have hname : old.name = name := Table.name_of_get? hold
    exact hname

theorem getOpt_reply (s : Cluster) (kind : Kind) (name : String) (answer : Answer) :
    (s.handle (.getOpt kind name) answer).2 =
        .ok (((s.handle (.getOpt kind name) answer).1 kind).get? name) ∨
      ∃ err, (s.handle (.getOpt kind name) answer).2 = .error err := by
  simp only [handle, serve, replying]
  cases answer.outcome with
  | done => exact .inl rfl
  | failed err => exact .inr ⟨err, rfl⟩
  | lost err => exact .inr ⟨err, rfl⟩

theorem list_reply (s : Cluster) (kind : Kind) (selector : Selector) (answer : Answer) :
    (s.handle (.list kind selector) answer).2 =
        .ok (((s.handle (.list kind selector) answer).1 kind).objects.filter fun o =>
          selector.matches kind o.spec) ∨
      ∃ err, (s.handle (.list kind selector) answer).2 = .error err := by
  simp only [handle, serve, replying]
  cases answer.outcome with
  | done => exact .inl rfl
  | failed err => exact .inr ⟨err, rfl⟩
  | lost err => exact .inr ⟨err, rfl⟩

theorem gone_delete (s : Cluster) (kind : Kind) (name : String) (mark : Bool) :
    ((s.delete kind name mark).1 kind).Gone name := by
  unfold delete
  split
  · rename_i hnone
    intro o ho
    rw [hnone] at ho
    cases ho
  · simp only [set_self]
    exact Table.gone_delete _ _ _

/-- Where a delete succeeds, or finds nothing, nothing is left. -/
theorem delete_reply (s : Cluster) (kind : Kind) (name : String) (answer : Answer) :
    ((s.handle (.delete kind name) answer).1 kind).Gone name ∨
      ∃ err, (s.handle (.delete kind name) answer).2 = .error err ∧ err.isNotFound = false := by
  rw [handle, serve]
  cases answer.outcome with
  | done => exact .inl (gone_delete _ _ _ _)
  | failed err honest => exact .inr ⟨err, rfl, honest⟩
  | lost err honest => exact .inr ⟨err, rfl, honest⟩

end Cluster

end DatumConnect.Cloud
