import Mathlib.Data.List.Nodup
/-!
# Tables of named objects

A server keeps objects under names, one object a name.  Deleting an object either
removes it or, while finalizers are pending, marks it: it is still returned and
can still be changed, but is on its way out.

`get?` says what is in a table; every operation is described by what it does to
`get?`.
-/

namespace DatumConnect.Lib

structure Object (σ : Type) where
  name : String
  deleting : Bool := false
  spec : σ
  deriving DecidableEq, Repr

structure Table (σ : Type) where
  objects : List (Object σ) := []
  unique : (objects.map Object.name).Nodup := by decide

namespace Table

variable {σ : Type}

def get? (t : Table σ) (name : String) : Option (Object σ) :=
  t.objects.find? fun o => o.name = name

/-- Apply `f` to the object, if it is there. -/
def modify (t : Table σ) (name : String) (f : Object σ → Object σ)
    (hf : ∀ o, (f o).name = o.name) : Table σ where
  objects := t.objects.map fun o => if o.name = name then f o else o
  unique := by
    rw [List.map_map, List.map_congr_left (g := Object.name)]
    · exact t.unique
    · intro o _
      simp only [Function.comp_apply]
      split <;> simp [hf]

/-- Change the spec of the object. -/
def patch (t : Table σ) (name : String) (f : σ → σ) : Table σ :=
  t.modify name (fun o => { o with spec := f o.spec }) fun _ => rfl

/-- Keep the objects that satisfy `p`. -/
def filter (t : Table σ) (p : Object σ → Bool) : Table σ where
  objects := t.objects.filter p
  unique := t.unique.sublist (List.filter_sublist.map _)

/-- Remove the object, or mark it. -/
def delete (t : Table σ) (name : String) (mark : Bool) : Table σ :=
  if mark then t.modify name (fun o => { o with deleting := true }) fun _ => rfl
  else t.filter fun o => o.name ≠ name

/-- The finalizers of the named objects are done: those that are marked go. -/
def finalize (t : Table σ) (names : List String) : Table σ :=
  t.filter fun o => !(o.deleting && names.contains o.name)

/-- A new object, if the name is free. -/
def create (t : Table σ) (name : String) (spec : σ) : Table σ :=
  match h : t.get? name with
  | some _ => t
  | none => {
      objects := t.objects ++ [{ name, spec }]
      unique := by
        have hfresh : ∀ o ∈ t.objects, o.name ≠ name := by simpa [get?] using h
        rw [List.map_append, List.nodup_append]
        refine ⟨t.unique, List.nodup_singleton _, ?_⟩
        rintro n hn m hm rfl
        obtain ⟨o, ho, rfl⟩ := List.mem_map.mp hn
        exact hfresh o ho (List.mem_singleton.mp hm) }

/-! ## What is in a table -/

theorem name_of_get? {t : Table σ} {name : String} {o : Object σ} (h : t.get? name = some o) :
    o.name = name := by
  simpa using List.find?_some h

theorem mem_iff {t : Table σ} {o : Object σ} : o ∈ t.objects ↔ t.get? o.name = some o := by
  refine ⟨fun h => ?_, List.mem_of_find?_eq_some⟩
  obtain ⟨objects, unique⟩ := t
  simp only [get?]
  induction objects with
  | nil => cases h
  | cons x xs ih =>
      rw [List.map_cons, List.nodup_cons] at unique
      rw [List.find?_cons]
      rcases List.mem_cons.mp h with rfl | hmem
      · simp
      · have hne : x.name ≠ o.name := fun heq => unique.1 (heq ▸ List.mem_map_of_mem hmem)
        simpa [hne] using ih unique.2 hmem

theorem get?_modify (t : Table σ) (name : String) (f : Object σ → Object σ)
    (hf : ∀ o, (f o).name = o.name) (m : String) :
    (t.modify name f hf).get? m = if m = name then (t.get? name).map f else t.get? m := by
  obtain ⟨objects, unique⟩ := t
  simp only [modify, get?]
  clear unique
  induction objects with
  | nil => simp
  | cons x xs ih =>
      simp only [List.map_cons, List.find?_cons]
      by_cases hx : x.name = name
      · by_cases hm : m = name
        · subst hm
          simp [hx, hf]
        · have : x.name ≠ m := fun h => hm (h.symm.trans hx)
          simpa [hx, hf, hm, this, Ne.symm hm] using ih
      · by_cases hm : m = name
        · subst hm
          simpa [hx] using ih
        · simp only [hx, if_false, hm] at ih ⊢
          rw [ih]

theorem get?_patch (t : Table σ) (name : String) (f : σ → σ) (m : String) :
    (t.patch name f).get? m =
      if m = name then (t.get? name).map fun o => { o with spec := f o.spec } else t.get? m :=
  get?_modify t name (fun o => { o with spec := f o.spec }) (fun _ => rfl) m

/-- The first object with a property, after a patch. -/
theorem find?_patch (t : Table σ) (name : String) (f : σ → σ) (p : Object σ → Bool) :
    ((t.patch name f).objects.find? p).map Object.name =
      (t.objects.find? fun o =>
        p (if o.name = name then { o with spec := f o.spec } else o)).map Object.name := by
  show ((t.objects.map _).find? p).map Object.name = _
  rw [List.find?_map, Option.map_map]
  apply Option.map_congr
  intro o _
  simp only [Function.comp_apply]
  split <;> rfl

theorem get?_filter (t : Table σ) (p : Object σ → Bool) (m : String) :
    (t.filter p).get? m = (t.get? m).filter p := by
  obtain ⟨objects, unique⟩ := t
  simp only [filter, get?]
  induction objects with
  | nil => rfl
  | cons x xs ih =>
      rw [List.map_cons, List.nodup_cons] at unique
      by_cases hx : x.name = m
      · have hnone : ∀ o ∈ xs, o.name ≠ m := fun o ho h =>
          unique.1 (hx.trans h.symm ▸ List.mem_map_of_mem ho)
        have hxs : (xs.filter p).find? (fun o => o.name = m) = none := by
          rw [List.find?_eq_none]
          intro o ho
          simpa using hnone o (List.mem_of_mem_filter ho)
        cases hp : p x <;> simp [hx, hp, Option.filter, hxs]
      · have hih := ih unique.2
        cases hp : p x <;> simpa [hx, hp] using hih

theorem get?_delete (t : Table σ) (name : String) (mark : Bool) (m : String) :
    (t.delete name mark).get? m =
      if m = name then
        if mark then (t.get? name).map fun o => { o with deleting := true } else none
      else t.get? m := by
  cases mark with
  | true => exact get?_modify t name (fun o => { o with deleting := true }) (fun _ => rfl) m
  | false =>
      simp only [delete, Bool.false_eq_true, if_false]
      rw [get?_filter]
      cases h : t.get? m with
      | none => simp
      | some o =>
          have hname := name_of_get? h
          by_cases hm : m = name <;> simp [Option.filter, hname, hm]

theorem get?_finalize (t : Table σ) (names : List String) (m : String) :
    (t.finalize names).get? m =
      (t.get? m).filter fun o => !(o.deleting && names.contains o.name) :=
  get?_filter ..

theorem get?_create (t : Table σ) (name : String) (spec : σ) (m : String) :
    (t.create name spec).get? m =
      if m = name then some ((t.get? name).getD { name, spec }) else t.get? m := by
  unfold create
  split
  · rename_i o h
    by_cases hm : m = name <;> simp [hm, h]
  · rename_i h
    simp only [get?, List.find?_append] at h ⊢
    by_cases hm : m = name
    · subst hm
      simp [h]
    · simp [hm, Ne.symm hm]

/-! ## Tables that only lose objects -/

/-- Nothing of that name is there but what is on its way out. -/
def Gone (t : Table σ) (name : String) : Prop := ∀ o, t.get? name = some o → o.deleting = true

instance (t : Table σ) (name : String) : Decidable (t.Gone name) :=
  match h : t.get? name with
  | none => .isTrue (by simp [Gone, h])
  | some o => decidable_of_iff (o.deleting = true) (by simp [Gone, h])

section Losing

variable (R : σ → σ → Prop)

/-- Objects have only been removed, marked, or changed as `R` has it. -/
def Shrinks (t t' : Table σ) : Prop :=
  ∀ name o', t'.get? name = some o' →
    ∃ o, t.get? name = some o ∧ R o.spec o'.spec ∧ (o.deleting = true → o'.deleting = true)

/-- The objects that satisfy `P` and are not being deleted are all still there,
changed at most as `R` has it. -/
def Keeps (P : Object σ → Prop) (t t' : Table σ) : Prop :=
  ∀ name o, t.get? name = some o → o.deleting = false → P o →
    ∃ o', t'.get? name = some o' ∧ o'.deleting = false ∧ R o.spec o'.spec

variable {R} {P : Object σ → Prop} {t u v : Table σ}

theorem Shrinks.refl [Std.Refl R] (t : Table σ) : Shrinks R t t :=
  fun _ o ho => ⟨o, ho, Std.Refl.refl _, id⟩

theorem Shrinks.trans [IsTrans σ R] (h : Shrinks R t u) (h' : Shrinks R u v) : Shrinks R t v := by
  intro name o'' ho''
  obtain ⟨o', ho', hspec', hdel'⟩ := h' name o'' ho''
  obtain ⟨o, ho, hspec, hdel⟩ := h name o' ho'
  exact ⟨o, ho, IsTrans.trans _ _ _ hspec hspec', fun hd => hdel' (hdel hd)⟩

theorem Shrinks.gone (h : Shrinks R t u) {name : String} (hgone : t.Gone name) : u.Gone name := by
  intro o' ho'
  obtain ⟨o, ho, _, hdel⟩ := h name o' ho'
  exact hdel (hgone o ho)

/-- An object that is not being deleted has not been all along. -/
theorem Shrinks.live (h : Shrinks R t u) {name : String} {o' : Object σ}
    (ho' : u.get? name = some o') (hlive : o'.deleting = false) :
    ∃ o, t.get? name = some o ∧ o.deleting = false ∧ R o.spec o'.spec := by
  obtain ⟨o, ho, hspec, hdel⟩ := h name o' ho'
  refine ⟨o, ho, ?_, hspec⟩
  cases hd : o.deleting with
  | false => rfl
  | true =>
      rw [hdel hd] at hlive
      cases hlive

theorem shrinks_delete [Std.Refl R] (t : Table σ) (name : String) (mark : Bool) :
    Shrinks R t (t.delete name mark) := by
  intro m o' ho'
  rw [get?_delete] at ho'
  by_cases hm : m = name
  · subst hm
    cases mark with
    | true =>
        obtain ⟨o, ho, rfl⟩ := Option.map_eq_some_iff.mp (by simpa using ho')
        exact ⟨o, ho, Std.Refl.refl _, by simp⟩
    | false => simp at ho'
  · exact ⟨o', by simpa [hm] using ho', Std.Refl.refl _, id⟩

theorem shrinks_finalize [Std.Refl R] (t : Table σ) (names : List String) :
    Shrinks R t (t.finalize names) := by
  intro m o' ho'
  rw [get?_finalize, Option.filter_eq_some_iff] at ho'
  exact ⟨o', ho'.1, Std.Refl.refl _, id⟩

theorem shrinks_patch (t : Table σ) (name : String) (f : σ → σ) (hrefl : ∀ spec, R spec spec)
    (hf : ∀ spec, R spec (f spec)) : Shrinks R t (t.patch name f) := by
  intro m o' ho'
  rw [get?_patch] at ho'
  by_cases hm : m = name
  · subst hm
    obtain ⟨o, ho, rfl⟩ := Option.map_eq_some_iff.mp (by simpa using ho')
    exact ⟨o, ho, hf _, id⟩
  · exact ⟨o', by simpa [hm] using ho', hrefl _, id⟩

theorem gone_delete (t : Table σ) (name : String) (mark : Bool) :
    (t.delete name mark).Gone name := by
  intro o' ho'
  rw [get?_delete, if_pos rfl] at ho'
  cases mark with
  | true =>
      obtain ⟨o, _, rfl⟩ := Option.map_eq_some_iff.mp (by simpa using ho')
      rfl
  | false => simp at ho'

theorem Keeps.refl [Std.Refl R] (P : Object σ → Prop) (t : Table σ) : Keeps R P t t :=
  fun _ o ho hlive _ => ⟨o, ho, hlive, Std.Refl.refl _⟩

/-- Deleting one object keeps those that `P` does not let be deleted. -/
theorem keeps_delete [Std.Refl R] {name : String} (mark : Bool)
    (h : ∀ o, t.get? name = some o → o.deleting = false → ¬ P o) :
    Keeps R P t (t.delete name mark) := by
  intro m o ho hlive hP
  have hm : m ≠ name := by
    rintro rfl
    exact h o ho hlive hP
  exact ⟨o, by rw [get?_delete, if_neg hm, ho], hlive, Std.Refl.refl _⟩

theorem keeps_finalize [Std.Refl R] (P : Object σ → Prop) (t : Table σ) (names : List String) :
    Keeps R P t (t.finalize names) := by
  intro m o ho hlive _
  refine ⟨o, ?_, hlive, Std.Refl.refl _⟩
  rw [get?_finalize, ho]
  simp [Option.filter, hlive]

theorem keeps_patch (P : Object σ → Prop) (t : Table σ) (name : String) (f : σ → σ)
    (hrefl : ∀ spec, R spec spec) (hf : ∀ spec, R spec (f spec)) :
    Keeps R P t (t.patch name f) := by
  intro m o ho hlive _
  by_cases hm : m = name
  · subst hm
    exact ⟨{ o with spec := f o.spec }, by rw [get?_patch, if_pos rfl, ho]; rfl, hlive, hf _⟩
  · exact ⟨o, by rw [get?_patch, if_neg hm, ho], hlive, hrefl _⟩

end Losing

end Table

end DatumConnect.Lib
