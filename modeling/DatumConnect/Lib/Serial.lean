import Mathlib.Data.List.Basic
import Mathlib.Data.List.Nodup
import Mathlib.Data.List.Permutation
/-!
# Serial orders of overlapping calls

Calls that change one value may overlap in time.  A serial order lists the calls
that have taken effect, contradicts no pair of calls of which one returned
before the other was made, and replays them to the value they left behind.
-/

namespace DatumConnect.Lib.Serial

variable {Op St : Type*} (apply : St → Op → St)

/-- When a call was made and, if it has, when it returned. -/
structure Span where
  invokedAt : Nat
  returnedAt : Option Nat
  deriving DecidableEq, Repr

/-- The first call had returned before the second was made. -/
def Span.Before (a b : Span) : Prop :=
  ∃ r ∈ a.returnedAt, r < b.invokedAt

instance (a b : Span) : Decidable (a.Before b) :=
  match h : a.returnedAt with
  | none => .isFalse (by simp [Span.Before, h])
  | some r => decidable_of_iff (r < b.invokedAt) (by simp [Span.Before, h])

/-- Apply the operations one after the other. -/
def replay (base : St) (ops : List Op) : St := ops.foldl apply base

@[simp] theorem replay_nil (base : St) : replay apply base [] = base := rfl

theorem replay_snoc (base : St) (ops : List Op) (op : Op) :
    replay apply base (ops ++ [op]) = apply (replay apply base ops) op := by
  simp [replay]

/-- `order` is a serial order of the calls numbered by `done`, leading from
`base` to `value`. -/
structure Order (op : Nat → Op) (span : Nat → Span) (done : Nat → Prop)
    (base value : St) (order : List Nat) : Prop where
  nodup : order.Nodup
  mem_iff : ∀ c, c ∈ order ↔ done c
  respects : order.Pairwise fun c d => ¬ (span d).Before (span c)
  value_eq : value = replay apply base (order.map op)

namespace Order

variable {apply}
variable {op op' : Nat → Op} {span span' : Nat → Span} {done done' : Nat → Prop}
  {base value : St} {order : List Nat} {n : Nat}

theorem nil (base : St) (hdone : ∀ c, ¬ done c) :
    Order apply op span done base base [] where
  nodup := List.nodup_nil
  mem_iff c := by simp [hdone c]
  respects := List.Pairwise.nil
  value_eq := rfl

/-- A call that takes effect now, and has not returned, goes last. -/
theorem snoc (h : Order apply op span done base value order) (done' : Nat → Prop) {c : Nat}
    (hnew : ¬ done c) (hopen : (span c).returnedAt = none)
    (hdone : ∀ d, done' d ↔ done d ∨ d = c) :
    Order apply op span done' base (apply value (op c)) (order ++ [c]) where
  nodup := by
    rw [List.nodup_append_comm, List.singleton_append, List.nodup_cons]
    exact ⟨fun hc => hnew ((h.mem_iff c).mp hc), h.nodup⟩
  mem_iff d := by
    rw [List.mem_append, List.mem_singleton, h.mem_iff, hdone]
  respects := by
    rw [List.pairwise_append]
    refine ⟨h.respects, List.pairwise_singleton _ _, ?_⟩
    intro d _ e he
    rw [List.mem_singleton.mp he]
    simp [Span.Before, hopen]
  value_eq := by
    rw [List.map_append, List.map_singleton, replay_snoc, ← h.value_eq]

/-- The order survives a change that leaves the finished calls' operations and
adds no pair that one of them precedes. -/
theorem congr (h : Order apply op span done base value order)
    (hop : ∀ c, done c → op' c = op c)
    (hbefore : ∀ c d, done c → done d → (span' d).Before (span' c) →
      (span d).Before (span c))
    (hdone : ∀ c, done' c ↔ done c) :
    Order apply op' span' done' base value order where
  nodup := h.nodup
  mem_iff c := (h.mem_iff c).trans (hdone c).symm
  respects := by
    refine h.respects.imp_of_mem ?_
    intro c d hc hd hcd hback
    exact hcd (hbefore c d ((h.mem_iff c).mp hc) ((h.mem_iff d).mp hd) hback)
  value_eq := by
    rw [h.value_eq]
    congr 1
    apply List.map_congr_left
    intro c hc
    exact (hop c ((h.mem_iff c).mp hc)).symm

/-- Once the first `n` calls and no others are done, the order lists exactly
them. -/
theorem perm_range (h : Order apply op span done base value order)
    (hdone : ∀ c, done c ↔ c < n) : order.Perm (List.range n) := by
  rw [List.perm_ext_iff_of_nodup h.nodup List.nodup_range]
  intro c
  rw [h.mem_iff, hdone, List.mem_range]

/-- The finitely many values that serial orders of `n` calls can lead to. -/
theorem value_mem (h : Order apply op span (· < n) base value order) :
    value ∈ (List.range n).permutations'.map fun cs => replay apply base (cs.map op) := by
  rw [List.mem_map]
  exact ⟨order, List.mem_permutations'.mpr (h.perm_range fun c => Iff.rfl), h.value_eq.symm⟩

end Order

end DatumConnect.Lib.Serial
