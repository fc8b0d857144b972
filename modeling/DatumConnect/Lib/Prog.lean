import Mathlib.Data.List.Basic
import Mathlib.Order.Defs.Unbundled
/-!
# Programs that call their surroundings

A program returns, or makes a call and goes on with the reply; what can happen
between two of its steps is what can happen between two of its calls.

`exec` runs a program against a state, one answer a call; it is killed where the
answers end.  `Safe` is the rule for such runs: an invariant that holds before
every call and at the end, and a postcondition.  `Follows` is about the program
alone: each call is allowed at the place the calls and replies before it have led
to, whatever the replies are.
-/

namespace DatumConnect.Lib

inductive Prog (C : Type) (R : C → Type) (α : Type) where
  | ret (a : α)
  | call (c : C) (k : R c → Prog C R α)

namespace Prog

variable {C : Type} {R : C → Type} {α β ε : Type}

def bind : Prog C R α → (α → Prog C R β) → Prog C R β
  | .ret a, f => f a
  | .call c k, f => .call c fun r => (k r).bind f

instance : Monad (Prog C R) where
  pure := .ret
  bind := bind

/-- Make one call. -/
def perform (c : C) : Prog C R (R c) := .call c .ret

@[simp] theorem pure_eq (a : α) : (Pure.pure a : Prog C R α) = .ret a := rfl

@[simp] theorem ret_bind (a : α) (f : α → Prog C R β) : (Prog.ret a >>= f) = f a := rfl

@[simp] theorem call_bind (c : C) (k : R c → Prog C R α) (f : α → Prog C R β) :
    (Prog.call c k >>= f) = .call c fun r => k r >>= f := rfl

/-- The program, its calls made as those of a larger set. -/
def embed {C' : Type} {R' : C' → Type} (f : C → C') :
    Prog C (fun c => R' (f c)) α → Prog C' R' α
  | .ret a => .ret a
  | .call c k => .call (f c) fun r => embed f (k r)

/-- A postcondition of the computations that do not fail. -/
def OnOk {S : Type} (post : S → α → Prop) (s : S) (r : Except ε α) : Prop :=
  ∀ a, r = .ok a → post s a

/-! ## Running against a state -/

section Exec

variable {S A : Type} (handle : S → (c : C) → A → S × R c)

/-- Each call gets the next answer; when there are none left the program is
killed before its next call. -/
def exec : S → List A → Prog C R α → S × Option α
  | s, _, .ret a => (s, some a)
  | s, [], .call _ _ => (s, none)
  | s, answer :: answers, .call c k =>
      let (t, r) := handle s c answer
      exec t answers (k r)

@[simp] theorem exec_ret (s : S) (answers : List A) (a : α) :
    exec handle s answers (.ret a : Prog C R α) = (s, some a) := by
  cases answers <;> rfl

@[simp] theorem exec_nil (s : S) (c : C) (k : R c → Prog C R α) :
    exec handle s [] (.call c k) = (s, none) := rfl

@[simp] theorem exec_cons (s : S) (answer : A) (answers : List A) (c : C)
    (k : R c → Prog C R α) :
    exec handle s (answer :: answers) (.call c k) =
      exec handle (handle s c answer).1 answers (k (handle s c answer).2) := rfl

/-- A program ends if all of its calls are answered. -/
theorem exec_returns (answers : Nat → A) (p : Prog C R α) (s : S) :
    ∃ n a, (exec handle s ((List.range n).map answers) p).2 = some a := by
  induction p generalizing s answers with
  | ret a => exact ⟨0, a, rfl⟩
  | call c k ih =>
      obtain ⟨n, a, h⟩ := ih (handle s c (answers 0)).2 (fun i => answers (i + 1))
        (handle s c (answers 0)).1
      refine ⟨n + 1, a, ?_⟩
      rw [List.range_succ_eq_map, List.map_cons, List.map_map, exec_cons]
      exact h

/-- A program that has not ended makes one call more with one answer more. -/
theorem exec_more {s : S} {answers : List A} {p : Prog C R α}
    (h : (exec handle s answers p).2 = none) (answer : A) :
    ∃ c, (exec handle s (answers ++ [answer]) p).1 =
      (handle (exec handle s answers p).1 c answer).1 := by
  induction answers generalizing s p with
  | nil =>
      cases p with
      | ret a => cases h
      | call c k =>
          refine ⟨c, ?_⟩
          rw [List.nil_append, exec_cons]
          cases k (handle s c answer).2 <;> rfl
  | cons first rest ih =>
      cases p with
      | ret a => cases h
      | call c k => exact ih h

/-- However its calls are answered, the program keeps `I` before each of them and
at the end, and what it returns satisfies `post`. -/
def Safe (I : S → Prop) (post : S → α → Prop) : Prog C R α → S → Prop
  | .ret a => fun s => I s ∧ post s a
  | .call c k => fun s => I s ∧ ∀ answer, Safe I post (k (handle s c answer).2) (handle s c answer).1

namespace Safe

variable {handle} {I : S → Prop} {post post' : S → α → Prop} {s : S}

theorem inv {p : Prog C R α} (h : Safe handle I post p s) : I s := by
  cases p with
  | ret a => exact h.1
  | call c k => exact h.1

theorem mono {p : Prog C R α} (h : Safe handle I post p s)
    (hpost : ∀ s a, I s → post s a → post' s a) : Safe handle I post' p s := by
  induction p generalizing s with
  | ret a => exact ⟨h.1, hpost s a h.1 h.2⟩
  | call c k ih => exact ⟨h.1, fun answer => ih _ (h.2 answer)⟩

theorem weaken {J : S → Prop} {p : Prog C R α} (h : Safe handle I post p s)
    (hIJ : ∀ s, I s → J s) : Safe handle J post p s := by
  induction p generalizing s with
  | ret a => exact ⟨hIJ s h.1, h.2⟩
  | call c k ih => exact ⟨hIJ s h.1, fun answer => ih _ (h.2 answer)⟩

theorem bind {p : Prog C R α} {f : α → Prog C R β} {post : S → β → Prop}
    (h : Safe handle I (fun s a => Safe handle I post (f a) s) p s) :
    Safe handle I post (p >>= f) s := by
  induction p generalizing s with
  | ret a => exact h.2
  | call c k ih => exact ⟨h.1, fun answer => ih _ (h.2 answer)⟩

/-- The rule for a computation that can fail. -/
theorem bindE {p : ExceptT ε (Prog C R) α} {f : α → ExceptT ε (Prog C R) β}
    {post : S → Except ε β → Prop}
    (h : Safe handle I
      (fun s r => match r with
        | .ok a => Safe handle I post (f a).run s
        | .error e => post s (.error e)) p.run s) :
    Safe handle I post (p >>= f).run s := by
  refine Safe.bind (h.mono fun s r hI hr => ?_)
  cases r with
  | ok a => exact hr
  | error e => exact ⟨hI, hr⟩

theorem exec {p : Prog C R α} (h : Safe handle I post p s) (answers : List A) :
    I (exec handle s answers p).1 ∧
      ∀ a, (exec handle s answers p).2 = some a → post (exec handle s answers p).1 a := by
  induction answers generalizing p s with
  | nil =>
      cases p with
      | ret a =>
          refine ⟨h.1, fun a' ha => ?_⟩
          cases ha
          exact h.2
      | call c k => exact ⟨h.1, by simp⟩
  | cons answer answers ih =>
      cases p with
      | ret a =>
          refine ⟨h.1, fun a' ha => ?_⟩
          cases ha
          exact h.2
      | call c k => exact ih (h.2 answer)

/-- A loop that keeps an invariant of its own. -/
theorem forM {l : List β} {f : β → Prog C R PUnit} (J : S → Prop)
    (hstep : ∀ b ∈ l, ∀ s, I s → J s → Safe handle I (fun s _ => J s) (f b) s)
    (hI : I s) (hJ : J s) : Safe handle I (fun s _ => J s) (l.forM f) s := by
  induction l generalizing s with
  | nil => exact ⟨hI, hJ⟩
  | cons b l ih =>
      refine Safe.bind ((hstep b List.mem_cons_self s hI hJ).mono fun s _ hI hJ => ?_)
      exact ih (fun b' hb' => hstep b' (List.mem_cons_of_mem b hb')) hI hJ

end Safe

theorem Safe.embed {handle : S → (c : C) → A → S × R c} {C' : Type} {f : C' → C}
    {I : S → Prop} {post : S → α → Prop} {p : Prog C' (fun c => R (f c)) α} {s : S}
    (h : Safe (fun s c answer => handle s (f c) answer) I post p s) :
    Safe handle I post (p.embed f) s := by
  induction p generalizing s with
  | ret a => exact h
  | call c k ih => exact ⟨h.1, fun answer => ih _ (h.2 answer)⟩

/-- Every call the program makes is answered as `cond` has it. -/
def Answered (cond : S → C → A → Prop) : S → List A → Prog C R α → Prop
  | s, answer :: answers, .call c k =>
      cond s c answer ∧ Answered cond (handle s c answer).1 answers (k (handle s c answer).2)
  | _, [], .call _ _ => True
  | _, _, .ret _ => True

instance Answered.decidable (cond : S → C → A → Prop) [∀ s c a, Decidable (cond s c a)] :
    ∀ (s : S) (answers : List A) (p : Prog C R α), Decidable (Answered handle cond s answers p)
  | s, answer :: answers, .call c k =>
      have := Answered.decidable cond (handle s c answer).1 answers (k (handle s c answer).2)
      inferInstanceAs (Decidable (cond s c answer ∧
        Answered handle cond (handle s c answer).1 answers (k (handle s c answer).2)))
  | _, [], .call _ _ => .isTrue trivial
  | _, [], .ret _ => .isTrue trivial
  | _, _ :: _, .ret _ => .isTrue trivial

theorem Answered.mono {handle : S → (c : C) → A → S × R c} {cond cond' : S → C → A → Prop}
    (hcond : ∀ s c answer, cond s c answer → cond' s c answer) {s : S} {answers : List A}
    {p : Prog C R α} (h : Answered handle cond s answers p) :
    Answered handle cond' s answers p := by
  induction answers generalizing s p with
  | nil => cases p <;> exact trivial
  | cons answer answers ih =>
      cases p with
      | ret a => exact trivial
      | call c k => exact ⟨hcond s c answer h.1, ih h.2⟩

/-- A condition on the answers alone. -/
theorem Answered.of_mem {handle : S → (c : C) → A → S × R c} {cond : A → Prop} {s : S}
    {answers : List A} {p : Prog C R α} (h : ∀ answer ∈ answers, cond answer) :
    Answered handle (fun _ _ answer => cond answer) s answers p := by
  induction answers generalizing s p with
  | nil => cases p <;> exact trivial
  | cons answer answers ih =>
      cases p with
      | ret a => exact trivial
      | call c k =>
          exact ⟨h answer List.mem_cons_self, ih fun a ha => h a (List.mem_cons_of_mem answer ha)⟩

/-- `Safe`, as long as the calls are answered as `cond` has it. -/
def SafeWhen (cond : S → C → A → Prop) (I : S → Prop) (post : S → α → Prop) :
    Prog C R α → S → Prop
  | .ret a => fun s => I s ∧ post s a
  | .call c k => fun s => I s ∧
      ∀ answer, cond s c answer →
        SafeWhen cond I post (k (handle s c answer).2) (handle s c answer).1

namespace SafeWhen

variable {handle} {cond : S → C → A → Prop} {I : S → Prop} {post post' : S → α → Prop} {s : S}

theorem inv {p : Prog C R α} (h : SafeWhen handle cond I post p s) : I s := by
  cases p with
  | ret a => exact h.1
  | call c k => exact h.1

theorem mono {p : Prog C R α} (h : SafeWhen handle cond I post p s)
    (hpost : ∀ s a, I s → post s a → post' s a) : SafeWhen handle cond I post' p s := by
  induction p generalizing s with
  | ret a => exact ⟨h.1, hpost s a h.1 h.2⟩
  | call c k ih => exact ⟨h.1, fun answer hanswer => ih _ (h.2 answer hanswer)⟩

theorem bind {p : Prog C R α} {f : α → Prog C R β} {post : S → β → Prop}
    (h : SafeWhen handle cond I (fun s a => SafeWhen handle cond I post (f a) s) p s) :
    SafeWhen handle cond I post (p >>= f) s := by
  induction p generalizing s with
  | ret a => exact h.2
  | call c k ih => exact ⟨h.1, fun answer hanswer => ih _ (h.2 answer hanswer)⟩

/-- Two things that hold of the same run. -/
theorem both {I' : S → Prop} {p : Prog C R α} (h : SafeWhen handle cond I post p s)
    (h' : SafeWhen handle cond I' post' p s) :
    SafeWhen handle cond (fun s => I s ∧ I' s) (fun s a => post s a ∧ post' s a) p s := by
  induction p generalizing s with
  | ret a => exact ⟨⟨h.1, h'.1⟩, h.2, h'.2⟩
  | call c k ih =>
      exact ⟨⟨h.1, h'.1⟩, fun answer hanswer => ih _ (h.2 answer hanswer) (h'.2 answer hanswer)⟩

theorem weaken {J : S → Prop} {p : Prog C R α} (h : SafeWhen handle cond I post p s)
    (hIJ : ∀ s, I s → J s) : SafeWhen handle cond J post p s := by
  induction p generalizing s with
  | ret a => exact ⟨hIJ s h.1, h.2⟩
  | call c k ih => exact ⟨hIJ s h.1, fun answer hanswer => ih _ (h.2 answer hanswer)⟩

/-- The rule for a computation that can fail. -/
theorem bindE {p : ExceptT ε (Prog C R) α} {f : α → ExceptT ε (Prog C R) β}
    {post : S → Except ε β → Prop}
    (h : SafeWhen handle cond I
      (fun s r => match r with
        | .ok a => SafeWhen handle cond I post (f a).run s
        | .error e => post s (.error e)) p.run s) :
    SafeWhen handle cond I post (p >>= f).run s := by
  refine SafeWhen.bind (h.mono fun s r hI hr => ?_)
  cases r with
  | ok a => exact hr
  | error e => exact ⟨hI, hr⟩

/-- The same rule where nothing is said of a failure. -/
theorem bindOk {p : ExceptT ε (Prog C R) α} {f : α → ExceptT ε (Prog C R) β} {post : S → β → Prop}
    (h : SafeWhen handle cond I (OnOk fun s a => SafeWhen handle cond I (OnOk post) (f a).run s)
      p.run s) :
    SafeWhen handle cond I (OnOk post) (p >>= f).run s := by
  refine bindE (h.mono fun s r _ hr => ?_)
  cases r with
  | ok a => exact hr a rfl
  | error e => exact fun b hb => nomatch hb

theorem exec {p : Prog C R α} {answers : List A} (h : SafeWhen handle cond I post p s)
    (hanswers : Answered handle cond s answers p) :
    I (exec handle s answers p).1 ∧
      ∀ a, (exec handle s answers p).2 = some a → post (exec handle s answers p).1 a := by
  induction answers generalizing p s with
  | nil =>
      cases p with
      | ret a =>
          refine ⟨h.1, fun a' ha => ?_⟩
          cases ha
          exact h.2
      | call c k => exact ⟨h.1, by simp⟩
  | cons answer answers ih =>
      cases p with
      | ret a =>
          refine ⟨h.1, fun a' ha => ?_⟩
          cases ha
          exact h.2
      | call c k => exact ih (h.2 answer hanswers.1) hanswers.2

end SafeWhen

theorem Safe.when {handle : S → (c : C) → A → S × R c} {cond : S → C → A → Prop}
    {I : S → Prop} {post : S → α → Prop} {p : Prog C R α} {s : S} (h : Safe handle I post p s) :
    SafeWhen handle cond I post p s := by
  induction p generalizing s with
  | ret a => exact h
  | call c k ih => exact ⟨h.1, fun answer _ => ih _ (h.2 answer)⟩

/-- Before every call and at the end, the state is related to the one at the
start. -/
def Within (rel : S → S → Prop) (post : S → α → Prop) (p : Prog C R α) (s : S) : Prop :=
  Safe handle (rel s) post p s

namespace Within

variable {handle} {rel : S → S → Prop} {post post' : S → α → Prop} {s : S}

theorem ret [Std.Refl rel] {a : α} (h : post s a) : Within handle rel post (.ret a : Prog C R α) s :=
  ⟨Std.Refl.refl _, h⟩

/-- A place further on may be seen from one before it. -/
theorem from_before [IsTrans S rel] {p : Prog C R α} {t : S} (h : Within handle rel post p t)
    (hst : rel s t) :
    Safe handle (rel s) post p t := by
  unfold Within at h
  suffices hgen : ∀ u, Safe handle (rel t) post p u → Safe handle (rel s) post p u from hgen t h
  clear h
  induction p with
  | ret a => exact fun u hu => ⟨IsTrans.trans _ _ _ hst hu.1, hu.2⟩
  | call c k ih =>
      exact fun u hu => ⟨IsTrans.trans _ _ _ hst hu.1, fun answer => ih _ _ (hu.2 answer)⟩

theorem call [Std.Refl rel] [IsTrans S rel] {c : C} {k : R c → Prog C R α}
    (h : ∀ answer, rel s (handle s c answer).1 ∧
      Within handle rel post (k (handle s c answer).2) (handle s c answer).1) :
    Within handle rel post (.call c k) s :=
  ⟨Std.Refl.refl _, fun answer => from_before (h answer).2 (h answer).1⟩

theorem perform [Std.Refl rel] [IsTrans S rel] {c : C} {post : S → R c → Prop}
    (h : ∀ answer, rel s (handle s c answer).1 ∧
      post (handle s c answer).1 (handle s c answer).2) :
    Within handle rel post (Prog.perform c) s :=
  call fun answer => ⟨(h answer).1, ret (h answer).2⟩

theorem mono {p : Prog C R α} (h : Within handle rel post p s)
    (hpost : ∀ t a, rel s t → post t a → post' t a) : Within handle rel post' p s :=
  Safe.mono h hpost

theorem bind [IsTrans S rel] {p : Prog C R α} {f : α → Prog C R β} {post : S → β → Prop}
    (h : Within handle rel (fun t a => Within handle rel post (f a) t) p s) :
    Within handle rel post (p >>= f) s :=
  Safe.bind (h.mono fun _ _ hst ht => from_before ht hst)

/-- The rule for a computation that can fail. -/
theorem bindE [Std.Refl rel] [IsTrans S rel] {p : ExceptT ε (Prog C R) α} {f : α → ExceptT ε (Prog C R) β}
    {post : S → Except ε β → Prop}
    (h : Within handle rel
      (fun t r => match r with
        | .ok a => Within handle rel post (f a).run t
        | .error e => post t (.error e)) p.run s) :
    Within handle rel post (p >>= f).run s := by
  refine bind (h.mono fun t r _ hr => ?_)
  cases r with
  | ok a => exact hr
  | error e => exact ret hr

/-- The same rule where nothing is said of a failure. -/
theorem bindOk [Std.Refl rel] [IsTrans S rel] {p : ExceptT ε (Prog C R) α}
    {f : α → ExceptT ε (Prog C R) β} {post : S → β → Prop}
    (h : Within handle rel (OnOk fun t a => Within handle rel (OnOk post) (f a).run t) p.run s) :
    Within handle rel (OnOk post) (p >>= f).run s := by
  refine bindE (h.mono fun t r _ hr => ?_)
  cases r with
  | ok a => exact hr a rfl
  | error e => exact fun b hb => nomatch hb

theorem exec {p : Prog C R α} (h : Within handle rel post p s) (answers : List A) :
    rel s (exec handle s answers p).1 ∧
      ∀ a, (Prog.exec handle s answers p).2 = some a → post (Prog.exec handle s answers p).1 a :=
  Safe.exec h answers

end Within

end Exec

/-! ## Keeping to a protocol -/

/-- Where a client is after the calls it has made, and which calls it may make
there. -/
structure Protocol (C : Type) (R : C → Type) (G : Type) where
  allowed : G → C → Prop
  advance : G → (c : C) → R c → G

/-- The program keeps to the protocol from `g` on, whatever the replies are, and
where it returns `post` holds. -/
def Follows {G : Type} (P : Protocol C R G) (post : G → α → Prop) : Prog C R α → G → Prop
  | .ret a => fun g => post g a
  | .call c k => fun g => P.allowed g c ∧ ∀ r, Follows P post (k r) (P.advance g c r)

/-- The protocol, as it binds the calls that are made as `f` says. -/
def Protocol.comap {C' : Type} {R' : C' → Type} {G : Type} (P : Protocol C' R' G) (f : C → C') :
    Protocol C (fun c => R' (f c)) G where
  allowed g c := P.allowed g (f c)
  advance g c r := P.advance g (f c) r

namespace Follows

variable {G : Type} {P : Protocol C R G} {g : G}

theorem embed {C' : Type} {R' : C' → Type} {P : Protocol C' R' G} {f : C → C'}
    {p : Prog C (fun c => R' (f c)) α} {post : G → α → Prop}
    (h : Follows (P.comap f) post p g) : Follows P post (p.embed f) g := by
  induction p generalizing g with
  | ret a => exact h
  | call c k ih => exact ⟨h.1, fun r => ih r (h.2 r)⟩

theorem mono {p : Prog C R α} {post post' : G → α → Prop} (h : Follows P post p g)
    (hpost : ∀ g a, post g a → post' g a) : Follows P post' p g := by
  induction p generalizing g with
  | ret a => exact hpost g a h
  | call c k ih => exact ⟨h.1, fun r => ih r (h.2 r)⟩

theorem bind {p : Prog C R α} {f : α → Prog C R β} {post : G → β → Prop}
    (h : Follows P (fun g a => Follows P post (f a) g) p g) :
    Follows P post (p >>= f) g := by
  induction p generalizing g with
  | ret a => exact h
  | call c k ih => exact ⟨h.1, fun r => ih r (h.2 r)⟩

/-- The rule for one call. -/
theorem performThen {c : C} {f : R c → Prog C R β} {post : G → β → Prop} (hallowed : P.allowed g c)
    (h : ∀ r, Follows P post (f r) (P.advance g c r)) : Follows P post (Prog.perform c >>= f) g :=
  ⟨hallowed, h⟩

/-- The same rule in a computation that can fail. -/
theorem liftThen {c : C} {f : R c → ExceptT ε (Prog C R) β} {post : G → Except ε β → Prop}
    (hallowed : P.allowed g c) (h : ∀ r, Follows P post (f r).run (P.advance g c r)) :
    Follows P post (ExceptT.lift (Prog.perform c) >>= f).run g :=
  ⟨hallowed, h⟩

/-- The rule for a computation that can fail. -/
theorem bindE {p : ExceptT ε (Prog C R) α} {f : α → ExceptT ε (Prog C R) β}
    {post : G → Except ε β → Prop}
    (h : Follows P
      (fun g r => match r with
        | .ok a => Follows P post (f a).run g
        | .error e => post g (.error e)) p.run g) :
    Follows P post (p >>= f).run g := by
  refine Follows.bind (h.mono fun g r hr => ?_)
  cases r with
  | ok a => exact hr
  | error e => exact hr

/-- A loop that keeps an invariant of its own. -/
theorem forM {l : List β} {f : β → Prog C R PUnit} (J : G → Prop)
    (hstep : ∀ b ∈ l, ∀ g, J g → Follows P (fun g _ => J g) (f b) g) (hJ : J g) :
    Follows P (fun g _ => J g) (l.forM f) g := by
  induction l generalizing g with
  | nil => exact hJ
  | cons b l ih =>
      refine Follows.bind ((hstep b List.mem_cons_self g hJ).mono fun g _ hJ => ?_)
      exact ih (fun b' hb' => hstep b' (List.mem_cons_of_mem b hb')) hJ

/-- The same rule where nothing is said of a failure. -/
theorem bindOk {p : ExceptT ε (Prog C R) α} {f : α → ExceptT ε (Prog C R) β}
    {post : G → β → Prop}
    (h : Follows P (OnOk fun g a => Follows P (OnOk post) (f a).run g) p.run g) :
    Follows P (OnOk post) (p >>= f).run g := by
  refine bindE (h.mono fun g r hr => ?_)
  cases r with
  | ok a => exact hr a rfl
  | error e => exact fun b hb => nomatch hb

end Follows

/-- Whatever the replies are, the program makes calls of one kind only. -/
def Only (K : C → Prop) : Prog C R α → Prop
  | .ret _ => True
  | .call c k => K c ∧ ∀ r, Only K (k r)

namespace Only

variable {K : C → Prop}

theorem ret (a : α) : Only K (.ret a : Prog C R α) := trivial

theorem perform {c : C} (h : K c) : Only K (Prog.perform c : Prog C R (R c)) :=
  ⟨h, fun _ => trivial⟩

theorem bind {p : Prog C R α} {f : α → Prog C R β} (hp : Only K p) (hf : ∀ a, Only K (f a)) :
    Only K (p >>= f) := by
  induction p with
  | ret a => exact hf a
  | call c k ih => exact ⟨hp.1, fun r => ih r (hp.2 r)⟩

theorem bindE {p : ExceptT ε (Prog C R) α} {f : α → ExceptT ε (Prog C R) β}
    (hp : Only K p.run) (hf : ∀ a, Only K (f a).run) : Only K (p >>= f).run := by
  refine hp.bind fun r => ?_
  cases r with
  | ok a => exact hf a
  | error e => exact ret _

theorem mono {K' : C → Prop} {p : Prog C R α} (h : Only K p) (hK : ∀ c, K c → K' c) :
    Only K' p := by
  induction p with
  | ret a => exact trivial
  | call c k ih => exact ⟨hK c h.1, fun r => ih r (h.2 r)⟩

theorem lift {c : C} (h : K c) :
    Only K (ExceptT.lift (Prog.perform c) : ExceptT ε (Prog C R) (R c)).run :=
  bind (perform h) fun _ => ret _

theorem of_forall (p : Prog C R α) (h : ∀ c, K c) : Only K p := by
  induction p with
  | ret a => exact ret a
  | call c k ih => exact ⟨h c, fun r => ih r⟩

/-- The calls as they are made of a larger set. -/
theorem embed {C' : Type} {R' : C' → Type} {f : C → C'} {K : C' → Prop}
    {p : Prog C (fun c => R' (f c)) α} (h : Only (fun c => K (f c)) p) :
    Only K (Prog.embed f p : Prog C' R' α) := by
  induction p with
  | ret a => exact ret a
  | call c k ih => exact ⟨h.1, fun r => ih r (h.2 r)⟩

/-- Calls that lead from a state to related ones only. -/
theorem within {S A : Type} {handle : S → (c : C) → A → S × R c} {rel : S → S → Prop}
    [Std.Refl rel] [IsTrans S rel] {p : Prog C R α} (h : Only K p)
    (hcall : ∀ s c answer, K c → rel s (handle s c answer).1) (s : S) :
    Within handle rel (fun _ _ => True) p s := by
  induction p generalizing s with
  | ret a => exact Within.ret trivial
  | call c k ih => exact Within.call fun answer => ⟨hcall s c answer h.1, ih _ (h.2 _) _⟩

theorem throw (e : ε) : Only K (ExceptT.run (throw e : ExceptT ε (Prog C R) α)) := trivial

/-- Calls that keep an invariant, however they are answered. -/
theorem safeWhen {S A : Type} {handle : S → (c : C) → A → S × R c} {cond : S → C → A → Prop}
    {I J : S → Prop} {p : Prog C R α} (h : Only K p)
    (hcall : ∀ s c answer, K c → J s → cond s c answer → J (handle s c answer).1)
    (hI : ∀ s, J s → I s) {s : S} (hs : J s) :
    SafeWhen handle cond I (fun t _ => J t) p s := by
  induction p generalizing s with
  | ret a => exact ⟨hI s hs, hs⟩
  | call c k ih => exact ⟨hI s hs, fun answer hanswer => ih _ (h.2 _) (hcall s c answer h.1 hs hanswer)⟩

end Only

/-- The program keeps to the protocol and leaves the client where it is. -/
def Stays {G : Type} (P : Protocol C R G) (g : G) (p : Prog C R α) : Prop :=
  Follows P (fun g' _ => g' = g) p g

namespace Stays

variable {G : Type} {P : Protocol C R G} {g : G}

theorem ret (a : α) : Stays P g (.ret a : Prog C R α) := rfl

theorem perform {c : C} (hallowed : P.allowed g c) (hadvance : ∀ r, P.advance g c r = g) :
    Stays P g (Prog.perform c) :=
  ⟨hallowed, hadvance⟩

/-- Calls that are allowed and lead nowhere. -/
theorem of_only {K : C → Prop} {p : Prog C R α} (h : Only K p)
    (hallowed : ∀ c, K c → P.allowed g c) (hadvance : ∀ c r, K c → P.advance g c r = g) :
    Stays P g p := by
  unfold Stays
  induction p with
  | ret a => rfl
  | call c k ih =>
      refine ⟨hallowed c h.1, fun r => ?_⟩
      rw [hadvance c r h.1]
      exact ih r (h.2 r)

theorem andThen {p : Prog C R α} {f : α → Prog C R β} {post : G → β → Prop} (hp : Stays P g p)
    (hf : ∀ a, Follows P post (f a) g) : Follows P post (p >>= f) g :=
  Follows.bind (Follows.mono hp fun _ a hg => hg ▸ hf a)

theorem bind {p : Prog C R α} {f : α → Prog C R β} (hp : Stays P g p)
    (hf : ∀ a, Stays P g (f a)) : Stays P g (p >>= f) :=
  hp.andThen hf

theorem andThenOk {p : ExceptT ε (Prog C R) α} {f : α → ExceptT ε (Prog C R) β}
    {post : G → β → Prop} (hp : Stays P g p.run)
    (hf : ∀ a, Follows P (OnOk post) (f a).run g) : Follows P (OnOk post) (p >>= f).run g :=
  Follows.bindOk (Follows.mono hp fun _ _ hg a _ => hg ▸ hf a)

theorem andThenE {p : ExceptT ε (Prog C R) α} {f : α → ExceptT ε (Prog C R) β}
    {post : G → Except ε β → Prop} (hp : Stays P g p.run)
    (hf : ∀ a, Follows P post (f a).run g) (herror : ∀ e, post g (.error e)) :
    Follows P post (p >>= f).run g := by
  refine Follows.bindE (Follows.mono hp fun g' r hg => ?_)
  cases hg
  cases r with
  | ok a => exact hf a
  | error e => exact herror e

theorem bindE {p : ExceptT ε (Prog C R) α} {f : α → ExceptT ε (Prog C R) β}
    (hp : Stays P g p.run) (hf : ∀ a, Stays P g (f a).run) : Stays P g (p >>= f).run :=
  hp.andThenE hf fun _ => rfl

theorem forM {l : List β} {f : β → Prog C R PUnit} (hf : ∀ b ∈ l, Stays P g (f b)) :
    Stays P g (l.forM f) := by
  induction l with
  | nil => exact ret _
  | cons b l ih =>
      exact (hf b List.mem_cons_self).bind fun _ =>
        ih fun b' hb' => hf b' (List.mem_cons_of_mem b hb')

end Stays

end Prog

end DatumConnect.Lib
