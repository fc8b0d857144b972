import DatumConnect.Lib.Prog
/-!
# Traces of a program

The calls a program makes with the replies it gets, up to any of its steps.
-/

namespace DatumConnect.Lib.Prog

variable {C : Type} {R : C → Type} {α β ε : Type}

/-- The calls and replies, and what is returned if that is all of them.  Every reply is one that
there can be. -/
def Traces (genuine : (c : C) → R c → Prop) :
    Prog C R α → List (Σ c, R c) → Option α → Prop
  | .ret a, log, result => log = [] ∧ result = some a
  | .call c k, log, result =>
      log = [] ∧ result = none ∨
        ∃ reply rest, genuine c reply ∧ log = ⟨c, reply⟩ :: rest ∧ Traces genuine (k reply) rest result

namespace Traces

variable {genuine : (c : C) → R c → Prop} {log : List (Σ c, R c)}

theorem bind {p : Prog C R α} {f : α → Prog C R β} {result : Option β}
    (h : Traces genuine (p >>= f) log result) :
    Traces genuine p log none ∧ result = none ∨
      ∃ a before after, log = before ++ after ∧ Traces genuine p before (some a) ∧
        Traces genuine (f a) after result := by
  induction p generalizing log with
  | ret a => exact Or.inr ⟨a, [], log, rfl, ⟨rfl, rfl⟩, h⟩
  | call c k ih =>
    rcases h with ⟨hnil, hnone⟩ | ⟨reply, rest, hgenuine, hlog, hrest⟩
    · exact Or.inl ⟨Or.inl ⟨hnil, rfl⟩, hnone⟩
    · rcases ih reply hrest with ⟨hk, hnone⟩ | ⟨a, before, after, hsplit, hk, hf⟩
      · exact Or.inl ⟨Or.inr ⟨reply, rest, hgenuine, hlog, hk⟩, hnone⟩
      · refine Or.inr ⟨a, ⟨c, reply⟩ :: before, after, ?_, ?_, hf⟩
        · rw [hlog, hsplit]
          rfl
        · exact Or.inr ⟨reply, before, hgenuine, rfl, hk⟩

/-- One call, and then the rest. -/
theorem performThen {c : C} {f : R c → Prog C R β} {result : Option β}
    (h : Traces genuine (Prog.perform c >>= f) log result) :
    log = [] ∧ result = none ∨
      ∃ reply rest, genuine c reply ∧ log = ⟨c, reply⟩ :: rest ∧
        Traces genuine (f reply) rest result := h

/-- Only calls that a program can make are in its traces. -/
theorem of_only {K : C → Prop} {p : Prog C R α} (hp : Only K p) {result : Option α}
    (h : Traces genuine p log result) : ∀ event ∈ log, K event.1 := by
  induction p generalizing log with
  | ret a =>
    rw [h.1]
    exact fun event hmem => absurd hmem List.not_mem_nil
  | call c k ih =>
    rcases h with ⟨hnil, -⟩ | ⟨reply, rest, -, hlog, hrest⟩
    · rw [hnil]
      exact fun event hmem => absurd hmem List.not_mem_nil
    · intro event hmem
      rw [hlog] at hmem
      rcases List.mem_cons.mp hmem with rfl | hmem
      · exact hp.1
      · exact ih reply (hp.2 reply) hrest event hmem

/-- Fewer replies may be genuine, if those of the trace are. -/
theorem strengthen {genuine' : (c : C) → R c → Prop} {p : Prog C R α} {result : Option α}
    (h : Traces genuine p log result) (hall : ∀ event ∈ log, genuine' event.1 event.2) :
    Traces genuine' p log result := by
  induction p generalizing log with
  | ret a => exact h
  | call c k ih =>
    rcases h with hnone | ⟨reply, rest, -, hlog, hrest⟩
    · exact Or.inl hnone
    · rw [hlog] at hall
      exact Or.inr ⟨reply, rest, hall _ List.mem_cons_self, hlog,
        ih reply hrest fun event hmem => hall event (List.mem_cons_of_mem _ hmem)⟩

end Traces

/-- Where every reply is one that there can be, the program makes calls of one kind only, and `post`
holds of what it returns. -/
def OnlyWhen (genuine : (c : C) → R c → Prop) (K : C → Prop) (post : α → Prop) : Prog C R α → Prop
  | .ret a => post a
  | .call c k => K c ∧ ∀ reply, genuine c reply → OnlyWhen genuine K post (k reply)

namespace OnlyWhen

variable {genuine : (c : C) → R c → Prop} {K : C → Prop} {post post' : α → Prop}

theorem mono {p : Prog C R α} (h : OnlyWhen genuine K post p) (hpost : ∀ a, post a → post' a) :
    OnlyWhen genuine K post' p := by
  induction p with
  | ret a => exact hpost a h
  | call c k ih => exact ⟨h.1, fun reply hreply => ih reply (h.2 reply hreply)⟩

theorem bind {p : Prog C R α} {f : α → Prog C R β} {post : β → Prop}
    (h : OnlyWhen genuine K (fun a => OnlyWhen genuine K post (f a)) p) :
    OnlyWhen genuine K post (p >>= f) := by
  induction p with
  | ret a => exact h
  | call c k ih => exact ⟨h.1, fun reply hreply => ih reply (h.2 reply hreply)⟩

theorem of_only {p : Prog C R α} (h : Only K p) : OnlyWhen genuine K (fun _ => True) p := by
  induction p with
  | ret a => exact trivial
  | call c k ih => exact ⟨h.1, fun reply _ => ih reply (h.2 reply)⟩

/-- What holds of a program holds of its traces. -/
theorem traces {p : Prog C R α} (h : OnlyWhen genuine K post p) {log : List (Σ c, R c)}
    {result : Option α} (htrace : Traces genuine p log result) :
    (∀ event ∈ log, K event.1) ∧ ∀ a, result = some a → post a := by
  induction p generalizing log with
  | ret a =>
    obtain ⟨hlog, hresult⟩ := htrace
    refine ⟨fun event hmem => ?_, fun b hb => ?_⟩
    · rw [hlog] at hmem
      exact absurd hmem List.not_mem_nil
    · rw [hresult] at hb
      exact Option.some.inj hb ▸ h
  | call c k ih =>
    rcases htrace with ⟨hlog, hresult⟩ | ⟨reply, rest, hgenuine, hlog, hrest⟩
    · refine ⟨fun event hmem => ?_, fun b hb => ?_⟩
      · rw [hlog] at hmem
        exact absurd hmem List.not_mem_nil
      · rw [hresult] at hb
        cases hb
    · obtain ⟨hcalls, hpost⟩ := ih reply (h.2 reply hgenuine) hrest
      refine ⟨fun event hmem => ?_, hpost⟩
      rw [hlog] at hmem
      rcases List.mem_cons.mp hmem with rfl | hmem
      · exact h.1
      · exact hcalls event hmem

end OnlyWhen

/-- The same of a computation that can fail: `good` holds of what it returns, and `bad` of how it
fails. -/
def EndsWhen (genuine : (c : C) → R c → Prop) (K : C → Prop) (good : α → Prop) (bad : ε → Prop)
    (p : ExceptT ε (Prog C R) α) : Prop :=
  OnlyWhen genuine K
    (fun r => match r with
      | .ok a => good a
      | .error e => bad e)
    p.run

namespace EndsWhen

variable {genuine : (c : C) → R c → Prop} {K : C → Prop} {good good' : α → Prop} {bad bad' : ε → Prop}

theorem ret {a : α} (h : good a) :
    EndsWhen genuine K good bad (pure a : ExceptT ε (Prog C R) α) := h

theorem throw {e : ε} (h : bad e) :
    EndsWhen genuine K good bad (throwThe ε e : ExceptT ε (Prog C R) α) := h

theorem mono {p : ExceptT ε (Prog C R) α} (h : EndsWhen genuine K good bad p)
    (hgood : ∀ a, good a → good' a) (hbad : ∀ e, bad e → bad' e) : EndsWhen genuine K good' bad' p := by
  apply OnlyWhen.mono h
  intro r hr
  cases r with
  | ok a => exact hgood a hr
  | error e => exact hbad e hr

theorem weaken {p : ExceptT ε (Prog C R) α} (h : EndsWhen genuine K good bad p)
    (hgood : ∀ a, good a → good' a) : EndsWhen genuine K good' bad p :=
  h.mono hgood fun _ => id

theorem bind {p : ExceptT ε (Prog C R) α} {f : α → ExceptT ε (Prog C R) β} {good : β → Prop}
    (h : EndsWhen genuine K (fun a => EndsWhen genuine K good bad (f a)) bad p) :
    EndsWhen genuine K good bad (p >>= f) := by
  apply OnlyWhen.bind
  apply OnlyWhen.mono h
  intro r hr
  cases r with
  | ok a => exact hr
  | error e => exact hr

/-- One call, and then the rest. -/
theorem liftThen {c : C} {f : R c → ExceptT ε (Prog C R) β} {good : β → Prop} (hc : K c)
    (h : ∀ reply, genuine c reply → EndsWhen genuine K good bad (f reply)) :
    EndsWhen genuine K good bad (ExceptT.lift (Prog.perform c) >>= f) := ⟨hc, h⟩

/-- What comes out is looked at, a failure too. -/
theorem runThen {p : ExceptT ε (Prog C R) α} {f : Except ε α → Prog C R (Except ε β)}
    {good : β → Prop}
    (h : EndsWhen genuine K (fun a => EndsWhen genuine K good bad (ExceptT.mk (f (.ok a))))
      (fun e => EndsWhen genuine K good bad (ExceptT.mk (f (.error e)))) p) :
    EndsWhen genuine K good bad (ExceptT.mk (p.run >>= f)) := by
  apply OnlyWhen.bind
  apply OnlyWhen.mono h
  intro r hr
  cases r with
  | ok a => exact hr
  | error e => exact hr

theorem of_result {r : Except ε α} (hgood : ∀ a, r = .ok a → good a)
    (hbad : ∀ e, r = .error e → bad e) :
    EndsWhen genuine K good bad (ExceptT.mk (pure r) : ExceptT ε (Prog C R) α) := by
  cases r with
  | ok a => exact hgood a rfl
  | error e => exact hbad e rfl

/-- A computation whose failures say nothing. -/
theorem of_only {p : ExceptT ε (Prog C R) α} (h : Only K p.run) :
    EndsWhen genuine K (fun _ => True) (fun _ => True) p := by
  apply OnlyWhen.mono (OnlyWhen.of_only h)
  intro r _
  cases r with
  | ok a => exact trivial
  | error e => exact trivial

end EndsWhen

theorem Only.forM {K : C → Prop} {l : List β} {f : β → Prog C R PUnit}
    (hf : ∀ b ∈ l, Only K (f b)) : Only K (l.forM f) := by
  induction l with
  | nil => exact Only.ret _
  | cons b l ih =>
    exact (hf b List.mem_cons_self).bind fun _ =>
      ih fun b' hb' => hf b' (List.mem_cons_of_mem b hb')

end DatumConnect.Lib.Prog
