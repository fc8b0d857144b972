import DatumConnect.Lib.Prog
import DatumConnect.Lib.Runs
/-!
# Clients in one system

Any number of clients run programs against one shared state.  A step is one call
of one client: calls are atomic, what lies between them is not.  A client can be
dropped before any of its calls; what it held by then is given back.

Beside its program a client carries where the calls it has made have led it in a
protocol, and notes on the calls that everybody has made since it began.  If every
program keeps to the protocol, then in every run each call is one the protocol
allows where the client stands.
-/

namespace DatumConnect.Lib.Pool

open Prog (Protocol Follows)

variable {Op C : Type} {R : C → Type} {ρ S A G N : Type}

/-- What the clients do and share. -/
structure System (Op C : Type) (R : C → Type) (ρ S A G N : Type) where
  code : Op → Prog C R ρ
  handle : S → (c : C) → A → S × R c
  protocol : Protocol C R G
  start : Op → G
  fresh : N
  /-- What a client notes of a call: whether it was its own, the state before it,
  and how it was answered. -/
  notice : Bool → N → S → C → A → N
  /-- What becomes of the state when a client is dropped at a place. -/
  abandon : S → G → S

/-- A client, with what is left of its program unless it has been dropped. -/
structure Client (Op C : Type) (R : C → Type) (ρ G N : Type) where
  op : Op
  prog : Option (Prog C R ρ)
  place : G
  notes : N

structure World (Op C : Type) (R : C → Type) (ρ S G N : Type) where
  state : S
  clients : List (Client Op C R ρ G N) := []

inductive Act (Op A : Type) where
  | spawn (op : Op)
  | step (client : Nat) (answer : A)
  | drop (client : Nat)
  deriving DecidableEq, Repr

namespace Client

variable (sys : System Op C R ρ S A G N)

def new (op : Op) : Client Op C R ρ G N where
  op
  prog := some (sys.code op)
  place := sys.start op
  notes := sys.fresh

/-- The client has seen a call made. -/
def noticing (client : Client Op C R ρ G N) (mine : Bool) (s : S) (c : C) (answer : A) :
    Client Op C R ρ G N :=
  { client with notes := sys.notice mine client.notes s c answer }

/-- The client has made the call and got its reply. -/
def moved (client : Client Op C R ρ G N) (s : S) (c : C) (k : R c → Prog C R ρ) (answer : A) :
    Client Op C R ρ G N where
  op := client.op
  prog := some (k (sys.handle s c answer).2)
  place := sys.protocol.advance client.place c (sys.handle s c answer).2
  notes := sys.notice true client.notes s c answer

/-- The call the client is about to make. -/
def next (client : Client Op C R ρ G N) : Option C :=
  match client.prog with
  | some (.call c _) => some c
  | _ => none

/-- What the client has returned. -/
def result (client : Client Op C R ρ G N) : Option ρ :=
  match client.prog with
  | some (.ret a) => some a
  | _ => none

/-- The client is still running. -/
def running (client : Client Op C R ρ G N) : Bool := client.next.isSome

/-- The client stands where `q` holds, and has not been dropped. -/
def has (q : G → Bool) (client : Client Op C R ρ G N) : Bool :=
  client.prog.isSome && q client.place

theorem place_of_has {q : G → Bool} {client : Client Op C R ρ G N} (h : client.has q = true) :
    q client.place = true := by
  rw [has, Bool.and_eq_true] at h
  exact h.2

theorem has_of_prog {q : G → Bool} {client : Client Op C R ρ G N} {p : Prog C R ρ}
    (hprog : client.prog = some p) (h : q client.place = true) : client.has q = true := by
  rw [has, hprog, h]
  rfl

end Client

namespace World

variable (sys : System Op C R ρ S A G N) (w : World Op C R ρ S G N)

/-- Client `i` has made its call. -/
def called (i : Nat) (client : Client Op C R ρ G N) (c : C) (k : R c → Prog C R ρ) (answer : A) :
    World Op C R ρ S G N where
  state := (sys.handle w.state c answer).1
  clients := (w.clients.map fun other => other.noticing sys false w.state c answer).set i
    (client.moved sys w.state c k answer)

/-- Client `i` has been dropped. -/
def dropped (i : Nat) (client : Client Op C R ρ G N) : World Op C R ρ S G N where
  state := sys.abandon w.state client.place
  clients := w.clients.set i { client with prog := none }

def spawned (op : Op) : World Op C R ρ S G N :=
  { w with clients := w.clients ++ [Client.new sys op] }

end World

namespace System

variable (sys : System Op C R ρ S A G N)

def step (w : World Op C R ρ S G N) : Act Op A → Option (World Op C R ρ S G N)
  | .spawn op => some (w.spawned sys op)
  | .step i answer =>
      match w.clients[i]? with
      | some client =>
          match client.prog with
          | some (.call c k) => some (w.called sys i client c k answer)
          | _ => none
      | none => none
  | .drop i =>
      match w.clients[i]? with
      | some client =>
          match client.prog with
          | some (.call _ _) => some (w.dropped sys i client)
          | _ => none
      | none => none

/-- The steps that are let happen: those for which the clients do not have to wait. -/
def stepWhen (ready : World Op C R ρ S G N → Act Op A → Bool) (w : World Op C R ρ S G N)
    (act : Act Op A) : Option (World Op C R ρ S G N) :=
  if ready w act then sys.step w act else none

/-- A condition on the calls as they are made. -/
def OnCall (cond : S → Client Op C R ρ G N → C → A → Prop) (w : World Op C R ρ S G N) :
    Act Op A → Prop
  | .step i answer => ∀ client ∈ w.clients[i]?, ∀ c ∈ client.next, cond w.state client c answer
  | _ => True

instance (cond : S → Client Op C R ρ G N → C → A → Prop)
    [∀ s client c answer, Decidable (cond s client c answer)] (w : World Op C R ρ S G N)
    (act : Act Op A) : Decidable (OnCall cond w act) := by
  unfold OnCall
  split <;> infer_instance

variable {sys} {w w' : World Op C R ρ S G N}

/-! ## What a step is -/

theorem of_stepWhen {ready : World Op C R ρ S G N → Act Op A → Bool} {w w' : World Op C R ρ S G N}
    {act : Act Op A} (h : sys.stepWhen ready w act = some w') :
    ready w act = true ∧ sys.step w act = some w' := by
  unfold stepWhen at h
  split at h
  · rename_i hready
    exact ⟨hready, h⟩
  · cases h

theorem prog_of_next {client : Client Op C R ρ G N} {c : C} (h : client.next = some c) :
    ∃ k, client.prog = some (.call c k) := by
  unfold Client.next at h
  split at h
  · rename_i c' k hprog
    cases h
    exact ⟨k, hprog⟩
  · cases h

theorem step_spawn {op : Op} (h : sys.step w (.spawn op) = some w') :
    w' = w.spawned sys op := by
  simpa [step] using h.symm

theorem step_call {i : Nat} {answer : A} (h : sys.step w (.step i answer) = some w') :
    ∃ client c k, w.clients[i]? = some client ∧ client.prog = some (.call c k) ∧
      w' = w.called sys i client c k answer := by
  simp only [step] at h
  split at h
  · rename_i client hclient
    split at h
    · rename_i c k hprog
      exact ⟨client, c, k, hclient, hprog, (Option.some.inj h).symm⟩
    · cases h
  · cases h

theorem step_drop {i : Nat} (h : sys.step w (.drop i) = some w') :
    ∃ client c k, w.clients[i]? = some client ∧ client.prog = some (.call c k) ∧
      w' = w.dropped sys i client := by
  simp only [step] at h
  split at h
  · rename_i client hclient
    split at h
    · rename_i c k hprog
      exact ⟨client, c, k, hclient, hprog, (Option.some.inj h).symm⟩
    · cases h
  · cases h

/-- The clients after a call. -/
theorem client_of_call {i j : Nat} {c : C} {k : R c → Prog C R ρ} {answer : A}
    {client cl : Client Op C R ρ G N}
    (h : (w.called sys i client c k answer).clients[j]? = some cl) :
    j = i ∧ cl = client.moved sys w.state c k answer ∨
      j ≠ i ∧ ∃ other, w.clients[j]? = some other ∧
        cl = other.noticing sys false w.state c answer := by
  rw [World.called, List.getElem?_set] at h
  split at h
  · rename_i hij
    split at h
    · exact .inl ⟨hij.symm, (Option.some.inj h).symm⟩
    · cases h
  · rename_i hij
    rw [List.getElem?_map, Option.map_eq_some_iff] at h
    obtain ⟨other, hother, rfl⟩ := h
    exact .inr ⟨fun hji => hij hji.symm, other, hother, rfl⟩

theorem called_self {i : Nat} {c : C} {k : R c → Prog C R ρ} {answer : A}
    {client : Client Op C R ρ G N} (hclient : w.clients[i]? = some client) :
    (w.called sys i client c k answer).clients[i]? =
      some (client.moved sys w.state c k answer) := by
  have hlt := (List.getElem?_eq_some_iff.mp hclient).1
  rw [World.called, List.getElem?_set_self (by rwa [List.length_map])]

theorem called_other {i j : Nat} {c : C} {k : R c → Prog C R ρ} {answer : A}
    {client other : Client Op C R ρ G N} (hother : w.clients[j]? = some other) (hne : j ≠ i) :
    (w.called sys i client c k answer).clients[j]? =
      some (other.noticing sys false w.state c answer) := by
  rw [World.called, List.getElem?_set_ne hne.symm, List.getElem?_map, hother]
  rfl

/-- The clients after a drop. -/
theorem client_of_drop {i j : Nat} {client cl : Client Op C R ρ G N}
    (h : (w.dropped sys i client).clients[j]? = some cl) :
    j = i ∧ cl = { client with prog := none } ∨ j ≠ i ∧ w.clients[j]? = some cl := by
  rw [World.dropped, List.getElem?_set] at h
  split at h
  · rename_i hij
    split at h
    · exact .inl ⟨hij.symm, (Option.some.inj h).symm⟩
    · cases h
  · rename_i hij
    exact .inr ⟨fun hji => hij hji.symm, h⟩

/-- The clients after a spawn. -/
theorem client_of_spawn {j : Nat} {op : Op} {cl : Client Op C R ρ G N}
    (h : (w.spawned sys op).clients[j]? = some cl) :
    w.clients[j]? = some cl ∨ j = w.clients.length ∧ cl = Client.new sys op := by
  rw [World.spawned] at h
  rcases Nat.lt_or_ge j w.clients.length with hj | hj
  · rw [List.getElem?_append_left hj] at h
    exact .inl h
  · rw [List.getElem?_append_right hj, List.getElem?_singleton] at h
    split at h
    · refine .inr ⟨by omega, (Option.some.inj h).symm⟩
    · cases h

/-- At most one client stands where `q` holds. -/
def Exclusive (q : G → Bool) (w : World Op C R ρ S G N) : Prop :=
  ∀ (i j : Nat) (cl cl' : Client Op C R ρ G N), w.clients[i]? = some cl →
    w.clients[j]? = some cl' → cl.has q = true → cl'.has q = true → i = j

namespace Exclusive

variable {q : G → Bool}

theorem called (h : Exclusive q w) {i : Nat} {client : Client Op C R ρ G N} {c : C}
    {k : R c → Prog C R ρ} {answer : A} (hclient : w.clients[i]? = some client)
    (hnew : (client.moved sys w.state c k answer).has q = true →
      client.has q = true ∨ ∀ cl ∈ w.clients, cl.has q = false) :
    Exclusive q (w.called sys i client c k answer) := by
  intro a b cl cl' ha hb hq hq'
  rcases client_of_call ha with ⟨rfl, rfl⟩ | ⟨hne, other, hother, rfl⟩
  · rcases client_of_call hb with ⟨rfl, rfl⟩ | ⟨hne', other', hother', rfl⟩
    · rfl
    · rcases hnew hq with hold | hnone
      · exact h a b client other' hclient hother' hold hq'
      · have hfalse := hnone other' (List.mem_of_getElem? hother')
        rw [show other'.has q = true from hq'] at hfalse
        cases hfalse
  · rcases client_of_call hb with ⟨rfl, rfl⟩ | ⟨hne', other', hother', rfl⟩
    · rcases hnew hq' with hold | hnone
      · exact h a b other client hother hclient hq hold
      · have hfalse := hnone other (List.mem_of_getElem? hother)
        rw [show other.has q = true from hq] at hfalse
        cases hfalse
    · exact h a b other other' hother hother' hq hq'

theorem dropped (h : Exclusive q w) {i : Nat} {client : Client Op C R ρ G N} :
    Exclusive q (w.dropped sys i client) := by
  intro a b cl cl' ha hb hq hq'
  rcases client_of_drop ha with ⟨_, rfl⟩ | ⟨_, hold⟩
  · cases hq
  · rcases client_of_drop hb with ⟨_, rfl⟩ | ⟨_, hold'⟩
    · cases hq'
    · exact h a b cl cl' hold hold' hq hq'

theorem spawned (h : Exclusive q w) {op : Op} (hstart : q (sys.start op) = false) :
    Exclusive q (w.spawned sys op) := by
  have hnew : (Client.new sys op).has q = false := by
    rw [Client.has, Client.new, hstart]
    rfl
  intro a b cl cl' ha hb hq hq'
  rcases client_of_spawn ha with hold | ⟨_, rfl⟩
  · rcases client_of_spawn hb with hold' | ⟨_, rfl⟩
    · exact h a b cl cl' hold hold' hq hq'
    · rw [hnew] at hq'
      cases hq'
  · rw [hnew] at hq
    cases hq

/-- The client that has it is the only one. -/
theorem others (h : Exclusive q w) {i j : Nat} {cl cl' : Client Op C R ρ G N}
    (hcl : w.clients[i]? = some cl) (hcl' : w.clients[j]? = some cl') (hq : cl.has q = true)
    (hne : j ≠ i) : cl'.has q = false := by
  cases hq' : cl'.has q with
  | false => rfl
  | true => exact absurd (h i j cl cl' hcl hcl' hq hq').symm hne

end Exclusive

/-! ## Clients that keep to a protocol -/

/-- What is left of every client's program keeps to the protocol from where the
client stands. -/
def Faithful (sys : System Op C R ρ S A G N) (post : Op → G → ρ → Prop)
    (w : World Op C R ρ S G N) : Prop :=
  ∀ (i : Nat) (cl : Client Op C R ρ G N) (p : Prog C R ρ), w.clients[i]? = some cl →
    cl.prog = some p → Follows sys.protocol (post cl.op) p cl.place

variable {post : Op → G → ρ → Prop}

theorem Faithful.step (hcode : ∀ op, Follows sys.protocol (post op) (sys.code op) (sys.start op))
    (hw : Faithful sys post w) {act : Act Op A} (h : sys.step w act = some w') :
    Faithful sys post w' := by
  intro j cl p hcl hp
  cases act with
  | spawn op =>
      rw [step_spawn h] at hcl
      rcases client_of_spawn hcl with hold | ⟨_, rfl⟩
      · exact hw j cl p hold hp
      · cases hp
        exact hcode op
  | step i answer =>
      obtain ⟨client, c, k, hclient, hprog, rfl⟩ := step_call h
      rcases client_of_call hcl with ⟨_, rfl⟩ | ⟨_, other, hother, rfl⟩
      · cases hp
        exact (hw i client _ hclient hprog).2 _
      · exact hw j other p hother hp
  | drop i =>
      obtain ⟨client, c, k, hclient, hprog, rfl⟩ := step_drop h
      rcases client_of_drop hcl with ⟨_, rfl⟩ | ⟨_, hold⟩
      · cases hp
      · exact hw j cl p hold hp

/-- A call is one the protocol allows. -/
theorem Faithful.allowed (hw : Faithful sys post w) {i : Nat} {client : Client Op C R ρ G N}
    {c : C} {k : R c → Prog C R ρ} (hclient : w.clients[i]? = some client)
    (hprog : client.prog = some (.call c k)) : sys.protocol.allowed client.place c :=
  (hw i client _ hclient hprog).1

/-- A client that has returned stands where the protocol lets it end. -/
theorem Faithful.ended (hw : Faithful sys post w) {i : Nat} {client : Client Op C R ρ G N}
    {a : ρ} (hclient : w.clients[i]? = some client) (hresult : client.result = some a) :
    post client.op client.place a := by
  unfold Client.result at hresult
  split at hresult
  · rename_i a' hprog
    cases hresult
    exact hw i client _ hclient hprog
  · cases hresult

end System

end DatumConnect.Lib.Pool
