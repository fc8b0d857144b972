import DatumConnect.Lib.Lawful
import DatumConnect.Pairing.Calls
/-!
# Pairing in time

The calls of pairing with the times at which they are made and answered.  Time passes while
something is waited for, and a sleep lasts at least as long as it is to.
-/

namespace DatumConnect.Pairing

open DatumConnect.Lib

/-- How a call is answered, and how long that takes. -/
structure Timed where
  took : Nat
  reply : (c : PairCall) → c.Reply

/-- The answers where nothing is there, and nothing is known. -/
def quietReply : (c : PairCall) → c.Reply
  | .deviceAuthorization | .userinfo _ => .unexpected
  | .pollToken _ => .unread
  | .api _ _ => .failed ""
  | .project => .ok none
  | .readSession => .missing
  | .readPending => none
  | .writeSession _ | .writePending _ | .writeKey _ | .removePending => .ok ()
  | .removeSession | .event _ | .sleep _ => ()
  | .keyOutExists => false
  | .now => (0 : Nat)
  | .utcNow => (0 : Int)
  | .keyExpiry | .randomSuffix _ => ""

/-- A call that has been answered. -/
structure Dated where
  call : PairCall
  reply : call.Reply
  began : Nat
  ended : Nat

structure Timeline where
  clock : Nat
  log : List Dated := []

namespace Timeline

variable (s : Timeline)

/-- When a call that is made now has been answered. -/
def ended (answer : Timed) : PairCall → Nat
  | .sleep duration => s.clock + duration + answer.took
  | c => if c.awaits then s.clock + answer.took else s.clock

def reply (answer : Timed) : (c : PairCall) → c.Reply
  | .now => s.clock
  | c => answer.reply c

def handle (c : PairCall) (answer : Timed) : Timeline × c.Reply :=
  ({ clock := s.ended answer c
     log := s.log ++ [⟨c, s.reply answer c, s.clock, s.ended answer c⟩] }, s.reply answer c)

/-- What the first answers make of a part of pairing. -/
def run {α : Type} (p : PairPart α) (answers : Nat → Timed) (n : Nat) :
    Timeline × Option (Except PairingError α) :=
  Prog.exec handle s ((List.range n).map answers) p.run

theorem clock_le_ended (answer : Timed) (c : PairCall) : s.clock ≤ s.ended answer c := by
  cases c with
  | sleep duration =>
      change s.clock ≤ s.clock + duration + answer.took
      omega
  | deviceAuthorization | pollToken _ | userinfo _ | api _ _ | project => exact Nat.le_add_right _ _
  | keyOutExists | readSession | writeSession _ | removeSession | readPending | writePending _
  | removePending | writeKey _ | event _ | now | utcNow | keyExpiry | randomSuffix _ =>
      exact Nat.le_refl _

theorem clock_le_handle (c : PairCall) (answer : Timed) : s.clock ≤ (s.handle c answer).1.clock :=
  s.clock_le_ended answer c

/-- A part that has not come to its end makes one call more. -/
theorem run_more {α : Type} {p : PairPart α} {answers : Nat → Timed} {n : Nat}
    (h : (s.run p answers n).2 = none) :
    ∃ m, (s.run p answers (n + 1)).1.log = (s.run p answers n).1.log ++ [m] := by
  obtain ⟨c, hc⟩ := Prog.exec_more handle h (answers n)
  rw [run, List.range_succ, List.map_append, List.map_cons, List.map_nil, hc]
  exact ⟨_, rfl⟩

end Timeline

/-- A part of pairing whose calls keep a log lawful, and what it comes to. -/
def Timely {α : Type} (may : List Dated → Dated → Prop)
    (post : Timeline → Except PairingError α → Prop) (p : PairPart α) (s : Timeline) : Prop :=
  Prog.Safe Timeline.handle (fun s => Lawful may s.log) post p.run s

namespace Timely

variable {α β : Type} {may : List Dated → Dated → Prop} {s : Timeline}

theorem bind {p : PairPart α} {f : α → PairPart β} {post : Timeline → Except PairingError β → Prop}
    (h : Timely may (fun s r => match r with
      | .ok a => Timely may post (f a) s
      | .error e => post s (.error e)) p s) : Timely may post (p >>= f) s := by
  refine Prog.Safe.bind (Prog.Safe.mono h fun s r hlog hr => ?_)
  cases r with
  | ok a => exact hr
  | error e => exact ⟨hlog, hr⟩

theorem mono {p : PairPart α} {post post' : Timeline → Except PairingError α → Prop}
    (h : Timely may post p s) (hpost : ∀ s r, Lawful may s.log → post s r → post' s r) :
    Timely may post' p s :=
  Prog.Safe.mono h hpost

/-- A call that may be made, and what comes after it. -/
theorem ask {c : PairCall} {f : c.Reply → PairPart β}
    {post : Timeline → Except PairingError β → Prop} (hlog : Lawful may s.log)
    (hmay : ∀ answer, may s.log ⟨c, s.reply answer c, s.clock, s.ended answer c⟩)
    (h : ∀ answer, Lawful may (s.handle c answer).1.log →
      Timely may post (f (s.reply answer c)) (s.handle c answer).1) :
    Timely may post (PairPart.ask c >>= f) s :=
  ⟨hlog, fun answer => h answer (hlog.snoc (hmay answer))⟩

theorem ret {a : α} {post : Timeline → Except PairingError α → Prop} (hlog : Lawful may s.log)
    (hpost : post s (.ok a)) : Timely may post (pure a) s := ⟨hlog, hpost⟩

theorem throw {e : PairingError} {post : Timeline → Except PairingError α → Prop}
    (hlog : Lawful may s.log) (hpost : post s (.error e)) :
    Timely may post (throwThe PairingError e) s := ⟨hlog, hpost⟩

theorem run {p : PairPart α} {post : Timeline → Except PairingError α → Prop}
    (h : Timely may post p s) (answers : Nat → Timed) (n : Nat) :
    Lawful may (s.run p answers n).1.log ∧
      ∀ r, (s.run p answers n).2 = some r → post (s.run p answers n).1 r :=
  Prog.Safe.exec h _

end Timely

end DatumConnect.Pairing
