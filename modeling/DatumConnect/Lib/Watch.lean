import Mathlib.Data.Option.Basic
/-!
# Watch channels

A channel that keeps the value sent last.  A receiver knows which version of it it has seen, and
waits for another one.
-/

namespace DatumConnect.Lib

structure Watch (α : Type) where
  value : α
  version : Nat := 0
  /-- The sender has not been dropped. -/
  alive : Bool := true
  deriving DecidableEq, Repr

namespace Watch

variable {α : Type} (w : Watch α)

/-- What a receiver that waits for a change comes to. -/
inductive Changed where
  | waits
  | changed
  | closed
  deriving DecidableEq, Repr

def changed (seen : Nat) : Changed :=
  if seen ≠ w.version then .changed else if w.alive then .waits else .closed

/-- A value sent while there are no receivers is lost. -/
def send (received : Bool) (a : α) : Watch α :=
  if received then { w with value := a, version := w.version + 1 } else w

variable {w}

@[simp] theorem alive_send {received : Bool} {a : α} : (w.send received a).alive = w.alive := by
  unfold send
  split <;> rfl

theorem version_le_send {received : Bool} {a : α} : w.version ≤ (w.send received a).version := by
  unfold send
  split
  · exact Nat.le_succ _
  · exact Nat.le_refl _

theorem ne_closed (halive : w.alive = true) {seen : Nat} : w.changed seen ≠ .closed := by
  unfold changed
  rw [if_pos halive]
  split <;> exact Changed.noConfusion

end Watch

end DatumConnect.Lib
