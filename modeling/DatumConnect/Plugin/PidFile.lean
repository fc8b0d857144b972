import DatumConnect.Lib.Text
import Mathlib.Algebra.Group.Int.Defs
/-!
# Pid files

A pid file names the supervisor's process and the one of the Rust binary, when they were started
and the binary, each on a line of its own.
-/

namespace DatumConnect.Plugin.Commands

open DatumConnect.Lib

structure PidFile where
  goPid : Int
  rustPid : Int
  startTime : Nat
  binaryPath : List Char
  deriving DecidableEq, Repr

namespace PidFile

def newline : Char := Char.ofNat 10

def splitLines : List Char → List (List Char)
  | [] => []
  | c :: cs =>
      if c = newline then [] :: splitLines cs
      else
        match splitLines cs with
        | [] => [[c]]
        | line :: lines => (c :: line) :: lines

/-- The sign of a number, and the rest. -/
def sign : List Char → Bool × List Char
  | '-' :: cs => (true, cs)
  | '+' :: cs => (false, cs)
  | cs => (false, cs)

/-- `Sscanf` with `%d`, into an `int`; what follows the number is not looked at. -/
def scanInt (line : List Char) : Option Int :=
  let (negative, rest) := sign (line.dropWhile Text.isWhitespace)
  let digits := rest.takeWhile Char.isDigit
  let n : Int := if negative then -Nat.ofDigitChars 10 digits 0 else Nat.ofDigitChars 10 digits 0
  if digits = [] then none else if -2 ^ 63 ≤ n ∧ n < 2 ^ 63 then some n else none

section

variable (parseTime : List Char → Option Nat)

def parse (data : List Char) : Option PidFile :=
  match splitLines data with
  | goPid :: rustPid :: startTime :: binaryPath :: _ =>
      match scanInt goPid, scanInt rustPid, parseTime startTime with
      | some goPid, some rustPid, some startTime =>
          some { goPid, rustPid, startTime, binaryPath }
      | _, _, _ => none
  | _ => none

end

/-- What `Write` puts into the file. -/
def render (goPid rustPid : Nat) (startTime binaryPath : List Char) : List Char :=
  Nat.toDigits 10 goPid ++ newline :: (Nat.toDigits 10 rustPid ++ newline ::
    (startTime ++ newline :: (binaryPath ++ [newline])))

/-! ## What is written is read -/

theorem splitLines_append {line rest : List Char} (h : newline ∉ line) :
    splitLines (line ++ newline :: rest) = line :: splitLines rest := by
  induction line with
  | nil => exact if_pos rfl
  | cons c cs ih =>
      rw [List.mem_cons, not_or] at h
      have hrest := ih h.2
      have hc : c ≠ newline := fun hc => h.1 hc.symm
      calc
        splitLines (c :: (cs ++ newline :: rest)) =
            match splitLines (cs ++ newline :: rest) with
            | [] => [[c]]
            | line :: lines => (c :: line) :: lines := if_neg hc
        _ = (c :: cs) :: splitLines rest := by rw [hrest]

theorem newline_not_mem_toDigits (n : Nat) : newline ∉ Nat.toDigits 10 n := by
  intro hmem
  have hdigit := Nat.isDigit_of_mem_toDigits (by decide) (by decide) hmem
  revert hdigit
  decide

theorem sign_toDigits (n : Nat) : sign (Nat.toDigits 10 n) = (false, Nat.toDigits 10 n) := by
  cases hdigits : Nat.toDigits 10 n with
  | nil => rfl
  | cons c cs =>
      have hdigit : c.isDigit = true := by
        apply Nat.isDigit_of_mem_toDigits (b := 10) (n := n) (by decide) (by decide)
        rw [hdigits]
        exact List.mem_cons_self
      unfold sign
      split
      · rename_i heq
        cases heq
        cases hdigit
      · rename_i heq
        cases heq
        cases hdigit
      · rfl

theorem scanInt_toDigits {n : Nat} (h : n < 2 ^ 63) :
    scanInt (Nat.toDigits 10 n) = some (n : Int) := by
  have hall : ∀ c ∈ Nat.toDigits 10 n, c.isDigit = true := fun c hc =>
    Nat.isDigit_of_mem_toDigits (by decide) (by decide) hc
  have hspaces : (Nat.toDigits 10 n).dropWhile Text.isWhitespace = Nat.toDigits 10 n := by
    cases hdigits : Nat.toDigits 10 n with
    | nil => rfl
    | cons c cs =>
        apply List.dropWhile_cons_of_neg
        rw [Text.digit_not_whitespace (hall c (by rw [hdigits]; exact List.mem_cons_self))]
        exact Bool.false_ne_true
  have hdigits : (Nat.toDigits 10 n).takeWhile Char.isDigit = Nat.toDigits 10 n :=
    List.takeWhile_eq_self_iff.mpr hall
  unfold scanInt
  rw [hspaces, sign_toDigits]
  simp only [hdigits, Nat.ofDigitChars_ten_toDigits, Bool.false_eq_true, if_false]
  rw [if_neg Nat.toDigits_ne_nil, if_pos (by omega)]

/-- The numbers in a file that was written, whatever the path is. -/
theorem parse_render {parseTime : List Char → Option Nat} {goPid rustPid : Nat}
    {startTime binaryPath : List Char} (hgo : goPid < 2 ^ 63) (hrust : rustPid < 2 ^ 63)
    (hline : newline ∉ startTime) {t : Nat} (htime : parseTime startTime = some t) :
    ∃ path, parse parseTime (render goPid rustPid startTime binaryPath) =
      some { goPid, rustPid, startTime := t, binaryPath := path } := by
  have hlast : ∃ path rest, splitLines (binaryPath ++ [newline]) = path :: rest := by
    cases hlines : splitLines (binaryPath ++ [newline]) with
    | nil =>
        exfalso
        cases binaryPath with
        | nil => cases hlines
        | cons c cs =>
            change (if _ then _ else _) = _ at hlines
            split at hlines
            · cases hlines
            · split at hlines <;> cases hlines
    | cons path rest => exact ⟨path, rest, rfl⟩
  obtain ⟨path, rest, hpath⟩ := hlast
  refine ⟨path, ?_⟩
  unfold parse render
  rw [splitLines_append (newline_not_mem_toDigits goPid),
    splitLines_append (newline_not_mem_toDigits rustPid), splitLines_append hline, hpath]
  simp only [scanInt_toDigits hgo, scanInt_toDigits hrust, htime]

/-- The number of the Rust process is read as it was written, whatever else is in the file. -/
theorem rustPid_of_parse_render {parseTime : List Char → Option Nat} {goPid rustPid : Nat}
    {startTime binaryPath : List Char} {pf : PidFile} (hrust : rustPid < 2 ^ 63)
    (h : parse parseTime (render goPid rustPid startTime binaryPath) = some pf) :
    pf.rustPid = rustPid := by
  unfold parse render at h
  rw [splitLines_append (newline_not_mem_toDigits goPid),
    splitLines_append (newline_not_mem_toDigits rustPid)] at h
  split at h
  · rename_i heq
    rw [List.cons.injEq, List.cons.injEq] at heq
    obtain ⟨rfl, rfl, -⟩ := heq
    rw [scanInt_toDigits hrust] at h
    split at h
    · rename_i hscan _
      cases h
      exact (Option.some.inj hscan).symm
    · cases h
  · cases h

/-- A number with a sign, and one with something after it. -/
example : scanInt "-42".toList = some (-42) ∧ scanInt " 17 days".toList = some 17 := by decide

end PidFile

/-! ## The status of a tunnel -/

inductive Status where
  | running
  | degraded
  | zombie
  deriving DecidableEq, Repr

/-- `computeTunnelStatus`, of whether the supervisor's process and the Rust one are alive. -/
def computeTunnelStatus : (goAlive rustAlive : Bool) → Status
  | false, false => .zombie
  | true, true => .running
  | true, false => .degraded
  | false, true => .zombie

end DatumConnect.Plugin.Commands
