import DatumConnect.Lib.Text
/-!
# IP addresses

Addresses, and the texts `IpAddr::from_str` takes for one: the parser of
`core::net`, as functions from the characters that are left to what was read and
the characters after it.
-/

namespace DatumConnect.Lib

inductive IpAddr where
  | v4 (bits : BitVec 32)
  | v6 (bits : BitVec 128)
  deriving DecidableEq, Repr

namespace IpAddr

/-- `char::to_digit`. -/
def toDigit (radix : Nat) (c : Char) : Option Nat :=
  let value :=
    if '0' ≤ c ∧ c ≤ '9' then some (c.toNat - '0'.toNat)
    else if 'a' ≤ c ∧ c ≤ 'z' then some (c.toNat - 'a'.toNat + 10)
    else if 'A' ≤ c ∧ c ≤ 'Z' then some (c.toNat - 'A'.toNat + 10)
    else none
  value.filter (· < radix)

/-- A number of at most `maxDigits` digits, below `bound`. -/
def readNumber (radix maxDigits bound : Nat) (allowZeroPrefix : Bool) (s : List Char) :
    Option (Nat × List Char) :=
  let digits := s.takeWhile fun c => (toDigit radix c).isSome
  let value := digits.foldl (fun n c => radix * n + (toDigit radix c).getD 0) 0
  if digits = [] ∨ maxDigits < digits.length ∨ bound ≤ value then none
  else if !allowZeroPrefix ∧ s.head? = some '0' ∧ 1 < digits.length then none
  else some (value, s.drop digits.length)

def readGivenChar (c : Char) (s : List Char) : Option (List Char) :=
  if s.head? = some c then some s.tail else none

/-- A separator stands before every element but the first. -/
def readSeparator {α : Type} (sep : Char) (index : Nat)
    (inner : List Char → Option (α × List Char)) (s : List Char) : Option (α × List Char) :=
  if index = 0 then inner s else (readGivenChar sep s).bind inner

def readIpv4Octets : (left : Nat) → List Char → Option (List Nat × List Char)
  | 0, s => some ([], s)
  | left + 1, s => do
      let (octet, rest) ← readSeparator '.' (3 - left) (readNumber 10 3 256 false) s
      let (octets, rest) ← readIpv4Octets left rest
      return (octet :: octets, rest)

def readIpv4Addr (s : List Char) : Option (List Nat × List Char) := readIpv4Octets 4 s

/-- Groups of an IPv6 address from number `limit - left` on; `true` where they end
in an IPv4 address. -/
def readGroups (limit : Nat) : (left : Nat) → List Char → List Nat × Bool × List Char
  | 0, s => ([], false, s)
  | left + 1, s =>
      let i := limit - (left + 1)
      let ipv4 := if i < limit - 1 then readSeparator ':' i readIpv4Addr s else none
      match ipv4 with
      | some ([a, b, c, d], rest) => ([256 * a + b, 256 * c + d], true, rest)
      | _ =>
          match readSeparator ':' i (readNumber 16 4 65536 true) s with
          | some (group, rest) =>
              let (groups, ipv4, rest) := readGroups limit left rest
              (group :: groups, ipv4, rest)
          | none => ([], false, s)

def readIpv6Addr (s : List Char) : Option (List Nat × List Char) := do
  let (head, headIpv4, rest) := readGroups 8 8 s
  if head.length = 8 then return (head, rest)
  if headIpv4 then none
  let rest ← readGivenChar ':' rest
  let rest ← readGivenChar ':' rest
  let limit := 8 - (head.length + 1)
  let (tail, _, rest) := readGroups limit limit rest
  return (head ++ List.replicate (8 - head.length - tail.length) 0 ++ tail, rest)

/-- The bits of the groups, the first one highest. -/
def ofGroups (width size : Nat) (groups : List Nat) : BitVec width :=
  BitVec.ofNat width (groups.foldl (fun n g => 2 ^ size * n + g) 0)

/-- `IpAddr::from_str`. -/
def parse (s : List Char) : Option IpAddr :=
  match readIpv4Addr s with
  | some (octets, rest) => if rest = [] then some (.v4 (ofGroups 32 8 octets)) else none
  | none =>
      match readIpv6Addr s with
      | some (groups, []) => some (.v6 (ofGroups 128 16 groups))
      | _ => none

/-- `to_canonical`: an IPv4-mapped address is the IPv4 address. -/
def toCanonical : IpAddr → IpAddr
  | .v4 bits => .v4 bits
  | .v6 bits => if bits >>> 32 = 0xffff#128 then .v4 (bits.setWidth 32) else .v6 bits

example : parse "127.0.0.1".toList = some (.v4 0x7f000001#32) := by decide

example : parse "fd00::1:127.0.0.1".toList =
    some (.v6 0xfd0000000000000000000001_7f000001#128) := by decide

end IpAddr

end DatumConnect.Lib
