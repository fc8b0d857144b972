import DatumConnect.Lib.IpRead
/-!
# Networks

`ipaddress.ip_network` of Python, which refuses a network with host bits, on lists of characters.
-/

namespace DatumConnect.Lib.IpNetwork

open DatumConnect.Lib.IpAddr

/-! ## Addresses -/

/-- `_BaseV4._parse_octet`. -/
def parseOctet (s : List Char) : Option Nat :=
  if s = [] then none
  else if ¬ ∀ c ∈ s, IsDigit 10 c then none
  else if 3 < s.length then none
  else if s ≠ ['0'] ∧ s.head? = some '0' then none
  else if 255 < digitsValue 10 s then none
  else some (digitsValue 10 s)

/-- The bytes that `_BaseV4._ip_int_from_string` makes its number of. -/
def octets (s : List Char) : Option (List Nat) :=
  let parts := s.splitOn '.'
  if parts.length ≠ 4 then none else parts.mapM parseOctet

def fromBytes (bytes : List Nat) : Nat := bytes.foldl (fun n b => 256 * n + b) 0

/-- `_BaseV6._parse_hextet`. -/
def parseHextet (s : List Char) : Option Nat :=
  if ¬ ∀ c ∈ s, IsDigit 16 c then none
  else if 4 < s.length then none
  else if s = [] then none
  else some (digitsValue 16 s)

/-- An IPv4 address at the end is written as two hextets. -/
def withHextets (parts : List (List Char)) : Option (List (List Char)) :=
  match parts.getLast? with
  | none => some parts
  | some last =>
      if '.' ∈ last then do
        let ipv4 := fromBytes (← octets last)
        return parts.dropLast ++ [Nat.toDigits 16 ((ipv4 >>> 16) % 65536),
          Nat.toDigits 16 (ipv4 % 65536)]
      else some parts

/-- The hextets before and behind those that are left out; a colon at an end is part of "::". -/
def hextetsAround (hi lo : List (List Char)) : Option (List Nat) :=
  if hi.head? = some [] ∧ 1 < hi.length ∨ lo.getLast? = some [] ∧ 1 < lo.length then none
  else
    let hi := if hi.head? = some [] then [] else hi
    let lo := if lo.getLast? = some [] then [] else lo
    if 7 < hi.length + lo.length then none
    else do
      let high ← hi.mapM parseHextet
      let low ← lo.mapM parseHextet
      return high ++ List.replicate (8 - hi.length - lo.length) 0 ++ low

/-- The hextets of the parts, with zeros where the parts leave some out. -/
def hextetsOf (parts : List (List Char)) : Option (List Nat) :=
  let interior := parts.tail.dropLast
  if 9 < parts.length then none
  else
    match interior.countP (· = []) with
    | 0 =>
        if parts.length ≠ 8 ∨ parts.head? = some [] ∨ parts.getLast? = some [] then none
        else parts.mapM parseHextet
    | 1 =>
        let skipIndex := interior.findIdx (· = []) + 1
        hextetsAround (parts.take skipIndex) (parts.drop (skipIndex + 1))
    | _ => none

/-- The hextets that `_BaseV6._ip_int_from_string` makes its number of. -/
def hextets (s : List Char) : Option (List Nat) :=
  let parts := s.splitOn ':'
  if parts.length < 3 then none else (withHextets parts).bind hextetsOf

/-- `IPv6Address`; the scope of an address says nothing of its number. -/
def ipv6Address (s : List Char) : Option (BitVec 128) :=
  match Text.splitOnce '%' s with
  | none => (hextets s).map (ofGroups 128 16)
  | some (addr, scopeId) =>
      if scopeId = [] ∨ '%' ∈ scopeId then none else (hextets addr).map (ofGroups 128 16)

/-- `IPv4Address`. -/
def ipv4Address (s : List Char) : Option (BitVec 32) := (octets s).map (ofGroups 32 8)

/-! ## Masks -/

/-- `_ip_int_from_prefix`. -/
def netmask (width prefixlen : Nat) : BitVec width :=
  BitVec.allOnes width ^^^ (BitVec.allOnes width >>> prefixlen)

/-- `_prefix_from_prefix_string`; `int` takes no more than 4300 digits. -/
def prefixFromString (max : Nat) (s : List Char) : Option Nat :=
  if s ≠ [] ∧ (∀ c ∈ s, IsDigit 10 c) ∧ s.length ≤ 4300 ∧ digitsValue 10 s ≤ max then
    some (digitsValue 10 s)
  else none

/-- `_prefix_from_ip_int`. -/
def prefixFromMask (mask : BitVec 32) : Option Nat :=
  (List.range 33).find? fun prefixlen => netmask 32 prefixlen = mask

/-- `_prefix_from_ip_string`: a netmask, or else a hostmask. -/
def prefixFromIp (s : List Char) : Option Nat := do
  let mask ← ipv4Address s
  prefixFromMask mask <|> prefixFromMask (~~~mask)

/-! ## Networks -/

/-- `IPv4Network`, before it looks for host bits. -/
def ipv4Network (addr : List Char) (mask : Option (List Char)) : Option (BitVec 32 × Nat) := do
  let address ← ipv4Address addr
  match mask with
  | none => return (address, 32)
  | some mask => return (address, ← prefixFromString 32 mask <|> prefixFromIp mask)

/-- `IPv6Network`, before it looks for host bits. -/
def ipv6Network (addr : List Char) (mask : Option (List Char)) : Option (BitVec 128 × Nat) := do
  let address ← ipv6Address addr
  match mask with
  | none => return (address, 128)
  | some mask => return (address, ← prefixFromString 128 mask)

/-- A network of either kind; one with host bits is an error that ends the matter. -/
def network (addr : List Char) (mask : Option (List Char)) : Option (IpAddr × Nat) :=
  match ipv4Network addr mask with
  | some (address, prefixlen) =>
      if address &&& netmask 32 prefixlen = address then some (.v4 address, prefixlen) else none
  | none =>
      match ipv6Network addr mask with
      | some (address, prefixlen) =>
          if address &&& netmask 128 prefixlen = address then some (.v6 address, prefixlen)
          else none
      | none => none

/-- `ip_network`, of a text. -/
def ipNetwork (s : String) : Option (IpAddr × Nat) :=
  match s.toList.splitOn '/' with
  | [addr] => network addr none
  | [addr, mask] => network addr (some mask)
  | _ => none

/-- `__contains__`. -/
def contains (address : IpAddr) (prefixlen : Nat) (ip : IpAddr) : Bool :=
  match address, ip with
  | .v4 n, .v4 i => i &&& netmask 32 prefixlen = n
  | .v6 n, .v6 i => i &&& netmask 128 prefixlen = n
  | _, _ => false

end DatumConnect.Lib.IpNetwork
