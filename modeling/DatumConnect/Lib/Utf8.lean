import Mathlib.Data.List.Basic
import Mathlib.Algebra.Group.Nat.Defs
/-!
# Text as bytes

The bytes of a text, and the text that `String::from_utf8_lossy` makes of any bytes: where they are
no UTF-8, each longest start of a character that goes wrong becomes U+FFFD.
-/

namespace DatumConnect.Lib.Utf8

def bytes (s : String) : List UInt8 := s.toByteArray.data.toList

/-- A byte that goes on with a character. -/
def continues (b : Option UInt8) : Bool := b.any fun b => b &&& 0xc0 = 0x80

/-- A byte that may be the second of a character of three or four. -/
def second (first : UInt8) (b : Option UInt8) : Bool :=
  let within (low high : UInt8) : Bool := b.any fun b => low ≤ b ∧ b ≤ high
  if first = 0xe0 then within 0xa0 0xbf
  else if first = 0xed then within 0x80 0x9f
  else if first = 0xf0 then within 0x90 0xbf
  else if first = 0xf4 then within 0x80 0x8f
  else within 0x80 0xbf

/-- The bits of a byte that belong to the character. -/
def bits (mask : UInt8) (b : Option UInt8) : Nat := ((b.getD 0) &&& mask).toNat

/-- The character that begins with `first`, if the bytes after it are right, and how many of them
belong to it, or to the start of one that goes wrong. -/
def decodeChar (first : UInt8) (rest : List UInt8) : Option Char × Nat :=
  let tail (i : Nat) : Nat := bits 0x3f rest[i]?
  if first < 0x80 then (some (Char.ofNat first.toNat), 0)
  else if 0xc2 ≤ first ∧ first ≤ 0xdf then
    if continues rest[0]? then (some (Char.ofNat (64 * bits 0x1f (some first) + tail 0)), 1)
    else (none, 0)
  else if 0xe0 ≤ first ∧ first ≤ 0xef then
    if !second first rest[0]? then (none, 0)
    else if !continues rest[1]? then (none, 1)
    else (some (Char.ofNat (4096 * bits 0x0f (some first) + 64 * tail 0 + tail 1)), 2)
  else if 0xf0 ≤ first ∧ first ≤ 0xf4 then
    if !second first rest[0]? then (none, 0)
    else if !continues rest[1]? then (none, 1)
    else if !continues rest[2]? then (none, 2)
    else
      (some (Char.ofNat (262144 * bits 0x07 (some first) + 4096 * tail 0 + 64 * tail 1 + tail 2)), 3)
  else (none, 0)

/-- The characters, after `skip` bytes that belong to the one before. -/
def lossyChars : (skip : Nat) → List UInt8 → List Char
  | _, [] => []
  | skip + 1, _ :: rest => lossyChars skip rest
  | 0, first :: rest =>
      let (c, length) := decodeChar first rest
      c.getD '\uFFFD' :: lossyChars length rest

/-- `String::from_utf8_lossy` -/
def lossy (bytes : List UInt8) : String :=
  match String.fromUTF8? ⟨bytes.toArray⟩ with
  | some s => s
  | none => String.ofList (lossyChars 0 bytes)

example : lossy [0x61, 0xe2, 0x82, 0x62, 0xff] = "a\uFFFDb\uFFFD" := by decide +kernel

def Valid (bs : List UInt8) : Prop := ∃ s, bs = bytes s

@[simp] theorem lossy_bytes (s : String) : lossy (bytes s) = s := by
  have hvalid : ByteArray.IsValidUTF8 ⟨(bytes s).toArray⟩ := s.isValidUTF8
  simp only [lossy, String.fromUTF8?, dif_pos hvalid]
  rfl

/-- Nothing is lost of what is UTF-8, and of nothing else. -/
theorem bytes_lossy_iff {bs : List UInt8} : bytes (lossy bs) = bs ↔ Valid bs := by
  refine ⟨fun h => ⟨lossy bs, h.symm⟩, ?_⟩
  rintro ⟨s, rfl⟩
  rw [lossy_bytes]

end DatumConnect.Lib.Utf8
