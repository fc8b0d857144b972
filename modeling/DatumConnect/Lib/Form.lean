import DatumConnect.Lib.Lossy
/-!
# Form bodies

A body of type `application/x-www-form-urlencoded`: its reader, and what it reads of names and
values in which only unreserved characters stand for themselves.
-/

namespace DatumConnect.Lib.Form

open DatumConnect.Lib.Utf8

/-! ## Reading -/

def hexByte (b : UInt8) : Option UInt8 :=
  if 0x30 ≤ b ∧ b ≤ 0x39 then some (b - 0x30)
  else if 0x41 ≤ b ∧ b ≤ 0x46 then some (b - 0x37)
  else if 0x61 ≤ b ∧ b ≤ 0x66 then some (b - 0x57)
  else none

/-- The byte of two hexadecimal digits. -/
def hexPair (a b : UInt8) : Option UInt8 := do
  let high ← hexByte a
  let low ← hexByte b
  some (16 * high + low)

/-- The byte of the escape that stands here. -/
def escaped (b : UInt8) (rest : List UInt8) : Option UInt8 :=
  match rest with
  | high :: low :: _ => if b = 0x25 then hexPair high low else none
  | _ => none

/-- `skip` bytes are part of the last escape. -/
def percentDecodeFrom : (skip : Nat) → List UInt8 → List UInt8
  | _, [] => []
  | skip + 1, _ :: rest => percentDecodeFrom skip rest
  | 0, b :: rest =>
      match escaped b rest with
      | some byte => byte :: percentDecodeFrom 2 rest
      | none => b :: percentDecodeFrom 0 rest

def percentDecode (bs : List UInt8) : List UInt8 := percentDecodeFrom 0 bs

/-- A plus is a space, and what is percent-encoded then is a byte. -/
def readText (bs : List UInt8) : String :=
  lossy (percentDecode (bs.map fun b => if b = 0x2b then 0x20 else b))

/-- A name and a value, at the first `=`. -/
def readPair (bs : List UInt8) : String × String :=
  (readText (bs.takeWhile (· ≠ 0x3d)), readText (bs.dropWhile (· ≠ 0x3d)).tail)

def parse (body : String) : List (String × String) :=
  (((bytes body).splitOn 0x26).filter (· ≠ [])).map readPair

example : parse "a=b+%2b&&c%" = [("a", "b +"), ("c%", "")] := by decide +kernel

/-! ## Writing -/

def isUnreserved (b : UInt8) : Bool :=
  0x41 ≤ b && b ≤ 0x5a || 0x61 ≤ b && b ≤ 0x7a || 0x30 ≤ b && b ≤ 0x39 ||
    [0x2d, 0x2e, 0x5f, 0x7e].contains b

/-- `{:X}`, of a digit. -/
def hexUpper (n : Nat) : Char := (Nat.digitChar n).toUpper

def encodeByte (b : UInt8) : List Char :=
  if isUnreserved b then [Char.ofNat b.toNat]
  else if b = 0x20 then ['+']
  else ['%', hexUpper (b.toNat / 16), hexUpper (b.toNat % 16)]

def encode (s : String) : String := String.ofList ((bytes s).flatMap encodeByte)

/-! ## What is read of what has been written -/

/-- The bytes of an encoded byte. -/
def codeBytes (b : UInt8) : List UInt8 := (encodeByte b).map fun c => UInt8.ofNat c.toNat

theorem bytes_ascii {s : List Char} (h : ∀ c ∈ s, c.toNat < 0x80) :
    bytes (String.ofList s) = s.map fun c => UInt8.ofNat c.toNat := by
  induction s with
  | nil => rfl
  | cons c s ih =>
    have hc : c.val.toNat ≤ 0x7f := Nat.le_of_lt_succ (h c List.mem_cons_self)
    have hone : String.utf8EncodeChar c = [UInt8.ofNat c.toNat] := if_pos hc
    rw [bytes_cons, hone, ih fun d hd => h d (List.mem_cons_of_mem c hd)]
    rfl

theorem encodeByte_ascii (b : UInt8) : ∀ c ∈ encodeByte b, c.toNat < 0x80 := by
  have hall : ∀ n < 256, (encodeByte (UInt8.ofNat n)).all (fun c => decide (c.toNat < 0x80)) = true := by
    decide +kernel
  have hb := hall b.toNat b.toNat_lt
  rw [UInt8.ofNat_toNat] at hb
  intro c hc
  exact of_decide_eq_true (List.all_eq_true.mp hb c hc)

theorem bytes_encode (s : String) : bytes (encode s) = (bytes s).flatMap codeBytes := by
  unfold encode
  rw [bytes_ascii, List.map_flatMap]
  · rfl
  · intro c hc
    obtain ⟨b, -, hb⟩ := List.mem_flatMap.mp hc
    exact encodeByte_ascii b c hb

/-- What separates the parts of a body is not in an encoded text. -/
theorem not_mem_codeBytes (b : UInt8) : 0x26 ∉ codeBytes b ∧ 0x3d ∉ codeBytes b := by
  have hall : ∀ n < 256, 0x26 ∉ codeBytes (UInt8.ofNat n) ∧ 0x3d ∉ codeBytes (UInt8.ofNat n) := by
    decide +kernel
  have hb := hall b.toNat b.toNat_lt
  rwa [UInt8.ofNat_toNat] at hb

/-- An encoded byte with its pluses read. -/
def spaced (b : UInt8) : List UInt8 := (codeBytes b).map fun b => if b = 0x2b then 0x20 else b

theorem spaced_cases (b : UInt8) :
    spaced b = [b] ∧ b ≠ 0x25 ∨ ∃ high low, spaced b = [0x25, high, low] ∧ hexPair high low = some b := by
  have hall : ∀ n < 256,
      spaced (UInt8.ofNat n) = [UInt8.ofNat n] ∧ UInt8.ofNat n ≠ 0x25 ∨
      ((spaced (UInt8.ofNat n)).length = 3 ∧ (spaced (UInt8.ofNat n))[0]? = some 0x25 ∧
        ((spaced (UInt8.ofNat n))[1]?.bind fun high => (spaced (UInt8.ofNat n))[2]?.bind fun low =>
          hexPair high low) = some (UInt8.ofNat n)) := by
    decide +kernel
  have hb := hall b.toNat b.toNat_lt
  rw [UInt8.ofNat_toNat] at hb
  apply Or.imp_right _ hb
  rintro ⟨hlength, hfirst, hpair⟩
  obtain ⟨x, high, low, hspaced⟩ := List.length_eq_three.mp hlength
  rw [hspaced] at hfirst hpair ⊢
  refine ⟨high, low, ?_, hpair⟩
  rw [Option.some.inj hfirst]

theorem percentDecode_spaced (b : UInt8) (rest : List UInt8) :
    percentDecode (spaced b ++ rest) = b :: percentDecode rest := by
  unfold percentDecode
  rcases spaced_cases b with ⟨hspaced, hne⟩ | ⟨high, low, hspaced, hpair⟩
  · have hescaped : escaped b rest = none := by
      unfold escaped
      split
      · exact if_neg hne
      · rfl
    rw [hspaced, List.singleton_append, percentDecodeFrom, hescaped]
  · have hescaped : escaped 0x25 (high :: low :: rest) = some b := hpair
    rw [hspaced]
    show percentDecodeFrom 0 (0x25 :: high :: low :: rest) = _
    rw [percentDecodeFrom, hescaped]
    rfl

theorem readText_encode (s : String) : readText (bytes (encode s)) = s := by
  have hdecoded (bs : List UInt8) : percentDecode
      ((bs.flatMap codeBytes).map fun b => if b = 0x2b then 0x20 else b) = bs := by
    induction bs with
    | nil => rfl
    | cons b bs ih =>
      rw [List.flatMap_cons, List.map_append]
      show percentDecode (spaced b ++ _) = _
      rw [percentDecode_spaced, ih]
  unfold readText
  rw [bytes_encode, hdecoded, lossy_bytes]

/-- A field whose name stands for itself. -/
def field (name value : String) : List UInt8 := bytes name ++ 0x3d :: bytes (encode value)

theorem readPair_field {name : String} (hname : 0x3d ∉ bytes name) (value : String) :
    readPair (field name value) = (readText (bytes name), value) := by
  have hall : ∀ b ∈ bytes name, decide (b ≠ 0x3d) = true := by
    intro b hb
    exact decide_eq_true fun heq => hname (heq ▸ hb)
  unfold readPair field
  rw [List.takeWhile_append_of_pos hall, List.dropWhile_append_of_pos hall]
  simp [readText_encode]

theorem not_mem_field {name : String} (hname : 0x26 ∉ bytes name) (value : String) :
    0x26 ∉ field name value := by
  intro hmem
  rcases List.mem_append.mp hmem with hmem | hmem
  · exact hname hmem
  · rcases List.mem_cons.mp hmem with hmem | hmem
    · cases hmem
    · rw [bytes_encode, List.mem_flatMap] at hmem
      obtain ⟨b, -, hb⟩ := hmem
      exact (not_mem_codeBytes b).1 hb

theorem parse_fields {body : String} {fields : List (String × String)} (hne : fields ≠ [])
    (hbody : bytes body = [0x26].intercalate (fields.map fun f => field f.1 f.2))
    (hnames : ∀ f ∈ fields, 0x26 ∉ bytes f.1 ∧ 0x3d ∉ bytes f.1) :
    parse body = fields.map fun f => (readText (bytes f.1), f.2) := by
  unfold parse
  rw [hbody, List.splitOn_intercalate]
  · rw [List.filter_eq_self.mpr, List.map_map]
    · apply List.map_congr_left
      intro f hf
      exact readPair_field (hnames f hf).2 f.2
    · intro piece hpiece
      obtain ⟨f, -, rfl⟩ := List.mem_map.mp hpiece
      simp [field]
  · intro piece hpiece
    obtain ⟨f, hf, rfl⟩ := List.mem_map.mp hpiece
    exact not_mem_field (hnames f hf).1 f.2
  · simpa using hne

end DatumConnect.Lib.Form
