import DatumConnect.Lib.Utf8
/-!
# Lines of text in bytes

What `String::from_utf8_lossy` reads of a text is the text's own characters, and it never reads
past a line feed, so that the lines of any bytes can be read one by one.
-/

namespace DatumConnect.Lib.Utf8

/-! ## Reading one character -/

theorem bits_low (mask : UInt8) (width : Nat) (hmask : mask.toNat = 2 ^ width - 1) (b : UInt8) :
    bits mask (some b) = b.toNat % 2 ^ width := by
  unfold bits
  rw [Option.getD_some, UInt8.toNat_and, hmask, Nat.and_two_pow_sub_one_eq_mod]

theorem continues_iff (b : UInt8) :
    continues (some b) = true ↔ 0x80 ≤ b.toNat ∧ b.toNat < 0xc0 := by
  have hall : ∀ n < 256, continues (some (UInt8.ofNat n)) = true ↔ 0x80 ≤ n ∧ n < 0xc0 := by
    decide +kernel
  have hb := hall b.toNat b.toNat_lt
  rwa [UInt8.ofNat_toNat] at hb

theorem second_iff (first b : UInt8) :
    second first (some b) = true ↔
      (if first.toNat = 0xe0 then 0xa0 else if first.toNat = 0xf0 then 0x90 else 0x80) ≤ b.toNat ∧
      b.toNat ≤ (if first.toNat = 0xed then 0x9f else if first.toNat = 0xf4 then 0x8f else 0xbf) := by
  unfold second
  simp only [← UInt8.toNat_inj, Option.any_some, UInt8.le_iff_toNat_le]
  split_ifs <;> simp_all

theorem second_none (first : UInt8) : second first none = false := by
  unfold second
  split_ifs <;> rfl

theorem decodeChar_one {first : UInt8} (rest : List UInt8) (hfirst : first.toNat < 0x80) :
    decodeChar first rest = (some (Char.ofNat first.toNat), 0) := by
  unfold decodeChar
  exact if_pos (UInt8.lt_iff_toNat_lt.mpr hfirst)

theorem decodeChar_two {first b : UInt8} (rest : List UInt8) (hlow : 0xc2 ≤ first.toNat)
    (hhigh : first.toNat ≤ 0xdf) (hb : continues (some b) = true) :
    decodeChar first (b :: rest) =
      (some (Char.ofNat (64 * (first.toNat % 2 ^ 5) + b.toNat % 2 ^ 6)), 1) := by
  have hone : ¬ first < 0x80 := by
    rw [UInt8.lt_iff_toNat_lt, show (0x80 : UInt8).toNat = 0x80 from rfl]
    omega
  have htwo : 0xc2 ≤ first ∧ first ≤ 0xdf :=
    ⟨UInt8.le_iff_toNat_le.mpr hlow, UInt8.le_iff_toNat_le.mpr hhigh⟩
  unfold decodeChar
  simp only [if_neg hone, if_pos htwo, List.getElem?_cons_zero, hb, if_true,
    bits_low 0x1f 5 rfl, bits_low 0x3f 6 rfl]

theorem decodeChar_three {first b c : UInt8} (rest : List UInt8) (hlow : 0xe0 ≤ first.toNat)
    (hhigh : first.toNat ≤ 0xef) (hb : second first (some b) = true)
    (hc : continues (some c) = true) :
    decodeChar first (b :: c :: rest) =
      (some (Char.ofNat
        (4096 * (first.toNat % 2 ^ 4) + 64 * (b.toNat % 2 ^ 6) + c.toNat % 2 ^ 6)), 2) := by
  have hone : ¬ first < 0x80 := by
    rw [UInt8.lt_iff_toNat_lt, show (0x80 : UInt8).toNat = 0x80 from rfl]
    omega
  have htwo : ¬ (0xc2 ≤ first ∧ first ≤ 0xdf) := by
    rw [UInt8.le_iff_toNat_le, UInt8.le_iff_toNat_le, show (0xdf : UInt8).toNat = 0xdf from rfl]
    omega
  have hthree : 0xe0 ≤ first ∧ first ≤ 0xef :=
    ⟨UInt8.le_iff_toNat_le.mpr hlow, UInt8.le_iff_toNat_le.mpr hhigh⟩
  unfold decodeChar
  simp only [if_neg hone, if_neg htwo, if_pos hthree, List.getElem?_cons_zero,
    List.getElem?_cons_succ, hb, hc, Bool.not_true, Bool.false_eq_true, if_false,
    bits_low 0x0f 4 rfl, bits_low 0x3f 6 rfl]

theorem decodeChar_four {first b c d : UInt8} (rest : List UInt8) (hlow : 0xf0 ≤ first.toNat)
    (hhigh : first.toNat ≤ 0xf4) (hb : second first (some b) = true)
    (hc : continues (some c) = true) (hd : continues (some d) = true) :
    decodeChar first (b :: c :: d :: rest) =
      (some (Char.ofNat (262144 * (first.toNat % 2 ^ 3) + 4096 * (b.toNat % 2 ^ 6) +
        64 * (c.toNat % 2 ^ 6) + d.toNat % 2 ^ 6)), 3) := by
  have hone : ¬ first < 0x80 := by
    rw [UInt8.lt_iff_toNat_lt, show (0x80 : UInt8).toNat = 0x80 from rfl]
    omega
  have htwo : ¬ (0xc2 ≤ first ∧ first ≤ 0xdf) := by
    rw [UInt8.le_iff_toNat_le, UInt8.le_iff_toNat_le, show (0xdf : UInt8).toNat = 0xdf from rfl]
    omega
  have hthree : ¬ (0xe0 ≤ first ∧ first ≤ 0xef) := by
    rw [UInt8.le_iff_toNat_le, UInt8.le_iff_toNat_le, show (0xef : UInt8).toNat = 0xef from rfl]
    omega
  have hfour : 0xf0 ≤ first ∧ first ≤ 0xf4 :=
    ⟨UInt8.le_iff_toNat_le.mpr hlow, UInt8.le_iff_toNat_le.mpr hhigh⟩
  unfold decodeChar
  simp only [if_neg hone, if_neg htwo, if_neg hthree, if_pos hfour, List.getElem?_cons_zero,
    List.getElem?_cons_succ, hb, hc, hd, Bool.not_true, Bool.false_eq_true, if_false,
    bits_low 0x07 3 rfl, bits_low 0x3f 6 rfl]

/-! ## What has been encoded -/

theorem toNat_ofNat_add (n limit start : Nat) (hlimit : 0 < limit) (hfits : limit + start ≤ 256) :
    (UInt8.ofNat (n % limit + start)).toNat = n % limit + start := by
  have hlt := Nat.mod_lt n hlimit
  rw [UInt8.toNat_ofNat']
  exact Nat.mod_eq_of_lt (by omega)

theorem continues_tail (n : Nat) : continues (some (UInt8.ofNat (n % 64 + 0x80))) = true := by
  have hlt : n % 64 < 64 := Nat.mod_lt n (by decide)
  rw [continues_iff, toNat_ofNat_add n 64 0x80 (by decide) (by decide)]
  omega

/-- A character is read where its bytes are, and all of them belong to it. -/
theorem decodeChar_encoded (c : Char) (rest : List UInt8) :
    ∃ first tail, String.utf8EncodeChar c = first :: tail ∧
      decodeChar first (tail ++ rest) = (some c, tail.length) := by
  have hvalid : c.toNat < 0xd800 ∨ 0xdfff < c.toNat ∧ c.toNat < 0x110000 := c.valid
  have hchar (n : Nat) (h : n = c.toNat) : Char.ofNat n = c := by
    rw [h, Char.ofNat_toNat]
  have hval : c.val.toNat = c.toNat := rfl
  have htail (n : Nat) : (UInt8.ofNat (n % 64 + 0x80)).toNat = n % 64 + 0x80 :=
    toNat_ofNat_add n 64 0x80 (by decide) (by decide)
  unfold String.utf8EncodeChar
  simp only [hval]
  split
  · rename_i hone
    refine ⟨_, _, rfl, ?_⟩
    have hfirst : (UInt8.ofNat c.toNat).toNat = c.toNat := by
      rw [UInt8.toNat_ofNat']
      omega
    rw [decodeChar_one _ (by omega), hfirst, Char.ofNat_toNat]
    rfl
  · split
    · rename_i hone htwo
      refine ⟨_, _, rfl, ?_⟩
      have hfirst := toNat_ofNat_add (c.toNat / 64) 0x20 0xc0 (by decide) (by decide)
      rw [List.singleton_append, decodeChar_two rest (by omega) (by omega) (continues_tail _),
        hfirst, htail, hchar _ (by omega)]
      rfl
    · split
      · rename_i htwo hthree
        refine ⟨_, _, rfl, ?_⟩
        have hfirst := toNat_ofNat_add (c.toNat / 4096) 0x10 0xe0 (by decide) (by decide)
        have hsecond : second (UInt8.ofNat (c.toNat / 4096 % 0x10 + 0xe0))
            (some (UInt8.ofNat (c.toNat / 64 % 64 + 0x80))) = true := by
          rw [second_iff, hfirst, htail]
          split_ifs <;> omega
        rw [List.cons_append, List.singleton_append,
          decodeChar_three rest (by omega) (by omega) hsecond (continues_tail _),
          hfirst, htail, htail, hchar _ (by omega)]
        rfl
      · rename_i hthree
        refine ⟨_, _, rfl, ?_⟩
        have hfirst := toNat_ofNat_add (c.toNat / 262144) 0x08 0xf0 (by decide) (by decide)
        have hsecond : second (UInt8.ofNat (c.toNat / 262144 % 0x08 + 0xf0))
            (some (UInt8.ofNat (c.toNat / 4096 % 64 + 0x80))) = true := by
          rw [second_iff, hfirst, htail]
          split_ifs <;> omega
        rw [List.cons_append, List.cons_append, List.singleton_append,
          decodeChar_four rest (by omega) (by omega) hsecond (continues_tail _) (continues_tail _),
          hfirst, htail, htail, htail, hchar _ (by omega)]
        rfl

theorem lossyChars_skip (xs ys : List UInt8) :
    lossyChars xs.length (xs ++ ys) = lossyChars 0 ys := by
  induction xs with
  | nil => rfl
  | cons x xs ih => exact ih

theorem bytes_cons (c : Char) (s : List Char) :
    bytes (String.ofList (c :: s)) = String.utf8EncodeChar c ++ bytes (String.ofList s) := by
  simp [bytes, List.utf8Encode]

theorem lossyChars_bytes (s : List Char) : lossyChars 0 (bytes (String.ofList s)) = s := by
  induction s with
  | nil => rfl
  | cons c s ih =>
    obtain ⟨first, tail, hencoded, hdecoded⟩ := decodeChar_encoded c (bytes (String.ofList s))
    rw [bytes_cons, hencoded, List.cons_append, lossyChars]
    simp only [hdecoded]
    rw [lossyChars_skip, ih]
    rfl

/-- What is UTF-8 is read character by character as all else is. -/
theorem toList_lossy (bs : List UInt8) : (lossy bs).toList = lossyChars 0 bs := by
  by_cases hvalid : Valid bs
  · obtain ⟨s, rfl⟩ := hvalid
    rw [lossy_bytes]
    have hread := lossyChars_bytes s.toList
    rwa [String.ofList_toList, eq_comm] at hread
  · have hnone : String.fromUTF8? ⟨bs.toArray⟩ = none := by
      unfold String.fromUTF8?
      refine dif_neg fun h => hvalid ⟨⟨⟨bs.toArray⟩, h⟩, ?_⟩
      simp [bytes]
    unfold lossy
    rw [hnone, String.toList_ofList]

/-! ## Line feeds -/

/-- A character ends before a line feed at the latest. -/
theorem decodeChar_before (first : UInt8) (xs ys : List UInt8) :
    decodeChar first (xs ++ 10 :: ys) = decodeChar first xs ∧
      (decodeChar first xs).2 ≤ xs.length := by
  have hcontinues : continues (some 10) = false := rfl
  have hsecond : second first (some 10) = false := by
    rw [← Bool.not_eq_true, second_iff]
    rintro ⟨hlow, -⟩
    revert hlow
    split_ifs <;> decide
  have hnone := second_none first
  have hnever : continues none = false := rfl
  unfold decodeChar
  match xs with
  | [] =>
    simp [hcontinues, hsecond, hnone, hnever]
    split_ifs <;> simp
  | [a] =>
    simp [hcontinues, hnever]
    split_ifs <;> simp
  | [a, b] =>
    simp [hcontinues, hnever]
    split_ifs <;> simp
  | a :: b :: c :: xs =>
    simp
    split_ifs <;> simp

theorem lossyChars_feed (xs ys : List UInt8) (skip : Nat) (hskip : skip ≤ xs.length) :
    lossyChars skip (xs ++ 10 :: ys) = lossyChars skip xs ++ '\n' :: lossyChars 0 ys := by
  induction xs generalizing skip with
  | nil =>
    obtain rfl : skip = 0 := Nat.le_zero.mp hskip
    rfl
  | cons first xs ih =>
    cases skip with
    | zero =>
      obtain ⟨hsame, hlength⟩ := decodeChar_before first xs ys
      rw [List.cons_append, lossyChars, lossyChars]
      simp only [hsame]
      rw [ih _ hlength]
      rfl
    | succ skip => exact ih skip (Nat.le_of_succ_le_succ hskip)

theorem ofNat_eq_feed {n : Nat} (h : Char.ofNat n = '\n') : n = 10 := by
  unfold Char.ofNat at h
  by_cases hvalid : n.isValidChar
  · rw [dif_pos hvalid] at h
    have hnat : (Char.ofNatAux n hvalid).toNat = 10 := by
      rw [h]
      rfl
    exact hnat
  · rw [dif_neg hvalid] at h
    cases h

theorem bits_tail_lt (b : Option UInt8) : bits 0x3f b < 64 := by
  cases b with
  | none => decide
  | some b =>
    rw [bits_low 0x3f 6 rfl]
    exact Nat.mod_lt _ (by decide)

/-- The longer forms are not for the characters that have a byte of their own. -/
theorem decodeChar_above {first : UInt8} {rest : List UInt8} {c : Char} {n : Nat}
    (hfirst : ¬ first < 0x80) (h : decodeChar first rest = (some c, n)) :
    ∃ value, 0x80 ≤ value ∧ value.isValidChar ∧ c = Char.ofNat value := by
  have hnone (b : Option UInt8) (hb : second first b = true) : ∃ a, b = some a := by
    cases b with
    | some a => exact ⟨a, rfl⟩
    | none =>
      rw [second_none] at hb
      cases hb
  have htail := fun i : Nat => bits_tail_lt rest[i]?
  unfold decodeChar at h
  rw [if_neg hfirst] at h
  split_ifs at h with htwo hnext hthree hsecond hthird hfour hsecond hthird hfourth
  all_goals cases h
  · obtain ⟨hlow, hhigh⟩ := htwo
    rw [UInt8.le_iff_toNat_le] at hlow hhigh
    have hlast := htail 0
    refine ⟨64 * bits 0x1f (some first) + bits 0x3f rest[0]?, ?_, Or.inl ?_, rfl⟩
    · rw [bits_low 0x1f 5 rfl]
      change 0xc2 ≤ first.toNat at hlow
      change first.toNat ≤ 0xdf at hhigh
      omega
    · rw [bits_low 0x1f 5 rfl]
      omega
  · obtain ⟨hlow, hhigh⟩ := hthree
    rw [UInt8.le_iff_toNat_le] at hlow hhigh
    rw [Bool.not_eq_true', Bool.not_eq_false] at hsecond
    obtain ⟨a, ha⟩ := hnone _ hsecond
    rw [ha, second_iff] at hsecond
    have hlast := htail 1
    change 0xe0 ≤ first.toNat at hlow
    change first.toNat ≤ 0xef at hhigh
    refine ⟨4096 * bits 0x0f (some first) + 64 * bits 0x3f rest[0]? + bits 0x3f rest[1]?, ?_, ?_, rfl⟩
    · rw [ha, bits_low 0x0f 4 rfl, bits_low 0x3f 6 rfl]
      split_ifs at hsecond <;> omega
    · unfold Nat.isValidChar
      rw [ha, bits_low 0x0f 4 rfl, bits_low 0x3f 6 rfl]
      split_ifs at hsecond <;> omega
  · obtain ⟨hlow, hhigh⟩ := hfour
    rw [UInt8.le_iff_toNat_le] at hlow hhigh
    rw [Bool.not_eq_true', Bool.not_eq_false] at hsecond
    obtain ⟨a, ha⟩ := hnone _ hsecond
    rw [ha, second_iff] at hsecond
    have hthird := htail 1
    have hlast := htail 2
    change 0xf0 ≤ first.toNat at hlow
    change first.toNat ≤ 0xf4 at hhigh
    refine ⟨262144 * bits 0x07 (some first) + 4096 * bits 0x3f rest[0]? +
      64 * bits 0x3f rest[1]? + bits 0x3f rest[2]?, ?_, ?_, rfl⟩
    · rw [ha, bits_low 0x07 3 rfl, bits_low 0x3f 6 rfl]
      split_ifs at hsecond <;> omega
    · unfold Nat.isValidChar
      rw [ha, bits_low 0x07 3 rfl, bits_low 0x3f 6 rfl]
      split_ifs at hsecond <;> omega

/-- Only its own byte reads as a line feed. -/
theorem decodeChar_eq_feed {first : UInt8} {rest : List UInt8} {n : Nat}
    (h : decodeChar first rest = (some '\n', n)) : first = 10 := by
  by_cases hfirst : first < 0x80
  · rw [decodeChar_one rest (UInt8.lt_iff_toNat_lt.mp hfirst)] at h
    rw [← UInt8.toNat_inj]
    exact ofNat_eq_feed (Option.some.inj (congrArg Prod.fst h))
  · obtain ⟨value, hvalue, -, hc⟩ := decodeChar_above hfirst h
    have hten := ofNat_eq_feed hc.symm
    omega

theorem feed_not_mem (bs : List UInt8) (skip : Nat) (h : 10 ∉ bs) :
    '\n' ∉ lossyChars skip bs := by
  induction bs generalizing skip with
  | nil =>
    cases skip <;> exact List.not_mem_nil
  | cons first rest ih =>
    have hrest := List.not_mem_of_not_mem_cons h
    cases skip with
    | zero =>
      rw [lossyChars]
      cases hdecoded : decodeChar first rest with
      | mk c length =>
        rw [List.mem_cons, not_or]
        refine ⟨?_, ih length hrest⟩
        intro hc
        cases c with
        | none => cases hc
        | some c =>
          obtain rfl : '\n' = c := hc
          exact List.ne_of_not_mem_cons h (decodeChar_eq_feed hdecoded).symm
    | succ skip => exact ih skip hrest

/-! ## Characters of one byte -/

theorem toNat_ofNat {n : Nat} (h : n.isValidChar) : (Char.ofNat n).toNat = n := by
  unfold Char.ofNat
  rw [dif_pos h]
  rfl

theorem utf8EncodeChar_one {c : Char} (h : c.toNat < 0x80) :
    String.utf8EncodeChar c = [UInt8.ofNat c.toNat] := by
  rw [String.utf8EncodeChar_eq_singleton]
  · rfl
  · rw [Char.utf8Size_eq_one_iff, UInt32.le_iff_toNat_le]
    exact Nat.le_of_lt_succ h

/-- Text of characters of one byte. -/
theorem bytes_one {s : List Char} (h : ∀ c ∈ s, c.toNat < 0x80) :
    bytes (String.ofList s) = s.map fun c => UInt8.ofNat c.toNat := by
  induction s with
  | nil => rfl
  | cons c s ih =>
    rw [bytes_cons, utf8EncodeChar_one (h c List.mem_cons_self),
      ih fun d hd => h d (List.mem_cons_of_mem _ hd)]
    rfl

/-- Bytes that read as characters of one byte are those bytes. -/
theorem bytes_lossyChars {bs : List UInt8} (h : ∀ c ∈ lossyChars 0 bs, c.toNat < 0x80) :
    bytes (String.ofList (lossyChars 0 bs)) = bs := by
  induction bs with
  | nil => rfl
  | cons first rest ih =>
    by_cases hfirst : first < 0x80
    · have hread : lossyChars 0 (first :: rest) =
          Char.ofNat first.toNat :: lossyChars 0 rest := by
        rw [lossyChars, decodeChar_one rest (UInt8.lt_iff_toNat_lt.mp hfirst)]
        rfl
      rw [hread] at h ⊢
      have hnat : (Char.ofNat first.toNat).toNat = first.toNat := by
        apply toNat_ofNat
        have hbyte := first.toNat_lt
        exact Or.inl (by omega)
      rw [bytes_cons, utf8EncodeChar_one (h _ List.mem_cons_self),
        ih fun c hc => h c (List.mem_cons_of_mem _ hc), hnat, UInt8.ofNat_toNat]
      rfl
    · exfalso
      rw [lossyChars] at h
      cases hdecoded : decodeChar first rest with
      | mk c length =>
        rw [hdecoded] at h
        have hsmall := h _ List.mem_cons_self
        cases c with
        | none => revert hsmall; decide
        | some c =>
          obtain ⟨value, hlow, hvalid, hc⟩ := decodeChar_above hfirst hdecoded
          have hnat : c.toNat = value := by rw [hc, toNat_ofNat hvalid]
          change c.toNat < 0x80 at hsmall
          omega

end DatumConnect.Lib.Utf8
