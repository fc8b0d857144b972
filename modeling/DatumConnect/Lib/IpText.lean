import DatumConnect.Lib.IpAddr
/-!
# The texts of addresses

What `IpAddr::from_str` takes, told without its reading: numbers, four of them with points between,
and groups with colons between, of which some may be left out.
-/

namespace DatumConnect.Lib.IpAddr

/-! ## Numbers -/

def IsDigit (radix : Nat) (c : Char) : Prop := (toDigit radix c).isSome = true

instance (radix : Nat) : DecidablePred (IsDigit radix) := fun c =>
  inferInstanceAs (Decidable ((toDigit radix c).isSome = true))

instance (radix : Nat) (text : List Char) : Decidable (∀ c ∈ text, IsDigit radix c) :=
  List.decidableBAll (IsDigit radix) text

theorem toDigit_ten {c : Char} :
    toDigit 10 c = if c.isDigit then some (c.toNat - '0'.toNat) else none := by
  have hdigit : c.isDigit = true ↔ '0' ≤ c ∧ c ≤ '9' := by
    rw [Char.isDigit, Bool.and_eq_true, decide_eq_true_eq, decide_eq_true_eq]
    rfl
  unfold toDigit
  by_cases h : '0' ≤ c ∧ c ≤ '9'
  · have hle : c.toNat ≤ 57 := h.2
    have hlt : c.toNat - '0'.toNat < 10 := by
      show c.toNat - 48 < 10
      omega
    rw [if_pos h, if_pos (hdigit.mpr h), Option.filter_some, if_pos (decide_eq_true hlt)]
  · rw [if_neg h, if_neg (mt hdigit.mp h)]
    split
    · rw [Option.filter_some, if_neg]
      simp
    · split
      · rw [Option.filter_some, if_neg]
        simp
      · rfl

theorem isDigit_ten {c : Char} : IsDigit 10 c ↔ c.isDigit = true := by
  rw [IsDigit, toDigit_ten]
  split <;> simp_all

def digitsValue (radix : Nat) (text : List Char) : Nat :=
  text.foldl (fun n c => radix * n + (toDigit radix c).getD 0) 0

/-- The number that a whole text is, by the rules of `readNumber`. -/
def numeral? (radix maxDigits bound : Nat) (allowZeroPrefix : Bool) (text : List Char) :
    Option Nat :=
  if text = [] ∨ maxDigits < text.length ∨ bound ≤ digitsValue radix text then none
  else if !allowZeroPrefix ∧ text.head? = some '0' ∧ 1 < text.length then none
  else if ∀ c ∈ text, IsDigit radix c then some (digitsValue radix text)
  else none

/-- Nothing more to read as part of a number. -/
def Ends (radix : Nat) (rest : List Char) : Prop := ∀ c ∈ rest.head?, ¬ IsDigit radix c

section Numbers

variable {radix maxDigits bound n : Nat} {allowZeroPrefix : Bool} {text rest s : List Char}

theorem numeral?_eq_some (h : numeral? radix maxDigits bound allowZeroPrefix text = some n) :
    text ≠ [] ∧ text.length ≤ maxDigits ∧ n < bound ∧ ∀ c ∈ text, IsDigit radix c := by
  unfold numeral? at h
  split at h
  · cases h
  · rename_i hsize
    split at h
    · cases h
    · split at h
      · rename_i hdigits
        cases h
        rw [not_or, not_or, Nat.not_lt, Nat.not_le] at hsize
        exact ⟨hsize.1, hsize.2.1, hsize.2.2, hdigits⟩
      · cases h

/-- Reading takes the longest run of digits. -/
theorem readNumber_eq (s : List Char) :
    readNumber radix maxDigits bound allowZeroPrefix s =
      (numeral? radix maxDigits bound allowZeroPrefix
        (s.takeWhile fun c => (toDigit radix c).isSome)).map fun n =>
          (n, s.drop (s.takeWhile fun c => (toDigit radix c).isSome).length) := by
  have hall : ∀ c ∈ s.takeWhile (fun c => (toDigit radix c).isSome), IsDigit radix c :=
    fun c hc => List.mem_takeWhile_imp (p := fun c => (toDigit radix c).isSome) hc
  have hsplit := List.takeWhile_append_dropWhile (p := fun c => (toDigit radix c).isSome) (l := s)
  unfold readNumber numeral? digitsValue
  revert hall hsplit
  generalize s.takeWhile (fun c => (toDigit radix c).isSome) = digits
  intro hall hsplit
  by_cases hsize : digits = [] ∨ maxDigits < digits.length ∨
      bound ≤ digits.foldl (fun n c => radix * n + (toDigit radix c).getD 0) 0
  · simp only [if_pos hsize, Option.map_none]
  · have hhead : s.head? = digits.head? := by
      rw [← hsplit]
      cases digits with
      | nil => exact absurd (Or.inl rfl) hsize
      | cons c cs => rfl
    rw [if_neg hsize, if_neg hsize, if_pos hall, hhead]
    split <;> rfl

theorem readNumber_append
    (htext : numeral? radix maxDigits bound allowZeroPrefix text = some n)
    (hrest : Ends radix rest) :
    readNumber radix maxDigits bound allowZeroPrefix (text ++ rest) = some (n, rest) := by
  obtain ⟨_, _, _, hall⟩ := numeral?_eq_some htext
  have htake : (text ++ rest).takeWhile (fun c => (toDigit radix c).isSome) = text := by
    rw [List.takeWhile_append_of_pos hall]
    cases rest with
    | nil => simp
    | cons c cs =>
        have hc : ¬ IsDigit radix c := hrest c rfl
        rw [List.takeWhile_cons_of_neg (p := fun c => (toDigit radix c).isSome) hc,
          List.append_nil]
  rw [readNumber_eq, htake, htext, Option.map_some, List.drop_left]

theorem readNumber_eq_some
    (h : readNumber radix maxDigits bound allowZeroPrefix s = some (n, rest)) :
    ∃ text, s = text ++ rest ∧ numeral? radix maxDigits bound allowZeroPrefix text = some n ∧
      Ends radix rest := by
  rw [readNumber_eq, Option.map_eq_some_iff] at h
  obtain ⟨m, hm, heq⟩ := h
  cases heq
  have hsplit := List.takeWhile_append_dropWhile (p := fun c => (toDigit radix c).isSome) (l := s)
  have hdrop : ((s.takeWhile fun c => (toDigit radix c).isSome) ++
      s.dropWhile fun c => (toDigit radix c).isSome).drop
        (s.takeWhile fun c => (toDigit radix c).isSome).length =
      s.dropWhile fun c => (toDigit radix c).isSome := List.drop_left
  rw [hsplit] at hdrop
  refine ⟨_, ?_, hm, fun c hc => ?_⟩
  · rw [hdrop, hsplit]
  · rw [hdrop] at hc
    have hnot := List.head?_dropWhile_not (fun c => (toDigit radix c).isSome) s
    rw [Option.mem_def.mp hc] at hnot
    exact Bool.eq_false_iff.mp hnot

/-- A text that does not begin with a digit has no number to read. -/
theorem readNumber_of_ends (h : Ends radix s) :
    readNumber radix maxDigits bound allowZeroPrefix s = none := by
  have htake : s.takeWhile (fun c => (toDigit radix c).isSome) = [] := by
    cases s with
    | nil => rfl
    | cons c cs =>
        exact List.takeWhile_cons_of_neg (p := fun c => (toDigit radix c).isSome) (h c rfl)
  rw [readNumber_eq, htake]
  simp [numeral?]

end Numbers

/-! ## All parts of a list -/

section Parts

variable {α β : Type} {f : α → Option β}

theorem mapM_cons_eq_some {a : α} {as : List α} {bs : List β} :
    (a :: as).mapM f = some bs ↔ ∃ b bs', f a = some b ∧ as.mapM f = some bs' ∧ bs = b :: bs' := by
  rw [List.mapM_cons]
  cases f a with
  | none => simp
  | some b => cases as.mapM f <;> simp [eq_comm]

theorem length_of_mapM {as : List α} {bs : List β} (h : as.mapM f = some bs) :
    bs.length = as.length := by
  induction as generalizing bs with
  | nil =>
      cases h
      rfl
  | cons a as ih =>
      obtain ⟨b, bs', _, hrest, rfl⟩ := Iff.mp mapM_cons_eq_some h
      rw [List.length_cons, List.length_cons, ih hrest]

theorem mem_of_mapM {as : List α} {bs : List β} (h : as.mapM f = some bs) :
    ∀ a ∈ as, ∃ b, f a = some b := by
  induction as generalizing bs with
  | nil => exact nofun
  | cons a as ih =>
      obtain ⟨b, bs', hb, hrest, _⟩ := Iff.mp mapM_cons_eq_some h
      intro a' ha'
      rcases List.mem_cons.mp ha' with rfl | ha'
      · exact ⟨b, hb⟩
      · exact ih hrest a' ha'

end Parts

/-! ## Four numbers -/

/-- A part of an IPv4 address. -/
def octet? (text : List Char) : Option Nat := numeral? 10 3 256 false text

/-- Each text behind a separator. -/
def led (sep : Char) (texts : List (List Char)) : List Char := texts.flatMap (sep :: ·)

theorem intercalate_cons (sep : Char) (text : List Char) (texts : List (List Char)) :
    [sep].intercalate (text :: texts) = text ++ led sep texts := by
  induction texts generalizing text with
  | nil => simp [led]
  | cons t ts ih =>
      rw [List.intercalate_cons_cons, ih t]
      simp [led]

/-- What follows is a separator, or what stands behind the last text. -/
theorem ends_led {radix : Nat} {sep : Char} {texts : List (List Char)} {rest : List Char}
    (hsep : ¬ IsDigit radix sep) (hrest : Ends radix rest) : Ends radix (led sep texts ++ rest) := by
  cases texts with
  | nil => exact hrest
  | cons t ts =>
      intro c hc
      cases hc
      exact hsep

theorem readSeparator_given {α : Type} {sep : Char} {index : Nat}
    {inner : List Char → Option (α × List Char)} {s : List Char} (hindex : index ≠ 0) :
    readSeparator sep index inner (sep :: s) = inner s := by
  unfold readSeparator
  rw [if_neg hindex, readGivenChar, List.head?_cons, if_pos rfl]
  rfl

theorem readSeparator_eq_some {α : Type} {sep : Char} {index : Nat}
    {inner : List Char → Option (α × List Char)} {s : List Char} {r : α × List Char}
    (hindex : index ≠ 0) (h : readSeparator sep index inner s = some r) :
    ∃ s', s = sep :: s' ∧ inner s' = some r := by
  unfold readSeparator readGivenChar at h
  rw [if_neg hindex] at h
  cases s with
  | nil => cases h
  | cons c cs =>
      by_cases hc : c = sep
      · rw [hc, List.head?_cons, if_pos rfl] at h
        exact ⟨cs, by rw [hc], h⟩
      · rw [List.head?_cons, if_neg (mt Option.some.inj hc)] at h
        cases h

theorem readIpv4Octets_append {left : Nat} {texts : List (List Char)} {octets : List Nat}
    {rest : List Char} (hleft : left ≤ 3) (hlength : texts.length = left)
    (htexts : texts.mapM octet? = some octets) (hrest : Ends 10 rest) :
    readIpv4Octets left (led '.' texts ++ rest) = some (octets, rest) := by
  induction left generalizing texts octets with
  | zero =>
      cases List.length_eq_zero_iff.mp hlength
      cases htexts
      rfl
  | succ left ih =>
      cases texts with
      | nil => cases hlength
      | cons t ts =>
          obtain ⟨octet, octets', hoctet, hoctets, rfl⟩ := Iff.mp mapM_cons_eq_some htexts
          have hindex : 3 - left ≠ 0 := by omega
          have hends : Ends 10 (led '.' ts ++ rest) := ends_led (by decide) hrest
          have hread := readNumber_append hoctet hends
          have htail := ih (by omega) (Nat.succ.inj hlength) hoctets
          have hled : led '.' (t :: ts) ++ rest = '.' :: (t ++ (led '.' ts ++ rest)) := by
            simp [led]
          rw [hled, readIpv4Octets, readSeparator_given hindex, hread]
          simp only [Option.bind_eq_bind, Option.bind_some, htail]
          rfl

theorem readIpv4Octets_eq_some {left : Nat} {octets : List Nat} {s rest : List Char}
    (hleft : left ≤ 3) (h : readIpv4Octets left s = some (octets, rest)) :
    ∃ texts : List (List Char), texts.length = left ∧ texts.mapM octet? = some octets ∧
      s = led '.' texts ++ rest ∧ (left ≠ 0 → Ends 10 rest) := by
  induction left generalizing s octets with
  | zero =>
      cases h
      exact ⟨[], rfl, rfl, rfl, fun hne => absurd rfl hne⟩
  | succ left ih =>
      have hindex : 3 - left ≠ 0 := by omega
      rw [readIpv4Octets, Option.bind_eq_bind, Option.bind_eq_some_iff] at h
      obtain ⟨⟨octet, s₁⟩, hoctet, h⟩ := h
      simp only at h
      rw [Option.bind_eq_bind, Option.bind_eq_some_iff] at h
      obtain ⟨⟨octets', s₂⟩, hoctets, h⟩ := h
      cases h
      obtain ⟨s', rfl, hnumber⟩ := readSeparator_eq_some hindex hoctet
      obtain ⟨t, rfl, ht, hends⟩ := readNumber_eq_some hnumber
      obtain ⟨ts, hlength, hts, rfl, hrest⟩ := ih (by omega) hoctets
      refine ⟨t :: ts, by rw [List.length_cons, hlength], ?_, by simp [led], fun _ => ?_⟩
      · exact Iff.mpr mapM_cons_eq_some ⟨octet, octets', ht, hts, rfl⟩
      · by_cases hzero : left = 0
        · rw [hzero, List.length_eq_zero_iff] at hlength
          rw [hlength] at hends
          exact hends
        · exact hrest hzero

/-- The numbers of an IPv4 address. -/
def dotted? (text : List Char) : Option (List Nat) :=
  let parts := text.splitOn '.'
  if parts.length = 4 then parts.mapM octet? else none

theorem dotted?_eq_some {text : List Char} {octets : List Nat} :
    dotted? text = some octets ↔ ∃ texts : List (List Char), texts.length = 4 ∧
      texts.mapM octet? = some octets ∧ text = ['.'].intercalate texts := by
  constructor
  · intro h
    unfold dotted? at h
    simp only at h
    split at h
    · rename_i hlength
      exact ⟨_, hlength, h, (List.intercalate_splitOn '.').symm⟩
    · cases h
  · rintro ⟨texts, hlength, htexts, rfl⟩
    have hplain : ∀ t ∈ texts, '.' ∉ t := by
      intro t ht hmem
      obtain ⟨octet, hoctet⟩ := mem_of_mapM htexts t ht
      have hdigits := (numeral?_eq_some hoctet).2.2.2 '.' hmem
      revert hdigits
      decide
    have hne : texts ≠ [] := by
      rintro rfl
      cases hlength
    have hsplit : (['.'].intercalate texts).splitOn '.' = texts :=
      List.splitOn_intercalate '.' hplain hne
    unfold dotted?
    simp only [hsplit]
    rw [if_pos hlength, htexts]

theorem readIpv4Addr_append {text rest : List Char} {octets : List Nat}
    (htext : dotted? text = some octets) (hrest : Ends 10 rest) :
    readIpv4Addr (text ++ rest) = some (octets, rest) := by
  obtain ⟨texts, hlength, htexts, rfl⟩ := Iff.mp dotted?_eq_some htext
  cases texts with
  | nil => cases hlength
  | cons t ts =>
      obtain ⟨octet, octets', hoctet, hoctets, rfl⟩ := Iff.mp mapM_cons_eq_some htexts
      have hends : Ends 10 (led '.' ts ++ rest) := ends_led (by decide) hrest
      have hread := readNumber_append hoctet hends
      have htail := readIpv4Octets_append (Nat.le_refl 3) (Nat.succ.inj hlength) hoctets hrest
      rw [intercalate_cons, List.append_assoc, readIpv4Addr, readIpv4Octets]
      unfold readSeparator
      rw [if_pos (Nat.sub_self 3), hread]
      simp only [Option.bind_eq_bind, Option.bind_some, htail]
      rfl

theorem readIpv4Addr_eq_some {s rest : List Char} {octets : List Nat}
    (h : readIpv4Addr s = some (octets, rest)) :
    ∃ text, s = text ++ rest ∧ dotted? text = some octets ∧ Ends 10 rest := by
  rw [readIpv4Addr, readIpv4Octets, Option.bind_eq_bind, Option.bind_eq_some_iff] at h
  obtain ⟨⟨octet, s₁⟩, hoctet, h⟩ := h
  simp only at h
  rw [Option.bind_eq_bind, Option.bind_eq_some_iff] at h
  obtain ⟨⟨octets', s₂⟩, hoctets, h⟩ := h
  cases h
  unfold readSeparator at hoctet
  rw [if_pos (Nat.sub_self 3)] at hoctet
  obtain ⟨t, rfl, ht, _⟩ := readNumber_eq_some hoctet
  obtain ⟨ts, hlength, hts, rfl, hrest⟩ := readIpv4Octets_eq_some (Nat.le_refl 3) hoctets
  refine ⟨['.'].intercalate (t :: ts), ?_, ?_, hrest (by decide)⟩
  · rw [intercalate_cons, List.append_assoc]
  · refine Iff.mpr dotted?_eq_some ⟨t :: ts, by rw [List.length_cons, hlength], ?_, rfl⟩
    exact Iff.mpr mapM_cons_eq_some ⟨octet, octets', ht, hts, rfl⟩

theorem readIpv4Addr_of_ends {s : List Char} (h : Ends 10 s) : readIpv4Addr s = none := by
  rw [readIpv4Addr, readIpv4Octets]
  unfold readSeparator
  rw [if_pos (Nat.sub_self 3), readNumber_of_ends h]
  rfl

/-- Behind the first number of an IPv4 address stands a point. -/
theorem readIpv4Addr_of_no_point {text rest : List Char} (htext : '.' ∉ text)
    (hrest : ∀ c ∈ rest.head?, c ≠ '.' ∧ ¬ IsDigit 10 c) : readIpv4Addr (text ++ rest) = none := by
  cases hread : readIpv4Addr (text ++ rest) with
  | none => rfl
  | some r =>
      obtain ⟨octets, rest'⟩ := r
      obtain ⟨four, hfour, hdotted, _⟩ := readIpv4Addr_eq_some hread
      obtain ⟨texts, hlength, htexts, rfl⟩ := Iff.mp dotted?_eq_some hdotted
      match texts, hlength with
      | t :: t' :: ts, _ =>
          obtain ⟨octet, octets', hoctet, _, _⟩ := Iff.mp mapM_cons_eq_some htexts
          have hdigits := (numeral?_eq_some hoctet).2.2.2
          have heq : text ++ rest = t ++ '.' :: (['.'].intercalate (t' :: ts) ++ rest') := by
            rw [hfour, List.intercalate_cons_cons]
            simp
          rcases List.append_eq_append_iff.mp heq with ⟨more, rfl, hmore⟩ | ⟨more, rfl, hmore⟩
          · cases more with
            | nil =>
                rw [List.nil_append] at hmore
                exact absurd rfl (hrest '.' (by rw [hmore]; rfl)).1
            | cons c cs =>
                exact absurd (hdigits c (by simp)) (hrest c (by rw [hmore]; rfl)).2
          · cases more with
            | nil =>
                rw [List.nil_append] at hmore
                exact absurd rfl (hrest '.' (by rw [← hmore]; rfl)).1
            | cons c cs =>
                rw [List.cons_append, List.cons.injEq] at hmore
                refine absurd ?_ htext
                rw [← hmore.1]
                simp

/-! ## Groups -/

/-- A part of an IPv6 address. -/
def hextet? (text : List Char) : Option Nat := numeral? 16 4 65536 true text

/-- The two groups that an IPv4 address makes. -/
def words : List Nat → List Nat
  | [a, b, c, d] => [256 * a + b, 256 * c + d]
  | _ => []

/-- The groups of some parts, of which the last may be an IPv4 address. -/
def groups? : List (List Char) → Option (List Nat)
  | [] => some []
  | [t] => if '.' ∈ t then (dotted? t).map words else (hextet? t).map ([·])
  | t :: ts => do
      let g ← hextet? t
      let gs ← groups? ts
      return g :: gs

section Groups

variable {t : List Char} {ts : List (List Char)} {g : Nat} {gs : List Nat}

theorem isDigit_of_hextet (h : hextet? t = some g) : ∀ c ∈ t, IsDigit 16 c :=
  (numeral?_eq_some h).2.2.2

theorem not_mem_hextet {c : Char} (hc : ¬ IsDigit 16 c) (h : hextet? t = some g) : c ∉ t :=
  fun hmem => hc (isDigit_of_hextet h c hmem)

theorem point_mem_of_dotted {octets : List Nat} (h : dotted? t = some octets) : '.' ∈ t := by
  obtain ⟨texts, hlength, _, rfl⟩ := Iff.mp dotted?_eq_some h
  match texts, hlength with
  | t :: t' :: ts, _ =>
      rw [List.intercalate_cons_cons]
      simp

theorem length_words {octets : List Nat} (h : dotted? t = some octets) :
    (words octets).length = 2 := by
  obtain ⟨texts, hlength, htexts, _⟩ := Iff.mp dotted?_eq_some h
  have hfour : octets.length = 4 := (length_of_mapM htexts).trans hlength
  match octets, hfour with
  | [_, _, _, _], _ => rfl

theorem groups?_cons (ht : hextet? t = some g) (hts : groups? ts = some gs) :
    groups? (t :: ts) = some (g :: gs) := by
  cases ts with
  | nil =>
      cases hts
      rw [groups?, if_neg (not_mem_hextet (by decide) ht), ht]
      rfl
  | cons t' ts => simp [groups?, ht, hts]

theorem groups?_of_mapM (h : ts.mapM hextet? = some gs) : groups? ts = some gs := by
  induction ts generalizing gs with
  | nil =>
      cases h
      rfl
  | cons t ts ih =>
      obtain ⟨g, gs', hg, hgs, rfl⟩ := Iff.mp mapM_cons_eq_some h
      exact groups?_cons hg (ih hgs)

/-- The first part is a group, or all there is is an IPv4 address. -/
theorem groups?_cons_eq_some (h : groups? (t :: ts) = some gs) :
    (∃ g gs', hextet? t = some g ∧ groups? ts = some gs' ∧ gs = g :: gs') ∨
      ts = [] ∧ ∃ octets, dotted? t = some octets ∧ gs = words octets := by
  cases ts with
  | nil =>
      rw [groups?] at h
      split at h
      · obtain ⟨octets, hoctets, rfl⟩ := Option.map_eq_some_iff.mp h
        exact Or.inr ⟨rfl, octets, hoctets, rfl⟩
      · obtain ⟨g, hg, rfl⟩ := Option.map_eq_some_iff.mp h
        exact Or.inl ⟨g, [], hg, rfl, rfl⟩
  | cons t' ts =>
      rw [groups?, Option.bind_eq_bind, Option.bind_eq_some_iff] at h
      · obtain ⟨g, hg, h⟩ := h
        obtain ⟨gs', hgs', h⟩ := Option.bind_eq_some_iff.mp h
        cases h
        exact Or.inl ⟨g, gs', hg, hgs', rfl⟩
      · exact nofun

theorem groups?_ne_nil (h : groups? (t :: ts) = some gs) : gs ≠ [] := by
  rcases groups?_cons_eq_some h with ⟨g, gs', _, _, rfl⟩ | ⟨_, octets, hoctets, rfl⟩
  · exact List.cons_ne_nil _ _
  · exact List.ne_nil_of_length_eq_add_one (length_words hoctets)

end Groups

end DatumConnect.Lib.IpAddr
