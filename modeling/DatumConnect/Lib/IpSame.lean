import DatumConnect.Lib.IpNetwork
/-!
# The same addresses

`IpAddr::from_str` and Python's `ipaddress` take the same texts for addresses, but for those with
a scope, and read the same number from them.
-/

namespace DatumConnect.Lib.IpNetwork

open DatumConnect.Lib.IpAddr

/-! ## Single numbers -/

theorem parseOctet_eq (s : List Char) : parseOctet s = octet? s := by
  have hzero : s ≠ [] →
      ((s ≠ ['0'] ∧ s.head? = some '0') ↔
        ((!false) = true ∧ s.head? = some '0' ∧ 1 < s.length)) := by
    intro hne
    match s, hne with
    | [c], _ => simp
    | c :: c' :: cs, _ => simp
  unfold parseOctet octet? numeral?
  by_cases hne : s = []
  · rw [if_pos hne, if_pos (Or.inl hne)]
  · rw [if_neg hne]
    simp only [hzero hne]
    by_cases hdigits : ∀ c ∈ s, IsDigit 10 c
    · rw [if_neg (not_not.mpr hdigits), if_pos hdigits]
      by_cases hlength : 3 < s.length
      · rw [if_pos hlength, if_pos (Or.inr (Or.inl hlength))]
      · rw [if_neg hlength]
        by_cases hvalue : 255 < digitsValue 10 s
        · have hsize : s = [] ∨ 3 < s.length ∨ 256 ≤ digitsValue 10 s := Or.inr (Or.inr hvalue)
          rw [if_pos hvalue, if_pos hsize, ite_self]
        · have hsize : ¬ (s = [] ∨ 3 < s.length ∨ 256 ≤ digitsValue 10 s) :=
            not_or.mpr ⟨hne, not_or.mpr ⟨hlength, hvalue⟩⟩
          rw [if_neg hvalue, if_neg hsize]
    · rw [if_pos hdigits, if_neg hdigits, ite_self, ite_self]

theorem digit_lt {radix : Nat} {c : Char} (h : IsDigit radix c) :
    (toDigit radix c).getD 0 < radix := by
  obtain ⟨n, hn⟩ := Option.isSome_iff_exists.mp h
  have hlt : decide (n < radix) = true := by
    unfold toDigit at hn
    exact (Option.filter_eq_some_iff.mp hn).2
  rw [hn]
  exact of_decide_eq_true hlt

theorem digitsValue_lt {radix : Nat} {s : List Char} (h : ∀ c ∈ s, IsDigit radix c) :
    digitsValue radix s < radix ^ s.length := by
  have hfold : ∀ acc, s.foldl (fun n c => radix * n + (toDigit radix c).getD 0) acc <
      (acc + 1) * radix ^ s.length := by
    induction s with
    | nil => intro acc; simp
    | cons c cs ih =>
        intro acc
        have hdigit := digit_lt (h c List.mem_cons_self)
        have hrest := ih (fun c' hc' => h c' (List.mem_cons_of_mem _ hc'))
          (radix * acc + (toDigit radix c).getD 0)
        rw [List.foldl_cons, List.length_cons, Nat.pow_succ']
        refine hrest.trans_le ?_
        calc (radix * acc + (toDigit radix c).getD 0 + 1) * radix ^ cs.length
            ≤ (radix * acc + radix) * radix ^ cs.length := by
              apply Nat.mul_le_mul_right
              omega
          _ = (acc + 1) * (radix * radix ^ cs.length) := by
              rw [← Nat.mul_succ, Nat.mul_comm radix, Nat.mul_assoc]
  have hzero := hfold 0
  rwa [Nat.zero_add, Nat.one_mul] at hzero

theorem parseHextet_eq (s : List Char) : parseHextet s = hextet? s := by
  unfold parseHextet hextet? numeral?
  by_cases hdigits : ∀ c ∈ s, IsDigit 16 c
  · rw [if_neg (not_not.mpr hdigits), if_pos hdigits]
    by_cases hlength : 4 < s.length
    · rw [if_pos hlength, if_pos (Or.inr (Or.inl hlength))]
    · rw [if_neg hlength]
      by_cases hne : s = []
      · rw [if_pos hne, if_pos (Or.inl hne)]
      · have hvalue : digitsValue 16 s < 65536 := by
          refine (digitsValue_lt hdigits).trans_le ?_
          exact Nat.pow_le_pow_right (by decide) (Nat.not_lt.mp hlength)
        have hsize : ¬ (s = [] ∨ 4 < s.length ∨ 65536 ≤ digitsValue 16 s) :=
          not_or.mpr ⟨hne, not_or.mpr ⟨hlength, Nat.not_le.mpr hvalue⟩⟩
        rw [if_neg hne, if_neg hsize]
        simp
  · rw [if_pos hdigits, if_neg hdigits, ite_self, ite_self]

theorem octets_eq (s : List Char) : octets s = dotted? s := by
  have hparse : parseOctet = octet? := funext parseOctet_eq
  unfold octets dotted?
  rw [hparse]
  by_cases hlength : (s.splitOn '.').length = 4
  · rw [if_neg (not_not.mpr hlength), if_pos hlength]
  · rw [if_pos hlength, if_neg hlength]

/-- A number is read as it was written. -/
theorem hextet?_toDigits {n : Nat} (h : n < 65536) : hextet? (Nat.toDigits 16 n) = some n := by
  have hchar : ∀ d < 16, toDigit 16 d.digitChar = some d := by decide
  have hdigits : ∀ n, (∀ c ∈ Nat.toDigits 16 n, IsDigit 16 c) ∧
      digitsValue 16 (Nat.toDigits 16 n) = n := by
    intro n
    induction n using Nat.strongRecOn with
    | ind n ih =>
        rw [Nat.toDigits_eq_if (by decide)]
        split
        · rename_i hlt
          refine ⟨List.forall_mem_singleton.mpr ?_, ?_⟩
          · rw [IsDigit, hchar n hlt]
            rfl
          · simp [digitsValue, hchar n hlt]
        · rename_i hge
          have hlt : n % 16 < 16 := Nat.mod_lt n (by decide)
          obtain ⟨hall, hvalue⟩ := ih (n / 16) (by omega)
          refine ⟨List.forall_mem_append.mpr ⟨hall, List.forall_mem_singleton.mpr ?_⟩, ?_⟩
          · rw [IsDigit, hchar _ hlt]
            rfl
          · unfold digitsValue at hvalue ⊢
            rw [List.foldl_append, hvalue]
            simp only [List.foldl_cons, List.foldl_nil, hchar _ hlt, Option.getD_some]
            omega
  have hlength : (Nat.toDigits 16 n).length ≤ 4 :=
    (Nat.length_toDigits_le_iff (by decide) (by decide)).mpr h
  rw [← parseHextet_eq]
  unfold parseHextet
  rw [if_neg (not_not.mpr (hdigits n).1), if_neg (Nat.not_lt.mpr hlength),
    if_neg Nat.toDigits_ne_nil, (hdigits n).2]

/-! ## An IPv4 address at the end -/

theorem withHextets_append {init parts : List (List Char)} (hne : parts ≠ []) :
    withHextets (init ++ parts) = (withHextets parts).map (init ++ ·) := by
  unfold withHextets
  rw [List.getLast?_append_of_ne_nil _ hne, List.dropLast_append_of_ne_nil hne]
  cases hlast : parts.getLast? with
  | none => rfl
  | some last =>
      simp only
      split
      · cases octets last with
        | none => rfl
        | some bytes => simp
      · rfl

theorem octets_lt {texts : List (List Char)} {bytes : List Nat}
    (h : texts.mapM octet? = some bytes) : ∀ b ∈ bytes, b < 256 := by
  induction texts generalizing bytes with
  | nil =>
      cases h
      exact nofun
  | cons t ts ih =>
      obtain ⟨b, bs, hb, hbs, rfl⟩ := mapM_cons_eq_some.mp h
      exact List.forall_mem_cons.mpr ⟨(numeral?_eq_some hb).2.2.1, ih hbs⟩

/-- The two hextets of an IPv4 address are its groups. -/
theorem mapM_words {s : List Char} {bytes : List Nat} (h : dotted? s = some bytes) :
    [Nat.toDigits 16 ((fromBytes bytes >>> 16) % 65536),
      Nat.toDigits 16 (fromBytes bytes % 65536)].mapM hextet? = some (words bytes) := by
  obtain ⟨texts, hlength, htexts, _⟩ := dotted?_eq_some.mp h
  have hfour : bytes.length = 4 := (length_of_mapM htexts).trans hlength
  have hbytes := octets_lt htexts
  match bytes, hfour with
  | [a, b, c, d], _ =>
      have ha : a < 256 := hbytes a (by simp)
      have hb : b < 256 := hbytes b (by simp)
      have hc : c < 256 := hbytes c (by simp)
      have hd : d < 256 := hbytes d (by simp)
      have hhigh : (fromBytes [a, b, c, d] >>> 16) % 65536 = 256 * a + b := by
        rw [Nat.shiftRight_eq_div_pow]
        simp only [fromBytes, List.foldl_cons, List.foldl_nil]
        omega
      have hlow : fromBytes [a, b, c, d] % 65536 = 256 * c + d := by
        simp only [fromBytes, List.foldl_cons, List.foldl_nil]
        omega
      rw [hhigh, hlow]
      refine mapM_cons_eq_some.mpr ⟨_, _, hextet?_toDigits (by omega), ?_, rfl⟩
      exact mapM_cons_eq_some.mpr ⟨_, _, hextet?_toDigits (by omega), rfl, rfl⟩

/-- With hextets for an IPv4 address at the end, all parts are hextets. -/
theorem groups?_iff {parts : List (List Char)} {gs : List Nat} (hne : parts ≠ []) :
    groups? parts = some gs ↔
      ∃ parts', withHextets parts = some parts' ∧ parts'.mapM hextet? = some gs := by
  induction parts generalizing gs with
  | nil => exact absurd rfl hne
  | cons t ts ih =>
      cases ts with
      | nil =>
          by_cases hpoint : '.' ∈ t
          · have hwith : withHextets [t] = (octets t).map fun bytes =>
                [Nat.toDigits 16 ((fromBytes bytes >>> 16) % 65536),
                  Nat.toDigits 16 (fromBytes bytes % 65536)] := by
              unfold withHextets
              simp only [List.getLast?_singleton, if_pos hpoint]
              cases octets t <;> rfl
            rw [groups?, if_pos hpoint, hwith, octets_eq]
            cases hdotted : dotted? t with
            | none => simp
            | some bytes => simp [mapM_words hdotted]
          · have hwith : withHextets [t] = some [t] := by
              unfold withHextets
              simp only [List.getLast?_singleton, if_neg hpoint]
            rw [groups?, if_neg hpoint, hwith]
            cases hextet : hextet? t <;> simp [hextet]
      | cons t' ts =>
          have hwith : withHextets ([t] ++ t' :: ts) = (withHextets (t' :: ts)).map ([t] ++ ·) :=
            withHextets_append (List.cons_ne_nil _ _)
          have hrest : ∀ gs', groups? (t' :: ts) = some gs' ↔
              ∃ parts', withHextets (t' :: ts) = some parts' ∧ parts'.mapM hextet? = some gs' :=
            fun _ => ih (List.cons_ne_nil _ _)
          rw [List.singleton_append] at hwith
          rw [hwith]
          constructor
          · intro h
            rcases groups?_cons_eq_some h with ⟨g, gs', hg, hgs', rfl⟩ | ⟨hnil, _⟩
            · obtain ⟨parts', hparts', hall⟩ := (hrest gs').mp hgs'
              refine ⟨t :: parts', by rw [hparts']; rfl, ?_⟩
              exact mapM_cons_eq_some.mpr ⟨g, gs', hg, hall, rfl⟩
            · cases hnil
          · rintro ⟨parts', hparts', hall⟩
            obtain ⟨parts'', hparts'', rfl⟩ := Option.map_eq_some_iff.mp hparts'
            obtain ⟨g, gs', hg, hgs', rfl⟩ := mapM_cons_eq_some.mp hall
            exact groups?_cons hg ((hrest gs').mpr ⟨parts'', hparts'', hgs'⟩)

/-! ## Parts that are left out -/

/-- No parts leave an empty text between two separators. -/
def padded (texts : List (List Char)) : List (List Char) := if texts = [] then [[]] else texts

/-- The hextets of parts that leave out nothing, or leave out some at one place. -/
inductive Parts : List (List Char) → List Nat → Prop
  | full {parts : List (List Char)} {gs : List Nat} (h : parts.mapM hextet? = some gs)
      (hlength : gs.length = 8) : Parts parts gs
  | short {his los : List (List Char)} {hi lo : List Nat} (hhi : his.mapM hextet? = some hi)
      (hlo : los.mapM hextet? = some lo) (hlength : hi.length + lo.length ≤ 7) :
      Parts (padded his ++ [] :: padded los)
        (hi ++ List.replicate (8 - hi.length - lo.length) 0 ++ lo)

theorem ne_nil_of_mapM {texts : List (List Char)} {gs : List Nat}
    (h : texts.mapM hextet? = some gs) : ∀ t ∈ texts, t ≠ [] := by
  intro t ht
  obtain ⟨g, hg⟩ := mem_of_mapM h t ht
  exact (numeral?_eq_some hg).1

theorem padded_ne_nil (texts : List (List Char)) : padded texts ≠ [] := by
  unfold padded
  split
  · exact List.cons_ne_nil _ _
  · assumption

/-- One part is left out between these. -/
theorem hextetsOf_skip {hi lo : List (List Char)} (hhi : hi ≠ []) (hlo : lo ≠ [])
    (hhi' : ∀ t ∈ hi.tail, t ≠ []) (hlo' : ∀ t ∈ lo.dropLast, t ≠ []) :
    hextetsOf (hi ++ [] :: lo) =
      if 9 < hi.length + (lo.length + 1) then none else hextetsAround hi lo := by
  have hinterior : (hi ++ [] :: lo).tail.dropLast = hi.tail ++ [] :: lo.dropLast := by
    rw [List.tail_append_of_ne_nil hhi, List.dropLast_append_of_ne_nil (List.cons_ne_nil _ _),
      List.dropLast_cons_of_ne_nil hlo]
  have hcount : (hi.tail ++ [] :: lo.dropLast).countP (· = []) = 1 := by
    have hnone : ∀ ts : List (List Char), (∀ t ∈ ts, t ≠ []) → ts.countP (· = []) = 0 := by
      intro ts hts
      rw [List.countP_eq_zero]
      exact fun t ht hnil => hts t ht (of_decide_eq_true hnil)
    rw [List.countP_append, List.countP_cons, hnone _ hhi', hnone _ hlo']
    rfl
  have hindex : (hi.tail ++ [] :: lo.dropLast).findIdx (· = []) + 1 = hi.length := by
    have hfind : (hi.tail ++ [] :: lo.dropLast).findIdx (· = []) = hi.tail.length := by
      rw [List.findIdx_append, if_neg, List.findIdx_cons]
      · simp
      · rw [List.findIdx_lt_length]
        rintro ⟨t, ht, hnil⟩
        exact hhi' t ht (of_decide_eq_true hnil)
    rw [hfind, List.length_tail]
    have hpos := List.length_pos_iff.mpr hhi
    omega
  have hdrop : (hi ++ [] :: lo).drop (hi.length + 1) = lo := by
    rw [List.drop_append]
    simp
  unfold hextetsOf
  simp only [hinterior, hcount, hindex, List.take_left, hdrop, List.length_append, List.length_cons]

theorem padded_head {texts : List (List Char)} (h : ∀ t ∈ texts, t ≠ []) :
    (padded texts).head? = some [] ↔ texts = [] := by
  unfold padded
  split
  · simp_all
  · rename_i hne
    refine ⟨fun hhead => absurd rfl (h [] (List.mem_of_head? hhead)), fun hnil => ?_⟩
    exact absurd hnil hne

theorem padded_last {texts : List (List Char)} (h : ∀ t ∈ texts, t ≠ []) :
    (padded texts).getLast? = some [] ↔ texts = [] := by
  unfold padded
  split
  · simp_all
  · rename_i hne
    refine ⟨fun hlast => absurd rfl (h [] (List.mem_of_getLast? hlast)), fun hnil => ?_⟩
    exact absurd hnil hne

theorem hextetsAround_padded {his los : List (List Char)} {hi lo : List Nat}
    (hhi : his.mapM hextet? = some hi) (hlo : los.mapM hextet? = some lo)
    (hlength : hi.length + lo.length ≤ 7) :
    hextetsAround (padded his) (padded los) =
      some (hi ++ List.replicate (8 - hi.length - lo.length) 0 ++ lo) := by
  have hparse : parseHextet = hextet? := funext parseHextet_eq
  have hhead := padded_head (ne_nil_of_mapM hhi)
  have hlast := padded_last (ne_nil_of_mapM hlo)
  have hclean : ¬ ((padded his).head? = some [] ∧ 1 < (padded his).length ∨
      (padded los).getLast? = some [] ∧ 1 < (padded los).length) := by
    rintro (⟨hnil, hlong⟩ | ⟨hnil, hlong⟩)
    · rw [hhead.mp hnil] at hlong
      exact absurd hlong (by decide)
    · rw [hlast.mp hnil] at hlong
      exact absurd hlong (by decide)
  have hhis : (if (padded his).head? = some [] then [] else padded his) = his := by
    by_cases hnil : his = []
    · rw [if_pos (hhead.mpr hnil), hnil]
    · rw [if_neg (mt hhead.mp hnil), padded, if_neg hnil]
  have hlos : (if (padded los).getLast? = some [] then [] else padded los) = los := by
    by_cases hnil : los = []
    · rw [if_pos (hlast.mpr hnil), hnil]
    · rw [if_neg (mt hlast.mp hnil), padded, if_neg hnil]
  have hhilength := length_of_mapM hhi
  have hlolength := length_of_mapM hlo
  unfold hextetsAround
  rw [if_neg hclean]
  simp only [hhis, hlos, hparse, hhi, hlo]
  rw [if_neg (by omega), ← hhilength, ← hlolength]
  rfl

theorem hextetsAround_eq_some {hi lo : List (List Char)} {gs : List Nat} (hhi : hi ≠ [])
    (hlo : lo ≠ []) (h : hextetsAround hi lo = some gs) :
    ∃ his los high low, hi = padded his ∧ lo = padded los ∧ his.mapM hextet? = some high ∧
      los.mapM hextet? = some low ∧ high.length + low.length ≤ 7 ∧
      gs = high ++ List.replicate (8 - high.length - low.length) 0 ++ low := by
  have hparse : parseHextet = hextet? := funext parseHextet_eq
  unfold hextetsAround at h
  split at h
  · cases h
  · rename_i hclean
    rw [not_or] at hclean
    have hpadhi : hi = padded (if hi.head? = some [] then [] else hi) := by
      split
      · rename_i hhead
        match hi, hhi with
        | [t], _ =>
            cases hhead
            rfl
        | t :: t' :: ts, _ => exact absurd ⟨hhead, by simp⟩ hclean.1
      · rw [padded, if_neg hhi]
    have hpadlo : lo = padded (if lo.getLast? = some [] then [] else lo) := by
      split
      · rename_i hlast
        match lo, hlo with
        | [t], _ =>
            cases hlast
            rfl
        | t :: t' :: ts, _ => exact absurd ⟨hlast, by simp⟩ hclean.2
      · rw [padded, if_neg hlo]
    simp only [hparse] at h
    generalize (if hi.head? = some [] then [] else hi) = his at h hpadhi
    generalize (if lo.getLast? = some [] then [] else lo) = los at h hpadlo
    split at h
    · cases h
    · rename_i hlength
      obtain ⟨high, hhigh, h⟩ := Option.bind_eq_some_iff.mp h
      obtain ⟨low, hlow, h⟩ := Option.bind_eq_some_iff.mp h
      cases h
      have hhighlength := length_of_mapM hhigh
      have hlowlength := length_of_mapM hlow
      refine ⟨_, _, high, low, hpadhi, hpadlo, hhigh, hlow, by omega, ?_⟩
      rw [← hhighlength, ← hlowlength]

theorem padded_tail {texts : List (List Char)} (h : ∀ t ∈ texts, t ≠ []) :
    ∀ t ∈ (padded texts).tail, t ≠ [] := by
  unfold padded
  split
  · exact nofun
  · exact fun t ht => h t (List.mem_of_mem_tail ht)

theorem padded_dropLast {texts : List (List Char)} (h : ∀ t ∈ texts, t ≠ []) :
    ∀ t ∈ (padded texts).dropLast, t ≠ [] := by
  unfold padded
  split
  · exact nofun
  · exact fun t ht => h t (List.mem_of_mem_dropLast ht)

theorem length_padded_le (texts : List (List Char)) :
    (padded texts).length ≤ texts.length + 1 ∧
      (texts ≠ [] → (padded texts).length = texts.length) := by
  unfold padded
  split
  · rename_i hnil
    exact ⟨by simp, fun hne => absurd hnil hne⟩
  · exact ⟨by omega, fun _ => rfl⟩

theorem hextetsOf_iff {parts : List (List Char)} {gs : List Nat} (hthree : 3 ≤ parts.length) :
    hextetsOf parts = some gs ↔ Parts parts gs := by
  have hparse : parseHextet = hextet? := funext parseHextet_eq
  constructor
  · intro h
    unfold hextetsOf at h
    simp only [hparse] at h
    split at h
    · cases h
    · split at h
      · split at h
        · cases h
        · rename_i hwhole
          refine .full h ?_
          rw [length_of_mapM h]
          exact not_not.mp (not_or.mp hwhole).1
      · rename_i hcount
        -- The place that `findIdx` finds is empty, and no end of the parts.
        have hindex : parts.tail.dropLast.findIdx (· = []) < parts.tail.dropLast.length := by
          rw [List.findIdx_lt_length]
          apply List.countP_pos_iff.mp
          omega
        have hskip := List.findIdx_getElem (w := hindex)
        revert hskip h
        generalize parts.tail.dropLast.findIdx (· = []) = k at hindex
        intro h hskip
        rw [List.length_dropLast, List.length_tail] at hindex
        have hempty : parts[k + 1] = [] := by
          rw [List.getElem_dropLast, List.getElem_tail] at hskip
          exact of_decide_eq_true hskip
        have hparts : parts = parts.take (k + 1) ++ [] :: parts.drop (k + 1 + 1) := by
          rw [← hempty, ← List.drop_eq_getElem_cons, List.take_append_drop]
        have hhi : parts.take (k + 1) ≠ [] := by
          rw [← List.length_pos_iff, List.length_take]
          omega
        have hlo : parts.drop (k + 1 + 1) ≠ [] := by
          rw [← List.length_pos_iff, List.length_drop]
          omega
        obtain ⟨his, los, high, low, hhis, hlos, hhigh, hlow, hlength, rfl⟩ :=
          hextetsAround_eq_some hhi hlo h
        rw [hparts, hhis, hlos]
        exact .short hhigh hlow hlength
      · cases h
  · intro h
    cases h with
    | full hall hlength =>
        have hne := ne_nil_of_mapM hall
        have height : parts.length = 8 := by rw [← length_of_mapM hall, hlength]
        have hcount : parts.tail.dropLast.countP (· = []) = 0 := by
          rw [List.countP_eq_zero]
          intro t ht hnil
          exact hne t (List.mem_of_mem_tail (List.mem_of_mem_dropLast ht)) (of_decide_eq_true hnil)
        have hhead : parts.head? ≠ some [] := fun hhead => hne [] (List.mem_of_head? hhead) rfl
        have hlast : parts.getLast? ≠ some [] :=
          fun hlast => hne [] (List.mem_of_getLast? hlast) rfl
        unfold hextetsOf
        simp only [hcount, hparse]
        rw [if_neg (by omega), if_neg (by simp [height, hhead, hlast])]
        exact hall
    | @short his los hi lo hhi hlo hlength =>
        have hhis := ne_nil_of_mapM hhi
        have hlos := ne_nil_of_mapM hlo
        rw [hextetsOf_skip (padded_ne_nil his) (padded_ne_nil los) (padded_tail hhis)
          (padded_dropLast hlos), hextetsAround_padded hhi hlo hlength, if_neg]
        have hhilength := length_of_mapM hhi
        have hlolength := length_of_mapM hlo
        obtain ⟨hhile, hhieq⟩ := length_padded_le his
        obtain ⟨hlole, hloeq⟩ := length_padded_le los
        by_cases hhinil : his = []
        · by_cases hlonil : los = []
          · rw [hhinil, hlonil]
            decide
          · have hzero : his.length = 0 := List.length_eq_zero_iff.mpr hhinil
            have hlosame := hloeq hlonil
            omega
        · have hhisame := hhieq hhinil
          omega

/-! ## Whole addresses -/

theorem intercalate_append {sep : Char} {as bs : List (List Char)} (has : as ≠ []) (hbs : bs ≠ []) :
    [sep].intercalate (as ++ bs) = [sep].intercalate as ++ sep :: [sep].intercalate bs := by
  obtain ⟨a, as, rfl⟩ := List.exists_cons_of_ne_nil has
  obtain ⟨b, bs, rfl⟩ := List.exists_cons_of_ne_nil hbs
  rw [List.cons_append, intercalate_cons, intercalate_cons, intercalate_cons]
  simp [led]

theorem intercalate_padded (his los : List (List Char)) :
    [':'].intercalate (padded his ++ [] :: padded los) =
      [':'].intercalate his ++ ':' :: ':' :: [':'].intercalate los := by
  have hpadded : ∀ texts, [':'].intercalate (padded texts) = [':'].intercalate texts := by
    intro texts
    unfold padded
    split
    · rename_i hnil
      rw [hnil]
      rfl
    · rfl
  have hcons : [] :: padded los = [[]] ++ padded los := rfl
  rw [intercalate_append (padded_ne_nil his) (List.cons_ne_nil _ _), hpadded, hcons,
    intercalate_append (List.cons_ne_nil _ _) (padded_ne_nil los), hpadded]
  rfl

theorem colon_not_mem_groups {texts : List (List Char)} {gs : List Nat}
    (h : groups? texts = some gs) : ∀ t ∈ texts, ':' ∉ t := by
  induction texts generalizing gs with
  | nil => exact nofun
  | cons t ts ih =>
      rcases groups?_cons_eq_some h with ⟨g, gs', ht, hts, _⟩ | ⟨rfl, bytes, hbytes, _⟩
      · exact List.forall_mem_cons.mpr ⟨not_mem_hextet (by decide) ht, ih hts⟩
      · refine List.forall_mem_singleton.mpr fun hmem => ?_
        obtain ⟨parts, _, hparts, rfl⟩ := dotted?_eq_some.mp hbytes
        rcases mem_intercalate hmem with heq | ⟨t, ht, hcolon⟩
        · cases heq
        · obtain ⟨octet, hoctet⟩ := mem_of_mapM hparts t ht
          have hdigit := (numeral?_eq_some hoctet).2.2.2 ':' hcolon
          revert hdigit
          decide

theorem length_groups?_le {texts : List (List Char)} {gs : List Nat} (h : groups? texts = some gs) :
    gs.length ≤ texts.length + 1 := by
  induction texts generalizing gs with
  | nil =>
      cases h
      exact Nat.zero_le _
  | cons t ts ih =>
      rcases groups?_cons_eq_some h with ⟨g, gs', _, hts, rfl⟩ | ⟨rfl, bytes, hbytes, rfl⟩
      · have hrest := ih hts
        rw [List.length_cons, List.length_cons]
        omega
      · rw [length_words hbytes]
        exact Nat.le_refl 2

/-- What the parts become with an IPv4 address at their end. -/
theorem withHextets_eq_some {parts parts' : List (List Char)}
    (h : withHextets parts = some parts') :
    parts' = parts ∨ ∃ init last high low, parts = init ++ [last] ∧ parts' = init ++ [high, low] ∧
      high ≠ [] ∧ withHextets [last] = some [high, low] := by
  cases hlast : parts.getLast? with
  | none =>
      unfold withHextets at h
      rw [hlast] at h
      cases h
      exact Or.inl rfl
  | some last =>
      obtain ⟨init, rfl⟩ := List.getLast?_eq_some_iff.mp hlast
      rw [withHextets_append (List.cons_ne_nil _ _)] at h
      obtain ⟨ends, hends, rfl⟩ := Option.map_eq_some_iff.mp h
      have hcase := hends
      unfold withHextets at hcase
      simp only [List.getLast?_singleton] at hcase
      split at hcase
      · obtain ⟨bytes, _, hcase⟩ := Option.bind_eq_some_iff.mp hcase
        cases hcase
        exact Or.inr ⟨init, last, _, _, rfl, rfl, Nat.toDigits_ne_nil, hends⟩
      · cases hcase
        exact Or.inl rfl

theorem groups_of_parts {parts parts' : List (List Char)} {gs : List Nat} (hne : parts ≠ [])
    (hwith : withHextets parts = some parts') (h : Parts parts' gs) :
    Groups ([':'].intercalate parts) gs := by
  cases h with
  | full hall hlength => exact .full ((groups?_iff hne).mpr ⟨parts', hwith, hall⟩) hlength
  | @short his los hi lo hhi hlo hlength =>
      rcases withHextets_eq_some hwith with rfl | ⟨init, last, high, low, rfl, heq, hhigh, hends⟩
      · rw [intercalate_padded]
        exact .short hhi (groups?_of_mapM hlo) hlength
      · have hsplit : (padded his ++ [[]]) ++ padded los = init ++ [high, low] := by
          rw [← heq, List.append_assoc]
          rfl
        have hmid : ∃ mid, init = padded his ++ [[]] ++ mid ∧ padded los = mid ++ [high, low] := by
          rcases List.append_eq_append_iff.mp hsplit with ⟨mid, hinit, hlos⟩ | ⟨more, hhis, hlos⟩
          · exact ⟨mid, hinit, hlos⟩
          · match more, hhis, hlos with
            | [], hhis, hlos =>
                rw [List.append_nil] at hhis
                exact ⟨[], by rw [List.append_nil, hhis], hlos.symm⟩
            | [t], hhis, hlos =>
                rw [List.singleton_append, List.cons.injEq] at hlos
                have hlast := (List.append_inj' hhis rfl).2
                rw [List.cons.injEq, ← hlos.1] at hlast
                exact absurd hlast.1.symm hhigh
            | t :: t' :: ts, hhis, hlos =>
                have hlength := congrArg List.length hlos
                have hpos := List.length_pos_iff.mpr (padded_ne_nil los)
                simp only [List.length_append, List.length_cons, List.length_nil] at hlength
                omega
        obtain ⟨mid, rfl, hlos⟩ := hmid
        have hsame : los = mid ++ [high, low] := by
          rw [← hlos, padded, if_neg]
          rintro rfl
          have hlength := congrArg List.length hlos
          simp [padded] at hlength
        have hgroups : groups? (mid ++ [last]) = some lo := by
          refine (groups?_iff (by simp)).mpr ⟨los, ?_, hlo⟩
          rw [withHextets_append (List.cons_ne_nil _ _), hends, hsame]
          rfl
        have hpadded : padded (mid ++ [last]) = mid ++ [last] := by
          rw [padded, if_neg (by simp)]
        have hwhole : padded his ++ [[]] ++ mid ++ [last] =
            padded his ++ [] :: padded (mid ++ [last]) := by
          rw [hpadded]
          simp
        rw [hwhole, intercalate_padded]
        exact .short hhi hgroups hlength

theorem hextets_iff {s : List Char} {gs : List Nat} : hextets s = some gs ↔ Groups s gs := by
  constructor
  · intro h
    unfold hextets at h
    simp only at h
    split at h
    · cases h
    · rename_i hthree
      obtain ⟨parts', hwith, h⟩ := Option.bind_eq_some_iff.mp h
      have hne : s.splitOn ':' ≠ [] := List.splitOn_ne_nil _ _
      have hlength : 3 ≤ parts'.length := by
        rcases withHextets_eq_some hwith with rfl | ⟨init, last, high, low, heq, rfl, _⟩
        · omega
        · rw [heq] at hthree
          simp at hthree ⊢
          omega
      have hgroups := groups_of_parts hne hwith ((hextetsOf_iff hlength).mp h)
      rwa [List.intercalate_splitOn] at hgroups
  · intro h
    cases h with
    | @full texts _ hgroups hlength =>
        have hlong := length_groups?_le hgroups
        have hne : texts ≠ [] := by
          rintro rfl
          cases hgroups
          cases hlength
        have hsplit := List.splitOn_intercalate ':' (colon_not_mem_groups hgroups) hne
        obtain ⟨parts', hwith, hall⟩ := (groups?_iff hne).mp hgroups
        have hparts : hextetsOf parts' = some gs := by
          refine (hextetsOf_iff ?_).mpr (.full hall hlength)
          rw [← length_of_mapM hall]
          omega
        unfold hextets
        simp only [hsplit]
        rw [if_neg (by omega), hwith]
        exact hparts
    | @short his los hi lo hhi hlo hlength =>
        have hcolon : ∀ t ∈ padded his ++ [] :: padded los, ':' ∉ t := by
          have hpadded : ∀ texts : List (List Char), (∀ t ∈ texts, ':' ∉ t) →
              ∀ t ∈ padded texts, ':' ∉ t := by
            intro texts htexts
            unfold padded
            split
            · exact List.forall_mem_singleton.mpr List.not_mem_nil
            · exact htexts
          refine List.forall_mem_append.mpr ⟨?_, List.forall_mem_cons.mpr ⟨List.not_mem_nil, ?_⟩⟩
          · exact hpadded his (colon_not_mem_groups (groups?_of_mapM hhi))
          · exact hpadded los (colon_not_mem_groups hlo)
        have hsplit := List.splitOn_intercalate ':' hcolon (by simp)
        rw [intercalate_padded] at hsplit
        have hlos : ∃ los', withHextets (padded los) = some (padded los') ∧
            los'.mapM hextet? = some lo := by
          by_cases hnil : los = []
          · subst hnil
            cases hlo
            exact ⟨[], rfl, rfl⟩
          · obtain ⟨los', hwith, hall⟩ := (groups?_iff hnil).mp hlo
            have hne : los' ≠ [] := by
              rintro rfl
              cases hall
              obtain ⟨t, ts, rfl⟩ := List.exists_cons_of_ne_nil hnil
              exact groups?_ne_nil hlo rfl
            refine ⟨los', ?_, hall⟩
            rw [padded, if_neg hnil, padded, if_neg hne, hwith]
        obtain ⟨los', hwith, hall⟩ := hlos
        have hwith' : withHextets (padded his ++ [] :: padded los) =
            some (padded his ++ [] :: padded los') := by
          have hcons : ∀ texts : List (List Char),
              padded his ++ [] :: texts = (padded his ++ [[]]) ++ texts := by simp
          rw [hcons (padded los), withHextets_append (padded_ne_nil los), hwith, Option.map_some,
            hcons (padded los')]
        have hpos := List.length_pos_iff.mpr (padded_ne_nil his)
        have hpos' := List.length_pos_iff.mpr (padded_ne_nil los)
        have hpos'' := List.length_pos_iff.mpr (padded_ne_nil los')
        unfold hextets
        simp only [hsplit]
        rw [if_neg, hwith', Option.bind_some, hextetsOf_iff]
        · exact .short hhi hall hlength
        · rw [List.length_append, List.length_cons]
          omega
        · rw [List.length_append, List.length_cons]
          omega

/-- The addresses of Python, of either kind. -/
theorem stands_iff {s : List Char} {ip : IpAddr} :
    Stands s ip ↔ (∃ n, ip = .v4 n ∧ ipv4Address s = some n) ∨
      ∃ n, ip = .v6 n ∧ (hextets s).map (ofGroups 128 16) = some n := by
  unfold ipv4Address
  rw [octets_eq]
  constructor
  · intro h
    cases h with
    | v4 hdotted => exact Or.inl ⟨_, rfl, by rw [hdotted]; rfl⟩
    | v6 hgroups => exact Or.inr ⟨_, rfl, by rw [hextets_iff.mpr hgroups]; rfl⟩
  · rintro (⟨n, rfl, h⟩ | ⟨n, rfl, h⟩)
    · obtain ⟨bytes, hbytes, rfl⟩ := Option.map_eq_some_iff.mp h
      exact .v4 hbytes
    · obtain ⟨gs, hgs, rfl⟩ := Option.map_eq_some_iff.mp h
      exact .v6 (hextets_iff.mp hgs)

/-! ## Masks -/

/-- The mask as a shift to the left, by less than the width. -/
theorem netmask_eq {width len : Nat} (h : len ≤ width) :
    netmask width len =
      if len = 0 then BitVec.ofNat width 0 else BitVec.allOnes width <<< (width - len) := by
  apply BitVec.eq_of_getLsbD_eq
  intro i hi
  unfold netmask
  split
  · rename_i hzero
    subst hzero
    simp
  · simp only [BitVec.getLsbD_xor, BitVec.getLsbD_allOnes, BitVec.getLsbD_ushiftRight,
      BitVec.getLsbD_shiftLeft, hi, decide_true]
    by_cases hlow : i < width - len
    · have hsum : len + i < width := by omega
      simp [hlow, hsum]
    · have hsum : ¬ len + i < width := by omega
      have hrest : i - (width - len) < width := by omega
      simp [hlow, hsum, hrest]

end DatumConnect.Lib.IpNetwork
