import DatumConnect.Lib.Base64
import DatumConnect.Lib.Text
/-!
# Labelled base64

Bytes in the standard base64 alphabet between a line that begins with a label and one that ends with
it, laid out with any white space.
-/

namespace DatumConnect.Lib.Base64

def standardSymbol (n : Nat) : Char := if n = 62 then '+' else if n = 63 then '/' else symbol n

/-- Padded to groups of four. -/
def encodeStandard (bytes : List UInt8) : List Char :=
  (toSextets bytes).map standardSymbol ++ List.replicate ((3 - bytes.length % 3) % 3) '='

example : encodeStandard [0xfb, 0xff] = ['+', '/', '8', '='] := by decide

theorem unpad_padded {symbols : List Char} {padding : Nat} (hclean : '=' ∉ symbols)
    (hpadding : padding ≤ 2) {s : List Char} (hs : s = symbols ++ List.replicate padding '=') :
    (if s.reverse.take 2 = ['=', '='] then s.dropLast.dropLast
      else if s.reverse.take 1 = ['='] then s.dropLast else s) = symbols := by
  have hhead : ∀ c rest, symbols.reverse = c :: rest → c ≠ '=' := by
    rintro c rest hreverse rfl
    apply hclean
    rw [← List.mem_reverse, hreverse]
    exact List.mem_cons_self
  obtain rfl | rfl | rfl : padding = 0 ∨ padding = 1 ∨ padding = 2 := by omega
  · rw [List.replicate_zero, List.append_nil] at hs
    rw [hs]
    cases hreverse : symbols.reverse with
    | nil => simp
    | cons c rest => simp [hhead c rest hreverse]
  · have hreverse : s.reverse = '=' :: symbols.reverse := by
      rw [hs]
      exact List.reverse_append
    have hlast : s.dropLast = symbols := by
      rw [hs]
      exact List.dropLast_concat
    rw [hreverse, hlast]
    cases hrest : symbols.reverse with
    | nil => simp
    | cons c rest => simp [hhead c rest hrest]
  · have hreverse : s.reverse = '=' :: '=' :: symbols.reverse := by
      rw [hs]
      exact List.reverse_append
    have htwo : s.dropLast.dropLast = symbols := by
      rw [hs]
      simp
    rw [hreverse]
    exact (if_pos rfl).trans htwo

theorem decodeStandard_padded {symbols : List Char} {padding : Nat}
    (hclean : '=' ∉ symbols) (hpadding : padding ≤ 2)
    (hlength : (symbols.length + padding) % 4 = 0) :
    decodeStandard (symbols ++ List.replicate padding '=') =
      (symbols.mapM fun c => if c = '+' then some 62 else if c = '/' then some 63
        else if c = '-' ∨ c = '_' then none else value c).bind ofSextets := by
  have hlen : (symbols ++ List.replicate padding '=').length % 4 = 0 := by
    rwa [List.length_append, List.length_replicate]
  unfold decodeStandard
  simp only [if_pos hlen, unpad_padded hclean hpadding rfl]

theorem standardSymbol_ne_pad {n : Nat} (h : n < 64) : standardSymbol n ≠ '=' := by
  have hall : ∀ n < 64, standardSymbol n ≠ '=' := by decide
  exact hall n h

theorem value_standardSymbol {n : Nat} (h : n < 64) :
    (if standardSymbol n = '+' then some 62 else if standardSymbol n = '/' then some 63
      else if standardSymbol n = '-' ∨ standardSymbol n = '_' then none
      else value (standardSymbol n)) = some n := by
  have hall : ∀ n < 64, (if standardSymbol n = '+' then some 62
      else if standardSymbol n = '/' then some 63
      else if standardSymbol n = '-' ∨ standardSymbol n = '_' then none
      else value (standardSymbol n)) = some n := by decide
  exact hall n h

theorem decodeStandard_encodeStandard (bytes : List UInt8) :
    decodeStandard (encodeStandard bytes) = some bytes := by
  have hsextets := toSextets_lt bytes
  have hlength := length_toSextets bytes
  unfold encodeStandard
  rw [decodeStandard_padded]
  · have hread : ((toSextets bytes).map standardSymbol).mapM (fun c =>
        if c = '+' then some 62 else if c = '/' then some 63
        else if c = '-' ∨ c = '_' then none else value c) = some (toSextets bytes) := by
      generalize toSextets bytes = sextets at hsextets
      induction sextets with
      | nil => rfl
      | cons n rest ih =>
        have hrest := ih fun m hm => hsextets m (List.mem_cons_of_mem n hm)
        simp only [List.map_cons, List.mapM_cons, value_standardSymbol (hsextets n List.mem_cons_self),
          hrest]
        rfl
    rw [hread]
    exact ofSextets_toSextets bytes
  · intro hmem
    obtain ⟨n, hn, hpad⟩ := List.mem_map.mp hmem
    exact standardSymbol_ne_pad (hsextets n hn) hpad
  · omega
  · have hrest : bytes.length % 3 = 0 ∨ bytes.length % 3 = 1 ∨ bytes.length % 3 = 2 := by omega
    rw [List.length_map, hlength]
    rcases hrest with hrest | hrest | hrest
    all_goals
      rw [hrest]
      omega

/-- Neither the dash of the lines around it nor white space is in it. -/
theorem encodeStandard_plain {bytes : List UInt8} {c : Char} (h : c ∈ encodeStandard bytes) :
    c ≠ '-' ∧ Text.isWhitespace c = false := by
  have hall : ∀ n < 64, standardSymbol n ≠ '-' ∧ Text.isWhitespace (standardSymbol n) = false := by
    decide
  unfold encodeStandard at h
  rcases List.mem_append.mp h with h | h
  · obtain ⟨n, hn, rfl⟩ := List.mem_map.mp h
    exact hall n (toSextets_lt bytes n hn)
  · rw [List.eq_of_mem_replicate h]
    decide

end DatumConnect.Lib.Base64

namespace DatumConnect.Lib.Text

/-- A text is found where it first stands. -/
theorem splitOnceText_append {sep before after : List Char}
    (h : ∀ before' after', before ++ sep ++ after = before' ++ sep ++ after' →
      before.length ≤ before'.length) :
    splitOnceText sep (before ++ sep ++ after) = some (before, after) :=
  splitOnceText_eq_some.mpr ⟨rfl, h⟩

/-- It stands nowhere before, when what is before has not its first character. -/
theorem splitOnceText_of_not_mem {first : Char} {sep before after : List Char}
    (h : first ∉ before) :
    splitOnceText (first :: sep) (before ++ (first :: sep) ++ after) = some (before, after) := by
  apply splitOnceText_append
  intro before' after' heq
  by_contra hlt
  have hget : (before ++ (first :: sep) ++ after)[before'.length]? = some first := by
    rw [heq, List.append_assoc, List.getElem?_append_right (Nat.le_refl _), Nat.sub_self]
    rfl
  rw [List.append_assoc, List.getElem?_append_left (by omega)] at hget
  exact h (List.mem_of_getElem? hget)

/-- It stands nowhere before, when it is not in what is before and no end of it begins it. -/
theorem splitOnceText_of_not_infix {sep before after : List Char} (h : ¬ sep <:+: before)
    (hborder : ∀ k < sep.length, 0 < k → sep.drop k ≠ sep.take (sep.length - k)) :
    splitOnceText sep (before ++ sep ++ after) = some (before, after) := by
  apply splitOnceText_append
  intro before' after' heq
  by_contra hlt
  -- The two places overlap, or the first is within what is before.
  have hsep : sep <+: (before ++ sep ++ after).drop before'.length := by
    rw [heq, List.append_assoc, List.drop_left]
    exact List.prefix_append _ _
  by_cases hwithin : before'.length + sep.length ≤ before.length
  · apply h
    have hpre : sep <+: before.drop before'.length := by
      rw [List.append_assoc, List.drop_append_of_le_length (by omega)] at hsep
      refine List.prefix_of_prefix_length_le hsep (List.prefix_append _ _) ?_
      rw [List.length_drop]
      omega
    exact hpre.isInfix.trans (List.drop_suffix _ before).isInfix
  · have hk : before.length - before'.length < sep.length := by omega
    apply hborder (before.length - before'.length) hk (by omega)
    obtain ⟨rest, hrest⟩ := hsep
    have hdrop := congrArg (List.drop (before.length - before'.length)) hrest
    rw [List.drop_drop, Nat.add_sub_cancel' (by omega), List.append_assoc, List.drop_left,
      List.drop_append_of_le_length hk.le] at hdrop
    have htake := congrArg (List.take (sep.length - (before.length - before'.length))) hdrop
    rw [List.take_append_of_le_length (by simp), List.take_append_of_le_length (by omega)] at htake
    rw [← htake, List.take_of_length_le (by simp)]

end DatumConnect.Lib.Text
