import DatumConnect.Lib.Text
/-!
# What a text gives away of a secret

A text is quiet about a secret if it does not hold so many characters in a row of it.  A secret has
characters of some kind only, so what stands in a text between others is read apart, and so it is
when the secret itself has been replaced there.
-/

namespace DatumConnect.Lib.Secret

/-- Not so many characters in a row of the secret. -/
def Quiet (n : Nat) (secret text : List Char) : Prop :=
  ∀ run, run.length = n → run <:+: secret → ¬ run <:+: text

/-- What holds of texts apart holds of them together if characters of no secret are between them. -/
structure Splits (word : Char → Bool) (Q : List Char → Prop) : Prop where
  nil : Q []
  cons : ∀ {before after : List Char} {c : Char}, word c = false →
    (Q (before ++ c :: after) ↔ Q before ∧ Q after)

/-! ## One text -/

/-- What does not hold a character stands before it or after it. -/
theorem infix_append_cons {run before after : List Char} {c : Char} (hc : c ∉ run)
    (h : run <:+: before ++ c :: after) : run <:+: before ∨ run <:+: after := by
  obtain ⟨s, t, heq⟩ := h
  rw [List.append_assoc, List.append_eq_append_iff] at heq
  rcases heq with ⟨a, hbefore, heq⟩ | ⟨a, hs, heq⟩
  · rw [List.append_eq_append_iff] at heq
    rcases heq with ⟨b, ha, -⟩ | ⟨b, hrun, hafter⟩
    · left
      rw [hbefore, ha, ← List.append_assoc]
      exact ⟨s, b, rfl⟩
    · cases b with
      | nil =>
        left
        rw [List.append_nil] at hrun
        rw [hbefore, hrun]
        exact ⟨s, [], List.append_nil _⟩
      | cons d b =>
        rw [List.cons_append, List.cons.injEq] at hafter
        rw [hrun, ← hafter.1] at hc
        exact absurd (List.mem_append_right a List.mem_cons_self) hc
  · cases a with
    | nil =>
      rw [List.nil_append] at heq
      cases run with
      | nil => exact Or.inl ⟨[], before, rfl⟩
      | cons d run =>
        rw [List.cons_append, List.cons.injEq] at heq
        rw [heq.1] at hc
        exact absurd List.mem_cons_self hc
    | cons d a =>
      rw [List.cons_append, List.cons.injEq] at heq
      right
      rw [heq.2, ← List.append_assoc]
      exact ⟨a, t, rfl⟩

namespace Quiet

variable {n : Nat} {secret text part : List Char}

theorem of_infix (h : Quiet n secret text) (hpart : part <:+: text) : Quiet n secret part :=
  fun run hlength hrun hinside => h run hlength hrun (hinside.trans hpart)

theorem of_length (h : text.length < n) : Quiet n secret text := by
  intro run hlength _ hinside
  have hle := hinside.length_le
  omega

theorem splits {word : Char → Bool} (hn : 0 < n) (hword : ∀ c ∈ secret, word c = true) :
    Splits word (Quiet n secret) where
  nil := of_length hn
  cons {before after c} hc := by
    constructor
    · intro h
      exact ⟨h.of_infix ⟨[], c :: after, rfl⟩, h.of_infix ⟨before ++ [c], [], by simp⟩⟩
    · rintro ⟨hbefore, hafter⟩ run hlength hrun hinside
      have hnot : c ∉ run := by
        intro hmem
        rw [hword c (hrun.subset hmem)] at hc
        cases hc
      rcases infix_append_cons hnot hinside with h | h
      · exact hbefore run hlength hrun h
      · exact hafter run hlength hrun h

end Quiet

/-! ## Short words -/

/-- All words of the text are shorter, the one it goes on with, too. -/
def shortWords (word : Char → Bool) (n : Nat) : (length : Nat) → List Char → Bool
  | length, [] => length < n
  | length, c :: rest =>
      if word c then shortWords word n (length + 1) rest
      else length < n && shortWords word n 0 rest

theorem quiet_of_shortWords {word : Char → Bool} {n : Nat} {secret : List Char} (hn : 0 < n)
    (hword : ∀ c ∈ secret, word c = true) {begun text : List Char}
    (h : shortWords word n begun.length text = true) : Quiet n secret (begun ++ text) := by
  induction text generalizing begun with
  | nil =>
    rw [List.append_nil]
    exact Quiet.of_length (of_decide_eq_true h)
  | cons c rest ih =>
    unfold shortWords at h
    split at h
    · rw [← List.singleton_append, ← List.append_assoc]
      apply ih
      rw [List.length_append]
      exact h
    · rename_i hc
      rw [Bool.and_eq_true, decide_eq_true_eq] at h
      rw [(Quiet.splits hn hword).cons (by simpa using hc)]
      exact ⟨Quiet.of_length h.1, @ih [] h.2⟩

/-! ## Replacing the secret -/

/-- A text is replaced on the two sides of a character that is not in it. -/
theorem replaceFrom_append {pat rep : List Char} (hpat : pat ≠ []) {c : Char} (hc : c ∉ pat)
    {before after : List Char} {skip : Nat} (hskip : skip ≤ before.length) :
    Text.replaceFrom pat rep skip (before ++ c :: after) =
      Text.replaceFrom pat rep skip before ++ c :: Text.replaceFrom pat rep 0 after := by
  induction before generalizing skip with
  | nil =>
    obtain rfl : skip = 0 := Nat.le_zero.mp hskip
    obtain ⟨first, rest, rfl⟩ := List.exists_cons_of_ne_nil hpat
    have hnot : ¬ (first :: rest).isPrefixOf (c :: after) = true := by
      rw [List.isPrefixOf_iff_prefix, List.cons_prefix_cons]
      rintro ⟨rfl, -⟩
      exact hc List.mem_cons_self
    exact if_neg hnot
  | cons d before ih =>
    cases skip with
    | succ skip => exact ih (Nat.le_of_succ_le_succ hskip)
    | zero =>
      have hiff : pat.isPrefixOf (d :: before ++ c :: after) = pat.isPrefixOf (d :: before) := by
        rw [Bool.eq_iff_iff, List.isPrefixOf_iff_prefix, List.isPrefixOf_iff_prefix]
        refine ⟨fun h => ?_, fun h => h.trans (List.prefix_append _ _)⟩
        rcases List.prefix_or_prefix_of_prefix h (List.prefix_append (d :: before) (c :: after)) with
          hshort | hlong
        · exact hshort
        · obtain ⟨more, hmore⟩ := hlong
          rw [← hmore, List.prefix_append_right_inj] at h
          cases more with
          | nil => rw [← hmore, List.append_nil]
          | cons e more =>
            rw [List.cons_prefix_cons] at h
            rw [← hmore, h.1] at hc
            exact absurd (List.mem_append_right _ List.mem_cons_self) hc
      rw [List.cons_append, Text.replaceFrom, Text.replaceFrom, ← List.cons_append, hiff]
      split
      · rename_i hmatch
        have hlength := (List.isPrefixOf_iff_prefix.mp hmatch).length_le
        rw [List.length_cons] at hlength
        rw [ih (by omega), List.append_assoc]
      · rw [ih (Nat.zero_le _), List.cons_append]

/-- A quiet text is quiet still when something has been replaced by what is set apart. -/
theorem quiet_replaceFrom {word : Char → Bool} {n : Nat} {secret pat note : List Char}
    {first last : Char} (hn : 0 < n) (hword : ∀ c ∈ secret, word c = true)
    (hfirst : word first = false) (hlast : word last = false) (hnote : Quiet n secret note)
    {begun text : List Char} (skip : Nat) (h : Quiet n secret (begun ++ text))
    (hbegun : 0 < skip → begun = []) :
    Quiet n secret (begun ++ Text.replaceFrom pat (first :: (note ++ [last])) skip text) := by
  have hsplits := Quiet.splits hn hword
  induction text generalizing begun skip with
  | nil => cases skip <;> exact h
  | cons c text ih =>
    have hrest : Quiet n secret text := h.of_infix ⟨begun ++ [c], [], by simp⟩
    cases skip with
    | succ skip =>
      rw [hbegun (Nat.succ_pos skip)]
      exact @ih [] skip hrest fun _ => rfl
    | zero =>
      rw [Text.replaceFrom]
      split
      · rw [List.cons_append, hsplits.cons hfirst, List.append_assoc, List.singleton_append,
          hsplits.cons hlast]
        exact ⟨h.of_infix ⟨[], c :: text, rfl⟩, hnote, @ih [] _ hrest fun _ => rfl⟩
      · have hih := @ih (begun ++ [c]) 0 (by rwa [List.append_assoc, List.singleton_append])
          fun hlt => absurd hlt (Nat.lt_irrefl 0)
        rwa [List.append_assoc, List.singleton_append] at hih

/-- Where the secret, or another, is replaced the sides of a character are read apart, too. -/
theorem Splits.replace {word : Char → Bool} {Q : List Char → Prop} (h : Splits word Q)
    {pat : List Char} (hpat : pat ≠ []) (hword : ∀ c ∈ pat, word c = true) (rep : List Char) :
    Splits word fun text => Q (Text.replace pat rep text) where
  nil := h.nil
  cons {before after c} hc := by
    have hnot : c ∉ pat := by
      intro hmem
      rw [hword c hmem] at hc
      cases hc
    unfold Text.replace
    rw [replaceFrom_append hpat hnot (Nat.zero_le _)]
    exact h.cons hc

/-! ## Echoes -/

/-- The text gives nothing of the secret away but whole tokens: each is the first that stands in
what is left of it, and no part of the secret stands before it. -/
inductive Echoes (n : Nat) (secret token : List Char) : List Char → Prop
  | quiet {text : List Char} (h : Quiet n secret text) : Echoes n secret token text
  | whole {before after : List Char} (hne : token ≠ []) (hbefore : Quiet n secret before)
      (hfirst : ¬ token <:+: (before ++ token).dropLast) (hafter : Echoes n secret token after) :
      Echoes n secret token (before ++ (token ++ after))

theorem Echoes.quiet_of_nil {n : Nat} {secret text : List Char} (h : Echoes n secret [] text) :
    Quiet n secret text := by
  cases h with
  | quiet h => exact h
  | whole hne => exact absurd rfl hne

theorem dropLast_prefix (before pat after : List Char) :
    (before ++ pat).dropLast <+: before ++ (pat ++ after) := by
  rw [← List.append_assoc]
  exact (List.dropLast_prefix _).trans (List.prefix_append _ _)

theorem replace_first {pat rep before after : List Char} (hpat : pat ≠ [])
    (hfirst : ¬ pat <:+: (before ++ pat).dropLast) :
    Text.replace pat rep (before ++ (pat ++ after)) =
      before ++ (rep ++ Text.replace pat rep after) := by
  induction before with
  | nil => exact Text.replace_match hpat
  | cons c before ih =>
    rw [List.cons_append, List.dropLast_cons_of_ne_nil (by simp [hpat])] at hfirst
    have hnot : ¬ pat.isPrefixOf (c :: (before ++ (pat ++ after))) = true := by
      rw [List.isPrefixOf_iff_prefix]
      intro hpre
      -- the match would end before the one that is there
      have hshort : pat <+: c :: (before ++ pat).dropLast := by
        refine List.prefix_of_prefix_length_le hpre ?_ ?_
        · exact List.cons_prefix_cons.mpr ⟨rfl, dropLast_prefix before pat after⟩
        · rw [List.length_cons, List.length_dropLast, List.length_append]
          have := List.length_pos_iff.mpr hpat
          omega
      exact hfirst hshort.isInfix
    have hrest : ¬ pat <:+: (before ++ pat).dropLast := fun h =>
      hfirst (h.trans (List.suffix_cons c _).isInfix)
    calc Text.replace pat rep (c :: (before ++ (pat ++ after)))
        = c :: Text.replace pat rep (before ++ (pat ++ after)) := if_neg hnot
      _ = c :: (before ++ (rep ++ Text.replace pat rep after)) := by rw [ih hrest]

theorem replace_of_outside {pat rep text : List Char} (h : ¬ pat <:+: text) :
    Text.replace pat rep text = text := by
  induction text with
  | nil => rfl
  | cons c text ih =>
    have hnot : ¬ pat.isPrefixOf (c :: text) = true := by
      rw [List.isPrefixOf_iff_prefix]
      exact fun hpre => h hpre.isInfix
    calc Text.replace pat rep (c :: text)
        = c :: Text.replace pat rep text := if_neg hnot
      _ = c :: text := by rw [ih fun hpart => h (hpart.trans (List.suffix_cons c text).isInfix)]

/-- What stands in a text stands there for the first time. -/
theorem exists_first {pat text : List Char} (hpat : pat ≠ []) (h : pat <:+: text) :
    ∃ before after, text = before ++ (pat ++ after) ∧ ¬ pat <:+: (before ++ pat).dropLast := by
  induction text with
  | nil => exact absurd (List.infix_nil.mp h) hpat
  | cons c text ih =>
    by_cases hpre : pat <+: c :: text
    · obtain ⟨after, hafter⟩ := hpre
      refine ⟨[], after, hafter.symm, fun hinside => ?_⟩
      have hle := hinside.length_le
      have := List.length_pos_iff.mpr hpat
      rw [List.nil_append, List.length_dropLast] at hle
      omega
    · obtain ⟨before, after, rfl, hfirst⟩ := ih ((List.infix_cons_iff.mp h).resolve_left hpre)
      refine ⟨c :: before, after, rfl, fun hinside => ?_⟩
      rw [List.cons_append, List.dropLast_cons_of_ne_nil (by simp [hpat]),
        List.infix_cons_iff] at hinside
      refine hinside.elim (fun hstart => hpre (hstart.trans ?_)) hfirst
      exact List.cons_prefix_cons.mpr ⟨rfl, dropLast_prefix before pat after⟩

/-- Where tokens are replaced by what is set apart, the text is quiet just if it echoes them. -/
theorem quiet_replace_iff {word : Char → Bool} {n : Nat} {secret token note : List Char}
    {first last : Char} (hn : 0 < n) (hword : ∀ c ∈ secret, word c = true)
    (hfirst : word first = false) (hlast : word last = false) (hnote : Quiet n secret note)
    (hne : token ≠ []) {text : List Char} :
    Quiet n secret (Text.replace token (first :: (note ++ [last])) text) ↔
      Echoes n secret token text := by
  have hsplits := Quiet.splits hn hword
  have hwhole {before after : List Char} (h : ¬ token <:+: (before ++ token).dropLast) :
      Quiet n secret (Text.replace token (first :: (note ++ [last])) (before ++ (token ++ after))) ↔
        Quiet n secret before ∧
          Quiet n secret (Text.replace token (first :: (note ++ [last])) after) := by
    rw [replace_first hne h, List.cons_append, hsplits.cons hfirst, List.append_assoc,
      List.singleton_append, hsplits.cons hlast]
    exact and_congr_right fun _ => and_iff_right hnote
  constructor
  · intro h
    induction hlength : text.length using Nat.strong_induction_on generalizing text with
    | h length ih =>
      by_cases hinside : token <:+: text
      · obtain ⟨before, after, rfl, hnone⟩ := exists_first hne hinside
        obtain ⟨hbefore, hafter⟩ := (hwhole hnone).mp h
        refine .whole hne hbefore hnone (ih after.length ?_ hafter rfl)
        have := List.length_pos_iff.mpr hne
        rw [← hlength, List.length_append, List.length_append]
        omega
      · rw [replace_of_outside hinside] at h
        exact .quiet h
  · intro h
    induction h with
    | quiet h =>
      exact @quiet_replaceFrom word n secret token note first last hn hword hfirst hlast hnote [] _
        0 h fun _ => rfl
    | whole _ hbefore hnone _ ih => exact (hwhole hnone).mpr ⟨hbefore, ih⟩

/-! ## What does not matter -/

/-- Characters of no secret at the end. -/
theorem Splits.append_clear {word : Char → Bool} {Q : List Char → Prop} (h : Splits word Q)
    {text more : List Char} (hmore : ∀ c ∈ more, word c = false) : Q (text ++ more) ↔ Q text := by
  have hclear : Q more := by
    induction more with
    | nil => exact h.nil
    | cons c more ih =>
      obtain ⟨hc, hmore⟩ := List.forall_mem_cons.mp hmore
      exact (@h.cons [] more c hc).mpr ⟨h.nil, ih hmore⟩
  cases more with
  | nil => rw [List.append_nil]
  | cons c more =>
    obtain ⟨hc, _⟩ := List.forall_mem_cons.mp hmore
    have hrest := ((@h.cons [] more c hc).mp hclear).2
    rw [h.cons hc]
    exact and_iff_left hrest

/-- Characters of no secret that are written as others of none. -/
theorem Splits.map {word : Char → Bool} {Q : List Char → Prop} (h : Splits word Q)
    {f : Char → Char} (hf : ∀ c, f c = c ∨ word c = false ∧ word (f c) = false)
    {text : List Char} : Q (text.map f) ↔ Q text := by
  have hall (begun : List Char) : Q (begun ++ text.map f) ↔ Q (begun ++ text) := by
    induction text generalizing begun with
    | nil => rfl
    | cons c text ih =>
      rcases hf c with hsame | ⟨hc, hfc⟩
      · have hih := ih (begun ++ [c])
        rw [List.append_assoc, List.append_assoc] at hih
        rw [List.map_cons, hsame]
        exact hih
      · have hih := ih []
        rw [List.map_cons, h.cons hfc, h.cons hc]
        exact and_congr_right fun _ => hih
  exact hall []

/-! ## Messages -/

/-- A message: a text, and then one that is given and the next, over and over. -/
def weave (first : List Char) : (nexts givens : List (List Char)) → List Char
  | next :: nexts, given :: givens => first ++ (given ++ weave next nexts givens)
  | [], _ => first
  | _ :: _, [] => first

/-- The texts keep what is given apart. -/
def Woven (word : Char → Bool) (first : List Char) : (nexts : List (List Char)) → Bool
  | [] => true
  | next :: nexts =>
      (first.isEmpty || first.getLast?.any (!word ·)) &&
        (next.isEmpty && nexts.isEmpty || next.head?.any (!word ·)) && Woven word next nexts

theorem Splits.ends {word : Char → Bool} {Q : List Char → Prop} (h : Splits word Q)
    {before after : List Char}
    (hbefore : (before.isEmpty || before.getLast?.any (!word ·)) = true) :
    Q (before ++ after) ↔ Q before ∧ Q after := by
  rcases List.eq_nil_or_concat before with rfl | ⟨init, c, rfl⟩
  · rw [List.nil_append]
    exact (and_iff_right h.nil).symm
  · rw [List.concat_eq_append] at hbefore ⊢
    rw [Bool.or_eq_true, List.getLast?_concat] at hbefore
    have hc : word c = false := by
      rcases hbefore with hnil | hc
      · simp at hnil
      · simpa using hc
    rw [List.append_assoc, List.singleton_append, h.cons hc, h.cons hc]
    exact and_congr_left fun _ => (and_iff_left h.nil).symm

theorem Splits.starts {word : Char → Bool} {Q : List Char → Prop} (h : Splits word Q)
    {before after : List Char} (hafter : (after.isEmpty || after.head?.any (!word ·)) = true) :
    Q (before ++ after) ↔ Q before ∧ Q after := by
  cases after with
  | nil =>
    rw [List.append_nil]
    exact (and_iff_left h.nil).symm
  | cons c rest =>
    have hc : word c = false := by simpa using hafter
    have hstart := @h.cons [] rest c hc
    rw [List.nil_append] at hstart
    rw [h.cons hc, hstart]
    exact and_congr_right fun _ => (and_iff_right h.nil).symm

/-- A message says no more than its texts and what is given. -/
theorem Splits.weave {word : Char → Bool} {Q : List Char → Prop} (h : Splits word Q)
    {first : List Char} {nexts givens : List (List Char)}
    (hwoven : Woven word first nexts = true) (hfirst : Q first) (hnexts : ∀ next ∈ nexts, Q next)
    (hgivens : ∀ given ∈ givens, Q given) : Q (Secret.weave first nexts givens) := by
  induction nexts generalizing first givens with
  | nil => exact hfirst
  | cons next nexts ih =>
    cases givens with
    | nil => exact hfirst
    | cons given givens =>
      simp only [Woven, Bool.and_eq_true] at hwoven
      obtain ⟨⟨hends, hbegins⟩, hrest⟩ := hwoven
      obtain ⟨hnext, hnexts⟩ := List.forall_mem_cons.mp hnexts
      obtain ⟨hgiven, hgivens⟩ := List.forall_mem_cons.mp hgivens
      have hstarts : ((Secret.weave next nexts givens).isEmpty ||
          (Secret.weave next nexts givens).head?.any (!word ·)) = true := by
        cases next with
        | nil =>
          have hempty : nexts = [] := by simpa using hbegins
          rw [hempty]
          rfl
        | cons c more =>
          have hc : (!word c) = true := by simpa using hbegins
          cases nexts <;> cases givens <;> simpa [Secret.weave] using hc
      rw [Secret.weave, h.ends hends, h.starts hstarts]
      exact ⟨hfirst, hgiven, ih hrest hnext hnexts hgivens⟩

end DatumConnect.Lib.Secret
