import DatumConnect.Lib.Trim
import DatumConnect.Pairing.Types
/-!
# The form of a project id

`normalize_project` of the daemon, and of the add-on's script, which should agree: white space and
one pair of quotes around an id are taken off, and it is lowercased.
-/

namespace DatumConnect.Pairing

open DatumConnect.Lib

/-! ## The script -/

/-- `[:space:]` -/
def isSpace (c : Char) : Bool := 9 ≤ c.toNat && c.toNat ≤ 13 || c.toNat = 32

/-- `"${p#"${p%%[![:space:]]*}"}"`, and `"${p%"${p##*[![:space:]]}"}"` of that. -/
def withoutSpace (p : List Char) : List Char := (p.dropWhile isSpace).rdropWhile isSpace

/-- What `normalize_project` of `run.sh` prints. -/
def Script.normalizeProject (raw : String) : String :=
  let p := withoutSpace raw.toList
  let unquoted := match p with
    | q :: rest =>
        if quotes.contains q && rest.getLast? = some q then withoutSpace rest.dropLast else p
    | [] => p
  String.ofList (unquoted.map Char.toLower)

/-! ## What should hold of an id -/

/-- A second stage makes no more of it than the first. -/
def Stable (s : String) : Prop :=
  ∀ p, normalizeProject s = some p → normalizeProject p = some p

/-- A text with NUL in it is none that the script can have. -/
def ScriptAgrees (s : String) : Prop :=
  Char.ofNat 0 ∉ s.toList → Script.normalizeProject s = (normalizeProject s).getD ""

structure OneForm (s : String) : Prop where
  stable : Stable s
  bare : ∀ p, normalizeProject s = some p → Trim.Bare Text.isWhitespace p.toList
  spaces : ∀ before after, (∀ c ∈ before, Text.isWhitespace c = true) →
    (∀ c ∈ after, Text.isWhitespace c = true) →
      normalizeProject (String.ofList (before ++ s.toList ++ after)) = normalizeProject s
  quoted : ∀ q ∈ quotes, normalizeProject (String.ofList (q :: (s.toList ++ [q]))) =
    normalizeProject s
  cases : ∀ s' : String, s'.toList.map Char.toLower = s.toList.map Char.toLower →
    normalizeProject s' = normalizeProject s
  script : ScriptAgrees s

/-- Quotes within quotes. -/
def Nested (s : String) : Prop :=
  ∃ q ∈ quotes, ∃ inner, Text.trim s.toList = q :: (inner ++ [q]) ∧
    Trim.Quoted quotes (Text.trim inner)

/-- White space that the script does not know stands at an end, or next to the quotes. -/
def StrangeSpace (s : String) : Prop :=
  ¬ Trim.Bare Text.isWhitespace (withoutSpace s.toList) ∨
    ∃ q ∈ quotes, ∃ inner, withoutSpace s.toList = q :: (inner ++ [q]) ∧
      ¬ Trim.Bare Text.isWhitespace (withoutSpace inner)

/-- No quotes around it, and no white space that the script does not know. -/
def Plain (s : String) : Prop :=
  ¬ Trim.Quoted quotes (Text.trim s.toList) ∧ (Char.ofNat 0 ∈ s.toList ∨ ¬ StrangeSpace s)

/-! ## Both as one form -/

abbrev daemonForm (s : List Char) : List Char := Trim.form Text.isWhitespace quotes s

abbrev scriptForm (s : List Char) : List Char := Trim.form isSpace quotes s

theorem normalizeProject_eq (s : String) :
    normalizeProject s =
      if daemonForm s.toList = [] then none
      else some (String.ofList ((daemonForm s.toList).map Char.toLower)) := by
  have htrim : Trim.trim Text.isWhitespace s.toList = Text.trim s.toList := rfl
  unfold normalizeProject daemonForm Trim.form Trim.unquote
  rw [htrim]
  cases Text.trim s.toList <;> rfl

theorem scriptNormalizeProject_eq (s : String) :
    Script.normalizeProject s = String.ofList ((scriptForm s.toList).map Char.toLower) := by
  have htrim : Trim.trim isSpace s.toList = withoutSpace s.toList := rfl
  unfold Script.normalizeProject scriptForm Trim.form Trim.unquote
  rw [htrim]
  cases withoutSpace s.toList <;> rfl

theorem normalizeProject_getD (s : String) :
    (normalizeProject s).getD "" = String.ofList ((daemonForm s.toList).map Char.toLower) := by
  rw [normalizeProject_eq]
  split
  · rename_i hnil
    rw [hnil]
    rfl
  · rfl

theorem normalizeProject_eq_some {s p : String} :
    normalizeProject s = some p ↔
      daemonForm s.toList ≠ [] ∧ p.toList = (daemonForm s.toList).map Char.toLower := by
  rw [normalizeProject_eq]
  split
  · rename_i hnil
    exact iff_of_false nofun fun h => h.1 hnil
  · rename_i hne
    constructor
    · rintro ⟨⟩
      exact ⟨hne, String.toList_ofList⟩
    · rintro ⟨_, hp⟩
      rw [← hp, String.ofList_toList]

theorem toLower_eq_or (c : Char) :
    c.toLower = c ∨ (65 ≤ c.toNat ∧ c.toNat ≤ 90 ∧ c.toLower.toNat = c.toNat + 32) := by
  unfold Char.toLower
  split
  · rename_i hupper
    have hlow : 65 ≤ c.toNat := hupper.1
    have hhigh : c.toNat ≤ 90 := hupper.2
    refine Or.inr ⟨hlow, hhigh, ?_⟩
    change (c.val + (97 - 65)).toNat = c.val.toNat + 32
    have hnat : c.val.toNat ≤ 90 := hhigh
    rw [UInt32.toNat_add]
    simp only [UInt32.reduceSub, UInt32.reduceToNat]
    omega
  · exact Or.inl rfl

theorem isWhitespace_toLower (c : Char) : Text.isWhitespace c.toLower = Text.isWhitespace c := by
  rcases toLower_eq_or c with heq | ⟨hlow, hhigh, hlower⟩
  · rw [heq]
  · rw [Text.printed_not_whitespace (by omega) (by omega),
      Text.printed_not_whitespace (by omega) (by omega)]

theorem isSpace_imp_isWhitespace (c : Char) (h : isSpace c = true) : Text.isWhitespace c = true := by
  unfold isSpace at h
  unfold Text.isWhitespace
  simp only [Bool.or_eq_true, Bool.and_eq_true, decide_eq_true_eq] at h ⊢
  rcases h with h | h
  · exact Or.inl (Or.inl h)
  · rw [h]
    exact Or.inr (by decide)

theorem quotes_not_white : ∀ q ∈ quotes, Text.isWhitespace q = false := by
  have hall : quotes.all (fun q => Text.isWhitespace q == false) = true := by decide
  intro q hq
  exact eq_of_beq (List.all_eq_true.mp hall q hq)

theorem toLower_eq_quote : ∀ q ∈ quotes, ∀ c : Char, c.toLower = q ↔ c = q := by
  have hall : quotes.all
      (fun q => decide (q.toNat < 97 ∧ ¬ (65 ≤ q.toNat ∧ q.toNat ≤ 90))) = true := by decide
  intro q hq c
  obtain ⟨hsmall, hletter⟩ := of_decide_eq_true (List.all_eq_true.mp hall q hq)
  rcases toLower_eq_or c with heq | ⟨hlow, hhigh, hlower⟩
  · rw [heq]
  · constructor
    · rintro rfl
      omega
    · rintro rfl
      exact absurd ⟨hlow, hhigh⟩ hletter

theorem daemonForm_lower (s : List Char) :
    daemonForm (s.map Char.toLower) = (daemonForm s).map Char.toLower :=
  Trim.form_map isWhitespace_toLower toLower_eq_quote s

theorem bare_lower {s : List Char} :
    Trim.Bare Text.isWhitespace (s.map Char.toLower) ↔ Trim.Bare Text.isWhitespace s := by
  unfold Trim.Bare
  simp only [List.head?_map, List.getLast?_map, Option.map_eq_some_iff]
  constructor
  · intro h c hc
    rw [← isWhitespace_toLower]
    exact h c.toLower (hc.imp (fun hhead => ⟨c, hhead, rfl⟩) fun hlast => ⟨c, hlast, rfl⟩)
  · rintro h _ (⟨c, hc, rfl⟩ | ⟨c, hc, rfl⟩)
    · rw [isWhitespace_toLower]
      exact h c (Or.inl hc)
    · rw [isWhitespace_toLower]
      exact h c (Or.inr hc)

theorem quoted_lower {s : List Char} :
    Trim.Quoted quotes (s.map Char.toLower) ↔ Trim.Quoted quotes s := by
  constructor
  · rintro ⟨q, hq, inner, heq⟩
    obtain ⟨c, rest, rfl, hc, hrest⟩ := List.map_eq_cons_iff.mp heq
    obtain ⟨init, last, rfl, rfl, hlast⟩ := List.map_eq_append_iff.mp hrest
    obtain ⟨d, rfl, hd⟩ := List.map_eq_singleton_iff.mp hlast
    rw [(toLower_eq_quote q hq c).mp hc, (toLower_eq_quote q hq d).mp hd]
    exact ⟨q, hq, init, rfl⟩
  · rintro ⟨q, hq, inner, rfl⟩
    have hfix : q.toLower = q := (toLower_eq_quote q hq q).mpr rfl
    refine ⟨q, hq, inner.map Char.toLower, ?_⟩
    rw [List.map_cons, List.map_append, List.map_singleton, hfix]

theorem lower_lower (s : List Char) :
    (s.map Char.toLower).map Char.toLower = s.map Char.toLower := by
  rw [List.map_map]
  apply List.map_congr_left
  intro c _
  rcases toLower_eq_or c with heq | ⟨_, hhigh, hlower⟩
  · exact congrArg Char.toLower heq
  · rcases toLower_eq_or c.toLower with heq | ⟨_, hagain, _⟩
    · exact heq
    · omega

/-! ## A second stage -/

theorem stable_iff (s : String) : Stable s ↔ ¬ Nested s := by
  have hbare : Trim.Bare Text.isWhitespace (daemonForm s.toList) := Trim.bare_form s.toList
  have hlower := bare_lower.mpr hbare
  -- What a second stage makes of the form is the form, unless it is in quotes.
  have hagain : daemonForm ((daemonForm s.toList).map Char.toLower) =
      (daemonForm s.toList).map Char.toLower ↔ ¬ Trim.Quoted quotes (daemonForm s.toList) := by
    rw [Trim.form_eq_self_iff hlower, quoted_lower]
  have hnested : Trim.Quoted quotes (daemonForm s.toList) ↔ Nested s := by
    unfold daemonForm Trim.form
    by_cases hquoted : Trim.Quoted quotes (Text.trim s.toList)
    · obtain ⟨q, hq, inner, heq⟩ := hquoted
      have htrim : Trim.trim Text.isWhitespace s.toList = q :: (inner ++ [q]) := heq
      rw [htrim, Trim.unquote_quoted hq]
      constructor
      · intro hinner
        exact ⟨q, hq, inner, heq, hinner⟩
      · rintro ⟨q', _, inner', heq', hinner⟩
        have hsame : inner = inner' := by
          have hboth := heq.symm.trans heq'
          rw [List.cons.injEq] at hboth
          exact (List.append_inj' hboth.2 rfl).1
        rw [hsame]
        exact hinner
    · have hplain : ¬ Trim.Quoted quotes (Trim.trim Text.isWhitespace s.toList) := hquoted
      rw [Trim.unquote_of_not_quoted hplain]
      refine iff_of_false hplain ?_
      rintro ⟨q, hq, inner, heq, _⟩
      exact hquoted ⟨q, hq, inner, heq⟩
  -- The second stage, from the text that the first one made.
  have hsecond : ∀ p : String, p.toList = (daemonForm s.toList).map Char.toLower →
      (daemonForm p.toList).map Char.toLower =
        daemonForm ((daemonForm s.toList).map Char.toLower) := by
    intro p hp
    rw [hp, daemonForm_lower, lower_lower]
  constructor
  · intro hstable hnest
    have hquoted := hnested.mpr hnest
    have hne : daemonForm s.toList ≠ [] := by
      obtain ⟨q, _, inner, heq⟩ := hquoted
      rw [heq]
      exact List.cons_ne_nil _ _
    have hp : (String.ofList ((daemonForm s.toList).map Char.toLower)).toList =
      (daemonForm s.toList).map Char.toLower := String.toList_ofList
    have hsame := hstable _ (normalizeProject_eq_some.mpr ⟨hne, hp⟩)
    obtain ⟨_, hform⟩ := normalizeProject_eq_some.mp hsame
    rw [hsecond _ hp, hp] at hform
    exact hagain.mp hform.symm hquoted
  · intro hnest p hp
    obtain ⟨hne, hform⟩ := normalizeProject_eq_some.mp hp
    have hsame := hagain.mpr fun hquoted => hnest (hnested.mp hquoted)
    have htwice := hsecond p hform
    rw [hsame] at htwice
    refine normalizeProject_eq_some.mpr ⟨fun hnil => ?_, hform.trans htwice.symm⟩
    rw [hnil] at htwice
    exact hne (List.map_eq_nil_iff.mp htwice.symm)

/-! ## The script and the daemon -/

theorem scriptForm_eq_iff (s : String) :
    (scriptForm s.toList).map Char.toLower = (daemonForm s.toList).map Char.toLower ↔
      ¬ StrangeSpace s := by
  have hends : ∀ t : List Char, Trim.Bare Text.isWhitespace (withoutSpace t) →
      Trim.trim Text.isWhitespace t = withoutSpace t := by
    intro t ht
    rw [← Trim.trim_trim isSpace_imp_isWhitespace t]
    exact (Trim.trim_eq_iff Text.isWhitespace).mpr ht
  constructor
  · intro hsame
    have hdaemon : Trim.Bare Text.isWhitespace (daemonForm s.toList) := Trim.bare_form s.toList
    rw [← bare_lower, ← hsame, bare_lower] at hdaemon
    rintro (hstrange | ⟨q, hq, inner, heq, hstrange⟩)
    · have hplain : ¬ Trim.Quoted quotes (withoutSpace s.toList) := fun hquoted =>
        hstrange (hquoted.bare quotes_not_white)
      have hform : scriptForm s.toList = withoutSpace s.toList :=
        Trim.unquote_of_not_quoted hplain
      rw [hform] at hdaemon
      exact hstrange hdaemon
    · have hform : scriptForm s.toList = withoutSpace inner := by
        have htrim : Trim.trim isSpace s.toList = q :: (inner ++ [q]) := heq
        rw [scriptForm, Trim.form, htrim, Trim.unquote_quoted hq]
        rfl
      rw [hform] at hdaemon
      exact hstrange hdaemon
  · intro hplain
    apply congrArg (List.map Char.toLower)
    obtain ⟨hbare, hinner⟩ := not_or.mp hplain
    have htrim := hends s.toList (not_not.mp hbare)
    have hscript : Trim.trim isSpace s.toList = withoutSpace s.toList := rfl
    rw [scriptForm, daemonForm, Trim.form, Trim.form, htrim, hscript]
    by_cases hquoted : Trim.Quoted quotes (withoutSpace s.toList)
    · obtain ⟨q, hq, inner, heq⟩ := hquoted
      have hbareInner : Trim.Bare Text.isWhitespace (withoutSpace inner) := by
        by_contra hstrange
        exact hinner ⟨q, hq, inner, heq, hstrange⟩
      rw [heq, Trim.unquote_quoted hq, Trim.unquote_quoted hq, hends inner hbareInner]
      rfl
    · rw [Trim.unquote_of_not_quoted hquoted, Trim.unquote_of_not_quoted hquoted]

theorem scriptAgrees_iff (s : String) :
    ScriptAgrees s ↔ Char.ofNat 0 ∈ s.toList ∨ ¬ StrangeSpace s := by
  have hlower : Script.normalizeProject s = (normalizeProject s).getD "" ↔
      ¬ StrangeSpace s := by
    rw [scriptNormalizeProject_eq, normalizeProject_getD, ← scriptForm_eq_iff, String.ofList_inj]
  unfold ScriptAgrees
  rw [hlower]
  rw [imp_iff_not_or, not_not]

/-! ## All of it -/

theorem normalizeProject_congr {s t : String}
    (h : (daemonForm s.toList).map Char.toLower = (daemonForm t.toList).map Char.toLower) :
    normalizeProject s = normalizeProject t := by
  apply Option.ext
  intro p
  have hempty : daemonForm s.toList = [] ↔ daemonForm t.toList = [] := by
    rw [← List.map_eq_nil_iff (f := Char.toLower), h, List.map_eq_nil_iff]
  rw [normalizeProject_eq_some, normalizeProject_eq_some, h, ne_eq, ne_eq, hempty]

theorem lower_of_normalizeProject {s t : String} (h : normalizeProject s = normalizeProject t) :
    (daemonForm s.toList).map Char.toLower = (daemonForm t.toList).map Char.toLower := by
  rw [← String.ofList_inj, ← normalizeProject_getD, ← normalizeProject_getD, h]

theorem quotes_iff (s : String) :
    (∀ q ∈ quotes, normalizeProject (String.ofList (q :: (s.toList ++ [q]))) =
      normalizeProject s) ↔ ¬ Trim.Quoted quotes (Text.trim s.toList) := by
  have hbare : Trim.Bare Text.isWhitespace (Text.trim s.toList) :=
    Trim.bare_trim Text.isWhitespace s.toList
  have hform : ∀ q ∈ quotes, daemonForm (String.ofList (q :: (s.toList ++ [q]))).toList =
      Text.trim s.toList := by
    intro q hq
    rw [String.toList_ofList]
    exact Trim.form_quotes quotes_not_white hq s.toList
  have hsame : daemonForm s.toList = Text.trim s.toList ↔
      ¬ Trim.Quoted quotes (Text.trim s.toList) := by
    rw [← Trim.form_eq_self_iff hbare, Trim.form, (Trim.trim_eq_iff Text.isWhitespace).mpr hbare]
    rfl
  constructor
  · intro h
    have hdouble : Char.ofNat 34 ∈ quotes := by decide
    have hboth := h _ hdouble
    have hlists : (daemonForm s.toList).map Char.toLower =
        (Text.trim s.toList).map Char.toLower := by
      rw [← hform _ hdouble]
      exact (lower_of_normalizeProject hboth).symm
    intro hquoted
    have hlt : (daemonForm s.toList).length < (Text.trim s.toList).length :=
      Trim.length_unquote_lt hquoted
    have hlength := congrArg List.length hlists
    rw [List.length_map, List.length_map] at hlength
    omega
  · intro hplain q hq
    apply normalizeProject_congr
    rw [hform q hq, hsame.mpr hplain]

theorem oneForm_iff (s : String) : (OneForm s ↔ Plain s) ∧ (Stable s ↔ ¬ Nested s) := by
  refine ⟨⟨fun h => ⟨(quotes_iff s).mp h.quoted, (scriptAgrees_iff s).mp h.script⟩, ?_⟩,
    stable_iff s⟩
  rintro ⟨hquoted, hscript⟩
  constructor
  · rw [stable_iff]
    rintro ⟨q, hq, inner, heq, _⟩
    exact hquoted ⟨q, hq, inner, heq⟩
  · intro p hp
    rw [(normalizeProject_eq_some.mp hp).2, bare_lower]
    exact Trim.bare_form s.toList
  · intro before after hbefore hafter
    apply normalizeProject_congr
    rw [String.toList_ofList, daemonForm, daemonForm, Trim.form, Trim.form, Trim.trim_pad hbefore hafter]
  · exact (quotes_iff s).mpr hquoted
  · intro s' hs'
    apply normalizeProject_congr
    rw [← daemonForm_lower, ← daemonForm_lower, hs']
  · exact (scriptAgrees_iff s).mpr hscript

/-- A second stage takes off the inner quotes, and a no-break space stays in the script. -/
theorem two_forms : ¬ Stable "\"'a'\"" ∧ ¬ ScriptAgrees "\u00a0a" := by
  constructor
  · intro h
    exact absurd (h "'a'" (by decide +kernel)) (by decide +kernel)
  · intro h
    exact absurd (h (by decide +kernel)) (by decide +kernel)

end DatumConnect.Pairing
