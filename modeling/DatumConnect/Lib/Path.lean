import Mathlib.Data.List.Basic
import Mathlib.Data.List.DropRight
/-!
# Paths

A path is text until the system walks it: `.` and `..` are still in it, and
joining an absolute path to a directory replaces the directory.
-/

namespace DatumConnect.Lib.Files

structure Path where
  absolute : Bool
  names : List String
  deriving DecidableEq, Repr

/-- The pieces between the slashes, empty ones included. -/
def splitSlash : List Char → List (List Char)
  | [] => [[]]
  | c :: cs =>
      if c = '/' then [] :: splitSlash cs
      else
        match splitSlash cs with
        | [] => [[c]]
        | piece :: pieces => (c :: piece) :: pieces

theorem splitSlash_ne_nil (s : List Char) : splitSlash s ≠ [] := by
  cases s with
  | nil => simp [splitSlash]
  | cons c cs =>
      unfold splitSlash
      split
      · simp
      · split <;> simp

/-- Repeated and trailing slashes mean nothing. -/
def Path.ofString (s : String) : Path where
  absolute := s.toList.head? = some '/'
  names := ((splitSlash s.toList).filter (· ≠ [])).map String.ofList

/-- `Path::join`. -/
def Path.join (p : Path) (s : String) : Path :=
  let q := Path.ofString s
  if q.absolute then q else { p with names := p.names ++ q.names }

/-- Text added to the end of the path. -/
def Path.push (p : Path) (ext : String) : Path :=
  match p.names.getLast? with
  | none => { p with names := [ext] }
  | some name => { p with names := p.names.dropLast ++ [name ++ ext] }

/-- `Path::parent`: a trailing `.` is not a component of its own. -/
def Path.parent (p : Path) : Option Path :=
  match p.names.rdropWhile (· = ".") with
  | [] => none
  | names => some { p with names := names.dropLast }

theorem splitSlash_of_not_mem {s : List Char} (h : '/' ∉ s) : splitSlash s = [s] := by
  induction s with
  | nil => rfl
  | cons c cs ih =>
      rw [List.mem_cons, not_or] at h
      have hc : c ≠ '/' := fun heq => h.1 heq.symm
      simp [splitSlash, hc, ih h.2]

/-- Text without a slash stays with the last piece. -/
theorem splitSlash_append {s t : List Char} (ht : '/' ∉ t) :
    ∃ init last, splitSlash s = init ++ [last] ∧
      splitSlash (s ++ t) = init ++ [last ++ t] := by
  induction s with
  | nil => exact ⟨[], [], rfl, by simp [splitSlash_of_not_mem ht]⟩
  | cons c cs ih =>
      obtain ⟨init, last, hcs, happ⟩ := ih
      by_cases hc : c = '/'
      · exact ⟨[] :: init, last, by simp [splitSlash, hc, hcs], by simp [splitSlash, hc, happ]⟩
      · cases init with
        | nil =>
            refine ⟨[], c :: last, ?_, ?_⟩
            · simp [splitSlash, hc, hcs]
            · simp [splitSlash, hc, happ]
        | cons piece init =>
            refine ⟨(c :: piece) :: init, last, ?_, ?_⟩
            · simp [splitSlash, hc, hcs]
            · simp [splitSlash, hc, happ]

/-- A piece holds characters of the text, and no slash. -/
theorem mem_of_mem_splitSlash {s piece : List Char} (h : piece ∈ splitSlash s) :
    ∀ c ∈ piece, c ∈ s ∧ c ≠ '/' := by
  induction s generalizing piece with
  | nil =>
      rw [splitSlash, List.mem_singleton] at h
      simp [h]
  | cons d ds ih =>
      by_cases hd : d = '/'
      · rw [splitSlash, if_pos hd, List.mem_cons] at h
        rcases h with rfl | h
        · simp
        · exact fun c hc => ⟨List.mem_cons_of_mem d (ih h c hc).1, (ih h c hc).2⟩
      · rw [splitSlash, if_neg hd] at h
        cases hsplit : splitSlash ds with
        | nil => exact absurd hsplit (splitSlash_ne_nil ds)
        | cons first rest =>
            simp only [hsplit, List.mem_cons] at h ih
            rcases h with rfl | h
            · intro c hc
              rcases List.mem_cons.mp hc with rfl | hc
              · exact ⟨List.mem_cons_self, hd⟩
              · have := ih (.inl rfl) c hc
                exact ⟨List.mem_cons_of_mem d this.1, this.2⟩
            · intro c hc
              have := ih (.inr h) c hc
              exact ⟨List.mem_cons_of_mem d this.1, this.2⟩

theorem eq_of_splitSlash_eq_singleton {s piece : List Char} (h : splitSlash s = [piece]) :
    s = piece := by
  induction s generalizing piece with
  | nil => simpa [splitSlash] using h
  | cons c cs ih =>
      by_cases hc : c = '/'
      · simp [splitSlash, hc, splitSlash_ne_nil] at h
      · cases hcs : splitSlash cs with
        | nil => exact absurd hcs (splitSlash_ne_nil cs)
        | cons first rest =>
            simp only [splitSlash, if_neg hc, hcs, List.cons.injEq] at h
            obtain ⟨rfl, rfl⟩ := h
            rw [ih hcs]

/-- An empty piece in front of others means a leading slash. -/
theorem head_of_splitSlash_eq_nil_cons {s : List Char} {pieces : List (List Char)}
    (h : splitSlash s = [] :: pieces) (hmore : pieces ≠ []) : s.head? = some '/' := by
  cases s with
  | nil =>
      rw [splitSlash, List.cons.injEq] at h
      exact absurd h.2.symm hmore
  | cons c cs =>
      by_cases hc : c = '/'
      · simp [hc]
      · cases hcs : splitSlash cs with
        | nil => exact absurd hcs (splitSlash_ne_nil cs)
        | cons first rest => simp [splitSlash, hc, hcs] at h

/-- A name that an entry of a directory can have. -/
def IsName (s : String) : Prop :=
  s ≠ "" ∧ '/' ∉ s.toList ∧ s ≠ "." ∧ s ≠ ".."

instance (s : String) : Decidable (IsName s) := by
  unfold IsName
  infer_instance

theorem Path.ofString_of_isName {s : String} (h : IsName s) :
    Path.ofString s = { absolute := false, names := [s] } := by
  obtain ⟨hne, hslash, _⟩ := h
  have hnil : s.toList ≠ [] := by simpa using hne
  have habs : s.toList.head? ≠ some '/' := fun hhead =>
    hslash (List.mem_of_mem_head? hhead)
  simp [Path.ofString, splitSlash_of_not_mem hslash, hne, habs]

theorem Path.join_of_isName {s : String} (p : Path) (h : IsName s) :
    p.join s = { p with names := p.names ++ [s] } := by
  simp [Path.join, Path.ofString_of_isName h]

/-- The path of text with an extension: some directories, and a last name that
ends in the extension.  Without directories the text is that name, unless it
starts with a slash. -/
theorem Path.ofString_append (s ext : String) (hext : '/' ∉ ext.toList) (hne : ext ≠ "") :
    ∃ dirs last, (Path.ofString (s ++ ext)).names = dirs ++ [last ++ ext] ∧
      (∀ dir ∈ dirs, dir ≠ "" ∧ ∀ c ∈ dir.toList, c ∈ s.toList) ∧
      (dirs = [] → s.toList.head? ≠ some '/' → last = s) := by
  obtain ⟨init, last, hs, happ⟩ := splitSlash_append (s := s.toList) hext
  refine ⟨(init.filter (· ≠ [])).map String.ofList, String.ofList last, ?_, ?_, ?_⟩
  · have hkeep : last ++ ext.toList ≠ [] := by simp [hne]
    simp [Path.ofString, String.toList_append, happ, List.filter_append, hkeep,
      String.ofList_append]
  · intro dir hdir
    obtain ⟨piece, hpiece, rfl⟩ := List.mem_map.mp hdir
    obtain ⟨hmem, hpne⟩ := List.mem_filter.mp hpiece
    refine ⟨by simpa using hpne, fun c hc => ?_⟩
    rw [String.toList_ofList] at hc
    exact (mem_of_mem_splitSlash (hs ▸ List.mem_append_left _ hmem) c hc).1
  · intro hdirs habs
    have hinit : ∀ piece ∈ init, piece = [] := by
      have hfilter : init.filter (· ≠ []) = [] := by simpa using hdirs
      simpa using hfilter
    cases init with
    | nil =>
        rw [List.nil_append] at hs
        rw [← eq_of_splitSlash_eq_singleton hs, String.ofList_toList]
    | cons piece init =>
        rw [hinit piece List.mem_cons_self, List.cons_append] at hs
        exact absurd (head_of_splitSlash_eq_nil_cons hs (by simp)) habs

end DatumConnect.Lib.Files
