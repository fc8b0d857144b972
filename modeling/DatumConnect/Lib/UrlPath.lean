import Mathlib.Data.List.DropRight
/-!
# Paths of addresses

The path of an `http` address as the parser of addresses reads it: text is trimmed, tabs and line
breaks are dropped, `?` and `#` end the path, a backslash is a slash, and the dot segments are taken
out.  How the characters of a segment are then percent-encoded is left out.
-/

namespace DatumConnect.Lib.UrlPath

/-! ## Reading -/

/-- What is trimmed from the end of an address. -/
def isEdge (c : Char) : Bool := c.toNat ≤ 32

def isDropped (c : Char) : Bool := c = '\t' || c = '\n' || c = '\r'

def endsPath (c : Char) : Bool := c = '?' || c = '#'

def isSeparator (c : Char) : Bool := c = '/' || c = '\\'

/-- The segments of a text that begins with a slash. -/
def pieces (text : List Char) : List (List Char) :=
  let kept := (text.rdropWhile isEdge).filter fun c => !isDropped c
  ((kept.takeWhile fun c => !endsPath c).splitOnP isSeparator).tail

def singleDots : List (List Char) := ["." , "%2e"].map String.toList

def doubleDots : List (List Char) := ["..", ".%2e", "%2e.", "%2e%2e"].map String.toList

def isSingleDot (s : List Char) : Bool := singleDots.contains (s.map Char.toLower)

def isDoubleDot (s : List Char) : Bool := doubleDots.contains (s.map Char.toLower)

/-- The segments after those that are there already.  A dot segment at the end leaves an empty one. -/
def resolve : (done rest : List (List Char)) → List (List Char)
  | done, [] => done
  | done, s :: rest =>
      let last : List (List Char) := if rest = [] then [[]] else []
      if isDoubleDot s then resolve (done.dropLast ++ last) rest
      else if isSingleDot s then resolve (done ++ last) rest
      else resolve (done ++ [s]) rest

def read (done : List (List Char)) (text : List Char) : List (List Char) :=
  resolve done (pieces text)

example : read [] "/a/%2E%2e/b\\c/../d e?f".toList = ["b".toList, "d e".toList] := by decide +kernel

/-! ## What is read as it is written -/

/-- Read as one segment wherever it stands between two slashes. -/
def isSegment (s : List Char) : Bool :=
  s.all (fun c => !isDropped c && !endsPath c && !isSeparator c) && !isSingleDot s && !isDoubleDot s

/-- Segments, each after a slash. -/
def join (segments : List (List Char)) : List Char := segments.flatMap ('/' :: ·)

@[simp] theorem join_nil : join [] = [] := rfl

@[simp] theorem join_cons (s : List Char) (rest : List (List Char)) :
    join (s :: rest) = '/' :: (s ++ join rest) := rfl

theorem isSegment_iff {s : List Char} : isSegment s = true ↔
    (∀ c ∈ s, isDropped c = false ∧ endsPath c = false ∧ isSeparator c = false) ∧
      isSingleDot s = false ∧ isDoubleDot s = false := by
  unfold isSegment
  simp only [Bool.and_eq_true, List.all_eq_true, Bool.not_eq_true', and_assoc]

theorem splitOnP_join {s : List Char} {rest : List (List Char)}
    (hs : ∀ c ∈ s, isSeparator c = false) (hrest : ∀ t ∈ rest, ∀ c ∈ t, isSeparator c = false) :
    (s ++ join rest).splitOnP isSeparator = s :: rest := by
  induction rest generalizing s with
  | nil =>
    rw [join_nil, List.append_nil]
    exact List.splitOnP_eq_singleton hs
  | cons t rest ih =>
    rw [join_cons, List.splitOnP_append_cons_of_forall_mem hs _ rfl]
    rw [ih (hrest t List.mem_cons_self) fun u hu => hrest u (List.mem_cons_of_mem t hu)]

theorem resolve_of_plain {done rest : List (List Char)}
    (h : ∀ s ∈ rest, isSingleDot s = false ∧ isDoubleDot s = false) :
    resolve done rest = done ++ rest := by
  induction rest generalizing done with
  | nil => rw [resolve, List.append_nil]
  | cons s rest ih =>
    have hs := h s List.mem_cons_self
    rw [resolve, hs.1, hs.2]
    simp only [Bool.false_eq_true, if_false]
    rw [ih fun t ht => h t (List.mem_cons_of_mem s ht), List.append_assoc, List.singleton_append]

/-- What a character of the joined text is. -/
theorem mem_join {segments : List (List Char)} {c : Char} (h : c ∈ join segments) :
    c = '/' ∨ ∃ s ∈ segments, c ∈ s := by
  obtain ⟨s, hs, hc⟩ := List.mem_flatMap.mp h
  rcases List.mem_cons.mp hc with rfl | hc
  · exact Or.inl rfl
  · exact Or.inr ⟨s, hs, hc⟩

theorem pieces_join {segments : List (List Char)} (h : ∀ s ∈ segments, isSegment s = true)
    (hend : ∀ c ∈ (join segments).getLast?, isEdge c = false) :
    pieces (join segments) = segments := by
  have hall : ∀ c ∈ join segments, isDropped c = false ∧ endsPath c = false := by
    intro c hc
    rcases mem_join hc with rfl | ⟨s, hs, hcs⟩
    · exact ⟨by decide, by decide⟩
    · have hplain := (isSegment_iff.mp (h s hs)).1 c hcs
      exact ⟨hplain.1, hplain.2.1⟩
  have htrim : (join segments).rdropWhile isEdge = join segments := by
    rw [List.rdropWhile_eq_self_iff]
    intro hne
    rw [hend _ (List.getLast?_eq_some_getLast hne)]
    exact Bool.false_ne_true
  have hkept : (join segments).filter (fun c => !isDropped c) = join segments := by
    rw [List.filter_eq_self]
    intro c hc
    rw [(hall c hc).1]
    rfl
  have hpath : (join segments).takeWhile (fun c => !endsPath c) = join segments := by
    rw [List.takeWhile_eq_self_iff]
    intro c hc
    rw [(hall c hc).2]
    rfl
  have hsplit := @splitOnP_join [] segments (fun c hc => absurd hc List.not_mem_nil)
    fun t ht c hc => ((isSegment_iff.mp (h t ht)).1 c hc).2.2
  unfold pieces
  simp only [htrim, hkept, hpath]
  rw [List.nil_append] at hsplit
  rw [hsplit]
  rfl

/-- Segments are read as they have been joined, after whatever there was. -/
theorem read_join {segments : List (List Char)} (h : ∀ s ∈ segments, isSegment s = true)
    (hend : ∀ c ∈ (join segments).getLast?, isEdge c = false) (done : List (List Char)) :
    read done (join segments) = done ++ segments := by
  unfold read
  rw [pieces_join h hend]
  apply resolve_of_plain
  intro s hs
  exact (isSegment_iff.mp (h s hs)).2

/-! ## Nothing else is read so -/

theorem mem_splitOnP {p : Char → Bool} {text s : List Char} (h : s ∈ text.splitOnP p) :
    ∀ c ∈ s, c ∈ text ∧ p c = false := by
  induction text generalizing s with
  | nil =>
    rw [List.splitOnP_nil, List.mem_singleton] at h
    rw [h]
    exact fun c hc => absurd hc List.not_mem_nil
  | cons d text ih =>
    rw [List.splitOnP_cons_eq_if_modifyHead] at h
    split at h
    · rcases List.mem_cons.mp h with rfl | h
      · exact fun c hc => absurd hc List.not_mem_nil
      · exact fun c hc => (ih h c hc).imp_left (List.mem_cons_of_mem d)
    · rename_i hd
      obtain ⟨first, more, hsplit⟩ :=
        List.exists_cons_of_ne_nil (List.splitOnP_ne_nil (p := p) text)
      rw [hsplit] at h ih
      rcases List.mem_cons.mp h with rfl | h
      · intro c hc
        rcases List.mem_cons.mp hc with rfl | hc
        · exact ⟨List.mem_cons_self, by simpa using hd⟩
        · exact (ih List.mem_cons_self c hc).imp_left (List.mem_cons_of_mem d)
      · exact fun c hc =>
          (ih (List.mem_cons_of_mem first h) c hc).imp_left (List.mem_cons_of_mem d)

theorem mem_resolve {done rest : List (List Char)} {s : List Char} (h : s ∈ resolve done rest) :
    s ∈ done ∨ s = [] ∨ s ∈ rest ∧ isSingleDot s = false ∧ isDoubleDot s = false := by
  induction rest generalizing done with
  | nil => exact Or.inl h
  | cons t rest ih =>
    have hlast : ∀ {kept : List (List Char)},
        s ∈ kept ++ (if rest = [] then [[]] else []) → s ∈ kept ∨ s = [] := by
      intro kept hs
      rcases List.mem_append.mp hs with hs | hs
      · exact Or.inl hs
      · split at hs
        · exact Or.inr (List.mem_singleton.mp hs)
        · exact absurd hs List.not_mem_nil
    have hmore : s ∈ rest ∧ isSingleDot s = false ∧ isDoubleDot s = false →
        s ∈ t :: rest ∧ isSingleDot s = false ∧ isDoubleDot s = false :=
      And.imp_left (List.mem_cons_of_mem t)
    rw [resolve] at h
    split at h
    · rcases ih h with hs | hs | hs
      · exact (hlast hs).imp (fun hmem => (List.dropLast_sublist _).subset hmem) Or.inl
      · exact Or.inr (Or.inl hs)
      · exact Or.inr (Or.inr (hmore hs))
    split at h
    · rcases ih h with hs | hs | hs
      · exact (hlast hs).imp_right Or.inl
      · exact Or.inr (Or.inl hs)
      · exact Or.inr (Or.inr (hmore hs))
    · rename_i hdouble hsingle
      rcases ih h with hs | hs | hs
      · rcases List.mem_append.mp hs with hs | hs
        · exact Or.inl hs
        · rw [List.mem_singleton.mp hs]
          exact Or.inr (Or.inr ⟨List.mem_cons_self, by simpa using hsingle, by simpa using hdouble⟩)
      · exact Or.inr (Or.inl hs)
      · exact Or.inr (Or.inr (hmore hs))

/-- Whatever is read is one segment. -/
theorem isSegment_of_mem_read {text s : List Char} (h : s ∈ read [] text) : isSegment s = true := by
  rcases mem_resolve h with hnil | rfl | ⟨hpiece, hsingle, hdouble⟩
  · exact absurd hnil List.not_mem_nil
  · decide
  · rw [isSegment_iff]
    refine ⟨fun c hc => ?_, hsingle, hdouble⟩
    obtain ⟨hmem, hseparator⟩ := mem_splitOnP (List.mem_of_mem_tail hpiece) c hc
    have hends := List.mem_takeWhile_imp hmem
    have hdropped := (List.mem_filter.mp ((List.takeWhile_sublist _).subset hmem)).2
    exact ⟨by simpa using hdropped, by simpa using hends, hseparator⟩

/-! ## The end of a path -/

theorem join_append (a b : List (List Char)) : join (a ++ b) = join a ++ join b := List.flatMap_append

theorem length_join_splitOnP (p : Char → Bool) (text : List Char) :
    (join (text.splitOnP p)).length = text.length + 1 := by
  induction text with
  | nil => rfl
  | cons c text ih =>
    rw [List.splitOnP_cons_eq_if_modifyHead]
    split
    · rw [join_cons, List.nil_append, List.length_cons, ih]
      rfl
    · obtain ⟨first, more, hsplit⟩ :=
        List.exists_cons_of_ne_nil (List.splitOnP_ne_nil (p := p) text)
      rw [hsplit] at ih ⊢
      simp only [List.modifyHead_cons, join_cons, List.length_cons, List.length_append] at ih ⊢
      omega

theorem length_join_pieces (text : List Char) :
    (join (pieces text)).length ≤ (text.rdropWhile isEdge).length := by
  have htail : ∀ l : List (List Char), l ≠ [] → (join l.tail).length + 1 ≤ (join l).length := by
    intro l hl
    cases l with
    | nil => exact absurd rfl hl
    | cons s rest =>
      rw [List.tail_cons, join_cons, List.length_cons, List.length_append]
      omega
  have hkept := List.length_filter_le (fun c => !isDropped c) (text.rdropWhile isEdge)
  have htake := (List.takeWhile_sublist (fun c => !endsPath c)
    (l := (text.rdropWhile isEdge).filter fun c => !isDropped c)).length_le
  have hsplit := length_join_splitOnP isSeparator
    (((text.rdropWhile isEdge).filter fun c => !isDropped c).takeWhile fun c => !endsPath c)
  have hpieces := htail _ (List.splitOnP_ne_nil (p := isSeparator)
    (((text.rdropWhile isEdge).filter fun c => !isDropped c).takeWhile fun c => !endsPath c))
  unfold pieces
  dsimp only
  omega

theorem length_join_resolve (done rest : List (List Char)) :
    (join (resolve done rest)).length ≤ (join done).length + (join rest).length := by
  induction rest generalizing done with
  | nil => exact Nat.le_add_right _ _
  | cons s rest ih =>
    have hdrop : (join done.dropLast).length ≤ (join done).length := by
      obtain ⟨t, ht⟩ := List.dropLast_prefix done
      have hjoin := congrArg (fun l => (join l).length) ht
      rw [join_append, List.length_append] at hjoin
      omega
    have hlast : (join (if rest = [] then [[]] else [])).length ≤ 1 := by
      split <;> decide
    rw [resolve, join_cons, List.length_cons, List.length_append]
    split
    · have hih := ih (done.dropLast ++ if rest = [] then [[]] else [])
      rw [join_append, List.length_append] at hih
      omega
    split
    · have hih := ih (done ++ if rest = [] then [[]] else [])
      rw [join_append, List.length_append] at hih
      omega
    · have hih := ih (done ++ [s])
      rw [join_append, List.length_append, join_cons, join_nil, List.length_cons,
        List.length_append, List.length_nil] at hih
      omega

/-- Segments that are read as they have been joined do not end in what is trimmed. -/
theorem not_edge_of_read {segments : List (List Char)}
    (h : read [] (join segments) = segments) : ∀ c ∈ (join segments).getLast?, isEdge c = false := by
  intro c hc
  by_contra hedge
  rw [Bool.not_eq_false] at hedge
  obtain ⟨init, hinit⟩ := List.getLast?_eq_some_iff.mp hc
  have hresolve := length_join_resolve [] (pieces (join segments))
  have hread : (join segments).length = (join (resolve [] (pieces (join segments)))).length := by
    rw [← read, h]
  have hpieces := length_join_pieces (join segments)
  have htrim : ((join segments).rdropWhile isEdge).length ≤ init.length := by
    rw [hinit, List.rdropWhile_concat_pos _ _ _ hedge]
    have hshort : init.rdropWhile isEdge <+: init := List.rdropWhile_prefix isEdge init
    exact hshort.length_le
  have hlength := congrArg List.length hinit
  rw [List.length_append, List.length_singleton] at hlength
  rw [join_nil, List.length_nil] at hresolve
  omega

theorem getLast?_join {init : List (List Char)} {s : List Char} (h : s ≠ []) :
    (join (init ++ [s])).getLast? = s.getLast? := by
  rw [join_append, join_cons, join_nil, List.append_nil, List.getLast?_append_of_ne_nil _ (List.cons_ne_nil _ _),
    ← List.singleton_append, List.getLast?_append_of_ne_nil _ h]

end DatumConnect.Lib.UrlPath
