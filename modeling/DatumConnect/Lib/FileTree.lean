import Mathlib.Data.List.Infix
import Mathlib.Order.Defs.Unbundled
import DatumConnect.Lib.Path
/-!
# File trees

A tree has directories and files, every entry in a directory.  Walking a path
needs every entry it passes through to be a directory, so `a/..` fails where `a`
is missing; where the walk succeeds it leads where the names alone say.
-/

namespace DatumConnect.Lib.Files

/-- Where an entry is, innermost name first. -/
abbrev Loc := List String

inductive Node (α : Type) where
  | dir
  | file (contents : α)
  deriving DecidableEq, Repr

inductive IoError where
  | notFound
  | alreadyExists
  | notADirectory
  | isADirectory
  | invalidInput
  | invalidData
  | other
  deriving DecidableEq, Repr

structure FileTree (α : Type) where
  node : Loc → Option (Node α)
  root_dir : node [] = some .dir
  parent_dir : ∀ name loc, node (name :: loc) ≠ none → node loc = some .dir

/-- Nothing but the root. -/
def FileTree.bare (α : Type) : FileTree α where
  node loc := if loc = [] then some .dir else none
  root_dir := if_pos rfl
  parent_dir name loc h := absurd (if_neg (List.cons_ne_nil name loc)) h

/-- A file operation: what it returns, and the tree it leaves behind also when it
fails. -/
abbrev Fs (α β : Type) := ExceptT IoError (StateM (FileTree α)) β

/-! ## Where a path leads -/

def next (loc : Loc) (name : String) : Loc :=
  if name = "." then loc else if name = ".." then loc.tail else name :: loc

/-- Follow the names, whatever is there. -/
def resolve (loc : Loc) (names : List String) : Loc := names.foldl next loc

@[simp] theorem resolve_nil (loc : Loc) : resolve loc [] = loc := rfl

@[simp] theorem resolve_cons (loc : Loc) (name : String) (names : List String) :
    resolve loc (name :: names) = resolve (next loc name) names := rfl

theorem resolve_append (loc : Loc) (names more : List String) :
    resolve loc (names ++ more) = resolve (resolve loc names) more :=
  List.foldl_append

theorem next_of_ne {name : String} (loc : Loc) (hdot : name ≠ ".") (hdots : name ≠ "..") :
    next loc name = name :: loc := by
  simp [next, hdot, hdots]

theorem next_of_isName {name : String} (loc : Loc) (h : IsName name) :
    next loc name = name :: loc :=
  next_of_ne loc h.2.2.1 h.2.2.2

theorem resolve_of_forall_ne {names : List String} (loc : Loc)
    (h : ∀ name ∈ names, name ≠ "." ∧ name ≠ "..") :
    resolve loc names = names.reverse ++ loc := by
  induction names generalizing loc with
  | nil => rfl
  | cons name names ih =>
      obtain ⟨hdot, hdots⟩ := h name List.mem_cons_self
      rw [resolve_cons, next_of_ne loc hdot hdots,
        ih (name :: loc) fun n hn => h n (List.mem_cons_of_mem name hn)]
      simp

namespace FileTree

variable {α β : Type}

/-- Follow the names through directories; the last entry need not exist. -/
def walk (t : FileTree α) : Loc → List String → Except IoError Loc
  | loc, [] => .ok loc
  | loc, name :: names =>
      match t.node loc with
      | some .dir => walk t (next loc name) names
      | some (.file _) => .error .notADirectory
      | none => .error .notFound

def find (t : FileTree α) (p : Path) : Except IoError Loc := t.walk [] p.names

theorem walk_eq_resolve {t : FileTree α} {loc l : Loc} {names : List String}
    (h : t.walk loc names = .ok l) : l = resolve loc names := by
  induction names generalizing loc with
  | nil =>
      cases h
      rfl
  | cons name names ih =>
      rw [walk] at h
      split at h
      · exact ih h
      · cases h
      · cases h

theorem find_eq_resolve {t : FileTree α} {p : Path} {l : Loc} (h : t.find p = .ok l) :
    l = resolve [] p.names := walk_eq_resolve h

/-- Where the directories stay, the way stays open. -/
theorem walk_mono {t t' : FileTree α} (h : ∀ l, t.node l = some .dir → t'.node l = some .dir)
    {loc l : Loc} {names : List String} (hwalk : t.walk loc names = .ok l) :
    t'.walk loc names = .ok l := by
  induction names generalizing loc with
  | nil => exact hwalk
  | cons name names ih =>
      rw [walk] at hwalk ⊢
      split at hwalk
      · rename_i hdir
        rw [h loc hdir]
        exact ih hwalk
      · cases hwalk
      · cases hwalk

def isDir (t : FileTree α) (loc : Loc) : Bool :=
  match t.node loc with
  | some .dir => true
  | _ => false

@[simp] theorem isDir_iff {t : FileTree α} {loc : Loc} :
    t.isDir loc = true ↔ t.node loc = some .dir := by
  unfold isDir
  split <;> simp_all

/-- `Path::exists`. -/
def exists? (t : FileTree α) (p : Path) : Bool :=
  match t.find p with
  | .ok loc => (t.node loc).isSome
  | .error _ => false

/-- `Path::is_dir`. -/
def isDirAt (t : FileTree α) (p : Path) : Bool :=
  match t.find p with
  | .ok loc => t.isDir loc
  | .error _ => false

def contents (t : FileTree α) (p : Path) : Except IoError α := do
  match t.node (← t.find p) with
  | some (.file a) => .ok a
  | some .dir => .error .isADirectory
  | none => .error .notFound

theorem contents_eq_ok {t : FileTree α} {p : Path} {a : α} (h : t.contents p = .ok a) :
    t.find p = .ok (resolve [] p.names) ∧ t.node (resolve [] p.names) = some (.file a) := by
  unfold contents at h
  cases hfind : t.find p with
  | error e => simp [hfind, bind, Except.bind] at h
  | ok loc =>
      simp only [hfind, bind, Except.bind] at h
      rw [← find_eq_resolve hfind]
      refine ⟨rfl, ?_⟩
      split at h
      · cases h
        assumption
      · cases h
      · cases h

/-! ## Changing one entry -/

/-- The entry `name :: dir` set to `n`. -/
def put (t : FileTree α) (name : String) (dir : Loc) (n : Node α)
    (hdir : t.node dir = some .dir) (hself : t.node (name :: dir) ≠ some .dir) : FileTree α where
  node loc := if loc = name :: dir then some n else t.node loc
  root_dir := by
    rw [if_neg (by simp)]
    exact t.root_dir
  parent_dir := by
    intro m loc h
    have hne : loc = name :: dir → t.node (m :: loc) = none := by
      rintro rfl
      by_contra hsome
      exact hself (t.parent_dir m _ hsome)
    by_cases heq : m :: loc = name :: dir
    · cases heq
      rw [if_neg (by simp)]
      exact hdir
    · rw [if_neg heq] at h
      rw [if_neg fun hloc => h (hne hloc)]
      exact t.parent_dir m loc h

/-- Drop every entry that `gone` holds of, which it must of what is below it. -/
def prune (t : FileTree α) (gone : Loc → Bool) (hroot : gone [] = false)
    (hbelow : ∀ name loc, gone loc = true → t.node (name :: loc) ≠ none →
      gone (name :: loc) = true) : FileTree α where
  node loc := if gone loc then none else t.node loc
  root_dir := by
    rw [hroot]
    exact t.root_dir
  parent_dir := by
    intro name loc h
    by_cases hgone : gone (name :: loc) = true
    · simp [hgone] at h
    · rw [if_neg hgone] at h
      rw [if_neg fun hloc => hgone (hbelow name loc hloc h)]
      exact t.parent_dir name loc h

/-- Nothing is below a file. -/
theorem node_below_file {t : FileTree α} {loc : Loc} {a : α} (h : t.node loc = some (.file a))
    (name : String) : t.node (name :: loc) = none := by
  by_contra hsome
  rw [t.parent_dir name loc hsome] at h
  cases h

/-- What an entry is below is a directory. -/
theorem node_above {t : FileTree α} {front : List String} {loc : Loc}
    (h : t.node (front ++ loc) ≠ none) (hfront : front ≠ []) : t.node loc = some .dir := by
  induction front with
  | nil => exact absurd rfl hfront
  | cons name front ih =>
      have hdir := t.parent_dir name (front ++ loc) h
      cases front with
      | nil => exact hdir
      | cons next front =>
          apply ih
          · rw [hdir]
            exact Option.some_ne_none _
          · exact List.cons_ne_nil next front

/-- An entry is found under its own names. -/
theorem walk_of_node {t : FileTree α} {loc : Loc} {names : List String}
    (hnames : ∀ name ∈ names, name ≠ "." ∧ name ≠ "..")
    (h : t.node (names.reverse ++ loc) ≠ none) : t.walk loc names = .ok (names.reverse ++ loc) := by
  induction names generalizing loc with
  | nil => rfl
  | cons name names ih =>
      obtain ⟨hdot, hdots⟩ := hnames name List.mem_cons_self
      have hdir : t.node loc = some .dir := node_above h (by simp)
      have hrest : t.node (names.reverse ++ (name :: loc)) ≠ none := by
        simpa using h
      rw [walk, hdir, next_of_ne loc hdot hdots]
      simpa using ih (fun n hn => hnames n (List.mem_cons_of_mem name hn)) hrest

/-! ## Operations -/

def putFile (t : FileTree α) (loc : Loc) (a : α) : Except IoError (FileTree α) :=
  match loc with
  | [] => .error .isADirectory
  | name :: dir =>
      if hdir : t.isDir dir = true then
        if hself : t.isDir (name :: dir) = true then .error .isADirectory
        else .ok (t.put name dir (.file a) (isDir_iff.mp hdir) (by simpa using hself))
      else .error .notFound

theorem putFile_eq_ok {t t' : FileTree α} {loc : Loc} {a : α} (h : t.putFile loc a = .ok t') :
    (t'.node = fun l => if l = loc then some (.file a) else t.node l) ∧
      t.node loc ≠ some .dir := by
  unfold putFile at h
  split at h
  · cases h
  · split at h
    · split at h
      · cases h
      · rename_i hself
        cases h
        exact ⟨rfl, by simpa using hself⟩
    · cases h

theorem putFile_again {t t' : FileTree α} {loc : Loc} {a : α} (b : α)
    (h : t.putFile loc a = .ok t') : ∃ u, t'.putFile loc b = .ok u := by
  obtain ⟨hnode, _⟩ := putFile_eq_ok h
  cases loc with
  | nil => cases h
  | cons name dir =>
      have hdir : t'.isDir dir = true :=
        isDir_iff.mpr (t'.parent_dir name dir (by simp [hnode]))
      have hfile : ¬ t'.isDir (name :: dir) = true := by
        rw [isDir_iff, hnode]
        simp
      simp only [putFile, dif_pos hdir, dif_neg hfile]
      exact ⟨_, rfl⟩

/-- `mkdir(2)`. -/
def mkdir (t : FileTree α) (p : Path) : Except IoError (FileTree α) := do
  match ← t.find p with
  | [] => .error .alreadyExists
  | name :: dir =>
      if hself : t.node (name :: dir) = none then
        if hdir : t.isDir dir = true then
          .ok (t.put name dir .dir (isDir_iff.mp hdir) (by simp [hself]))
        else .error .notFound
      else .error .alreadyExists

theorem mkdir_eq_ok {t t' : FileTree α} {p : Path} (h : t.mkdir p = .ok t') :
    ∃ loc, t.node loc = none ∧ t'.node = fun l => if l = loc then some .dir else t.node l := by
  unfold mkdir at h
  cases hfind : t.find p with
  | error e => simp [hfind, bind, Except.bind] at h
  | ok loc =>
      simp only [hfind, bind, Except.bind] at h
      split at h
      · cases h
      · split at h
        · rename_i hself
          split at h
          · cases h
            exact ⟨_, hself, rfl⟩
          · cases h
        · cases h

/-- `unlink(2)`. -/
def unlink (t : FileTree α) (loc : Loc) : Except IoError (FileTree α) :=
  match h : t.node loc with
  | some (.file _) =>
      .ok (t.prune (· = loc) (by
          rw [decide_eq_false_iff_not]
          rintro rfl
          rw [t.root_dir] at h
          cases h)
        (by
          intro name l hl hsome
          rw [of_decide_eq_true hl] at hsome
          exact absurd (node_below_file h name) hsome))
  | some .dir => .error .isADirectory
  | none => .error .notFound

theorem unlink_eq_ok {t t' : FileTree α} {loc : Loc} (h : t.unlink loc = .ok t') :
    (t'.node = fun l => if l = loc then none else t.node l) ∧ ∃ a, t.node loc = some (.file a) := by
  unfold unlink at h
  split at h
  · rename_i a hfile
    cases h
    refine ⟨?_, a, hfile⟩
    funext l
    simp [prune]
  · cases h
  · cases h

/-- Empty a directory, and remove the entry itself if asked to. -/
def removeBelow (t : FileTree α) (loc : Loc) (itself : Bool) : FileTree α :=
  t.prune (fun l => loc <:+ l ∧ (l ≠ loc ∨ itself ∧ l ≠ []))
    (by
      rw [decide_eq_false_iff_not]
      rintro ⟨hsuffix, h⟩
      rw [List.suffix_nil] at hsuffix
      simp [hsuffix] at h)
    (by
      intro name l h _
      obtain ⟨hsuffix, _⟩ := of_decide_eq_true h
      refine decide_eq_true ⟨hsuffix.trans (List.suffix_cons name l), .inl ?_⟩
      rintro rfl
      exact absurd hsuffix.length_le (Nat.not_succ_le_self _))

/-- Remove the entries `gone` says from `loc` on, each with what is below it. -/
def removeSome (t : FileTree α) (loc : Loc) (gone : Loc → Bool) : FileTree α :=
  t.prune (fun l => l ≠ [] ∧ ∃ above ∈ l.tails, loc <:+ above ∧ gone above = true)
    (by simp)
    (by
      intro name l h _
      obtain ⟨_, above, habove, hgone⟩ := of_decide_eq_true h
      refine decide_eq_true ⟨List.cons_ne_nil name l, above, ?_, hgone⟩
      rw [List.mem_tails] at habove ⊢
      exact habove.trans (List.suffix_cons name l))

theorem removeSome_node_of_not {t : FileTree α} {loc l : Loc} {gone : Loc → Bool}
    (h : ¬ loc <:+ l) : (t.removeSome loc gone).node l = t.node l := by
  apply if_neg
  intro hgone
  obtain ⟨_, above, habove, hloc, _⟩ := of_decide_eq_true hgone
  exact h (hloc.trans ((List.mem_tails _ _).mp habove))

theorem removeSome_node_all {t : FileTree α} {loc l : Loc} (h : loc <:+ l) (hl : l ≠ []) :
    (t.removeSome loc fun _ => true).node l = none := by
  apply if_pos
  exact decide_eq_true ⟨hl, l, (List.mem_tails _ _).mpr List.suffix_rfl, h, rfl⟩

end FileTree

namespace Fs

variable {α β γ : Type}

/-- An operation that looks at the tree. -/
def look (f : FileTree α → Except IoError β) : Fs α β := fun t => (f t, t)

/-- An operation that changes the tree or fails and leaves it. -/
def edit (f : FileTree α → Except IoError (FileTree α)) : Fs α Unit := fun t =>
  match f t with
  | .ok t' => (.ok (), t')
  | .error e => (.error e, t)

/-- Go on with the result, whatever it is. -/
def attempt (m : Fs α β) : Fs α (Except IoError β) := fun t =>
  let (r, t') := m t
  (.ok r, t')

def read (p : Path) : Fs α α := look fun t => t.contents p

/-- Create the file, or replace what it holds. -/
def write (p : Path) (a : α) : Fs α Unit := edit fun t => do t.putFile (← t.find p) a

/-- Open the file for appending, and append. -/
def append (p : Path) (add : Option α → α) : Fs α Unit := edit fun t => do
  let loc ← t.find p
  match t.node loc with
  | some (.file a) => t.putFile loc (add (some a))
  | _ => t.putFile loc (add none)

def removeFile (p : Path) : Fs α Unit := edit fun t => do t.unlink (← t.find p)

def rename (p q : Path) : Fs α Unit := edit fun t => do
  let a ← t.contents p
  let src ← t.find p
  let dst ← t.find q
  if src = dst then .ok t else (← t.unlink src).putFile dst a

/-- `remove_dir_all`: a path that ends in a dot names a directory that cannot be
removed, only emptied. -/
def removeDirAll (p : Path) : Fs α Unit := fun t =>
  match t.find p with
  | .error e => (.error e, t)
  | .ok loc =>
      match t.node loc with
      | none => (.error .notFound, t)
      | some (.file _) => (.error .notADirectory, t)
      | some .dir =>
          match p.names.getLast? with
          | none | some "." | some ".." => (.error .invalidInput, t.removeBelow loc false)
          | some _ => (.ok (), t.removeBelow loc true)

/-- `create_dir_all`: try, else create the parent and try again. -/
def createDirAllUpTo : Nat → Path → Fs α Unit
  | 0, _ => fun t => (.error .other, t)
  | depth + 1, p => fun t =>
      match t.mkdir p with
      | .ok t' => (.ok (), t')
      | .error .notFound =>
          match p.parent with
          | none => (.error .other, t)
          | some q =>
              match createDirAllUpTo depth q t with
              | (.error e, t') => (.error e, t')
              | (.ok (), t') =>
                  match t'.mkdir p with
                  | .ok t'' => (.ok (), t'')
                  | .error e => (if t'.isDirAt p then .ok () else .error e, t')
      | .error e => (if t.isDirAt p then .ok () else .error e, t)

def createDirAll (p : Path) : Fs α Unit := createDirAllUpTo (p.names.length + 1) p

/-! ### What an operation leaves alone -/

theorem bind_apply (m : Fs α β) (f : β → Fs α γ) (t : FileTree α) :
    (m >>= f) t =
      match m t with
      | (.ok b, t') => f b t'
      | (.error e, t') => (.error e, t') := by
  change (ExceptT.bind m f) t = _
  unfold ExceptT.bind ExceptT.mk
  change (ExceptT.bindCont f (m t).1 (m t).2) = _
  obtain ⟨r, t'⟩ := m t
  cases r <;> rfl

@[simp] theorem pure_apply (b : β) (t : FileTree α) : (pure b : Fs α β) t = (.ok b, t) := rfl

theorem bind_eq_ok {x : Except IoError β} {f : β → Except IoError γ} {c : γ} :
    (x >>= f) = .ok c ↔ ∃ b, x = .ok b ∧ f b = .ok c := by
  cases x <;> simp [bind, Except.bind]

theorem edit_eq {f : FileTree α → Except IoError (FileTree α)} {t t' : FileTree α}
    {r : Except IoError Unit} (h : edit f t = (r, t')) :
    r = .ok () ∧ f t = .ok t' ∨ (∃ e, r = .error e) ∧ t' = t := by
  unfold edit at h
  split at h
  · rename_i hrun
    cases h
    exact .inl ⟨rfl, hrun⟩
  · cases h
    exact .inr ⟨⟨_, rfl⟩, rfl⟩

theorem edit_of_ok {f : FileTree α → Except IoError (FileTree α)} {t t' : FileTree α}
    (h : f t = .ok t') : edit f t = (.ok (), t') := by
  simp [edit, h]

/-- A write either replaces the one file or changes nothing. -/
theorem write_eq {p : Path} {a : α} {t t' : FileTree α} {r : Except IoError Unit}
    (h : write p a t = (r, t')) :
    r = .ok () ∧ t.find p = .ok (resolve [] p.names) ∧
        (t'.node = fun l => if l = resolve [] p.names then some (.file a) else t.node l) ∨
      (∃ e, r = .error e) ∧ t' = t := by
  rcases edit_eq h with ⟨hr, hrun⟩ | herr
  · obtain ⟨loc, hfind, hput⟩ := bind_eq_ok.mp hrun
    have hloc := FileTree.find_eq_resolve hfind
    subst hloc
    exact .inl ⟨hr, hfind, (FileTree.putFile_eq_ok hput).1⟩
  · exact .inr herr

/-- An append either adds to the one file, or makes it, or changes nothing. -/
theorem append_eq {p : Path} {add : Option α → α} {t t' : FileTree α} {r : Except IoError Unit}
    (h : append p add t = (r, t')) :
    r = .ok () ∧ (∃ old, (∀ a, t.node (resolve [] p.names) = some (.file a) → old = some a) ∧
        t'.node = fun l =>
          if l = resolve [] p.names then some (.file (add old)) else t.node l) ∨
      (∃ e, r = .error e) ∧ t' = t := by
  rcases edit_eq h with ⟨hr, hrun⟩ | herr
  · obtain ⟨loc, hfind, hrun⟩ := bind_eq_ok.mp hrun
    have hloc := FileTree.find_eq_resolve hfind
    subst hloc
    split at hrun
    · rename_i a ha
      refine .inl ⟨hr, some a, fun b hb => ?_, (FileTree.putFile_eq_ok hrun).1⟩
      rw [ha] at hb
      cases hb
      rfl
    · rename_i hnone
      exact .inl ⟨hr, none, fun b hb => absurd hb (hnone b), (FileTree.putFile_eq_ok hrun).1⟩
  · exact .inr herr

theorem removeFile_eq {p : Path} {t t' : FileTree α} {r : Except IoError Unit}
    (h : removeFile p t = (r, t')) :
    r = .ok () ∧ (t'.node = fun l => if l = resolve [] p.names then none else t.node l) ∨
      (∃ e, r = .error e) ∧ t' = t := by
  rcases edit_eq h with ⟨hr, hrun⟩ | herr
  · obtain ⟨loc, hfind, hunlink⟩ := bind_eq_ok.mp hrun
    rw [FileTree.find_eq_resolve hfind] at hunlink
    exact .inl ⟨hr, (FileTree.unlink_eq_ok hunlink).1⟩
  · exact .inr herr

/-- A rename either moves the one file over the other or changes nothing. -/
theorem rename_eq {p q : Path} {t t' : FileTree α} {r : Except IoError Unit}
    (h : rename p q t = (r, t')) (hne : resolve [] p.names ≠ resolve [] q.names) :
    r = .ok () ∧ (∃ a, t.node (resolve [] p.names) = some (.file a) ∧
        t'.node = fun l =>
          if l = resolve [] q.names then some (.file a)
          else if l = resolve [] p.names then none else t.node l) ∨
      (∃ e, r = .error e) ∧ t' = t := by
  rcases edit_eq h with ⟨hr, hrun⟩ | herr
  · obtain ⟨a, hcontents, hrun⟩ := bind_eq_ok.mp hrun
    obtain ⟨src, hsrc, hrun⟩ := bind_eq_ok.mp hrun
    obtain ⟨dst, hdst, hrun⟩ := bind_eq_ok.mp hrun
    rw [FileTree.find_eq_resolve hsrc, FileTree.find_eq_resolve hdst, if_neg hne] at hrun
    obtain ⟨u, hunlink, hput⟩ := bind_eq_ok.mp hrun
    refine .inl ⟨hr, a, (FileTree.contents_eq_ok hcontents).2, ?_⟩
    rw [(FileTree.putFile_eq_ok hput).1, (FileTree.unlink_eq_ok hunlink).1]
  · exact .inr herr

/-- Once a file has been written it can be written again. -/
theorem write_again {p : Path} {a : α} (b : α) {t t' : FileTree α}
    (h : write p a t = (.ok (), t')) :
    ∃ u, write p b t' = (.ok (), u) ∧
      u.node = fun l => if l = resolve [] p.names then some (.file b) else t'.node l := by
  rcases edit_eq h with ⟨_, hrun⟩ | ⟨⟨e, he⟩, _⟩
  · obtain ⟨loc, hfind, hput⟩ := bind_eq_ok.mp hrun
    obtain ⟨hnode, hself⟩ := FileTree.putFile_eq_ok hput
    have hdirs : ∀ l, t.node l = some .dir → t'.node l = some .dir := by
      intro l hl
      have hne : l ≠ loc := by
        rintro rfl
        exact hself hl
      simpa [hnode, hne] using hl
    have hfind' : t'.find p = .ok loc := FileTree.walk_mono hdirs hfind
    obtain ⟨u, hput'⟩ := FileTree.putFile_again b hput
    refine ⟨u, edit_of_ok (bind_eq_ok.mpr ⟨loc, hfind', hput'⟩), ?_⟩
    rw [(FileTree.putFile_eq_ok hput').1, FileTree.find_eq_resolve hfind]
  · cases he

/-- `remove_dir_all` only removes, and if it finds its directory nothing is left
in it. -/
theorem removeDirAll_node (p : Path) (t : FileTree α) :
    (∀ l, (removeDirAll p t).2.node l = t.node l ∨ (removeDirAll p t).2.node l = none) ∧
      (t.isDirAt p = true → ∀ name l, resolve [] p.names <:+ l →
        (removeDirAll p t).2.node (name :: l) = none) := by
  have hbelow : ∀ loc itself, t.find p = .ok loc →
      (∀ l, (t.removeBelow loc itself).node l = t.node l ∨
          (t.removeBelow loc itself).node l = none) ∧
        ∀ name l, resolve [] p.names <:+ l →
          (t.removeBelow loc itself).node (name :: l) = none := by
    intro loc itself hfind
    refine ⟨fun l => ?_, fun name l hl => ?_⟩
    · simp only [FileTree.removeBelow, FileTree.prune]
      split <;> simp
    · rw [← FileTree.find_eq_resolve hfind] at hl
      have hne : name :: l ≠ loc := by
        rintro rfl
        exact absurd hl.length_le (Nat.not_succ_le_self _)
      simp [FileTree.removeBelow, FileTree.prune, hl.trans (List.suffix_cons name l), hne]
  cases hfind : t.find p with
  | error e => simp [removeDirAll, FileTree.isDirAt, hfind]
  | ok loc =>
      cases hnode : t.node loc with
      | none => simp [removeDirAll, FileTree.isDirAt, FileTree.isDir, hfind, hnode]
      | some n =>
          cases n with
          | file a => simp [removeDirAll, FileTree.isDirAt, FileTree.isDir, hfind, hnode]
          | dir =>
              simp only [removeDirAll, hfind, hnode]
              split
              · exact ⟨(hbelow loc _ hfind).1, fun _ => (hbelow loc _ hfind).2⟩
              · exact ⟨(hbelow loc _ hfind).1, fun _ => (hbelow loc _ hfind).2⟩
              · exact ⟨(hbelow loc _ hfind).1, fun _ => (hbelow loc _ hfind).2⟩
              · exact ⟨(hbelow loc _ hfind).1, fun _ => (hbelow loc _ hfind).2⟩

/-- Entries outside `S` stay as they are, also when the operation fails. -/
def Touches (S : Loc → Prop) (m : Fs α β) : Prop :=
  ∀ t loc, ¬ S loc → (m t).2.node loc = t.node loc

namespace Touches

variable {S T : Loc → Prop} {m : Fs α β} {f : β → Fs α γ}

theorem mono (h : Touches S m) (hST : ∀ loc, S loc → T loc) : Touches T m :=
  fun t loc hloc => h t loc fun hS => hloc (hST loc hS)

theorem pure (b : β) : Touches S (pure b : Fs α β) := fun _ _ _ => rfl

theorem bind (hm : Touches S m) (hf : ∀ b, Touches S (f b)) : Touches S (m >>= f) := by
  intro t loc hloc
  have hfirst := hm t loc hloc
  rw [bind_apply]
  cases hrun : m t with
  | mk r t' =>
      rw [hrun] at hfirst
      cases r with
      | ok b => exact (hf b t' loc hloc).trans hfirst
      | error e => exact hfirst

theorem attempt (hm : Touches S m) : Touches S (attempt m) := hm

theorem look (g : FileTree α → Except IoError β) : Touches S (look g) := fun _ _ _ => rfl

theorem edit {g : FileTree α → Except IoError (FileTree α)}
    (hg : ∀ t t', g t = .ok t' → ∀ loc, ¬ S loc → t'.node loc = t.node loc) :
    Touches S (edit g) := by
  intro t loc hloc
  unfold Fs.edit
  cases hrun : g t with
  | ok t' => exact hg t t' hrun loc hloc
  | error e => rfl

end Touches

theorem write_touches (p : Path) (a : α) : Touches (· = resolve [] p.names) (write p a) := by
  intro t loc hloc
  obtain ⟨⟨r, t'⟩, hrun⟩ : ∃ o, write p a t = o := ⟨_, rfl⟩
  rw [hrun]
  rcases write_eq hrun with ⟨_, _, hnode⟩ | ⟨_, rfl⟩
  · rw [hnode]
    exact if_neg hloc
  · rfl

theorem append_touches (p : Path) (add : Option α → α) :
    Touches (· = resolve [] p.names) (append p add) := by
  refine .edit fun t t' h loc hloc => ?_
  obtain ⟨l, hfind, hrun⟩ := bind_eq_ok.mp h
  rw [← FileTree.find_eq_resolve hfind] at hloc
  split at hrun
  · rw [(FileTree.putFile_eq_ok hrun).1]
    exact if_neg hloc
  · rw [(FileTree.putFile_eq_ok hrun).1]
    exact if_neg hloc

theorem removeFile_touches (p : Path) :
    Touches (· = resolve [] p.names) (removeFile p : Fs α Unit) := by
  intro t loc hloc
  obtain ⟨⟨r, t'⟩, hrun⟩ : ∃ o, removeFile p t = o := ⟨_, rfl⟩
  rw [hrun]
  rcases removeFile_eq hrun with ⟨_, hnode⟩ | ⟨_, rfl⟩
  · rw [hnode]
    exact if_neg hloc
  · rfl

theorem removeDirAll_touches (p : Path) :
    Touches (resolve [] p.names <:+ ·) (removeDirAll p : Fs α Unit) := by
  intro t loc hloc
  have hbelow : ∀ l itself, t.find p = .ok l →
      (t.removeBelow l itself).node loc = t.node loc := by
    intro l itself hfind
    rw [← FileTree.find_eq_resolve hfind] at hloc
    simp [FileTree.removeBelow, FileTree.prune, hloc]
  unfold removeDirAll
  split
  · rfl
  · rename_i l hfind
    split
    · rfl
    · rfl
    · split
      · exact hbelow l _ hfind
      · exact hbelow l _ hfind
      · exact hbelow l _ hfind
      · exact hbelow l _ hfind

/-- The operation leads to a related tree, also when it fails. -/
def Leads (rel : FileTree α → FileTree α → Prop) (m : Fs α β) : Prop := ∀ t, rel t (m t).2

namespace Leads

variable {rel : FileTree α → FileTree α → Prop} {m : Fs α β} {f : β → Fs α γ}

theorem pure [Std.Refl rel] (b : β) : Leads rel (pure b : Fs α β) := fun _ => Std.Refl.refl _

theorem throw [Std.Refl rel] (e : IoError) : Leads rel (throw e : Fs α β) :=
  fun _ => Std.Refl.refl _

theorem look [Std.Refl rel] (g : FileTree α → Except IoError β) : Leads rel (look g) :=
  fun _ => Std.Refl.refl _

theorem bind [IsTrans (FileTree α) rel] (hm : Leads rel m) (hf : ∀ b, Leads rel (f b)) :
    Leads rel (m >>= f) := by
  intro t
  have hfirst := hm t
  rw [bind_apply]
  cases hrun : m t with
  | mk r t' =>
      rw [hrun] at hfirst
      cases r with
      | ok b => exact IsTrans.trans _ _ _ hfirst (hf b t')
      | error e => exact hfirst

theorem attempt (hm : Leads rel m) : Leads rel (attempt m) := hm

end Leads

/-- Directories may have been added. -/
def Grows (t t' : FileTree α) : Prop :=
  ∀ loc, t'.node loc = t.node loc ∨ t.node loc = none ∧ t'.node loc = some .dir

theorem Grows.refl (t : FileTree α) : Grows t t := fun _ => .inl rfl

theorem Grows.trans {t u v : FileTree α} (h : Grows t u) (h' : Grows u v) : Grows t v := by
  intro loc
  rcases h loc with h | ⟨hnone, hdir⟩
  · rcases h' loc with h' | ⟨hnone', hdir'⟩
    · exact .inl (h'.trans h)
    · exact .inr ⟨h ▸ hnone', hdir'⟩
  · rcases h' loc with h' | ⟨hnone', _⟩
    · exact .inr ⟨hnone, h'.trans hdir⟩
    · rw [hdir] at hnone'
      cases hnone'

theorem Grows.file_iff {t t' : FileTree α} (h : Grows t t') (loc : Loc) (a : α) :
    t'.node loc = some (.file a) ↔ t.node loc = some (.file a) := by
  rcases h loc with h | ⟨hnone, hdir⟩
  · rw [h]
  · simp [hnone, hdir]

theorem mkdir_grows {t t' : FileTree α} {p : Path} (h : t.mkdir p = .ok t') : Grows t t' := by
  obtain ⟨l, hnone, hnode⟩ := FileTree.mkdir_eq_ok h
  intro loc
  by_cases hloc : loc = l
  · exact .inr ⟨hloc ▸ hnone, by simp [hnode, hloc]⟩
  · exact .inl (by simp [hnode, hloc])

theorem createDirAllUpTo_grows (depth : Nat) (p : Path) (t : FileTree α) :
    Grows t (createDirAllUpTo depth p t).2 := by
  induction depth generalizing p t with
  | zero => exact Grows.refl t
  | succ depth ih =>
      unfold createDirAllUpTo
      split
      · exact mkdir_grows ‹_›
      · split
        · exact Grows.refl t
        · rename_i q _
          have hparent := ih q t
          split
          · rename_i hrun
            rw [hrun] at hparent
            exact hparent
          · rename_i hrun
            rw [hrun] at hparent
            split
            · exact hparent.trans (mkdir_grows ‹_›)
            · exact hparent
      · exact Grows.refl t

theorem createDirAll_grows (p : Path) (t : FileTree α) : Grows t (createDirAll p t).2 :=
  createDirAllUpTo_grows _ p t

end Fs

end DatumConnect.Lib.Files
