import DatumConnect.Lib.Runs
/-!
# Concurrent writes of one file

`write_atomic_raw` writes a temporary file beside the target and renames it over it.
The temporary name is the target's with `.tmp`, the same for every call.  A call that
has the temporary file open goes on writing to it, at its own offset, wherever it has
been renamed to.
-/

namespace DatumConnect.Auth.AtomicWrites

open DatumConnect.Lib

abbrev Bytes := List UInt8

/-- Where a call of `write_atomic_raw` stands. -/
inductive Stage where
  | called
  /-- The temporary file was created or truncated: the file, and the bytes written. -/
  | writing (file written : Nat)
  | ok
  | failed
  deriving DecidableEq, Repr

/-- The call has the temporary file open. -/
def Stage.hasOpen : Stage → Bool
  | .writing _ _ => true
  | _ => false

structure Write where
  bytes : Bytes
  stage : Stage := .called
  deriving DecidableEq, Repr

/-- A reader that has opened the target. -/
structure Reading where
  file : Nat
  got : Bytes := []
  deriving DecidableEq, Repr

structure Sys where
  /-- The contents of the files there have been, under whatever name. -/
  files : List Bytes
  target : Option Nat
  tmp : Option Nat := none
  writes : List Write := []
  readings : List Reading := []
  /-- What readers have come back with. -/
  reads : List Bytes := []
  /-- What the target has held, at any moment. -/
  held : List Bytes := []
  deriving DecidableEq, Repr

inductive Act where
  | call (bytes : Bytes)
  | create (write : Nat)
  | append (write count : Nat)
  | rename (write : Nat)
  | fail (write : Nat)
  | remove
  | openRead
  | read (reading count : Nat)
  | finishRead (reading : Nat)
  deriving DecidableEq, Repr

/-- `pwrite`: past the end, the gap is filled. -/
def writeAt (contents : Bytes) (offset : Nat) (chunk : Bytes) : Bytes :=
  contents.take offset ++ List.replicate (offset - contents.length) 0 ++ chunk ++
    contents.drop (offset + chunk.length)

namespace Sys

variable (s : Sys)

def contents : Option Bytes := s.target.bind (s.files[·]?)

/-- The file on disk is what it was before. -/
def start (contents : Option Bytes) : Sys where
  files := contents.toList
  target := contents.map fun _ => 0
  held := contents.toList

def setStage (write : Nat) (stage : Stage) : Sys :=
  { s with writes := s.writes.modify write fun w => { w with stage } }

/-- `File::create`: the file under the temporary name is emptied, or there is a new
one. -/
def create (write : Nat) : Sys :=
  match s.tmp with
  | some file => { s with files := s.files.set file [] }.setStage write (.writing file 0)
  | none =>
      { s with files := s.files ++ [[]], tmp := some s.files.length }.setStage write
        (.writing s.files.length 0)

def append (write file written : Nat) (chunk : Bytes) : Sys :=
  { s with files := s.files.modify file fun contents => writeAt contents written chunk }.setStage
    write (.writing file (written + chunk.length))

/-- What is under the temporary name is moved over the target. -/
def rename (write : Nat) : Sys :=
  match s.tmp with
  | some file => { s with target := some file, tmp := none }.setStage write .ok
  | none => s.setStage write .failed

/-- A reader goes on. -/
def more (reading : Nat) (r : Reading) (got : Bytes) : Sys :=
  { s with readings := s.readings.set reading { r with got } }

def act : Act → Option Sys
  | .call bytes => some { s with writes := s.writes ++ [{ bytes }] }
  | .create write =>
      match s.writes[write]? with
      | some ⟨_, .called⟩ => some (s.create write)
      | _ => none
  | .append write count =>
      match s.writes[write]? with
      | some ⟨bytes, .writing file written⟩ =>
          some (s.append write file written ((bytes.drop written).take count))
      | _ => none
  | .rename write =>
      match s.writes[write]? with
      | some ⟨bytes, .writing _ written⟩ =>
          if written = bytes.length then some (s.rename write) else none
      | _ => none
  | .fail write =>
      match s.writes[write]? with
      | some ⟨_, .called⟩ | some ⟨_, .writing _ _⟩ => some (s.setStage write .failed)
      | _ => none
  | .remove => some { s with target := none }
  | .openRead =>
      match s.target with
      | some file => some { s with readings := s.readings ++ [{ file }] }
      | none => none
  | .read reading count =>
      match s.readings[reading]? with
      | some r =>
          match s.files[r.file]? with
          | some contents =>
              some (s.more reading r (r.got ++ (contents.drop r.got.length).take count))
          | none => none
      | none => none
  | .finishRead reading =>
      match s.readings[reading]? with
      | some r =>
          match s.files[r.file]? with
          | some contents =>
              -- a reader stops where there is no more to read
              if contents.length ≤ r.got.length then
                some { s with readings := s.readings.eraseIdx reading, reads := s.reads ++ [r.got] }
              else none
          | none => none
      | none => none

/-- A step, and what the target holds after it. -/
def step (a : Act) : Option Sys :=
  (s.act a).map fun t => { t with held := t.held ++ t.contents.toList }

/-- What a reader has read is the previous contents or the bytes of a call, and the
bytes of a call that came back with Ok were at the target. -/
def Whole (initial : Option Bytes) : Prop :=
  (∀ r ∈ s.reads, initial = some r ∨ ∃ w ∈ s.writes, w.bytes = r) ∧
    ∀ w ∈ s.writes, w.stage = .ok → w.bytes ∈ s.held

end Sys

/-- A call does not open the temporary file while another one has it open. -/
def CreatesAlone (s : Sys) : Act → Prop
  | .create _ => ∀ w ∈ s.writes, ¬ w.stage.hasOpen
  | _ => True

instance : ∀ s a, Decidable (CreatesAlone s a) := fun s a => by
  unfold CreatesAlone
  split <;> infer_instance

/-! ## What is kept -/

variable {s t : Sys}

/-- A call is writing to the file under the temporary name. -/
def Writing (s : Sys) (i : Nat) (bytes : Bytes) (file written : Nat) : Prop :=
  s.writes[i]? = some ⟨bytes, .writing file written⟩

def Good (initial : Option Bytes) (s : Sys) (c : Bytes) : Prop :=
  initial = some c ∨ c ∈ s.writes.map (·.bytes)

/-- A file that is no longer written to, with whole contents. -/
def Settled (initial : Option Bytes) (s : Sys) (file : Nat) : Prop :=
  s.tmp ≠ some file ∧ ∃ c, s.files[file]? = some c ∧ Good initial s c

structure Inv (initial : Option Bytes) (s : Sys) : Prop where
  writing : ∀ i bytes file written, Writing s i bytes file written →
    s.tmp = some file ∧ s.files[file]? = some (bytes.take written) ∧ written ≤ bytes.length
  alone : ∀ i j bytes bytes' file file' written written',
    Writing s i bytes file written → Writing s j bytes' file' written' → i = j
  tmp : ∀ file, s.tmp = some file → file < s.files.length
  target : ∀ file, s.target = some file → Settled initial s file
  reading : ∀ r ∈ s.readings, Settled initial s r.file ∧
    ∀ c, s.files[r.file]? = some c → r.got <+: c
  reads : ∀ r ∈ s.reads, Good initial s r
  ok : ∀ w ∈ s.writes, w.stage = .ok → w.bytes ∈ s.held

variable {initial : Option Bytes}

theorem Inv.start (initial : Option Bytes) : Inv initial (Sys.start initial) := by
  cases initial with
  | none =>
      constructor <;> simp [Sys.start, Writing]
  | some c =>
      constructor <;> simp [Sys.start, Writing, Settled, Good]

theorem Inv.whole (h : Inv initial s) : s.Whole initial := by
  refine ⟨fun r hr => ?_, h.ok⟩
  obtain hr | hr := h.reads r hr
  · exact Or.inl hr
  · obtain ⟨w, hw, hbytes⟩ := List.mem_map.mp hr
    exact Or.inr ⟨w, hw, hbytes⟩

/-- Contents that were whole are so also with more calls. -/
theorem Good.mono {c : Bytes} (h : Good initial s c)
    (hwrites : s.writes.map (·.bytes) ⊆ t.writes.map (·.bytes)) : Good initial t c :=
  h.imp_right fun h => hwrites h

/-- The other files are left as they are. -/
theorem Settled.mono {file : Nat} (h : Settled initial s file)
    (hwrites : s.writes.map (·.bytes) ⊆ t.writes.map (·.bytes))
    (htmp : t.tmp = s.tmp ∨ t.tmp = none ∨ t.tmp = some s.files.length)
    (hfiles : ∀ c, s.tmp ≠ some file → s.files[file]? = some c → t.files[file]? = some c) :
    Settled initial t file := by
  obtain ⟨hother, c, hc, hgood⟩ := h
  refine ⟨?_, c, hfiles c hother hc, hgood.mono hwrites⟩
  have hlt : file < s.files.length := (List.getElem?_eq_some_iff.mp hc).1
  rcases htmp with htmp | htmp | htmp
  · rwa [htmp]
  · rw [htmp]
    exact nofun
  · rw [htmp]
    simp only [ne_eq, Option.some.injEq]
    omega

@[simp] theorem setStage_bytes (i : Nat) (stage : Stage) :
    (s.setStage i stage).writes.map (·.bytes) = s.writes.map (·.bytes) := by
  unfold Sys.setStage
  apply List.ext_getElem?
  intro j
  simp only [List.getElem?_map, List.getElem?_modify]
  cases s.writes[j]? with
  | none => rfl
  | some w => by_cases h : i = j <;> simp [h]

theorem setStage_writes {i j : Nat} {stage : Stage} {w : Write}
    (h : (s.setStage i stage).writes[j]? = some w) :
    (i = j ∧ w.stage = stage ∧ ∃ w', s.writes[j]? = some w' ∧ w.bytes = w'.bytes) ∨
      (i ≠ j ∧ s.writes[j]? = some w) := by
  simp only [Sys.setStage, List.getElem?_modify, Option.map_eq_map, Option.map_eq_some_iff] at h
  obtain ⟨w', hw', hw⟩ := h
  by_cases hij : i = j
  · rw [if_pos hij] at hw
    subst hw
    exact Or.inl ⟨hij, rfl, w', hw', rfl⟩
  · rw [if_neg hij] at hw
    subst hw
    exact Or.inr ⟨hij, hw'⟩

/-- Another stage than writing, for a call that was not one of those that are ok. -/
theorem Inv.setStage (h : Inv initial s) {i : Nat} {stage : Stage}
    (hstage : ∀ file written, stage ≠ .writing file written) (hok : stage ≠ .ok) :
    Inv initial (s.setStage i stage) := by
  have hwriting : ∀ j bytes file written, Writing (s.setStage i stage) j bytes file written →
      Writing s j bytes file written := by
    intro j bytes file written hj
    rcases setStage_writes hj with ⟨-, hstage', -⟩ | ⟨-, hj⟩
    · exact absurd hstage'.symm (hstage file written)
    · exact hj
  have hgood : ∀ c, Good initial s c → Good initial (s.setStage i stage) c := fun c hc =>
    hc.mono (by simp)
  have hsettled : ∀ file, Settled initial s file → Settled initial (s.setStage i stage) file :=
    fun file hf => hf.mono (by simp) (Or.inl rfl) fun _ _ hc => hc
  refine ⟨fun j bytes file written hj => h.writing j bytes file written (hwriting _ _ _ _ hj),
    fun j k bytes bytes' file file' written written' hj hk =>
      h.alone j k _ _ _ _ _ _ (hwriting _ _ _ _ hj) (hwriting _ _ _ _ hk),
    h.tmp, fun file hf => hsettled file (h.target file hf),
    fun r hr => ⟨hsettled _ (h.reading r hr).1, (h.reading r hr).2⟩,
    fun r hr => hgood r (h.reads r hr), fun w hw hwok => ?_⟩
  obtain ⟨j, hj⟩ := List.mem_iff_getElem?.mp hw
  rcases setStage_writes hj with ⟨-, hstage', -⟩ | ⟨-, hj⟩
  · exact absurd (hstage'.symm.trans hwok) hok
  · exact h.ok w (List.mem_of_getElem? hj) hwok

theorem Inv.call (h : Inv initial s) (bytes : Bytes) :
    Inv initial { s with writes := s.writes ++ [{ bytes }] } := by
  have hwriting : ∀ j bytes' file written,
      Writing { s with writes := s.writes ++ [{ bytes }] } j bytes' file written →
        Writing s j bytes' file written := by
    intro j bytes' file written hj
    simp only [Writing, List.getElem?_append] at hj
    split at hj
    · exact hj
    · rw [List.getElem?_singleton] at hj
      split at hj <;> simp at hj
  have hwrites : s.writes.map (·.bytes) ⊆
      ({ s with writes := s.writes ++ [{ bytes }] } : Sys).writes.map (·.bytes) := by
    simp
  refine ⟨fun j bytes file written hj => h.writing j bytes file written (hwriting _ _ _ _ hj),
    fun j k bytes bytes' file file' written written' hj hk =>
      h.alone j k _ _ _ _ _ _ (hwriting _ _ _ _ hj) (hwriting _ _ _ _ hk),
    h.tmp, fun file hf => (h.target file hf).mono hwrites (Or.inl rfl) fun _ _ hc => hc,
    fun r hr => ⟨(h.reading r hr).1.mono hwrites (Or.inl rfl) fun _ _ hc => hc,
      (h.reading r hr).2⟩,
    fun r hr => (h.reads r hr).mono hwrites, fun w hw hwok => ?_⟩
  rcases List.mem_append.mp hw with hw | hw
  · exact h.ok w hw hwok
  · rw [List.mem_singleton.mp hw] at hwok
    cases hwok

/-- A file that is not under the temporary name keeps its contents, and what was read of
it. -/
theorem Inv.reading_mono (h : Inv initial s)
    (hwrites : s.writes.map (·.bytes) ⊆ t.writes.map (·.bytes)) (hreadings : t.readings = s.readings)
    (htmp : t.tmp = s.tmp ∨ t.tmp = none ∨ t.tmp = some s.files.length)
    (hfiles : ∀ file c, s.tmp ≠ some file → s.files[file]? = some c → t.files[file]? = some c) :
    ∀ r ∈ t.readings, Settled initial t r.file ∧ ∀ c, t.files[r.file]? = some c → r.got <+: c := by
  intro r hr
  rw [hreadings] at hr
  obtain ⟨hsettled, hgot⟩ := h.reading r hr
  refine ⟨hsettled.mono hwrites htmp (hfiles r.file), fun c hc => ?_⟩
  obtain ⟨hother, c', hc', -⟩ := hsettled
  rw [hfiles r.file c' hother hc'] at hc
  cases hc
  exact hgot _ hc'

/-- The call that is alone in writing has the file as far as it has come. -/
theorem Inv.write (h : Inv initial s) {i file written : Nat} {bytes : Bytes} {stage : Stage}
    {files : List Bytes} (hi : s.writes[i]? = some ⟨bytes, stage⟩)
    (halone : ∀ j bytes' file' written', Writing s j bytes' file' written' → j = i)
    (htmp : some file = s.tmp ∨ file = s.files.length)
    (hnow : files[file]? = some (bytes.take written)) (hle : written ≤ bytes.length)
    (hfiles : ∀ f c, s.tmp ≠ some f → s.files[f]? = some c → files[f]? = some c) :
    Inv initial (({ s with files, tmp := some file } : Sys).setStage i (.writing file written)) := by
  have hwrites : s.writes.map (·.bytes) ⊆
      (({ s with files, tmp := some file } : Sys).setStage i (.writing file written)).writes.map
        (·.bytes) := by
    rw [setStage_bytes]
    exact List.Subset.refl _
  have htmp' : (({ s with files, tmp := some file } : Sys).setStage i (.writing file written)).tmp = s.tmp ∨
      (({ s with files, tmp := some file } : Sys).setStage i (.writing file written)).tmp = none ∨
      (({ s with files, tmp := some file } : Sys).setStage i (.writing file written)).tmp =
        some s.files.length :=
    htmp.imp_right fun hfile => Or.inr (congrArg some hfile)
  have hwriting : ∀ j bytes' file' written',
      Writing (({ s with files, tmp := some file } : Sys).setStage i (.writing file written)) j bytes' file'
        written' → j = i ∧ bytes' = bytes ∧ file' = file ∧ written' = written := by
    intro j bytes' file' written' hj
    rcases setStage_writes hj with ⟨rfl, hstage, w', hw', hbytes⟩ | ⟨hne, hj⟩
    · have hwi : s.writes[i]? = some w' := hw'
      rw [hi] at hwi
      cases hwi
      cases hstage
      exact ⟨rfl, hbytes, rfl, rfl⟩
    · exact absurd (halone j _ _ _ hj).symm hne
  refine ⟨fun j bytes' file' written' hj => ?_, fun j k _ _ _ _ _ _ hj hk => ?_, ?_,
    fun f hf => (h.target f hf).mono hwrites htmp' (hfiles f),
    h.reading_mono hwrites rfl htmp' hfiles, fun r hr => (h.reads r hr).mono hwrites,
    fun w hw hwok => ?_⟩
  · obtain ⟨rfl, rfl, rfl, rfl⟩ := hwriting j bytes' file' written' hj
    exact ⟨rfl, hnow, hle⟩
  · exact (hwriting j _ _ _ hj).1.trans (hwriting k _ _ _ hk).1.symm
  · rintro _ ⟨⟩
    exact (List.getElem?_eq_some_iff.mp hnow).1
  · obtain ⟨j, hj⟩ := List.mem_iff_getElem?.mp hw
    rcases setStage_writes hj with ⟨-, hstage, -⟩ | ⟨-, hj⟩
    · rw [hwok] at hstage
      cases hstage
    · exact h.ok w (List.mem_of_getElem? hj) hwok

/-- Creating leaves the files that are not under the temporary name. -/
theorem create_files (i : Nat) {f : Nat} {c : Bytes} (hf : s.tmp ≠ some f)
    (hc : s.files[f]? = some c) : (s.create i).files[f]? = some c := by
  unfold Sys.create
  split
  · rename_i file htmp
    have hne : file ≠ f := fun heq => hf (heq ▸ htmp)
    exact (List.getElem?_set_ne hne).trans hc
  · have hlt : f < s.files.length := (List.getElem?_eq_some_iff.mp hc).1
    exact (List.getElem?_append_left hlt).trans hc

/-- Appending leaves the other files. -/
theorem append_files (i : Nat) {file written f : Nat} {chunk c : Bytes} (hne : file ≠ f)
    (hc : s.files[f]? = some c) : (s.append i file written chunk).files[f]? = some c := by
  simp [Sys.append, Sys.setStage, hne, hc]

theorem Inv.create (h : Inv initial s) {i : Nat} {bytes : Bytes}
    (hi : s.writes[i]? = some ⟨bytes, .called⟩)
    (halone : ∀ w ∈ s.writes, ¬ w.stage.hasOpen) : Inv initial (s.create i) := by
  have hnone : ∀ j bytes' file written, Writing s j bytes' file written → j = i :=
    fun j _ _ _ hj => absurd rfl (halone _ (List.mem_of_getElem? hj))
  have hfiles : ∀ f c, s.tmp ≠ some f → s.files[f]? = some c → (s.create i).files[f]? = some c :=
    fun f c hf hc => create_files i hf hc
  unfold Sys.create at hfiles ⊢
  split
  · rename_i file htmp
    simp only [htmp] at hfiles
    have hnow : (s.files.set file [])[file]? = some (bytes.take 0) :=
      List.getElem?_set_self (h.tmp file htmp)
    have hwrite := h.write hi hnone (Or.inl htmp.symm) hnow (Nat.zero_le _)
      fun f c hf => hfiles f c (htmp ▸ hf)
    rwa [← htmp] at hwrite
  · rename_i htmp
    simp only [htmp] at hfiles
    have hnow : (s.files ++ [[]])[s.files.length]? = some (bytes.take 0) :=
      List.getElem?_concat_length
    exact h.write hi hnone (Or.inr rfl) hnow (Nat.zero_le _) fun f c hf => hfiles f c (htmp ▸ hf)

/-- A call that writes where it has come to. -/
theorem writeAt_take (bytes : Bytes) (written count : Nat) (hle : written ≤ bytes.length) :
    writeAt (bytes.take written) written ((bytes.drop written).take count) =
      bytes.take (written + ((bytes.drop written).take count).length) := by
  have hlength : (bytes.take written).length = written := by
    rw [List.length_take]
    omega
  have hdrop : (bytes.take written).drop (written + ((bytes.drop written).take count).length) = [] :=
    List.drop_of_length_le (by omega)
  have hchunk : (bytes.drop written).take ((bytes.drop written).take count).length =
      (bytes.drop written).take count := by
    rw [List.length_take, ← List.take_take, List.take_of_length_le (i := (bytes.drop written).length)]
    omega
  unfold writeAt
  rw [hdrop, hlength, Nat.sub_self, List.replicate_zero, List.append_nil, List.append_nil,
    List.take_take, Nat.min_self, List.take_add, hchunk]

theorem Inv.append (h : Inv initial s) {i file written : Nat} {bytes : Bytes}
    (hi : Writing s i bytes file written) (count : Nat) :
    Inv initial (s.append i file written ((bytes.drop written).take count)) := by
  obtain ⟨htmp, hcontents, hle⟩ := h.writing i bytes file written hi
  have hnow : (s.files.modify file fun c =>
      writeAt c written ((bytes.drop written).take count))[file]? =
      some (bytes.take (written + ((bytes.drop written).take count).length)) := by
    rw [List.getElem?_modify_eq, hcontents, Option.map_eq_map, Option.map_some,
      writeAt_take bytes written count hle]
  have hwrite := h.write (s := s) hi (fun j _ _ _ hj => h.alone j i _ _ _ _ _ _ hj hi)
    (Or.inl htmp.symm) hnow (by rw [List.length_take, List.length_drop]; omega)
    fun f c hf hc => append_files i (fun heq => hf (heq ▸ htmp)) hc
  rwa [← htmp] at hwrite

theorem Inv.held (h : Inv initial s) (more : List Bytes) :
    Inv initial { s with held := s.held ++ more } :=
  ⟨h.writing, h.alone, h.tmp, h.target, h.reading, h.reads, fun w hw hwok =>
    List.mem_append_left more (h.ok w hw hwok)⟩

/-- The call that renames has its bytes at the target. -/
theorem Inv.renamed (h : Inv initial s) {i file : Nat} {bytes : Bytes}
    (hi : Writing s i bytes file bytes.length) :
    s.rename i = ({ s with target := some file, tmp := none } : Sys).setStage i .ok ∧
      (s.rename i).contents = some bytes := by
  obtain ⟨htmp, hcontents, -⟩ := h.writing i bytes file _ hi
  rw [List.take_length] at hcontents
  have hrename : s.rename i =
      ({ s with target := some file, tmp := none } : Sys).setStage i .ok := by
    simp [Sys.rename, htmp]
  refine ⟨hrename, ?_⟩
  rw [hrename]
  exact hcontents

theorem Inv.rename (h : Inv initial s) {i file : Nat} {bytes : Bytes}
    (hi : Writing s i bytes file bytes.length) :
    Inv initial { s.rename i with held := s.held ++ (s.rename i).contents.toList } := by
  obtain ⟨htmp, hcontents, -⟩ := h.writing i bytes file _ hi
  rw [List.take_length] at hcontents
  obtain ⟨hrename, hheld⟩ := h.renamed hi
  have hwrites : s.writes.map (·.bytes) ⊆
      (({ s with target := some file, tmp := none } : Sys).setStage i .ok).writes.map
        (·.bytes) := by
    rw [setStage_bytes]
    exact List.Subset.refl _
  have hnone : ∀ j bytes' file' written', ¬ Writing
      (({ s with target := some file, tmp := none } : Sys).setStage i .ok) j bytes' file'
        written' := by
    intro j bytes' file' written' hj
    rcases setStage_writes hj with ⟨-, hstage, -⟩ | ⟨hne, hj⟩
    · cases hstage
    · exact hne (h.alone i j _ _ _ _ _ _ hi hj)
  rw [hheld, hrename]
  refine ⟨fun j bytes' file' written' hj => absurd hj (hnone _ _ _ _),
    fun j k _ _ _ _ _ _ hj _ => absurd hj (hnone _ _ _ _), nofun, ?_,
    h.reading_mono hwrites rfl (Or.inr (Or.inl rfl)) fun _ _ _ hc => hc,
    fun r hr => (h.reads r hr).mono hwrites, fun w hw hwok => ?_⟩
  · rintro _ ⟨⟩
    refine ⟨nofun, bytes, hcontents, Or.inr (hwrites ?_)⟩
    exact List.mem_map.mpr ⟨_, List.mem_of_getElem? hi, rfl⟩
  · obtain ⟨j, hj⟩ := List.mem_iff_getElem?.mp hw
    rcases setStage_writes hj with ⟨rfl, -, w', hw', hbytes⟩ | ⟨-, hj⟩
    · have hwi : s.writes[i]? = some w' := hw'
      rw [show s.writes[i]? = _ from hi] at hwi
      cases hwi
      rw [hbytes]
      exact List.mem_append_right _ List.mem_cons_self
    · exact List.mem_append_left _ (h.ok w (List.mem_of_getElem? hj) hwok)

theorem Inv.remove (h : Inv initial s) : Inv initial { s with target := none } :=
  ⟨h.writing, h.alone, h.tmp, nofun, h.reading, h.reads, h.ok⟩

theorem Inv.openRead (h : Inv initial s) {file : Nat} (hfile : s.target = some file) :
    Inv initial { s with readings := s.readings ++ [{ file }] } := by
  refine ⟨h.writing, h.alone, h.tmp, h.target, fun r hr => ?_, h.reads, h.ok⟩
  rcases List.mem_append.mp hr with hr | hr
  · exact h.reading r hr
  · rw [List.mem_singleton.mp hr]
    exact ⟨h.target file hfile, fun c _ => List.nil_prefix⟩

theorem Inv.read (h : Inv initial s) {i : Nat} {r : Reading} {contents : Bytes}
    (hr : s.readings[i]? = some r) (hcontents : s.files[r.file]? = some contents) (count : Nat) :
    Inv initial (s.more i r (r.got ++ (contents.drop r.got.length).take count)) := by
  refine ⟨h.writing, h.alone, h.tmp, h.target, fun r' hr' => ?_, h.reads, h.ok⟩
  rcases List.mem_or_eq_of_mem_set hr' with hr' | rfl
  · exact h.reading r' hr'
  · obtain ⟨hsettled, hgot⟩ := h.reading r (List.mem_of_getElem? hr)
    refine ⟨hsettled, fun c hc => ?_⟩
    obtain rfl : contents = c := Option.some.inj (hcontents.symm.trans hc)
    obtain ⟨rest, hrest⟩ := hgot contents hcontents
    refine ⟨rest.drop count, ?_⟩
    rw [List.append_assoc, ← hrest, List.drop_left, List.take_append_drop]

theorem Inv.finishRead (h : Inv initial s) {i : Nat} {r : Reading} {contents : Bytes}
    (hr : s.readings[i]? = some r) (hcontents : s.files[r.file]? = some contents)
    (hend : contents.length ≤ r.got.length) :
    Inv initial { s with readings := s.readings.eraseIdx i, reads := s.reads ++ [r.got] } := by
  refine ⟨h.writing, h.alone, h.tmp, h.target, fun r' hr' =>
    h.reading r' (List.mem_of_mem_eraseIdx hr'), fun got hgot => ?_, h.ok⟩
  rcases List.mem_append.mp hgot with hgot | hgot
  · exact h.reads got hgot
  · obtain ⟨⟨-, c, hc, hgood⟩, hbegins⟩ := h.reading r (List.mem_of_getElem? hr)
    obtain rfl : contents = c := Option.some.inj (hcontents.symm.trans hc)
    rw [List.mem_singleton.mp hgot, (hbegins contents hcontents).eq_of_length_le hend]
    exact hgood

theorem Inv.step {a : Act} (h : Inv initial s) (halone : CreatesAlone s a)
    (hstep : s.step a = some t) : Inv initial t := by
  simp only [Sys.step, Option.map_eq_some_iff] at hstep
  obtain ⟨u, hu, rfl⟩ := hstep
  cases a with
  | call bytes =>
      cases hu
      exact (h.call bytes).held _
  | create write =>
      simp only [Sys.act] at hu
      split at hu
      · rename_i bytes hwrite
        cases hu
        exact (h.create hwrite halone).held _
      · cases hu
  | append write count =>
      simp only [Sys.act] at hu
      split at hu
      · rename_i bytes file written hwrite
        cases hu
        exact (h.append hwrite count).held _
      · cases hu
  | rename write =>
      simp only [Sys.act] at hu
      split at hu
      · rename_i bytes file written hwrite
        split at hu
        · rename_i hall
          cases hu
          subst hall
          have hheld : (s.rename write).held = s.held := by
            unfold Sys.rename
            split <;> rfl
          rw [hheld]
          exact h.rename hwrite
        · cases hu
      · cases hu
  | fail write =>
      simp only [Sys.act] at hu
      have hfailed : Inv initial (s.setStage write .failed) :=
        h.setStage (by intro _ _ h; cases h) (by intro h; cases h)
      split at hu
      · cases hu
        exact hfailed.held _
      · cases hu
        exact hfailed.held _
      · cases hu
  | remove =>
      cases hu
      exact h.remove.held _
  | openRead =>
      simp only [Sys.act] at hu
      split at hu
      · rename_i file hfile
        cases hu
        exact (h.openRead hfile).held _
      · cases hu
  | read reading count =>
      simp only [Sys.act] at hu
      split at hu
      · rename_i r hr
        split at hu
        · rename_i contents hcontents
          cases hu
          exact (h.read hr hcontents count).held _
        · cases hu
      · cases hu
  | finishRead reading =>
      simp only [Sys.act] at hu
      split at hu
      · rename_i r hr
        split at hu
        · rename_i contents hcontents
          split at hu
          · rename_i hend
            cases hu
            exact (h.finishRead hr hcontents hend).held _
          · cases hu
        · cases hu
      · cases hu

/-- Files that are not under the temporary name are kept, and the target is one of them. -/
theorem Inv.contents_kept (h : Inv initial s) (htarget : t.target = s.target)
    (hfiles : ∀ f c, s.tmp ≠ some f → s.files[f]? = some c → t.files[f]? = some c) :
    t.contents = s.contents := by
  unfold Sys.contents
  rw [htarget]
  cases hs : s.target with
  | none => rfl
  | some file =>
      obtain ⟨hother, c, hc, -⟩ := h.target file hs
      exact (hfiles file c hother hc).trans hc.symm

/-- What is at the target changes when a file is renamed over it, or removed. -/
theorem Inv.step_contents (h : Inv initial s) {a : Act} (hstep : s.step a = some t)
    (hrename : ∀ write, a ≠ .rename write) (hremove : a ≠ .remove) : t.contents = s.contents := by
  simp only [Sys.step, Option.map_eq_some_iff] at hstep
  obtain ⟨u, hu, rfl⟩ := hstep
  suffices u.contents = s.contents from this
  cases a with
  | call bytes =>
      cases hu
      rfl
  | create write =>
      simp only [Sys.act] at hu
      split at hu
      · cases hu
        unfold Sys.create
        split
        · rename_i file htmp
          refine h.contents_kept rfl fun f c hf hc => ?_
          have hne : file ≠ f := fun heq => hf (heq ▸ htmp)
          exact (List.getElem?_set_ne hne).trans hc
        · refine h.contents_kept rfl fun f c _ hc => ?_
          have hlt : f < s.files.length := (List.getElem?_eq_some_iff.mp hc).1
          exact (List.getElem?_append_left hlt).trans hc
      · cases hu
  | append write count =>
      simp only [Sys.act] at hu
      split at hu
      · rename_i bytes file written hwrite
        cases hu
        exact h.contents_kept rfl fun f c hf hc =>
          append_files write (fun heq => hf (heq ▸ (h.writing _ _ _ _ hwrite).1)) hc
      · cases hu
  | rename write => exact absurd rfl (hrename write)
  | remove => exact absurd rfl hremove
  | fail write =>
      simp only [Sys.act] at hu
      split at hu
      · cases hu
        rfl
      · cases hu
        rfl
      · cases hu
  | openRead =>
      simp only [Sys.act] at hu
      split at hu
      · cases hu
        rfl
      · cases hu
  | read reading count =>
      simp only [Sys.act] at hu
      split at hu
      · split at hu
        · cases hu
          rfl
        · cases hu
      · cases hu
  | finishRead reading =>
      simp only [Sys.act] at hu
      split at hu
      · split at hu
        · split at hu
          · cases hu
            rfl
          · cases hu
        · cases hu
      · cases hu

/-- The bytes of the calls stay as they are. -/
theorem step_bytes {a : Act} (hstep : s.step a = some t) :
    s.writes.map (·.bytes) <+: t.writes.map (·.bytes) := by
  simp only [Sys.step, Option.map_eq_some_iff] at hstep
  obtain ⟨u, hu, rfl⟩ := hstep
  suffices s.writes.map (·.bytes) <+: u.writes.map (·.bytes) from this
  cases a with
  | call bytes =>
      cases hu
      rw [List.map_append]
      exact List.prefix_append _ _
  | create write =>
      simp only [Sys.act] at hu
      split at hu
      · cases hu
        unfold Sys.create
        split <;> simp
      · cases hu
  | append write count =>
      simp only [Sys.act] at hu
      split at hu
      · cases hu
        unfold Sys.append
        simp only [setStage_bytes, List.prefix_rfl]
      · cases hu
  | rename write =>
      simp only [Sys.act] at hu
      split at hu
      · split at hu
        · cases hu
          unfold Sys.rename
          split <;> simp
        · cases hu
      · cases hu
  | fail write =>
      simp only [Sys.act] at hu
      split at hu
      · cases hu
        simp only [setStage_bytes, List.prefix_rfl]
      · cases hu
        simp only [setStage_bytes, List.prefix_rfl]
      · cases hu
  | remove =>
      cases hu
      exact List.prefix_rfl
  | openRead =>
      simp only [Sys.act] at hu
      split at hu
      · cases hu
        exact List.prefix_rfl
      · cases hu
  | read reading count =>
      simp only [Sys.act] at hu
      split at hu
      · split at hu
        · cases hu
          exact List.prefix_rfl
        · cases hu
      · cases hu
  | finishRead reading =>
      simp only [Sys.act] at hu
      split at hu
      · split at hu
        · split at hu
          · cases hu
            exact List.prefix_rfl
          · cases hu
        · cases hu
      · cases hu

/-- After a rename the bytes of the call are at the target. -/
theorem Inv.step_rename (h : Inv initial s) {write : Nat} (hstep : s.step (.rename write) = some t) :
    ∃ bytes, t.writes[write]? = some ⟨bytes, .ok⟩ ∧ t.contents = some bytes := by
  simp only [Sys.step, Option.map_eq_some_iff] at hstep
  obtain ⟨u, hu, rfl⟩ := hstep
  simp only [Sys.act] at hu
  split at hu
  · rename_i bytes file written hwrite
    split at hu
    · rename_i hall
      cases hu
      subst hall
      obtain ⟨hrename, hcontents⟩ := h.renamed hwrite
      refine ⟨bytes, ?_, hcontents⟩
      simp only [hrename, Sys.setStage, List.getElem?_modify_eq, hwrite, Option.map_eq_map,
        Option.map_some]
    · cases hu
  · cases hu

/-- A call that comes back with Ok has renamed. -/
theorem step_ok {a : Act} {write : Nat} {bytes : Bytes} (hstep : s.step a = some t)
    (ha : a = .create write ∨ (∃ count, a = .append write count) ∨ a = .fail write) :
    t.writes[write]? ≠ some ⟨bytes, .ok⟩ := by
  simp only [Sys.step, Option.map_eq_some_iff] at hstep
  obtain ⟨u, hu, rfl⟩ := hstep
  suffices ∃ v : Sys, ∃ stage, u = v.setStage write stage ∧ stage ≠ .ok by
    obtain ⟨v, stage, rfl, hstage⟩ := this
    intro hok
    rcases setStage_writes hok with ⟨-, hok, -⟩ | ⟨hne, -⟩
    · exact hstage hok.symm
    · exact hne rfl
  rcases ha with rfl | ⟨count, rfl⟩ | rfl
  · simp only [Sys.act] at hu
    split at hu
    · cases hu
      unfold Sys.create
      split
      · exact ⟨_, _, rfl, by intro h; cases h⟩
      · exact ⟨_, _, rfl, by intro h; cases h⟩
    · cases hu
  · simp only [Sys.act] at hu
    split at hu
    · cases hu
      exact ⟨_, _, rfl, by intro h; cases h⟩
    · cases hu
  · simp only [Sys.act] at hu
    split at hu
    · cases hu
      exact ⟨_, _, rfl, by intro h; cases h⟩
    · cases hu
      exact ⟨_, _, rfl, by intro h; cases h⟩
    · cases hu

/-- Files of which nobody knows but by their names. -/
theorem Inv.left (h : Inv initial s) :
    Inv s.contents { s with writes := [], readings := [], reads := [], held := s.contents.toList } := by
  refine ⟨nofun, nofun, h.tmp, fun file hf => ?_, nofun, nofun, nofun⟩
  obtain ⟨hother, c, hc, -⟩ := h.target file hf
  refine ⟨hother, c, hc, Or.inl ?_⟩
  have hf' : s.target = some file := hf
  simp [Sys.contents, hf', show s.files[file]? = some c from hc]

/-- Readers read whole contents, and what a call has written is there, as long as calls
do not open the temporary file together. -/
theorem reads_whole (initial : Option Bytes) (acts : List Act) (s : Sys)
    (hmeets : Runs.Meets Sys.step CreatesAlone (Sys.start initial) acts)
    (hrun : Runs.run Sys.step (Sys.start initial) acts = some s) : s.Whole initial := by
  have hinv : Inv initial s :=
    Runs.invariant (fun _ _ _ hs hcond hstep => Inv.step hs hcond hstep) (Inv.start initial) hmeets
      hrun
  exact hinv.whole

/-- Two calls one after the other, the second failing half way, and readers of all. -/
def readBetween : List Act :=
  [.openRead, .call [2, 3], .call [4, 5], .create 0, .append 0 1, .append 0 1, .rename 0,
    .read 0 9, .finishRead 0, .create 1, .append 1 1, .fail 1, .openRead, .read 0 1, .read 0 1,
    .finishRead 0]

theorem reads_whole_readBetween :
    ∃ s, Runs.run Sys.step (Sys.start (some [1])) readBetween = some s ∧ s.reads = [[1], [2, 3]] ∧
      s.Whole (some [1]) :=
  ⟨_, rfl, rfl, reads_whole (some [1]) readBetween _ (by decide) rfl⟩

/-- A second call empties the file that the first one then renames over the target. -/
theorem torn_read :
    ∃ s, Runs.run Sys.step (Sys.start none)
        [.call [2, 3], .call [4, 5], .create 0, .append 0 2, .create 1, .rename 0, .openRead,
          .finishRead 0] = some s ∧ s.reads = [[]] ∧ ¬ s.Whole none := by
  refine ⟨_, rfl, rfl, fun h => ?_⟩
  have hread := h.1 [] (by decide)
  revert hread
  decide

end DatumConnect.Auth.AtomicWrites
