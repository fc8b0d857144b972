import DatumConnect.Auth.AtomicWrites
import DatumConnect.Auth.Tokens
/-!
# Requests for the viewer token

`create_viewer_token` and `revoke_viewer_token` change the file and then, in another
step, the token in memory.  Requests run side by side, and nothing is locked over both
steps.
-/

namespace DatumConnect.Auth.ViewerRequests

open DatumConnect.Lib
open DatumConnect.Auth.AtomicWrites (Bytes)

inductive Kind where
  | create (token : String)
  | revoke
  deriving DecidableEq, Repr

/-- The token there is once the request has succeeded. -/
def Kind.outcome : Kind → Option String
  | .create token => some token
  | .revoke => none

inductive Stage where
  | begun
  | writing (write : Nat)
  /-- The file has been changed, the token in memory has not. -/
  | changed
  | remembered
  | answered
  | failed
  deriving DecidableEq, Repr

structure Request where
  kind : Kind
  stage : Stage := .begun
  /-- No other request has run beside it. -/
  alone : Bool
  deriving DecidableEq, Repr

def Request.running (r : Request) : Bool :=
  match r.stage with
  | .answered | .failed => false
  | _ => true

structure Sys where
  file : AtomicWrites.Sys
  viewerToken : Option String
  requests : List Request := []
  /-- The outcome of the last request that succeeded, while requests run one by one. -/
  last : Option (Option String) := none
  deriving DecidableEq, Repr

/-- The parts of `write_atomic_raw`. -/
inductive Part where
  | create
  | append (count : Nat)
  | rename
  | fail
  deriving DecidableEq, Repr

def Part.act (write : Nat) : Part → AtomicWrites.Act
  | .create => .create write
  | .append count => .append write count
  | .rename => .rename write
  | .fail => .fail write

inductive Act where
  | begin (kind : Kind)
  /-- `create_dir_all` -/
  | makeDir (request : Nat) (ok : Bool)
  | write (request : Nat) (part : Part)
  | remove (request : Nat) (ok : Bool)
  | remember (request : Nat)
  | answer (request : Nat)
  | restart
  deriving DecidableEq, Repr

/-- `load_viewer_token`; text that is not UTF-8 is an error. -/
def loadViewerToken : Option Bytes → Option (Option String)
  | some bytes => (String.fromUTF8? ⟨bytes.toArray⟩).map some
  | none => some none

namespace Sys

variable (s : Sys)

/-- The daemon starts. -/
def start (contents : Option Bytes) : Option Sys :=
  (loadViewerToken contents).map fun viewerToken => { file := .start contents, viewerToken }

def setStage (request : Nat) (stage : Stage) : Sys :=
  { s with requests := s.requests.modify request fun r => { r with stage } }

def quiet : Bool := s.requests.all fun r => !r.running

/-- Requests that run beside another are marked. -/
def begin (kind : Kind) : Sys :=
  if s.quiet then { s with requests := s.requests ++ [{ kind, alone := true }] }
  else
    { s with
      requests := s.requests.map ({ · with alone := false }) ++ [{ kind, alone := false }]
      last := none }

/-- The handler goes on with what the part of the write came to. -/
def written (request write : Nat) (file : AtomicWrites.Sys) : Sys :=
  match file.writes[write]? with
  | some ⟨_, .ok⟩ => { s with file }.setStage request .changed
  | some ⟨_, .failed⟩ => { s with file }.setStage request .failed
  | _ => { s with file }.setStage request (.writing write)

/-- What is left of the files when the daemon ends. -/
def filesLeft : AtomicWrites.Sys :=
  { s.file with writes := [], readings := [], reads := [], held := s.file.contents.toList }

def step : Act → Option Sys
  | .begin kind => some (s.begin kind)
  | .makeDir request ok =>
      match s.requests[request]? with
      | some ⟨.create token, .begun, _⟩ =>
          if ok then
            (s.file.step (.call (asBytes token))).map fun file =>
              { s with file }.setStage request (.writing s.file.writes.length)
          else some (s.setStage request .failed)
      | _ => none
  | .write request part =>
      match s.requests[request]? with
      | some ⟨_, .writing write, _⟩ =>
          (s.file.step (part.act write)).map fun file => s.written request write file
      | _ => none
  | .remove request ok =>
      match s.requests[request]? with
      | some ⟨.revoke, .begun, _⟩ =>
          if ok then (s.file.step .remove).map fun file => { s with file }.setStage request .changed
          else some (s.setStage request .failed)
      | _ => none
  | .remember request =>
      match s.requests[request]? with
      | some ⟨kind, .changed, _⟩ =>
          some ({ s with viewerToken := kind.outcome }.setStage request .remembered)
      | _ => none
  | .answer request =>
      match s.requests[request]? with
      | some ⟨kind, .remembered, alone⟩ =>
          some ({ s with last := if alone then some kind.outcome else s.last }.setStage request
            .answered)
      | _ => none
  | .restart =>
      (loadViewerToken s.file.contents).map fun viewerToken =>
        { file := s.filesLeft, viewerToken, last := if s.quiet then s.last else none }

/-- The token in memory is the one on disk and the one a restart would load, and it is
what the last request said. -/
def Agrees : Prop :=
  s.file.contents = s.viewerToken.map asBytes ∧
    loadViewerToken s.file.contents = some s.viewerToken ∧
    ∀ outcome, s.last = some outcome → s.viewerToken = outcome

end Sys

/-- A request opens the temporary file while no other one has it open, and changes the
file while no other one has still to change the token in memory. -/
def InTurn (s : Sys) : Act → Prop
  | .write _ .create => ∀ w ∈ s.file.writes, ¬ w.stage.hasOpen
  | .write _ .rename | .remove _ true => ∀ r ∈ s.requests, r.stage ≠ .changed
  | _ => True

instance : ∀ s a, Decidable (InTurn s a) := fun s a => by
  unfold InTurn
  split <;> infer_instance

/-! ## What is kept -/

variable {s t : Sys}

theorem setStage_requests {i j : Nat} {stage : Stage} {r : Request}
    (h : (s.setStage i stage).requests[j]? = some r) :
    (i = j ∧ r.stage = stage ∧
        ∃ r', s.requests[j]? = some r' ∧ r.kind = r'.kind ∧ r.alone = r'.alone) ∨
      (i ≠ j ∧ s.requests[j]? = some r) := by
  simp only [Sys.setStage, List.getElem?_modify, Option.map_eq_map, Option.map_eq_some_iff] at h
  obtain ⟨r', hr', hr⟩ := h
  by_cases hij : i = j
  · rw [if_pos hij] at hr
    subst hr
    exact Or.inl ⟨hij, rfl, r', hr', rfl, rfl⟩
  · rw [if_neg hij] at hr
    subst hr
    exact Or.inr ⟨hij, hr'⟩

/-- The request is there, in its new stage. -/
theorem setStage_self {i : Nat} {r : Request} (stage : Stage) (hr : s.requests[i]? = some r) :
    (s.setStage i stage).requests[i]? = some { r with stage } := by
  simp [Sys.setStage, hr]

theorem prefix_getElem? {l l' : List Bytes} {i : Nat} {b : Bytes} (h : l <+: l')
    (hi : l[i]? = some b) : l'[i]? = some b := by
  obtain ⟨more, rfl⟩ := h
  exact (List.getElem?_append_left (List.getElem?_eq_some_iff.mp hi).1).trans hi

/-- The file is as the request that has changed it wants it, and otherwise as the token
in memory has it. -/
structure Inv (s : Sys) : Prop where
  file : ∃ initial, AtomicWrites.Inv initial s.file
  writing : ∀ (i : Nat) (r : Request) w, s.requests[i]? = some r → r.stage = .writing w →
    ∃ token, r.kind = .create token ∧ (s.file.writes.map (·.bytes))[w]? = some (asBytes token)
  settled : (∀ (i : Nat) (r : Request), s.requests[i]? = some r → r.stage ≠ .changed) →
    s.file.contents = s.viewerToken.map asBytes
  changed : ∀ (i : Nat) (r : Request), s.requests[i]? = some r → r.stage = .changed →
    s.file.contents = r.kind.outcome.map asBytes ∧
      ∀ (j : Nat) (r' : Request), s.requests[j]? = some r' → r'.stage = .changed → j = i

/-- A request goes on and the file stays as it is. -/
theorem Inv.goesOn (h : Inv s) {i : Nat} {r : Request} {stage : Stage} {file : AtomicWrites.Sys}
    (hr : s.requests[i]? = some r) (hfrom : r.stage ≠ .changed) (hto : stage ≠ .changed)
    (hfile : ∃ initial, AtomicWrites.Inv initial file)
    (hbytes : s.file.writes.map (·.bytes) <+: file.writes.map (·.bytes))
    (hcontents : file.contents = s.file.contents)
    (hwriting : ∀ w, stage = .writing w →
      ∃ token, r.kind = .create token ∧ (file.writes.map (·.bytes))[w]? = some (asBytes token)) :
    Inv (({ s with file } : Sys).setStage i stage) := by
  refine ⟨hfile, fun j q w hq hw => ?_, fun hall => ?_, fun j q hq hstage => ?_⟩
  · rcases setStage_requests hq with ⟨rfl, hstage, r', hr', hkind, -⟩ | ⟨-, hq⟩
    · obtain rfl : r = r' := Option.some.inj (hr.symm.trans hr')
      rw [hkind]
      exact hwriting w (hstage.symm.trans hw)
    · obtain ⟨token, hkind, hw⟩ := h.writing j q w hq hw
      exact ⟨token, hkind, prefix_getElem? hbytes hw⟩
  · refine hcontents.trans (h.settled fun j q hq => ?_)
    by_cases hij : i = j
    · subst hij
      obtain rfl : r = q := Option.some.inj (hr.symm.trans hq)
      exact hfrom
    · exact hall j q (by simpa [Sys.setStage, List.getElem?_modify, hij] using hq)
  · rcases setStage_requests hq with ⟨-, hstage', -⟩ | ⟨-, hq⟩
    · exact absurd (hstage'.symm.trans hstage) hto
    · obtain ⟨houtcome, hone⟩ := h.changed j q hq hstage
      refine ⟨hcontents.trans houtcome, fun k p hp hstage' => ?_⟩
      rcases setStage_requests hp with ⟨-, hstage'', -⟩ | ⟨-, hp⟩
      · exact absurd (hstage''.symm.trans hstage') hto
      · exact hone k p hp hstage'

/-- A request changes the file while no other one has still to change the memory. -/
theorem Inv.changes (h : Inv s) {i : Nat} {r : Request} {file : AtomicWrites.Sys}
    (hr : s.requests[i]? = some r) (hturn : ∀ q ∈ s.requests, q.stage ≠ .changed)
    (hfile : ∃ initial, AtomicWrites.Inv initial file)
    (hbytes : s.file.writes.map (·.bytes) <+: file.writes.map (·.bytes))
    (hcontents : file.contents = r.kind.outcome.map asBytes) :
    Inv (({ s with file } : Sys).setStage i .changed) := by
  have hself : (({ s with file } : Sys).setStage i .changed).requests[i]? =
      some { r with stage := .changed } := setStage_self .changed hr
  have hone : ∀ (j : Nat) (q : Request), (({ s with file } : Sys).setStage i .changed).requests[j]? = some q →
      q.stage = .changed → j = i ∧ q.kind = r.kind := by
    intro j q hq hstage
    rcases setStage_requests hq with ⟨rfl, -, r', hr', hkind, -⟩ | ⟨-, hq⟩
    · obtain rfl : r = r' := Option.some.inj (hr.symm.trans hr')
      exact ⟨rfl, hkind⟩
    · exact absurd hstage (hturn q (List.mem_of_getElem? hq))
  refine ⟨hfile, fun j q w hq hw => ?_, fun hall => absurd rfl (hall i _ hself),
    fun j q hq hstage => ?_⟩
  · rcases setStage_requests hq with ⟨-, hstage, -⟩ | ⟨-, hq⟩
    · rw [hw] at hstage
      cases hstage
    · obtain ⟨token, hkind, hw⟩ := h.writing j q w hq hw
      exact ⟨token, hkind, prefix_getElem? hbytes hw⟩
  · obtain ⟨rfl, hkind⟩ := hone j q hq hstage
    rw [hkind]
    exact ⟨hcontents, fun k p hp hstage' => (hone k p hp hstage').1⟩

/-- The memory catches up with the file. -/
theorem Inv.remember (h : Inv s) {i : Nat} {r : Request} (hr : s.requests[i]? = some r)
    (hchanged : r.stage = .changed) :
    Inv (({ s with viewerToken := r.kind.outcome } : Sys).setStage i .remembered) := by
  obtain ⟨houtcome, hone⟩ := h.changed i r hr hchanged
  refine ⟨h.file, fun j q w hq hw => ?_, fun _ => houtcome, fun j q hq hstage => ?_⟩
  · rcases setStage_requests hq with ⟨-, hstage, -⟩ | ⟨-, hq⟩
    · rw [hw] at hstage
      cases hstage
    · exact h.writing j q w hq hw
  · rcases setStage_requests hq with ⟨-, hstage', -⟩ | ⟨hne, hq⟩
    · rw [hstage] at hstage'
      cases hstage'
    · exact absurd (hone j q hq hstage).symm hne

/-- The requests there are, but for the marks, and the one that begins. -/
theorem begin_requests {kind : Kind} {j : Nat} {r : Request}
    (h : (s.begin kind).requests[j]? = some r) :
    r.stage = .begun ∨ ∃ r', s.requests[j]? = some r' ∧ r.kind = r'.kind ∧ r.stage = r'.stage := by
  unfold Sys.begin at h
  split at h
  · simp only [List.getElem?_append] at h
    split at h
    · exact Or.inr ⟨r, h, rfl, rfl⟩
    · rw [List.mem_singleton.mp (List.mem_of_getElem? h)]
      exact Or.inl rfl
  · simp only [List.getElem?_append] at h
    split at h
    · rw [List.getElem?_map, Option.map_eq_some_iff] at h
      obtain ⟨r', hr', rfl⟩ := h
      exact Or.inr ⟨r', hr', rfl, rfl⟩
    · rw [List.mem_singleton.mp (List.mem_of_getElem? h)]
      exact Or.inl rfl

theorem begin_kept (kind : Kind) {j : Nat} {r : Request} (h : s.requests[j]? = some r) :
    ∃ r', (s.begin kind).requests[j]? = some r' ∧ r'.stage = r.stage := by
  have hlt : j < s.requests.length := (List.getElem?_eq_some_iff.mp h).1
  unfold Sys.begin
  split
  · exact ⟨r, (List.getElem?_append_left hlt).trans h, rfl⟩
  · refine ⟨{ r with alone := false }, ?_, rfl⟩
    rw [List.getElem?_append_left (by simpa using hlt), List.getElem?_map, h, Option.map_some]

theorem begin_file (kind : Kind) :
    (s.begin kind).file = s.file ∧ (s.begin kind).viewerToken = s.viewerToken := by
  unfold Sys.begin
  split
  · exact ⟨rfl, rfl⟩
  · exact ⟨rfl, rfl⟩

theorem Inv.begin (h : Inv s) (kind : Kind) : Inv (s.begin kind) := by
  obtain ⟨hfile, hmemory⟩ := begin_file (s := s) kind
  refine ⟨hfile ▸ h.file, fun i r w hr hw => ?_, fun hall => ?_, fun i r hr hstage => ?_⟩
  · rw [hfile]
    rcases begin_requests hr with hstage | ⟨r', hr', hkind, hstage⟩
    · rw [hw] at hstage
      cases hstage
    · rw [hkind]
      exact h.writing i r' w hr' (hstage.symm.trans hw)
  · rw [hfile, hmemory]
    refine h.settled fun i r hr => ?_
    obtain ⟨r', hr', hstage⟩ := begin_kept kind hr
    exact hstage ▸ hall i r' hr'
  · rcases begin_requests hr with hstage' | ⟨r', hr', hkind, hstage'⟩
    · rw [hstage] at hstage'
      cases hstage'
    · obtain ⟨houtcome, hone⟩ := h.changed i r' hr' (hstage'.symm.trans hstage)
      rw [hfile, hkind]
      refine ⟨houtcome, fun j q hq hstage'' => ?_⟩
      rcases begin_requests hq with hq | ⟨q', hq', -, hq⟩
      · rw [hstage''] at hq
        cases hq
      · exact hone j q' hq' (hq.symm.trans hstage'')

theorem loadViewerToken_map (token : Option String) :
    loadViewerToken (token.map asBytes) = some token := by
  cases token with
  | none => rfl
  | some token =>
      have hvalid : ByteArray.IsValidUTF8 ⟨(asBytes token).toArray⟩ := token.isValidUTF8
      simp only [loadViewerToken, Option.map_some, String.fromUTF8?, dif_pos hvalid]
      rfl

/-- What a token is loaded from are its bytes. -/
theorem map_of_loadViewerToken {contents : Option Bytes} {token : Option String}
    (h : loadViewerToken contents = some token) : contents = token.map asBytes := by
  cases contents with
  | none =>
      cases h
      rfl
  | some bytes =>
      simp only [loadViewerToken, String.fromUTF8?] at h
      split at h
      · cases h
        simp [asBytes, String.fromUTF8]
      · cases h

theorem Inv.restart (h : Inv s) {viewerToken : Option String} {last : Option (Option String)}
    (hload : loadViewerToken s.file.contents = some viewerToken) :
    Inv { file := s.filesLeft, viewerToken, last } := by
  obtain ⟨initial, hfile⟩ := h.file
  exact ⟨⟨_, hfile.left⟩, nofun, fun _ => map_of_loadViewerToken hload, nofun⟩

/-- A part of the write, for the request whose write it is. -/
theorem Inv.write (h : Inv s) {i w : Nat} {r : Request} {part : Part} {file : AtomicWrites.Sys}
    (hr : s.requests[i]? = some r) (hstage : r.stage = .writing w)
    (hturn : InTurn s (.write i part)) (hstep : s.file.step (part.act w) = some file) :
    Inv (s.written i w file) := by
  obtain ⟨initial, hfile⟩ := h.file
  obtain ⟨token, hkind, hbytes⟩ := h.writing i r w hr hstage
  have halone : AtomicWrites.CreatesAlone s.file (part.act w) := by
    cases part with
    | create => exact hturn
    | append count => trivial
    | rename => trivial
    | fail => trivial
  have hfile' : ∃ initial, AtomicWrites.Inv initial file := ⟨initial, hfile.step halone hstep⟩
  have hmore := AtomicWrites.step_bytes hstep
  have hfrom : r.stage ≠ .changed := by
    rw [hstage]
    nofun
  by_cases hpart : part = .rename
  · subst hpart
    obtain ⟨bytes, hok, hcontents⟩ := hfile.step_rename hstep
    have hsame : bytes = asBytes token := by
      have hw := prefix_getElem? hmore hbytes
      rw [List.getElem?_map, hok] at hw
      exact Option.some.inj hw
    have hwritten : s.written i w file = ({ s with file } : Sys).setStage i .changed := by
      simp only [Sys.written, hok]
    rw [hwritten]
    exact h.changes hr hturn hfile' hmore (by rw [hcontents, hkind, hsame]; rfl)
  · have hnotOk : ∀ bytes, file.writes[w]? ≠ some ⟨bytes, .ok⟩ := fun bytes =>
      AtomicWrites.step_ok hstep (by
        cases part with
        | create => exact Or.inl rfl
        | append count => exact Or.inr (Or.inl ⟨count, rfl⟩)
        | rename => exact absurd rfl hpart
        | fail => exact Or.inr (Or.inr rfl))
    have hcontents : file.contents = s.file.contents :=
      hfile.step_contents hstep
        (by cases part <;> first | exact absurd rfl hpart | exact fun _ => nofun)
        (by cases part <;> nofun)
    unfold Sys.written
    split
    · rename_i bytes hok
      exact absurd hok (hnotOk bytes)
    · exact h.goesOn hr hfrom nofun hfile' hmore hcontents nofun
    · refine h.goesOn hr hfrom nofun hfile' hmore hcontents fun w' hw' => ?_
      cases hw'
      exact ⟨token, hkind, prefix_getElem? hmore hbytes⟩

theorem Inv.step {a : Act} (h : Inv s) (hturn : InTurn s a) (hstep : s.step a = some t) :
    Inv t := by
  obtain ⟨initial, hfile⟩ := h.file
  cases a with
  | begin kind =>
      cases hstep
      exact h.begin kind
  | makeDir i ok =>
      simp only [Sys.step] at hstep
      split at hstep
      · rename_i token alone hr
        split at hstep
        · rw [Option.map_eq_some_iff] at hstep
          obtain ⟨file, hcall, rfl⟩ := hstep
          have hmore := AtomicWrites.step_bytes hcall
          have hcontents := hfile.step_contents hcall (fun _ => nofun) nofun
          refine h.goesOn hr nofun nofun ⟨initial, hfile.step (a := .call _) trivial hcall⟩ hmore hcontents
            fun w hw => ?_
          cases hw
          cases hcall
          exact ⟨token, rfl, by simp⟩
        · cases hstep
          exact h.goesOn hr nofun nofun h.file List.prefix_rfl rfl nofun
      · cases hstep
  | write i part =>
      simp only [Sys.step] at hstep
      split at hstep
      · rename_i hr
        rw [Option.map_eq_some_iff] at hstep
        obtain ⟨file, hpart, rfl⟩ := hstep
        exact h.write hr rfl hturn hpart
      · cases hstep
  | remove i ok =>
      simp only [Sys.step] at hstep
      split at hstep
      · rename_i hr
        split at hstep
        · rename_i hok
          subst hok
          rw [Option.map_eq_some_iff] at hstep
          obtain ⟨file, hremove, rfl⟩ := hstep
          refine h.changes hr hturn ⟨initial, hfile.step (a := .remove) trivial hremove⟩
            (AtomicWrites.step_bytes hremove) ?_
          cases hremove
          rfl
        · cases hstep
          exact h.goesOn hr nofun nofun h.file List.prefix_rfl rfl nofun
      · cases hstep
  | remember i =>
      simp only [Sys.step] at hstep
      split at hstep
      · rename_i hr
        cases hstep
        exact h.remember hr rfl
      · cases hstep
  | answer i =>
      simp only [Sys.step] at hstep
      split at hstep
      · rename_i kind alone hr
        cases hstep
        have h' : Inv { s with last := if alone then some kind.outcome else s.last } :=
          ⟨h.file, h.writing, h.settled, h.changed⟩
        exact h'.goesOn hr nofun nofun h.file List.prefix_rfl rfl nofun
      · cases hstep
  | restart =>
      simp only [Sys.step, Option.map_eq_some_iff] at hstep
      obtain ⟨viewerToken, hload, rfl⟩ := hstep
      exact h.restart hload

/-- While requests run one by one, the token in memory is what the last one said. -/
structure OneByOne (s : Sys) : Prop where
  alone : ∀ (i j : Nat) (r q : Request), s.requests[i]? = some r → s.requests[j]? = some q →
    r.alone → r.running → q.running → i = j
  marked : s.last ≠ none → ∀ r ∈ s.requests, r.running → r.alone
  last : ∀ outcome, s.last = some outcome → (∀ r ∈ s.requests, r.stage ≠ .remembered) →
    s.viewerToken = outcome
  remembered : ∀ r ∈ s.requests, r.alone → r.stage = .remembered → s.viewerToken = r.kind.outcome

theorem Request.running_remembered {r : Request} (h : r.stage = .remembered) : r.running := by
  simp [Request.running, h]

/-- The requests that run after a step of one that runs. -/
theorem setStage_running {i j : Nat} {r q : Request} {stage : Stage}
    (hr : s.requests[i]? = some r) (hrunning : r.running)
    (hq : (s.setStage i stage).requests[j]? = some q) (hq' : q.running) :
    ∃ q', s.requests[j]? = some q' ∧ q'.running ∧ q'.alone = q.alone := by
  rcases setStage_requests hq with ⟨rfl, -, r', hr', -, halone⟩ | ⟨-, hq⟩
  · obtain rfl : r = r' := Option.some.inj (hr.symm.trans hr')
    exact ⟨r, hr, hrunning, halone.symm⟩
  · exact ⟨q, hq, hq', rfl⟩

/-- A request goes on; what becomes of the memory and of `last` is for the caller. -/
theorem OneByOne.goesOn (h : OneByOne s) {i : Nat} {r : Request} {stage : Stage}
    {file : AtomicWrites.Sys} {viewerToken : Option String} {last : Option (Option String)}
    (hr : s.requests[i]? = some r) (hrunning : r.running)
    (hmarked : last ≠ none → s.last ≠ none ∨ r.alone)
    (hlast : ∀ outcome, last = some outcome → stage ≠ .remembered →
      (∀ (j : Nat) (q : Request), i ≠ j → s.requests[j]? = some q → q.stage ≠ .remembered) →
      viewerToken = outcome)
    (hremembered : stage = .remembered → r.alone → viewerToken = r.kind.outcome)
    (hothers : ∀ (j : Nat) (q : Request), i ≠ j → s.requests[j]? = some q → q.alone →
      q.stage = .remembered → viewerToken = s.viewerToken) :
    OneByOne (({ s with file, viewerToken, last } : Sys).setStage i stage) := by
  have hself : (({ s with file, viewerToken, last } : Sys).setStage i stage).requests[i]? =
      some { r with stage } := setStage_self stage hr
  refine ⟨fun j k q p hq hp halone hq' hp' => ?_, fun hsome q hq hq' => ?_,
    fun outcome hsome hall => ?_, fun q hq halone hstage => ?_⟩
  · obtain ⟨q'', hq'', hrun, halone'⟩ := setStage_running hr hrunning hq hq'
    obtain ⟨p'', hp'', hrun', -⟩ := setStage_running hr hrunning hp hp'
    exact h.alone j k q'' p'' hq'' hp'' (halone'.trans halone) hrun hrun'
  · obtain ⟨j, hj⟩ := List.mem_iff_getElem?.mp hq
    obtain ⟨q', hq', hrun, halone⟩ := setStage_running hr hrunning hj hq'
    rw [← halone]
    rcases hmarked hsome with hsome | hmine
    · exact h.marked hsome q' (List.mem_of_getElem? hq') hrun
    · have hij : i = j := h.alone i j r q' hr hq' hmine hrunning hrun
      subst hij
      obtain rfl : r = q' := Option.some.inj (hr.symm.trans hq')
      exact hmine
  · refine hlast outcome hsome (hall _ (List.mem_of_getElem? hself)) fun j q hij hq => ?_
    have hq' : (({ s with file, viewerToken, last } : Sys).setStage i stage).requests[j]? =
        some q := by simpa [Sys.setStage, List.getElem?_modify, hij] using hq
    exact hall q (List.mem_of_getElem? hq')
  · obtain ⟨j, hj⟩ := List.mem_iff_getElem?.mp hq
    rcases setStage_requests hj with ⟨rfl, hstage', r', hr', hkind, halone'⟩ | ⟨hij, hj⟩
    · obtain rfl : r = r' := Option.some.inj (hr.symm.trans hr')
      rw [hkind]
      exact hremembered (hstage'.symm.trans hstage) (halone'.symm.trans halone)
    · exact (hothers j q hij hj halone hstage).trans
        (h.remembered q (List.mem_of_getElem? hj) halone hstage)

/-- A request goes on and leaves the memory as it is. -/
theorem OneByOne.same (h : OneByOne s) {i : Nat} {r : Request} {stage : Stage}
    {file : AtomicWrites.Sys} (hr : s.requests[i]? = some r) (hrunning : r.running)
    (hfrom : r.stage ≠ .remembered) (hto : stage ≠ .remembered) :
    OneByOne (({ s with file } : Sys).setStage i stage) := by
  refine h.goesOn hr hrunning Or.inl (fun outcome hlast _ hall => ?_)
    (fun hstage => absurd hstage hto) (fun _ _ _ _ _ _ => rfl)
  refine h.last outcome hlast fun q hq => ?_
  obtain ⟨j, hj⟩ := List.mem_iff_getElem?.mp hq
  by_cases hij : i = j
  · subst hij
    obtain rfl : r = q := Option.some.inj (hr.symm.trans hj)
    exact hfrom
  · exact hall j q hij hj

theorem OneByOne.begin (h : OneByOne s) (kind : Kind) : OneByOne (s.begin kind) := by
  by_cases hquiet : s.quiet
  · have hnone : ∀ r ∈ s.requests, ¬ r.running := fun r hr => by
      simpa using List.all_eq_true.mp hquiet r hr
    have hrequests : (s.begin kind).requests = s.requests ++ [{ kind, alone := true }] := by
      simp [Sys.begin, hquiet]
    have hlast : (s.begin kind).last = s.last := by simp [Sys.begin, hquiet]
    have hnew : ∀ (j : Nat) (r : Request), (s.begin kind).requests[j]? = some r → r.running →
        j = s.requests.length ∧ r.alone := by
      intro j r hr hrunning
      rw [hrequests, List.getElem?_append] at hr
      split at hr
      · exact absurd hrunning (hnone r (List.mem_of_getElem? hr))
      · obtain ⟨hj, hr'⟩ := List.getElem?_eq_some_iff.mp hr
        rw [List.length_singleton] at hj
        rw [List.getElem_singleton] at hr'
        exact ⟨by omega, hr' ▸ rfl⟩
    have hremembered : ∀ r ∈ (s.begin kind).requests, r.stage ≠ .remembered := by
      intro r hr hstage
      rw [hrequests] at hr
      rcases List.mem_append.mp hr with hr | hr
      · exact hnone r hr (Request.running_remembered hstage)
      · rw [List.mem_singleton.mp hr] at hstage
        cases hstage
    refine ⟨fun i j r q hr hq _ hr' hq' => (hnew i r hr hr').1.trans (hnew j q hq hq').1.symm,
      fun _ r hr hrunning => ?_, fun outcome hsome hall => ?_,
      fun r hr _ hstage => absurd hstage (hremembered r hr)⟩
    · obtain ⟨j, hj⟩ := List.mem_iff_getElem?.mp hr
      exact (hnew j r hj hrunning).2
    · rw [(begin_file kind).2]
      exact h.last outcome (hlast ▸ hsome) fun r hr =>
        hall r (hrequests ▸ List.mem_append_left _ hr)
  · have halone : ∀ r ∈ (s.begin kind).requests, ¬ r.alone := by
      intro r hr
      simp only [Sys.begin, if_neg hquiet, List.mem_append, List.mem_map, List.mem_singleton] at hr
      rcases hr with ⟨r', -, rfl⟩ | rfl
      · nofun
      · nofun
    have hlast : (s.begin kind).last = none := by simp [Sys.begin, hquiet]
    refine ⟨fun i j r q hr _ hr' => absurd hr' (halone r (List.mem_of_getElem? hr)),
      fun hsome => absurd hlast hsome, fun outcome hsome => ?_,
      fun r hr hr' => absurd hr' (halone r hr)⟩
    rw [hlast] at hsome
    cases hsome

theorem OneByOne.restart (h : OneByOne s) (hinv : Inv s) {viewerToken : Option String}
    (hload : loadViewerToken s.file.contents = some viewerToken) :
    OneByOne { file := s.filesLeft, viewerToken, last := if s.quiet then s.last else none } := by
  refine ⟨nofun, fun _ _ hr => (nomatch hr), fun outcome hsome _ => ?_, fun _ hr => nomatch hr⟩
  by_cases hquiet : s.quiet
  · have hnone : ∀ r ∈ s.requests, ¬ r.running := fun r hr => by
      simpa using List.all_eq_true.mp hquiet r hr
    have hmemory : s.viewerToken = outcome :=
      h.last outcome (by simpa [hquiet] using hsome) fun r hr hstage =>
        hnone r hr (Request.running_remembered hstage)
    rw [hinv.settled, loadViewerToken_map] at hload
    · cases hload
      exact hmemory
    · intro i r hr hstage
      exact hnone r (List.mem_of_getElem? hr) (by simp [Request.running, hstage])
  · simp [hquiet] at hsome

theorem OneByOne.step {a : Act} (h : OneByOne s) (hinv : Inv s) (hstep : s.step a = some t) :
    OneByOne t := by
  cases a with
  | begin kind =>
      cases hstep
      exact h.begin kind
  | makeDir i ok =>
      simp only [Sys.step] at hstep
      split at hstep
      · rename_i hr
        split at hstep
        · rw [Option.map_eq_some_iff] at hstep
          obtain ⟨file, -, rfl⟩ := hstep
          exact h.same hr rfl nofun nofun
        · cases hstep
          exact h.same hr rfl nofun nofun
      · cases hstep
  | write i part =>
      simp only [Sys.step] at hstep
      split at hstep
      · rename_i hr
        rw [Option.map_eq_some_iff] at hstep
        obtain ⟨file, -, rfl⟩ := hstep
        unfold Sys.written
        split
        · exact h.same hr rfl nofun nofun
        · exact h.same hr rfl nofun nofun
        · exact h.same hr rfl nofun nofun
      · cases hstep
  | remove i ok =>
      simp only [Sys.step] at hstep
      split at hstep
      · rename_i hr
        split at hstep
        · rw [Option.map_eq_some_iff] at hstep
          obtain ⟨file, -, rfl⟩ := hstep
          exact h.same hr rfl nofun nofun
        · cases hstep
          exact h.same hr rfl nofun nofun
      · cases hstep
  | remember i =>
      simp only [Sys.step] at hstep
      split at hstep
      · rename_i kind alone hr
        cases hstep
        refine h.goesOn hr rfl Or.inl (fun _ _ hstage => absurd rfl hstage) (fun _ _ => rfl)
          fun j q hij hq halone hstage => ?_
        exact absurd (h.alone j i q _ hq hr halone (Request.running_remembered hstage) rfl).symm hij
      · cases hstep
  | answer i =>
      simp only [Sys.step] at hstep
      split at hstep
      · rename_i kind alone hr
        cases hstep
        have hmem := List.mem_of_getElem? hr
        refine h.goesOn hr rfl (fun hlast => ?_) (fun outcome hlast _ hall => ?_) nofun
          (fun _ _ _ _ _ _ => rfl)
        · by_cases halone : alone
          · exact Or.inr halone
          · exact Or.inl (by simpa [halone] using hlast)
        · have halone : alone := by
            by_cases halone : alone
            · exact halone
            · have hlast' : s.last = some outcome := by simpa [halone] using hlast
              exact h.marked (by rw [hlast']; nofun) _ hmem rfl
          have hkind : kind.outcome = outcome := by simpa [halone] using hlast
          rw [← hkind]
          exact h.remembered _ hmem halone rfl
      · cases hstep
  | restart =>
      simp only [Sys.step, Option.map_eq_some_iff] at hstep
      obtain ⟨viewerToken, hload, rfl⟩ := hstep
      exact h.restart hinv hload

/-- Once all requests have finished, the token in memory is the one on disk, and the one
the last request answered with, as long as requests change the file in turn. -/
theorem viewer_token_agrees (contents : Option Bytes) (acts : List Act) (s t : Sys)
    (hstart : Sys.start contents = some s) (hmeets : Runs.Meets Sys.step InTurn s acts)
    (hrun : Runs.run Sys.step s acts = some t) (hquiet : t.quiet) : t.Agrees := by
  simp only [Sys.start, Option.map_eq_some_iff] at hstart
  obtain ⟨viewerToken, hload, rfl⟩ := hstart
  have hstart : Inv { file := .start contents, viewerToken } ∧
      OneByOne { file := .start contents, viewerToken } := by
    refine ⟨⟨⟨contents, AtomicWrites.Inv.start contents⟩, nofun, fun _ => ?_, nofun⟩,
      ⟨nofun, fun h => absurd rfl h, nofun, fun _ hr => nomatch hr⟩⟩
    have hcontents : (AtomicWrites.Sys.start contents).contents = contents := by
      cases contents <;> rfl
    exact hcontents.trans (map_of_loadViewerToken hload)
  have hstep : ∀ u a v, Inv u ∧ OneByOne u → InTurn u a → u.step a = some v →
      Inv v ∧ OneByOne v := fun _ _ _ hu hturn hstep =>
    ⟨hu.1.step hturn hstep, hu.2.step hu.1 hstep⟩
  have hinv : Inv t ∧ OneByOne t := Runs.invariant hstep hstart hmeets hrun
  have hnone : ∀ r ∈ t.requests, ¬ r.running := fun r hr => by
    simpa using List.all_eq_true.mp hquiet r hr
  have hcontents : t.file.contents = t.viewerToken.map asBytes :=
    hinv.1.settled fun i r hr hstage =>
      hnone r (List.mem_of_getElem? hr) (by simp [Request.running, hstage])
  refine ⟨hcontents, ?_, fun outcome hlast => ?_⟩
  · rw [hcontents, loadViewerToken_map]
  · exact hinv.2.last outcome hlast fun r hr hstage =>
      hnone r hr (Request.running_remembered hstage)

/-- A token is made, then one that replaces it beside a revocation that comes to nothing,
and the daemon starts again. -/
def tokenReplaced : List Act :=
  [.begin (.create "a"), .makeDir 0 true, .write 0 .create, .write 0 (.append 1), .write 0 .rename,
    .remember 0, .answer 0, .begin (.create "b"), .makeDir 1 true, .begin .revoke,
    .write 1 .create, .write 1 (.append 1), .remove 2 false, .write 1 .rename, .remember 1,
    .answer 1, .restart, .begin (.create "c"), .makeDir 0 true, .write 0 .create,
    .write 0 (.append 1), .write 0 .rename, .remember 0, .answer 0]

theorem viewer_token_agrees_tokenReplaced :
    ∃ s t, Sys.start none = some s ∧ Runs.run Sys.step s tokenReplaced = some t ∧
      t.viewerToken = some "c" ∧ t.Agrees :=
  ⟨_, _, rfl, rfl, rfl, viewer_token_agrees none tokenReplaced _ _ rfl (by decide) rfl rfl⟩

/-- The file is removed and the token in memory cleared between the two steps of a
request that makes one: what is accepted is not what is on disk. -/
theorem revoked_token_kept :
    ∃ s t, Sys.start none = some s ∧
      Runs.run Sys.step s
        [.begin (.create "a"), .makeDir 0 true, .write 0 .create, .write 0 (.append 1),
          .write 0 .rename, .begin .revoke, .remove 1 true, .remember 1, .answer 1, .remember 0,
          .answer 0] = some t ∧
      t.quiet ∧ t.viewerToken = some "a" ∧ t.file.contents = none ∧ ¬ t.Agrees := by
  refine ⟨_, _, rfl, rfl, rfl, rfl, rfl, fun h => ?_⟩
  have hsame := h.1
  revert hsame
  decide

end DatumConnect.Auth.ViewerRequests
