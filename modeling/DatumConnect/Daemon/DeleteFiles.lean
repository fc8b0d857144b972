import DatumConnect.Auth.TokenFiles
import DatumConnect.Daemon.Busy
import DatumConnect.Tunnels.Makes
/-!
# The files a delete touches

The id of the tunnel is spliced into four paths as it comes.  Where it is a name of
one component these lead to the tunnel's own entries; what a delete does to the
tree is then said of these, of the audit log and of the state file.
-/

namespace DatumConnect.Daemon

open DatumConnect.Lib
open DatumConnect.Lib.Files
open DatumConnect.Lib.Files.Fs (Leads)
open DatumConnect.Lib.Prog (Only Within OnOk)
open DatumConnect.Cloud (SvcE)
open DatumConnect.Tunnels
open DatumConnect.Auth (Contents OperateTokenRecord)

/-- A name an object of the API can have. -/
def IsObjectName (s : String) : Prop :=
  (s.toList.head?.any fun c => c.isLower || c.isDigit) ∧
    ∀ c ∈ s.toList, c.isLower || c.isDigit || c = '-' || c = '.'

instance (s : String) : Decidable (IsObjectName s) :=
  have : Decidable (∀ c ∈ s.toList, c.isLower || c.isDigit || c = '-' || c = '.') :=
    List.decidableBAll _ _
  inferInstanceAs (Decidable (_ ∧ _))

/-- The connect dir and the project; `recordText` is the JSON that a token record is
written as. -/
structure ConnectDir where
  base : Path
  project : String
  recordText : OperateTokenRecord → String
  project_name : IsObjectName project

/-! ## Paths -/

def inspectorTargetPath (base : Path) (id : String) : Path :=
  (base.join "daemon_inspector_targets").join (id ++ ".txt")

def notePath (base : Path) (id : String) : Path :=
  (base.join "daemon_notes").join (id ++ ".txt")

def tunnelDir (base : Path) (projectId tunnelName : String) : Path :=
  (base.join projectId).join tunnelName

def stateFilePath (base : Path) : Path := base.join "state.yml"

/-! ## What the calls of a delete do on disk -/

def removeInspectorTarget (base : Path) (id : String) : Fs Contents Unit := do
  let _ ← (Fs.removeFile (inspectorTargetPath base id)).attempt

def removeNote (base : Path) (id : String) : Fs Contents Unit := do
  match ← (Fs.removeFile (notePath base id)).attempt with
  | .ok () => return ()
  | .error .notFound => return ()
  | .error e => throw e

def deleteTunnelDir (base : Path) (projectId tunnelName : String) : Fs Contents Unit := do
  let tunnelDir := tunnelDir base projectId tunnelName
  if ← Fs.look fun files => .ok (files.exists? tunnelDir) then Fs.removeDirAll tunnelDir
  else return ()

namespace ConnectDir

variable (dir : ConnectDir)

/-- The text of a file. -/
def text : Contents → String
  | .text text => text
  | .record record => dir.recordText record

def addLine (line : String) (contents : Option Contents) : Contents :=
  .text ((contents.elim "" dir.text) ++ line)

def appendAudit (line : String) : Fs Contents Unit := do
  match ← (Fs.createDirAll (Auth.authDir dir.base)).attempt with
  | .error _ => return ()
  | .ok () =>
      let _ ← (Fs.append (Auth.auditLogPath dir.base) (dir.addLine line)).attempt

end ConnectDir

/-- The daemon's state, and the files. -/
structure Disk where
  state : State := {}
  files : FileTree Contents

/-- Beside the rest, what `state.yml` is written over with, and the line that goes to
the audit log. -/
structure DiskAnswer where
  rest : Answer := {}
  stateFile : Contents := .text ""
  auditLine : String := "\n"

/-- What a call does to the files; a delete makes no other that writes any. -/
def ConnectDir.effect (dir : ConnectDir) (answer : DiskAnswer) : Call → Fs Contents Unit
  | .service _ (.updateProxies _) =>
      if answer.rest.cloud.landed then Fs.write (stateFilePath dir.base) answer.stateFile
      else return ()
  | .service _ (.deleteTunnelDir projectId tunnelName) =>
      if answer.rest.cloud.landed then deleteTunnelDir dir.base projectId tunnelName
      else return ()
  | .removeInspectorTarget id =>
      if answer.rest.ok then removeInspectorTarget dir.base id else return ()
  | .removeNote id => if answer.rest.ok then removeNote dir.base id else return ()
  | .deleteTokens id =>
      if answer.rest.ok then Auth.deleteTokensForTunnel dir.base id else return ()
  | .appendAudit _ => if answer.rest.ok then dir.appendAudit answer.auditLine else return ()
  | _ => return ()

/-- The daemon's project is the one selected. -/
def ConnectDir.handle (dir : ConnectDir) (d : Disk) (c : Call) (answer : DiskAnswer) :
    Disk × c.Reply :=
  let cloud := { answer.rest.cloud with selectedProject := some dir.project }
  let (state, r) := d.state.handle c { answer.rest with cloud }
  ({ state, files := (dir.effect answer c d.files).2 }, r)

/-! ## Where the paths lead -/

namespace ConnectDir

variable (dir : ConnectDir)

def root : Loc := resolve [] dir.base.names

def authLoc : Loc := "daemon_auth" :: dir.root

def setupTokenLoc : Loc := "setup.token" :: dir.authLoc

def viewerTokenLoc : Loc := "viewer.token" :: dir.authLoc

def auditLogLoc : Loc := "audit.jsonl" :: dir.authLoc

def stateFileLoc : Loc := "state.yml" :: dir.root

def tokensLoc (id : String) : Loc := id :: "operate_tokens" :: dir.authLoc

def targetLoc (id : String) : Loc := (id ++ ".txt") :: "daemon_inspector_targets" :: dir.root

def noteLoc (id : String) : Loc := (id ++ ".txt") :: "daemon_notes" :: dir.root

def tunnelLoc (id : String) : Loc := id :: dir.project :: dir.root

/-- The entries that belong to the tunnel. -/
def Owns (id : String) (loc : Loc) : Prop :=
  dir.tokensLoc id <:+ loc ∨ loc = dir.targetLoc id ∨ loc = dir.noteLoc id ∨
    dir.tunnelLoc id <:+ loc

/-- The entries that a delete of the tunnel has to leave alone. -/
inductive Foreign (id : String) : Loc → Prop where
  | setupToken : Foreign id dir.setupTokenLoc
  | viewerToken : Foreign id dir.viewerTokenLoc
  | tokens {other : String} (hne : other ≠ id) {loc : Loc}
      (hbelow : dir.tokensLoc other <:+ loc) : Foreign id loc
  | target {other : String} (hne : other ≠ id) : Foreign id (dir.targetLoc other)
  | note {other : String} (hne : other ≠ id) : Foreign id (dir.noteLoc other)
  | listenKey {other : String} (hne : other ≠ id) :
      Foreign id ("listen_key" :: dir.tunnelLoc other)
  | outside {loc : Loc} (hout : ¬ dir.root <:+ loc) : Foreign id loc

end ConnectDir

variable {dir : ConnectDir} {id : String}

theorem IsObjectName.isName {s : String} (h : IsObjectName s) : IsName s := by
  obtain ⟨hhead, hall⟩ := h
  refine ⟨?_, ?_, ?_, ?_⟩
  · rintro rfl
    simp at hhead
  · intro hslash
    exact absurd (hall '/' hslash) (by decide)
  · rintro rfl
    exact absurd hhead (by decide)
  · rintro rfl
    exact absurd hhead (by decide)

/-- The daemon's own directories have an underscore in their names. -/
theorem IsObjectName.ne_of_underscore {s t : String} (h : IsObjectName s) (ht : '_' ∈ t.toList) :
    s ≠ t := by
  rintro rfl
  exact absurd (h.2 '_' ht) (by decide)

/-- A name joined to a path is an entry of the directory the path leads to. -/
theorem resolve_join {p : Path} {name : String} (h : IsName name) :
    resolve [] (p.join name).names = name :: resolve [] p.names := by
  rw [Path.join_of_isName p h, resolve_append, resolve_cons, next_of_isName _ h, resolve_nil]

theorem isName_append_txt (h : IsName id) : IsName (id ++ ".txt") := by
  obtain ⟨_, hslash, _⟩ := h
  have hlen : ∀ t : String, t.toList.length < 3 → id ++ ".txt" ≠ t := by
    rintro t ht rfl
    rw [String.toList_append, List.length_append] at ht
    exact absurd ht (by simp)
  refine ⟨hlen "" (by decide), ?_, hlen "." (by decide), hlen ".." (by decide)⟩
  rw [String.toList_append, List.mem_append, not_or]
  exact ⟨hslash, by decide⟩

theorem append_txt_inj {other : String} (h : other ++ ".txt" = id ++ ".txt") : other = id := by
  rw [← String.toList_inj, String.toList_append, String.toList_append] at h
  rw [← String.toList_inj]
  exact List.append_cancel_right h

namespace ConnectDir

theorem resolve_auth : resolve [] (Auth.authDir dir.base).names = dir.authLoc :=
  resolve_join (by decide)

theorem resolve_auditLog : resolve [] (Auth.auditLogPath dir.base).names = dir.auditLogLoc := by
  rw [Auth.auditLogPath, resolve_join (by decide), resolve_auth, auditLogLoc]

theorem resolve_stateFile : resolve [] (stateFilePath dir.base).names = dir.stateFileLoc :=
  resolve_join (by decide)

theorem resolve_tokens (h : IsName id) :
    resolve [] (Auth.operateTokensDir dir.base id).names = dir.tokensLoc id := by
  rw [Auth.operateTokensDir, resolve_join h, resolve_join (by decide), resolve_auth, tokensLoc]

theorem resolve_target (h : IsName id) :
    resolve [] (inspectorTargetPath dir.base id).names = dir.targetLoc id := by
  rw [inspectorTargetPath, resolve_join (isName_append_txt h), resolve_join (by decide), targetLoc,
    root]

theorem resolve_note (h : IsName id) :
    resolve [] (notePath dir.base id).names = dir.noteLoc id := by
  rw [notePath, resolve_join (isName_append_txt h), resolve_join (by decide), noteLoc, root]

theorem resolve_tunnelDir (h : IsName id) :
    resolve [] (tunnelDir dir.base dir.project id).names = dir.tunnelLoc id := by
  rw [tunnelDir, resolve_join h, resolve_join dir.project_name.isName, tunnelLoc, root]

/-! ## What belongs to whom -/

/-- Two entries of one depth above the same entry are the same. -/
theorem eq_of_below {a b loc : Loc} (ha : a <:+ loc) (hb : b <:+ loc) (hlen : a.length = b.length) :
    a = b := by
  rw [List.suffix_iff_eq_drop] at ha hb
  rw [ha, hb, hlen]

/-- The tunnel's directories are deeper than the files of the daemon. -/
theorem not_owns_of_length {loc : Loc} {name owner : String}
    (hloc : loc = name :: owner :: dir.root) (hproject : owner = dir.project → name ≠ id)
    (htarget : owner = "daemon_inspector_targets" → name ≠ id ++ ".txt")
    (hnote : owner = "daemon_notes" → name ≠ id ++ ".txt") : ¬ dir.Owns id loc := by
  subst hloc
  rintro (h | h | h | h)
  · have := h.length_le
    simp [tokensLoc, authLoc] at this
  · simp only [targetLoc, List.cons.injEq, and_true] at h
    exact htarget h.2 h.1
  · simp only [noteLoc, List.cons.injEq, and_true] at h
    exact hnote h.2 h.1
  · have heq := h.eq_of_length (by simp [tunnelLoc])
    simp only [tunnelLoc, List.cons.injEq, and_true] at heq
    exact hproject heq.2.symm heq.1.symm

theorem not_owns_auth (name : String) : ¬ dir.Owns id (name :: dir.authLoc) :=
  not_owns_of_length rfl
    (fun h => absurd h.symm (dir.project_name.ne_of_underscore (by decide)))
    (fun h => absurd h (by decide)) (fun h => absurd h (by decide))

theorem not_owns_stateFile : ¬ dir.Owns id dir.stateFileLoc := by
  rintro (h | h | h | h)
  · have hlen := h.length_le
    simp only [tokensLoc, authLoc, stateFileLoc, List.length_cons] at hlen
    omega
  · simpa [targetLoc, stateFileLoc] using congrArg List.length h
  · simpa [noteLoc, stateFileLoc] using congrArg List.length h
  · have := h.length_le
    simp [tunnelLoc, stateFileLoc] at this

theorem project_ne_auth : dir.project ≠ "daemon_auth" :=
  dir.project_name.ne_of_underscore (by decide)

theorem root_suffix_of_owns {loc : Loc} (h : dir.Owns id loc) : dir.root <:+ loc := by
  rcases h with h | rfl | rfl | h
  · exact List.IsSuffix.trans ⟨[id, "operate_tokens", "daemon_auth"], rfl⟩ h
  · exact ⟨[_, _], rfl⟩
  · exact ⟨[_, _], rfl⟩
  · exact List.IsSuffix.trans ⟨[id, dir.project], rfl⟩ h

/-- No token file belongs to two tunnels. -/
theorem not_owns_tokens {other : String} (hne : other ≠ id) {loc : Loc}
    (hbelow : dir.tokensLoc other <:+ loc) : ¬ dir.Owns id loc := by
  rintro (h | rfl | rfl | h)
  · have heq := eq_of_below hbelow h rfl
    exact hne (List.cons.inj heq).1
  · have hlen := hbelow.length_le
    simp only [tokensLoc, authLoc, targetLoc, List.length_cons] at hlen
    omega
  · have hlen := hbelow.length_le
    simp only [tokensLoc, authLoc, noteLoc, List.length_cons] at hlen
    omega
  · have hdir : "operate_tokens" :: dir.authLoc <:+ loc :=
      List.IsSuffix.trans (List.suffix_cons _ _) hbelow
    have heq := eq_of_below hdir h rfl
    simp only [tunnelLoc, authLoc, List.cons.injEq, and_true] at heq
    exact project_ne_auth heq.2.symm

theorem not_owns_listenKey {other : String} (hne : other ≠ id) :
    ¬ dir.Owns id ("listen_key" :: dir.tunnelLoc other) := by
  rintro (h | h | h | h)
  · have heq := h.eq_of_length rfl
    simp only [tokensLoc, tunnelLoc, authLoc, List.cons.injEq, and_true] at heq
    exact project_ne_auth heq.2.2.symm
  · have hlen := congrArg List.length h
    simp only [tunnelLoc, targetLoc, List.length_cons] at hlen
    omega
  · have hlen := congrArg List.length h
    simp only [tunnelLoc, noteLoc, List.length_cons] at hlen
    omega
  · have heq := eq_of_below h (List.suffix_cons _ _) rfl
    exact hne (List.cons.inj heq).1.symm

theorem Foreign.not_owns {loc : Loc} (h : dir.Foreign id loc) : ¬ dir.Owns id loc := by
  cases h with
  | setupToken => exact not_owns_auth _
  | viewerToken => exact not_owns_auth _
  | tokens hne hbelow => exact not_owns_tokens hne hbelow
  | target hne =>
      refine not_owns_of_length rfl (fun h => ?_) (fun _ h => hne (append_txt_inj h))
        (fun h => absurd h (by decide))
      exact absurd h.symm (dir.project_name.ne_of_underscore (by decide))
  | note hne =>
      refine not_owns_of_length rfl (fun h => ?_) (fun h => absurd h (by decide))
        (fun _ h => hne (append_txt_inj h))
      exact absurd h.symm (dir.project_name.ne_of_underscore (by decide))
  | listenKey hne => exact not_owns_listenKey hne
  | outside hout => exact fun h => hout (root_suffix_of_owns h)

/-- The audit log and the state file are none of the entries that have to stay as
they are. -/
theorem Foreign.not_shared {loc : Loc} (h : dir.Foreign id loc) :
    loc ≠ dir.auditLogLoc ∧ loc ≠ dir.stateFileLoc := by
  cases h with
  | setupToken => simp [setupTokenLoc, auditLogLoc, stateFileLoc, authLoc]
  | viewerToken => simp [viewerTokenLoc, auditLogLoc, stateFileLoc, authLoc]
  | tokens hne hbelow =>
      have hlong := hbelow.length_le
      simp only [tokensLoc, authLoc, List.length_cons] at hlong
      constructor
      · rintro rfl
        simp only [auditLogLoc, authLoc, List.length_cons] at hlong
        omega
      · rintro rfl
        simp only [stateFileLoc, List.length_cons] at hlong
        omega
  | target hne => simp [targetLoc, auditLogLoc, stateFileLoc, authLoc]
  | note hne => simp [noteLoc, auditLogLoc, stateFileLoc, authLoc]
  | listenKey hne => simp [tunnelLoc, auditLogLoc, stateFileLoc, authLoc]
  | outside hout =>
      constructor
      · rintro rfl
        exact hout ⟨["audit.jsonl", "daemon_auth"], rfl⟩
      · rintro rfl
        exact hout ⟨["state.yml"], rfl⟩

end ConnectDir

/-! ## What a delete does to the tree -/

/-- Files of the tunnel's may be gone, the audit log may have got longer, and the
state file may have been written; everything else is as it was, but for directories
made for the audit log. -/
structure Deleted (dir : ConnectDir) (id : String) (t t' : FileTree Contents) : Prop where
  own : ∀ loc a, dir.Owns id loc → t'.node loc = some (.file a) → t.node loc = some (.file a)
  audit : ∀ a, t.node dir.auditLogLoc = some (.file a) →
    ∃ b more, t'.node dir.auditLogLoc = some (.file b) ∧ dir.text b = dir.text a ++ more
  state : ∀ a, t.node dir.stateFileLoc = some (.file a) →
    ∃ b, t'.node dir.stateFileLoc = some (.file b)
  rest : ∀ loc, ¬ dir.Owns id loc → loc ≠ dir.auditLogLoc → loc ≠ dir.stateFileLoc →
    t'.node loc = t.node loc ∨ t.node loc = none ∧ t'.node loc = some .dir

namespace Deleted

variable {t u v : FileTree Contents}

theorem of_unchanged (h : u.node = t.node) : Deleted dir id t u where
  own loc a _ ha := h ▸ ha
  audit a ha := ⟨a, "", h ▸ ha, (String.append_empty).symm⟩
  state a ha := ⟨a, h ▸ ha⟩
  rest loc _ _ _ := .inl (by rw [h])

instance : Std.Refl (Deleted dir id) := ⟨fun _ => of_unchanged rfl⟩

theorem trans (h : Deleted dir id t u) (h' : Deleted dir id u v) : Deleted dir id t v where
  own loc a hown ha := h.own loc a hown (h'.own loc a hown ha)
  audit a ha := by
    obtain ⟨b, more, hb, hmore⟩ := h.audit a ha
    obtain ⟨c, more', hc, hmore'⟩ := h'.audit b hb
    exact ⟨c, more ++ more', hc, by rw [hmore', hmore, String.append_assoc]⟩
  state a ha := by
    obtain ⟨b, hb⟩ := h.state a ha
    exact h'.state b hb
  rest loc hown haudit hstate := by
    rcases h.rest loc hown haudit hstate with h | ⟨hnone, hdir⟩
    · rcases h'.rest loc hown haudit hstate with h' | ⟨hnone', hdir'⟩
      · exact .inl (h'.trans h)
      · exact .inr ⟨h ▸ hnone', hdir'⟩
    · rcases h'.rest loc hown haudit hstate with h' | ⟨hnone', _⟩
      · exact .inr ⟨hnone, h'.trans hdir⟩
      · rw [hdir] at hnone'
        cases hnone'

instance : IsTrans (FileTree Contents) (Deleted dir id) := ⟨fun _ _ _ h h' => h.trans h'⟩

/-- Some of the tunnel's entries have been removed. -/
theorem of_removed (hrest : ∀ loc, ¬ dir.Owns id loc → u.node loc = t.node loc)
    (hgone : ∀ loc, u.node loc = t.node loc ∨ u.node loc = none) : Deleted dir id t u where
  own loc a _ ha := by
    rcases hgone loc with h | h
    · exact h ▸ ha
    · rw [h] at ha
      cases ha
  audit a ha := ⟨a, "", hrest _ (ConnectDir.not_owns_auth _) ▸ ha, (String.append_empty).symm⟩
  state a ha := ⟨a, hrest _ ConnectDir.not_owns_stateFile ▸ ha⟩
  rest loc hown _ _ := .inl (hrest loc hown)

/-- Directories have been made. -/
theorem of_grows (h : Fs.Grows t u) : Deleted dir id t u where
  own loc a _ ha := (h.file_iff loc a).mp ha
  audit a ha := ⟨a, "", (h.file_iff _ a).mpr ha, (String.append_empty).symm⟩
  state a ha := ⟨a, (h.file_iff _ a).mpr ha⟩
  rest loc _ _ _ := h loc

/-- The files that have to stay are the same ones. -/
theorem foreign (h : Deleted dir id t u) {loc : Loc} (hforeign : dir.Foreign id loc)
    (a : Contents) : u.node loc = some (.file a) ↔ t.node loc = some (.file a) := by
  obtain ⟨haudit, hstate⟩ := hforeign.not_shared
  rcases h.rest loc hforeign.not_owns haudit hstate with h | ⟨hnone, hdir⟩
  · rw [h]
  · simp [hnone, hdir]

end Deleted

/-! ## One call -/

theorem removeFile_node (p : Path) (t : FileTree Contents) (loc : Loc) :
    (Fs.removeFile p t).2.node loc = t.node loc ∨ (Fs.removeFile p t).2.node loc = none := by
  obtain ⟨⟨r, u⟩, hrun⟩ : ∃ o, Fs.removeFile p t = o := ⟨_, rfl⟩
  rw [hrun]
  rcases Fs.removeFile_eq hrun with ⟨_, hnode⟩ | ⟨_, rfl⟩
  · rw [hnode]
    simp only
    split
    · exact .inr rfl
    · exact .inl rfl
  · exact .inl rfl

theorem leads_removeFile {p : Path} (hp : dir.Owns id (resolve [] p.names)) :
    Leads (Deleted dir id) (Fs.removeFile p) := by
  intro t
  refine Deleted.of_removed (fun loc hown => ?_) (removeFile_node p t)
  refine Fs.removeFile_touches p t loc ?_
  rintro rfl
  exact hown hp

theorem leads_removeDirAll {p : Path}
    (hp : ∀ loc, resolve [] p.names <:+ loc → dir.Owns id loc) :
    Leads (Deleted dir id) (Fs.removeDirAll p) := fun t =>
  Deleted.of_removed
    (fun loc hown => Fs.removeDirAll_touches p t loc fun hbelow => hown (hp loc hbelow))
    (Fs.removeDirAll_node p t).1

theorem leads_writeStateFile (a : Contents) :
    Leads (Deleted dir id) (Fs.write (stateFilePath dir.base) a) := by
  intro t
  obtain ⟨⟨r, u⟩, hrun⟩ : ∃ o, Fs.write (stateFilePath dir.base) a t = o := ⟨_, rfl⟩
  rw [hrun]
  rcases Fs.write_eq hrun with ⟨_, _, hnode⟩ | ⟨_, rfl⟩
  · rw [ConnectDir.resolve_stateFile] at hnode
    have hother : ∀ loc, loc ≠ dir.stateFileLoc → u.node loc = t.node loc := by
      intro loc hne
      rw [hnode]
      exact if_neg hne
    have haudit : dir.auditLogLoc ≠ dir.stateFileLoc := by
      simp [ConnectDir.auditLogLoc, ConnectDir.stateFileLoc, ConnectDir.authLoc]
    constructor
    · intro loc b hown hb
      rwa [hother loc fun h => ConnectDir.not_owns_stateFile (h ▸ hown)] at hb
    · exact fun b hb => ⟨b, "", (hother _ haudit).trans hb, (String.append_empty).symm⟩
    · intro b _
      refine ⟨a, ?_⟩
      rw [hnode]
      exact if_pos rfl
    · exact fun loc _ _ hne => .inl (hother loc hne)
  · exact Deleted.of_unchanged rfl

theorem leads_append (line : String) :
    Leads (Deleted dir id) (Fs.append (Auth.auditLogPath dir.base) (dir.addLine line)) := by
  intro t
  obtain ⟨⟨r, u⟩, hrun⟩ : ∃ o, Fs.append (Auth.auditLogPath dir.base) (dir.addLine line) t = o :=
    ⟨_, rfl⟩
  rw [hrun]
  rcases Fs.append_eq hrun with ⟨_, old, hold, hnode⟩ | ⟨_, rfl⟩
  · rw [ConnectDir.resolve_auditLog] at hold hnode
    have hother : ∀ loc, loc ≠ dir.auditLogLoc → u.node loc = t.node loc := by
      intro loc hne
      rw [hnode]
      exact if_neg hne
    have hstate : dir.stateFileLoc ≠ dir.auditLogLoc := by
      simp [ConnectDir.auditLogLoc, ConnectDir.stateFileLoc, ConnectDir.authLoc]
    constructor
    · intro loc b hown hb
      rwa [hother loc fun h => ConnectDir.not_owns_auth _ (h ▸ hown)] at hb
    · intro a ha
      refine ⟨dir.addLine line old, line, ?_, ?_⟩
      · rw [hnode]
        exact if_pos rfl
      · rw [hold a ha]
        rfl
    · exact fun b hb => ⟨b, (hother _ hstate).trans hb⟩
    · exact fun loc _ hne _ => .inl (hother loc hne)
  · exact Deleted.of_unchanged rfl

theorem leads_appendAudit (line : String) : Leads (Deleted dir id) (dir.appendAudit line) := by
  have hdirs : Leads (Deleted dir id) (Fs.createDirAll (Auth.authDir dir.base)) := fun t =>
    .of_grows (Fs.createDirAll_grows _ t)
  refine hdirs.attempt.bind fun r => ?_
  cases r with
  | error e => exact .pure _
  | ok _ => exact (leads_append line).attempt.bind fun _ => .pure _

theorem leads_removeNote (h : IsName id) : Leads (Deleted dir id) (removeNote dir.base id) := by
  have hown : dir.Owns id (resolve [] (notePath dir.base id).names) := by
    rw [ConnectDir.resolve_note h]
    exact .inr (.inr (.inl rfl))
  refine (leads_removeFile hown).attempt.bind fun r => ?_
  split
  · exact .pure _
  · exact .pure _
  · exact .throw _

theorem leads_removeInspectorTarget (h : IsName id) :
    Leads (Deleted dir id) (removeInspectorTarget dir.base id) := by
  have hown : dir.Owns id (resolve [] (inspectorTargetPath dir.base id).names) := by
    rw [ConnectDir.resolve_target h]
    exact .inr (.inl rfl)
  exact (leads_removeFile hown).attempt.bind fun _ => .pure _

theorem leads_deleteTokensForTunnel (h : IsName id) :
    Leads (Deleted dir id) (Auth.deleteTokensForTunnel dir.base id) := by
  refine (leads_removeDirAll fun loc hbelow => ?_).attempt.bind fun _ => .pure _
  rw [ConnectDir.resolve_tokens h] at hbelow
  exact .inl hbelow

theorem leads_deleteTunnelDir (h : IsName id) :
    Leads (Deleted dir id) (deleteTunnelDir dir.base dir.project id) := by
  refine (Leads.look _).bind fun present => ?_
  split
  · refine leads_removeDirAll fun loc hbelow => ?_
    rw [ConnectDir.resolve_tunnelDir h] at hbelow
    exact .inr (.inr (.inr hbelow))
  · exact .pure _

/-- The calls that a delete of the tunnel makes, where they write files. -/
def ByDelete (dir : ConnectDir) (id : String) : Call → Prop
  | .service _ (.deleteTunnelDir projectId tunnelName) => projectId = dir.project ∧ tunnelName = id
  | .removeInspectorTarget id' | .removeNote id' | .deleteTokens id' => id' = id
  | _ => True

theorem leads_effect (h : IsName id) {c : Call} (hc : ByDelete dir id c) (answer : DiskAnswer) :
    Leads (Deleted dir id) (dir.effect answer c) := by
  unfold ConnectDir.effect
  split
  · split
    · exact leads_writeStateFile _
    · exact .pure _
  · split
    · obtain ⟨rfl, rfl⟩ := hc
      exact leads_deleteTunnelDir h
    · exact .pure _
  · cases hc
    split
    · exact leads_removeInspectorTarget h
    · exact .pure _
  · cases hc
    split
    · exact leads_removeNote h
    · exact .pure _
  · cases hc
    split
    · exact leads_deleteTokensForTunnel h
    · exact .pure _
  · split
    · exact leads_appendAudit _
    · exact .pure _
  · exact .pure _

/-! ## A whole delete -/

def Disk.Deleted (dir : ConnectDir) (id : String) (d d' : Disk) : Prop :=
  Daemon.Deleted dir id d.files d'.files

instance : Std.Refl (Disk.Deleted dir id) := ⟨fun d => Std.Refl.refl d.files⟩

instance : IsTrans Disk (Disk.Deleted dir id) := ⟨fun _ _ _ h h' => Daemon.Deleted.trans h h'⟩

variable {α : Type}

theorem within_only (h : IsName id) {p : Task α} (hp : Only (ByDelete dir id) p) (d : Disk) :
    Within dir.handle (Disk.Deleted dir id) (fun _ _ => True) p d :=
  have hcall : ∀ d c answer, ByDelete dir id c → Disk.Deleted dir id d (dir.handle d c answer).1 :=
    fun d _ answer hc => leads_effect h hc answer d.files
  hp.within hcall d

theorem within_ok (h : IsName id) {p : TaskE α} (hp : Only (ByDelete dir id) p.run) (d : Disk) :
    Within dir.handle (Disk.Deleted dir id) (OnOk fun _ _ => True) p.run d :=
  (within_only h hp d).mono fun _ _ _ _ _ _ => trivial

theorem byDelete_deleteProject (svc : TunnelService) :
    Only (fun c => ByDelete dir id (.service (.delete id) c))
      (svc.deleteProject dir.project id).run := by
  refine Makes.deleteProject svc (fun c hc => ?_) (fun _ _ => trivial) (fun _ _ => trivial) trivial
    ⟨rfl, rfl⟩
  cases c with
  | deleteTunnelDir projectId tunnelId => cases hc
  | _ => trivial

/-- The delete at the server, in the daemon's project. -/
theorem within_deleteActive (h : IsName id) (svc : TunnelService) (d : Disk) :
    Within dir.handle (Disk.Deleted dir id) (OnOk fun _ _ => True)
      (TaskE.service (.delete id) (svc.deleteActive id)).run d := by
  refine Within.call fun answer => ⟨leads_effect (c := .service (.delete id) .selectedContext) h
    trivial answer d.files, ?_⟩
  have hproject : (dir.handle d (.service (.delete id) .selectedContext) answer).2 =
      some dir.project := rfl
  rw [hproject]
  refine within_ok h (p := TaskE.orInternal (Task.service (.delete id)
    (svc.deleteProject dir.project id))) ?_ _
  exact (Only.embed (byDelete_deleteProject svc)).bind fun _ => Only.ret _

theorem only_call {c : Call} (hc : ByDelete dir id c) : Only (ByDelete dir id) (Task.perform c) :=
  Only.perform hc

theorem only_forgetTunnel (app : AppState) : Only (ByDelete dir id) (forgetTunnel app id) := by
  refine (only_call (c := .runningRemove id) trivial).bind fun running => ?_
  have hderegister : Only (ByDelete dir id) (deregister app.projectId running) := by
    cases running with
    | none => exact Only.ret _
    | some running => exact only_call (c := .deregisterProject running.key app.projectId) trivial
  refine hderegister.bind fun _ => ?_
  refine (only_call (c := .inspectorsRemove id) trivial).bind fun _ => ?_
  refine (only_call (c := .removeInspectorTarget id) rfl).bind fun _ => ?_
  refine (only_call (c := .removeNote id) rfl).bind fun _ => ?_
  exact only_call (c := .deleteTokens id) rfl

theorem within_delete (h : IsName id) (app : AppState) (actor : String) (d : Disk) :
    Within dir.handle (Disk.Deleted dir id) (OnOk fun _ _ => True)
      (deleteTunnelInternal app id actor).run d := by
  refine Within.bindOk ((within_deleteActive h app.control d).mono fun d _ _ _ outcome _ => ?_)
  have hforget : Only (ByDelete dir id) (TaskE.lift (forgetTunnel app id)).run :=
    (only_forgetTunnel app).bind fun _ => Only.ret _
  refine Within.bindOk ((within_ok h hforget d).mono fun d _ _ _ _ _ => ?_)
  have haudit : Only (ByDelete dir id) (TaskE.lift (Task.appendAudit "delete" id actor)).run :=
    (only_call (c := .appendAudit { event := "delete", tunnelId := id, actor }) trivial).bind
      fun _ => Only.ret _
  refine Within.bindOk ((within_ok h haudit d).mono fun d _ _ _ _ _ => ?_)
  exact Within.ret fun _ _ => trivial

/-- A connect dir with a setup token and an audit log. -/
def plainDir : ConnectDir := ⟨Path.ofString "/data", "project-a", fun _ => "", by decide⟩

def plainFiles : FileTree Contents :=
  Prod.snd <| (do
    Fs.createDirAll ((Auth.authDir plainDir.base).join "operate_tokens")
    Fs.write (Auth.setupTokenPath plainDir.base) (.text "secret")
    Fs.write (Auth.auditLogPath plainDir.base) (.text "start\n") : Fs Contents Unit)
    (FileTree.bare Contents)

/-- A delete that the server has no objects for. -/
def plainDelete (id : String) : Disk × Option (Except Rejection TunnelDeleteOutcome) :=
  Prog.exec plainDir.handle { files := plainFiles } (List.replicate 24 {})
    (deleteTunnelInternal plainApp id "setup").run

/-- Deleting a tunnel with a name of one component, whether or not it gets to its
end: of the tunnel's own files some may be gone, the audit log may have got longer
and the state file may have been written, and all other files are the same. -/
theorem delete_touches_own (dir : ConnectDir) (app : AppState) (id actor : String) (h : IsName id)
    (d : Disk) (answers : List DiskAnswer) :
    let d' := (Prog.exec dir.handle d answers (deleteTunnelInternal app id actor).run).1
    Deleted dir id d.files d'.files ∧
      ∀ loc, dir.Foreign id loc →
        ∀ a, d'.files.node loc = some (.file a) ↔ d.files.node loc = some (.file a) := by
  intro d'
  have hdeleted : Disk.Deleted dir id d d' := ((within_delete h app actor d).exec answers).1
  exact ⟨hdeleted, fun loc hforeign => Deleted.foreign hdeleted hforeign⟩

theorem delete_touches_own_plain :
    let d' := (Prog.exec plainDir.handle { files := plainFiles } (List.replicate 24 {})
      (deleteTunnelInternal plainApp "tunnel-a" "setup").run).1
    Deleted plainDir "tunnel-a" plainFiles d'.files ∧
      ∀ loc, plainDir.Foreign "tunnel-a" loc →
        ∀ a, d'.files.node loc = some (.file a) ↔ plainFiles.node loc = some (.file a) :=
  delete_touches_own plainDir plainApp "tunnel-a" "setup" (by decide) { files := plainFiles }
    (List.replicate 24 {})

/-- Every delete adds to the audit log, and one of the id `..` removes the setup
token. -/
theorem delete_touches_others :
    ((plainDelete "tunnel-a").2.any Except.isOk = true ∧
      plainFiles.node plainDir.auditLogLoc = some (.file (.text "start\n")) ∧
      (plainDelete "tunnel-a").1.files.node plainDir.auditLogLoc =
        some (.file (.text "start\n\n"))) ∧
    ((plainDelete "..").2.any Except.isOk = true ∧
      plainFiles.node plainDir.setupTokenLoc = some (.file (.text "secret")) ∧
      (plainDelete "..").1.files.node plainDir.setupTokenLoc = none) := by
  decide +kernel

end DatumConnect.Daemon
