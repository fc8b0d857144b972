import DatumConnect.Lib.Runs
import DatumConnect.Auth.Gates
import DatumConnect.Auth.TokenFiles
/-!
# Histories of tokens

What has been handed out and taken back is kept in a ledger beside the files the
code reads.  A gate that admits a bearer value by the files admits one that the
ledger has.
-/

namespace DatumConnect.Auth

open DatumConnect.Lib
open DatumConnect.Lib.Files

/-- An operate token that has been handed out, and what has become of it. -/
structure Issued where
  tunnelId : String
  tokenId : String
  secret : String
  /-- In milliseconds, as asked for: no wrapping. -/
  expiresAt : Option Nat
  revoked : Bool := false
  deleted : Bool := false
  deriving DecidableEq, Repr

/-- The tokens in circulation. -/
structure Ledger where
  issued : List Issued := []
  viewer : Option String := none
  deriving DecidableEq, Repr

namespace Ledger

def mint (l : Ledger) (e : Issued) : Ledger := { l with issued := l.issued ++ [e] }

def revoke (l : Ledger) (tunnelId tokenId : String) : Ledger :=
  { l with issued := l.issued.map fun e =>
      if e.tunnelId = tunnelId ∧ e.tokenId = tokenId then { e with revoked := true } else e }

def delete (l : Ledger) (tunnelId : String) : Ledger :=
  { l with issued := l.issued.map fun e =>
      if e.tunnelId = tunnelId then { e with deleted := true } else e }

end Ledger

/-- The daemon and the ledger kept beside it. -/
structure History where
  state : AppState
  files : FileTree Contents
  ledger : Ledger

/-- A daemon that has issued nothing yet. -/
def History.start (state : AppState) (files : FileTree Contents) : History :=
  { state, files, ledger := { viewer := state.viewerToken } }

inductive Event where
  | mint (tunnelId : String) (ttlSeconds : Option UInt64) (now : UInt64) (rng : MintBytes)
  | revoke (tunnelId tokenId : String)
  | deleteTokens (tunnelId : String)
  | createViewer (random : Vector UInt8 32)
  | revokeViewer
  deriving DecidableEq

section Digest

variable (sha256 : List UInt8 → List UInt8)

/-- The handler's work, and the entry for what it answered. -/
def History.step (h : History) : Event → Option History
  | .mint tunnelId ttlSeconds now rng =>
      match mintOperateToken sha256 h.state.connectDir tunnelId ttlSeconds now rng h.files with
      | (.ok minted, files) =>
          some { h with
            files
            ledger := h.ledger.mint {
              tunnelId
              tokenId := minted.tokenId
              secret := rng.secretText
              expiresAt := ttlSeconds.map fun s => now.toNat + s.toNat * 1000 } }
      | (.error _, files) => some { h with files }
  | .revoke tunnelId tokenId =>
      match revokeOperateToken h.state.connectDir tunnelId tokenId h.files with
      | (.ok .revoked, files) =>
          some { h with files, ledger := h.ledger.revoke tunnelId tokenId }
      | (_, files) => some { h with files }
  | .deleteTokens tunnelId =>
      some { h with
        files := (deleteTokensForTunnel h.state.connectDir tunnelId h.files).2
        ledger := h.ledger.delete tunnelId }
  | .createViewer random =>
      match createViewerTokenOnDisk h.state.connectDir random h.files with
      | (.ok token, files) =>
          some { h with
            files
            state := { h.state with viewerToken := some token }
            ledger := { h.ledger with viewer := some token } }
      | (.error _, files) => some { h with files }
  | .revokeViewer =>
      match revokeViewerTokenOnDisk h.state.connectDir h.files with
      | (.ok _, files) =>
          some { h with
            files
            state := { h.state with viewerToken := none }
            ledger := { h.ledger with viewer := none } }
      | (.error _, files) => some { h with files }

theorem History.step_deleteTokens (h : History) (tunnelId : String) :
    h.step sha256 (.deleteTokens tunnelId) = some { h with
      files := (deleteTokensForTunnel h.state.connectDir tunnelId h.files).2
      ledger := h.ledger.delete tunnelId } := by
  rw [History.step]

abbrev History.run : History → List Event → Option History := Runs.run (History.step sha256)

end Digest

/-- A delete whose directory is there reaches it: its path leads through nothing
that is missing. -/
def DeleteReaches (h : History) : Event → Prop
  | .deleteTokens tunnelId =>
      h.files.isDir (operateTokensLoc h.state.connectDir tunnelId) = true →
        h.files.isDirAt (operateTokensDir h.state.connectDir tunnelId) = true
  | _ => True

instance (h : History) (e : Event) : Decidable (DeleteReaches h e) := by
  unfold DeleteReaches
  split <;> infer_instance

/-- The half of the bearer value that is spliced into a path does not start at
the root. -/
def RelativeTokenId (authorization : Option (List UInt8)) : Prop :=
  ∀ bearer ∈ extractBearer authorization, ∀ halves ∈ bearerHalves bearer,
    halves.1.toList.head? ≠ some '/'

instance (authorization : Option (List UInt8)) : Decidable (RelativeTokenId authorization) := by
  unfold RelativeTokenId
  infer_instance

/-- The actor the gate names is the one the bearer value was handed out to. -/
def Entitled (h : History) (gate : Gate) (id : String) (now : UInt64) (bearer : String) :
    Actor → Prop
  | .setup => bearer = h.state.setupToken
  | .operate tokenId => gate.readsOperate = true ∧
      ∃ e ∈ h.ledger.issued, e.tokenId = tokenId ∧ bearer = e.tokenId ++ "." ++ e.secret ∧
        e.tunnelId = id ∧ e.revoked = false ∧ e.deleted = false ∧
          ∀ exp ∈ e.expiresAt, now.toNat ≤ exp
  | .viewer => gate.readsViewer = true ∧ h.ledger.viewer = some bearer

/-! ## The records on disk and the ledger -/

section Invariant

variable (sha256 : List UInt8 → List UInt8)

/-- The record at an entry is that of a token in circulation, where it was put. -/
structure Backs (base : Path) (e : Issued) (name : String) (dir : Loc)
    (record : OperateTokenRecord) : Prop where
  tunnelId_eq : record.tunnelId = e.tunnelId
  name_eq : name = e.tokenId ++ ".json"
  isName : IsName name
  dir_eq : dir = operateTokensLoc base e.tunnelId
  hash_eq : ∃ salt, Base64.decode record.saltB64 = some salt ∧
    Base64.decode record.hashB64 = some (hashSecret sha256 salt e.secret)
  expires_le : ∀ m ∈ e.expiresAt, ∃ exp, record.expiresAtUnixMs = some exp ∧ exp.toNat ≤ m
  revoked : e.revoked = true → record.revoked = true
  kept : e.deleted = false

/-- What every history preserves. -/
structure TokensInv (h : History) : Prop where
  viewer_eq : h.state.viewerToken = h.ledger.viewer
  backed : ∀ name dir record, RecordAt h.files name dir record →
    ∃ e ∈ h.ledger.issued, Backs sha256 h.state.connectDir e name dir record

end Invariant

variable {sha256 : List UInt8 → List UInt8}

/-- Wrapping only brings the expiry forward. -/
theorem expiresAt_le {now : UInt64} {ttlSeconds : Option UInt64} {m : Nat}
    (h : m ∈ ttlSeconds.map fun s => now.toNat + s.toNat * 1000) :
    ∃ exp, expiresAt now ttlSeconds = some exp ∧ exp.toNat ≤ m := by
  obtain ⟨s, rfl, rfl⟩ := Option.map_eq_some_iff.mp h
  refine ⟨now + saturatingMul s 1000, rfl, ?_⟩
  have hmul : (saturatingMul s 1000).toNat ≤ s.toNat * 1000 := by
    rw [saturatingMul, UInt64.toNat_ofNat']
    exact (Nat.mod_le _ _).trans (Nat.min_le_left _ _)
  have hadd : (now + saturatingMul s 1000).toNat ≤ now.toNat + (saturatingMul s 1000).toNat := by
    rw [UInt64.toNat_add]
    exact Nat.mod_le _ _
  omega

theorem backs_minted (base : Path) (tunnelId : String) (ttlSeconds : Option UInt64)
    (now : UInt64) (rng : MintBytes) :
    Backs sha256 base
      { tunnelId, tokenId := rng.idText, secret := rng.secretText
        expiresAt := ttlSeconds.map fun s => now.toNat + s.toNat * 1000 }
      (rng.idText ++ ".json") (operateTokensLoc base tunnelId)
      (mintRecord sha256 tunnelId ttlSeconds now rng) where
  tunnelId_eq := rfl
  name_eq := rfl
  isName := isName_encode_json _
  dir_eq := rfl
  hash_eq := ⟨rng.salt.toList, Base64.decode_encode _, Base64.decode_encode _⟩
  expires_le _ := expiresAt_le
  revoked := by simp
  kept := rfl

namespace TokensInv

variable {h h' : History}

theorem start (state : AppState) (files : FileTree Contents)
    (hnone : ∀ name dir record, ¬ RecordAt files name dir record) :
    TokensInv sha256 (History.start state files) where
  viewer_eq := rfl
  backed name dir record hrecord := absurd hrecord (hnone name dir record)

/-- The files may lose records, and the viewer token may change with the ledger. -/
theorem of_subset (hinv : TokensInv sha256 h) {files : FileTree Contents}
    (viewer : Option String)
    (hsub : ∀ name dir record, RecordAt files name dir record →
      RecordAt h.files name dir record) :
    TokensInv sha256 { h with
      files
      state := { h.state with viewerToken := viewer }
      ledger := { h.ledger with viewer } } where
  viewer_eq := rfl
  backed name dir record hrecord := hinv.backed name dir record (hsub name dir record hrecord)

theorem of_files (hinv : TokensInv sha256 h) {files : FileTree Contents}
    (hsub : ∀ name dir record, RecordAt files name dir record →
      RecordAt h.files name dir record) :
    TokensInv sha256 { h with files } where
  viewer_eq := hinv.viewer_eq
  backed name dir record hrecord := hinv.backed name dir record (hsub name dir record hrecord)

theorem mint (hinv : TokensInv sha256 h) {tunnelId : String} {ttlSeconds : Option UInt64}
    {now : UInt64} {rng : MintBytes}
    (hstep : h.step sha256 (.mint tunnelId ttlSeconds now rng) = some h') :
    TokensInv sha256 h' := by
  have hnames : (operateTokenPath h.state.connectDir tunnelId rng.idText).names =
      (operateTokensDir h.state.connectDir tunnelId).names ++ [rng.idText ++ ".json"] := by
    rw [operateTokenPath, MintBytes.idText, Path.join_of_isName _ (isName_encode_json _)]
  have hloc := @resolve_operateTokenPath h.state.connectDir tunnelId _
    (isName_encode_json rng.tokenId.toList)
  simp only [History.step, mintOperateToken, Fs.bind_apply] at hstep
  cases hdirs : Fs.createDirAll (operateTokensDir h.state.connectDir tunnelId) h.files with
  | mk r₁ t₁ =>
      have hgrows := Fs.createDirAll_grows (operateTokensDir h.state.connectDir tunnelId) h.files
      rw [hdirs] at hstep hgrows
      have hold : ∀ name dir record, RecordAt t₁ name dir record →
          RecordAt h.files name dir record := fun name dir record hrecord =>
        ⟨hrecord.1, (hgrows.file_iff _ _).mp hrecord.2⟩
      cases r₁ with
      | error e =>
          cases hstep
          exact hinv.of_files hold
      | ok _ =>
          cases hwrite : writeAtomicRaw
              (operateTokenPath h.state.connectDir tunnelId rng.idText)
              (.record (mintRecord sha256 tunnelId ttlSeconds now rng)) t₁ with
          | mk r₂ t₂ =>
              have hrecords := fun name dir record (h : RecordAt _ name dir record) =>
                writeAtomicRaw_recordAt hnames hwrite h
              simp only [hwrite] at hstep
              cases r₂ with
              | error e =>
                  cases hstep
                  refine hinv.of_files fun name dir record hrecord => ?_
                  rcases hrecords name dir record hrecord with ⟨hr, _⟩ | ⟨hkept, _⟩
                  · cases hr
                  · exact hold name dir record hkept
              | ok _ =>
                  cases hstep
                  refine ⟨hinv.viewer_eq, fun name dir record hrecord => ?_⟩
                  rcases hrecords name dir record hrecord with ⟨_, hat, rfl⟩ | ⟨hkept, _⟩
                  · rw [MintBytes.idText, hloc] at hat
                    obtain ⟨rfl, rfl⟩ := List.cons.inj hat
                    exact ⟨_, List.mem_append_right _ List.mem_cons_self, backs_minted _ _ _ _ _⟩
                  · obtain ⟨e, he, hbacks⟩ := hinv.backed name dir record (hold _ _ _ hkept)
                    exact ⟨e, List.mem_append_left _ he, hbacks⟩

/-- Marking a token revoked where its record, if it is still there, is marked. -/
theorem backed_revoke {issued : List Issued} {base : Path} {tunnelId tokenId name : String}
    {dir : Loc} {record : OperateTokenRecord}
    (hbacked : ∃ e ∈ issued, Backs sha256 base e name dir record)
    (hmarked : ∀ e ∈ issued, Backs sha256 base e name dir record → e.tunnelId = tunnelId →
      e.tokenId = tokenId → record.revoked = true) :
    ∃ e ∈ issued.map fun e =>
        if e.tunnelId = tunnelId ∧ e.tokenId = tokenId then { e with revoked := true } else e,
      Backs sha256 base e name dir record := by
  obtain ⟨e, he, hbacks⟩ := hbacked
  refine ⟨_, List.mem_map_of_mem he, ?_⟩
  split
  · rename_i hthis
    exact ⟨hbacks.tunnelId_eq, hbacks.name_eq, hbacks.isName, hbacks.dir_eq, hbacks.hash_eq,
      hbacks.expires_le, fun _ => hmarked e he hbacks hthis.1 hthis.2, hbacks.kept⟩
  · exact hbacks

theorem revoke (hinv : TokensInv sha256 h) {tunnelId tokenId : String}
    (hstep : h.step sha256 (.revoke tunnelId tokenId) = some h') : TokensInv sha256 h' := by
  set p := operateTokenPath h.state.connectDir tunnelId tokenId with hp
  obtain ⟨dirs, last, hnames⟩ := operateTokenPath_names h.state.connectDir tunnelId tokenId
  rw [← hp] at hnames
  have hsame : TokensInv sha256 { h with files := h.files } := hinv.of_files fun _ _ _ => id
  simp only [History.step, revokeOperateToken, Fs.bind_apply, ← hp, Fs.attempt, Fs.read, Fs.look]
    at hstep
  cases hread : h.files.contents p with
  | error err =>
      rw [hread] at hstep
      cases err <;> · cases hstep; exact hsame
  | ok contents =>
      rw [hread] at hstep
      cases contents with
      | text text =>
          cases hstep
          exact hsame
      | record record =>
          have hat : RecordAt h.files (last ++ ".json") (resolve [] dirs) record := by
            refine ⟨⟨last, rfl⟩, ?_⟩
            rw [← resolve_json, ← hnames]
            exact (FileTree.contents_eq_ok hread).2
          simp only [Fs.bind_apply] at hstep
          cases hwrite : writeAtomicRaw p (.record { record with revoked := true }) h.files with
          | mk r t =>
              have hrecords := fun name dir record (h : RecordAt _ name dir record) =>
                writeAtomicRaw_recordAt hnames hwrite h
              rw [hwrite] at hstep
              cases r with
              | error e =>
                  cases hstep
                  refine hinv.of_files fun name dir record' hrecord => ?_
                  rcases hrecords name dir record' hrecord with ⟨hr, _⟩ | ⟨hkept, _⟩
                  · cases hr
                  · exact hkept
              | ok _ =>
                  cases hstep
                  refine ⟨hinv.viewer_eq, fun name dir record' hrecord => ?_⟩
                  rcases hrecords name dir record' hrecord with ⟨_, heq, rfl⟩ | ⟨hkept, hne⟩
                  · -- the rewritten record: marked whichever token it belongs to
                    rw [hnames, resolve_json] at heq
                    obtain ⟨rfl, rfl⟩ := List.cons.inj heq
                    obtain ⟨e, he, hbacks⟩ := hinv.backed _ _ _ hat
                    refine backed_revoke ⟨e, he, ?_⟩ fun _ _ _ _ _ => rfl
                    exact ⟨hbacks.tunnelId_eq, hbacks.name_eq, hbacks.isName, hbacks.dir_eq,
                      hbacks.hash_eq, hbacks.expires_le, fun _ => rfl, hbacks.kept⟩
                  · -- any other: the revoked token's record is the one rewritten
                    refine backed_revoke (hinv.backed _ _ _ hkept) ?_
                    rintro e _ hbacks rfl rfl
                    refine absurd ?_ (hne rfl)
                    rw [hp, resolve_operateTokenPath (hbacks.name_eq ▸ hbacks.isName),
                      hbacks.name_eq, hbacks.dir_eq]

theorem deleteTokens (hinv : TokensInv sha256 h) {tunnelId : String}
    (hreaches : DeleteReaches h (.deleteTokens tunnelId))
    (hstep : h.step sha256 (.deleteTokens tunnelId) = some h') : TokensInv sha256 h' := by
  obtain ⟨hkept, hgone⟩ :=
    Fs.removeDirAll_node (operateTokensDir h.state.connectDir tunnelId) h.files
  rw [History.step_deleteTokens] at hstep
  cases hstep
  refine ⟨hinv.viewer_eq, fun name dir record hrecord => ?_⟩
  obtain ⟨hjson, hnode⟩ := hrecord
  change (Fs.removeDirAll (operateTokensDir h.state.connectDir tunnelId) h.files).2.node
    (name :: dir) = _ at hnode
  have hbefore : h.files.node (name :: dir) = some (.file (.record record)) := by
    rcases hkept (name :: dir) with heq | hnone
    · rw [← heq, hnode]
    · rw [hnone] at hnode
      cases hnode
  obtain ⟨e, he, hbacks⟩ := hinv.backed name dir record ⟨hjson, hbefore⟩
  have hother : e.tunnelId ≠ tunnelId := by
    rintro rfl
    have hdir := h.files.parent_dir name dir (by simp [hbefore])
    rw [hbacks.dir_eq, operateTokensLoc] at hdir hnode
    have hreached := hreaches (FileTree.isDir_iff.mpr hdir)
    rw [hgone hreached name _ (List.suffix_refl _)] at hnode
    cases hnode
  refine ⟨e, List.mem_map.mpr ⟨e, he, if_neg hother⟩, hbacks⟩

theorem createViewer (hinv : TokensInv sha256 h) {random : Vector UInt8 32}
    (hstep : h.step sha256 (.createViewer random) = some h') : TokensInv sha256 h' := by
  have hnames := viewerTokenPath_names h.state.connectDir
  have hne : ("viewer.token" ++ ".tmp") :: resolve [] (h.state.connectDir.names ++ ["daemon_auth"]) ≠
      resolve [] (viewerTokenPath h.state.connectDir).names := by
    rw [hnames, resolve_append _ _ ["viewer.token"], resolve_cons,
      next_of_ne _ (by decide) (by decide)]
    intro heq
    exact absurd (List.cons.inj heq).1 (by decide)
  simp only [History.step, createViewerTokenOnDisk, Fs.bind_apply] at hstep
  cases hdirs : Fs.createDirAll (authDir h.state.connectDir) h.files with
  | mk r₁ t₁ =>
      have hgrows := Fs.createDirAll_grows (authDir h.state.connectDir) h.files
      rw [hdirs] at hstep hgrows
      have hold : ∀ name dir record, RecordAt t₁ name dir record →
          RecordAt h.files name dir record := fun name dir record hrecord =>
        ⟨hrecord.1, (hgrows.file_iff _ _).mp hrecord.2⟩
      cases r₁ with
      | error e =>
          cases hstep
          exact hinv.of_files hold
      | ok _ =>
          cases hwrite : writeAtomicRaw (viewerTokenPath h.state.connectDir)
              (.text (Base64.encode random.toList)) t₁ with
          | mk r₂ t₂ =>
              have hsub : ∀ name dir record, RecordAt t₂ name dir record →
                  RecordAt h.files name dir record := fun name dir record hrecord =>
                hold _ _ _ (writeAtomicRaw_text_recordAt hnames hne hwrite hrecord)
              simp only [hwrite] at hstep
              cases r₂ with
              | error e =>
                  cases hstep
                  exact hinv.of_files hsub
              | ok _ =>
                  cases hstep
                  exact hinv.of_subset _ hsub

theorem revokeViewer (hinv : TokensInv sha256 h)
    (hstep : h.step sha256 .revokeViewer = some h') : TokensInv sha256 h' := by
  simp only [History.step, revokeViewerTokenOnDisk, Fs.bind_apply, Fs.attempt] at hstep
  cases hremove : Fs.removeFile (viewerTokenPath h.state.connectDir) h.files with
  | mk r t =>
      have hsub : ∀ name dir record, RecordAt t name dir record →
          RecordAt h.files name dir record := by
        rintro name dir record ⟨hjson, hnode⟩
        refine ⟨hjson, ?_⟩
        rcases Fs.removeFile_eq hremove with ⟨_, heq⟩ | ⟨_, rfl⟩
        · rw [heq] at hnode
          by_cases htarget : name :: dir = resolve [] (viewerTokenPath h.state.connectDir).names
          · simp [htarget] at hnode
          · simpa [htarget] using hnode
        · exact hnode
      rw [hremove] at hstep
      cases r with
      | ok _ =>
          cases hstep
          exact hinv.of_subset _ hsub
      | error e =>
          cases e <;> cases hstep <;> first | exact hinv.of_subset _ hsub | exact hinv.of_files hsub

theorem step (hinv : TokensInv sha256 h) {e : Event} (hreaches : DeleteReaches h e)
    (hstep : h.step sha256 e = some h') : TokensInv sha256 h' := by
  cases e with
  | mint tunnelId ttlSeconds now rng => exact hinv.mint hstep
  | revoke tunnelId tokenId => exact hinv.revoke hstep
  | deleteTokens tunnelId => exact hinv.deleteTokens hreaches hstep
  | createViewer random => exact hinv.createViewer hstep
  | revokeViewer => exact hinv.revokeViewer hstep

/-- A secret that checks out against a record is that of a token in circulation,
whose directory the relative path has not left. -/
theorem issued_of_validate (hinv : TokensInv sha256 h) (hsha : Function.Injective sha256)
    {id tokenId secret : String} {now : UInt64} (hdot : '.' ∉ tokenId.toList)
    (hrelative : tokenId.toList.head? ≠ some '/')
    (hvalid : validateOperateSecret sha256 h.files h.state.connectDir id tokenId secret now =
      true) :
    ∃ e ∈ h.ledger.issued, e.tokenId = tokenId ∧ e.secret = secret ∧ e.tunnelId = id ∧
      e.revoked = false ∧ e.deleted = false ∧ ∀ exp ∈ e.expiresAt, now.toNat ≤ exp := by
  unfold validateOperateSecret at hvalid
  split at hvalid
  · rename_i record hcontents
    split at hvalid
    · cases hvalid
    · rename_i hscope
      split at hvalid
      · cases hvalid
      · rename_i hexpired
        split at hvalid
        · rename_i salt expected hsalt hexpected
          rw [constantTimeEq_iff] at hvalid
          rw [not_or, not_not] at hscope
          obtain ⟨dirs, last, hnames, hdirs, hlast⟩ :=
            Path.ofString_append tokenId ".json" (by decide) (by decide)
          have habs : (Path.ofString (tokenId ++ ".json")).absolute = false := by
            rw [Path.ofString, String.toList_append, decide_eq_false_iff_not]
            cases hchars : tokenId.toList with
            | nil => decide
            | cons c cs => simpa [hchars] using hrelative
          have hpath : (operateTokenPath h.state.connectDir id tokenId).names =
              ((operateTokensDir h.state.connectDir id).names ++ dirs) ++ [last ++ ".json"] := by
            rw [operateTokenPath, Path.join]
            simp [habs, hnames]
          have hdirsNames : ∀ dir ∈ dirs, dir ≠ "." ∧ dir ≠ ".." := by
            intro dir hdir
            have hchars := (hdirs dir hdir).2
            constructor
            · rintro rfl
              exact hdot (hchars '.' (by decide))
            · rintro rfl
              exact hdot (hchars '.' (by decide))
          have hnode := (FileTree.contents_eq_ok hcontents).2
          rw [hpath, resolve_json, resolve_append, resolve_of_forall_ne _ hdirsNames] at hnode
          obtain ⟨e, he, hbacks⟩ := hinv.backed _ _ record ⟨⟨last, rfl⟩, hnode⟩
          have hid : e.tunnelId = id := by rw [← hbacks.tunnelId_eq, hscope.1]
          -- the record is in its tunnel's own directory, so the path added none to it
          have hnil : dirs = [] := by
            have hdir := hbacks.dir_eq
            rw [hid, operateTokensLoc] at hdir
            simpa using hdir
          have htoken : e.tokenId = tokenId := by
            rw [← hlast hnil hrelative]
            exact (append_json_inj hbacks.name_eq).symm
          have hsecret : e.secret = secret := by
            obtain ⟨salt', hsalt', hhash⟩ := hbacks.hash_eq
            rw [hsalt, Option.some.injEq] at hsalt'
            rw [hexpected, Option.some.injEq] at hhash
            subst hsalt'
            rw [hhash] at hvalid
            have := List.append_cancel_left (hsha hvalid)
            exact (asBytes_inj.mp this).symm
          refine ⟨e, he, htoken, hsecret, hid, ?_, hbacks.kept, ?_⟩
          · by_contra hrev
            exact hscope.2 (hbacks.revoked (by simpa using hrev))
          · intro m hm
            obtain ⟨exp, hexp, hle⟩ := hbacks.expires_le m hm
            rw [hexp] at hexpired
            have : now.toNat ≤ exp.toNat := by simpa [UInt64.le_iff_toNat_le] using hexpired
            omega
        · cases hvalid
  · cases hvalid

/-- What a gate admits is in the ledger. -/
theorem entitled (hinv : TokensInv sha256 h) (hsha : Function.Injective sha256) {gate : Gate}
    {id : String} {now : UInt64} {authorization : Option (List UInt8)} {actor : Actor}
    (hrelative : RelativeTokenId authorization)
    (hpassed : gate.passes sha256 h.state h.files id now authorization = .ok actor) :
    ∃ bearer, extractBearer authorization = some bearer ∧ Entitled h gate id now bearer actor := by
  obtain ⟨bearer, hbearer, hchecked⟩ := Gate.passes_eq_ok hpassed
  refine ⟨bearer, hbearer, ?_⟩
  cases actor with
  | setup => exact hchecked
  | viewer => exact ⟨hchecked.1, hinv.viewer_eq ▸ hchecked.2⟩
  | operate tokenId =>
      obtain ⟨hgate, secret, hhalves, hvalid⟩ := hchecked
      obtain ⟨heq, hdot⟩ := bearerHalves_eq_some hhalves
      obtain ⟨e, he, htoken, hsecret, hrest⟩ := hinv.issued_of_validate hsha hdot
        (hrelative bearer hbearer _ hhalves) hvalid
      refine ⟨hgate, e, he, htoken, ?_, hrest⟩
      rw [heq, htoken, hsecret]

end TokensInv

/-- After any history in which the deletes reach their directories, a gate admits
only bearer values that are in circulation for what it admits them as, unless the
token id is an absolute path. -/
theorem gates_admit_entitled (hsha : Function.Injective sha256) (state : AppState)
    (files : FileTree Contents) (hnone : ∀ name dir record, ¬ RecordAt files name dir record)
    (events : List Event) (h : History)
    (hrun : History.run sha256 (.start state files) events = some h)
    (hreaches : Runs.Meets (History.step sha256) DeleteReaches (.start state files) events)
    (gate : Gate) (id : String) (now : UInt64) (authorization : Option (List UInt8))
    (actor : Actor) (hrelative : RelativeTokenId authorization)
    (hpassed : gate.passes sha256 h.state h.files id now authorization = .ok actor) :
    ∃ bearer, extractBearer authorization = some bearer ∧ Entitled h gate id now bearer actor :=
  (Runs.invariant (fun _ _ _ hinv hcond hstep => hinv.step hcond hstep)
    (TokensInv.start state files hnone) hreaches hrun).entitled hsha hrelative hpassed

/-! ### One token -/

def freshState : AppState where
  connectDir := Path.ofString "/data"
  setupToken := "setup"
  viewerToken := none

def zeroBytes : MintBytes := ⟨.replicate 9 0, .replicate 32 0, .replicate 16 0⟩

/-- Agrees with SHA-256 on the salted secret of `zeroBytes`, and has no collision. -/
def sampleSha256 (input : List UInt8) : List UInt8 :=
  if input = zeroBytes.salt.toList ++ asBytes zeroBytes.secretText then
    [229, 119, 144, 189, 116, 44, 72, 99, 198, 199, 180, 0, 253, 64, 157, 118, 46, 40, 244, 224,
      93, 107, 80, 91, 78, 106, 130, 245, 82, 233, 5, 160]
  else 0 :: input

theorem sampleSha256_injective : Function.Injective sampleSha256 := by
  intro a b h
  unfold sampleSha256 at h
  split at h <;> split at h <;> simp_all

/-- A token for an hour. -/
def mintOne : List Event := [.mint "tunnel-a" (some 3600) 1000 zeroBytes]

def bearerHeader (bearer : String) : Option (List UInt8) := some (asBytes ("Bearer " ++ bearer))

theorem not_recordAt_bare (name : String) (dir : Loc) (record : OperateTokenRecord) :
    ¬ RecordAt (FileTree.bare Contents) name dir record := by
  rintro ⟨_, hnode⟩
  simp [FileTree.bare] at hnode

theorem gates_admit_entitled_mintOne :
    ∃ h bearer, History.run sampleSha256 (.start freshState (.bare Contents)) mintOne = some h ∧
      Entitled h .operateOrSetup "tunnel-a" 2000 bearer (.operate "AAAAAAAAAAAA") := by
  obtain ⟨bearer, _, hentitled⟩ := gates_admit_entitled sampleSha256_injective freshState
    (.bare Contents) not_recordAt_bare mintOne _ rfl (by decide) .operateOrSetup "tunnel-a" 2000
    (bearerHeader "AAAAAAAAAAAA.AAAAAAAAAAAAAAAAAAAAAAAAAAAAAAAAAAAAAAAAAAA")
    (.operate "AAAAAAAAAAAA") (by decide) rfl
  exact ⟨_, bearer, rfl, hentitled⟩

/-- A bearer value that names the record by its absolute path is admitted, and is
no token's. -/
theorem gates_admit_absolute_path :
    ¬ ∀ (sha256 : List UInt8 → List UInt8) (state : AppState) (files : FileTree Contents)
        (events : List Event) (h : History) (gate : Gate) (id : String) (now : UInt64)
        (authorization : Option (List UInt8)) (actor : Actor),
      Function.Injective sha256 → state.setupToken ≠ "" →
      (∀ name dir record, ¬ RecordAt files name dir record) →
      History.run sha256 (.start state files) events = some h →
      gate.passes sha256 h.state h.files id now authorization = .ok actor →
        ∃ bearer, extractBearer authorization = some bearer ∧
          Entitled h gate id now bearer actor := by
  intro hall
  obtain ⟨bearer, _, _, e, he, htoken, _⟩ := hall sampleSha256 freshState (.bare Contents)
    mintOne _ .operateOrSetup "tunnel-a" 2000
    (bearerHeader ("/data/daemon_auth/operate_tokens/tunnel-a/AAAAAAAAAAAA." ++
      "AAAAAAAAAAAAAAAAAAAAAAAAAAAAAAAAAAAAAAAAAAA"))
    (.operate "/data/daemon_auth/operate_tokens/tunnel-a/AAAAAAAAAAAA")
    sampleSha256_injective (by decide) not_recordAt_bare rfl rfl
  rw [List.mem_singleton.mp he] at htoken
  exact absurd htoken (by decide)

end DatumConnect.Auth
