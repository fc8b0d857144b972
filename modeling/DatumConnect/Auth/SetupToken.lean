import DatumConnect.Lib.Prog
import DatumConnect.Lib.Runs
import DatumConnect.Auth.Gates
/-!
# The setup token across starts

`load_or_create_setup_token` creates the file and writes the token in two steps.
A start can be killed before any of its file operations, and the write can fail,
or be acknowledged, with only a part of the token in the file.
-/

namespace DatumConnect.Auth

open DatumConnect.Lib
open DatumConnect.Lib.Files

/-- The file operations of `load_or_create_setup_token`. -/
inductive FileCall where
  | createDirAll (path : Path)
  | createNew (path : Path)
  | writeAll (path : Path) (text : String)
  | setOwnerOnlyPerms (path : Path)
  | readToString (path : Path)
  deriving DecidableEq, Repr

abbrev FileCall.Reply : FileCall → Type
  | .createDirAll _ | .createNew _ | .writeAll _ _ => Except IoError Unit
  | .setOwnerOnlyPerms _ => Unit
  | .readToString _ => Except IoError String

abbrev FileProg := Prog FileCall FileCall.Reply

namespace FileProg

def createDirAll (path : Path) : FileProg (Except IoError Unit) :=
  Prog.perform (FileCall.createDirAll path)

def createNew (path : Path) : FileProg (Except IoError Unit) := Prog.perform (FileCall.createNew path)

def writeAll (path : Path) (text : String) : FileProg (Except IoError Unit) :=
  Prog.perform (FileCall.writeAll path text)

def setOwnerOnlyPerms (path : Path) : FileProg Unit := Prog.perform (FileCall.setOwnerOnlyPerms path)

def readToString (path : Path) : FileProg (Except IoError String) :=
  Prog.perform (FileCall.readToString path)

end FileProg

def loadOrCreateSetupToken (base : Path) (random : Vector UInt8 32) :
    FileProg (Except IoError String) := do
  match ← FileProg.createDirAll (authDir base) with
  | .error e => return .error e
  | .ok () =>
      let path := setupTokenPath base
      match ← FileProg.createNew path with
      | .ok () =>
          let token := Base64.encode random.toList
          match ← FileProg.writeAll path token with
          | .error e => return .error e
          | .ok () =>
              FileProg.setOwnerOnlyPerms path
              return .ok token
      | .error .alreadyExists => FileProg.readToString path
      | .error e => return .error e

/-! ## File operations that fail -/

/-- How one file operation goes: as asked; with an error; or acknowledged.  A
write that is cut short has brought `landed` characters into the file. -/
inductive Fault where
  | none
  | error (landed : Nat)
  | unflushed (landed : Nat)
  deriving DecidableEq, Repr

/-- `OpenOptions::create_new`. -/
def createNew (path : Path) : Fs Contents Unit := do
  if ← Fs.look fun t => .ok (t.exists? path) then throw .alreadyExists
  Fs.write path (.text "")

/-- The text of a file. -/
def readToString (path : Path) : Fs Contents String := do
  match ← Fs.read path with
  | .text s => return s
  | .record _ => throw .invalidData

/-- The first characters of a text. -/
def prefixOf (landed : Nat) (text : String) : String := String.ofList (text.toList.take landed)

def handle (files : FileTree Contents) :
    (c : FileCall) → Fault → FileTree Contents × c.Reply
  | .createDirAll path, .none => (Fs.createDirAll path files).swap
  | .createDirAll _, _ => (files, .error .other)
  | .createNew path, .none => (createNew path files).swap
  | .createNew _, _ => (files, .error .other)
  | .writeAll path text, .none => (Fs.write path (.text text) files).swap
  | .writeAll path text, .error landed =>
      ((Fs.write path (.text (prefixOf landed text)) files).2, .error .other)
  | .writeAll path text, .unflushed landed =>
      (Fs.write path (.text (prefixOf landed text)) files).swap
  | .setOwnerOnlyPerms _, _ => (files, ())
  | .readToString path, .none => (readToString path files).swap
  | .readToString _, _ => (files, .error .other)

/-! ## Starts -/

/-- A start of the daemon: the bytes it draws for a token, and how its file
operations go, for as long as it lives. -/
structure Start where
  random : Vector UInt8 32
  faults : List Fault
  deriving DecidableEq

def Start.token (start : Start) : String := Base64.encode start.random.toList

/-- The files, the tokens the starts have drawn, and those they have returned. -/
structure Starts where
  files : FileTree Contents
  drawn : List String := []
  returned : List String := []

def Starts.step (base : Path) (s : Starts) (start : Start) : Option Starts :=
  let (files, result) :=
    Prog.exec handle s.files start.faults (loadOrCreateSetupToken base start.random)
  some {
    files
    drawn := s.drawn ++ [start.token]
    returned := match result with
      | some (.ok token) => s.returned ++ [token]
      | _ => s.returned }

abbrev Starts.run (base : Path) : Starts → List Start → Option Starts :=
  Runs.run (Starts.step base)

/-- The file operations from the write on bring the whole token into the file. -/
def BringsWhole (token : String) : List Fault → Prop
  | .none :: _ => True
  | .error landed :: _ | .unflushed landed :: _ => token.toList.length ≤ landed
  | [] => False

instance (token : String) (faults : List Fault) : Decidable (BringsWhole token faults) := by
  unfold BringsWhole
  split <;> infer_instance

/-- A start that gets as far as creating the token file brings the whole token
into it. -/
def LandsWhole (base : Path) (s : Starts) (start : Start) : Prop :=
  match start.faults with
  | .none :: .none :: rest =>
      (createNew (setupTokenPath base) (Fs.createDirAll (authDir base) s.files).2).1.isOk = true →
        BringsWhole start.token rest
  | _ => True

instance (base : Path) (s : Starts) (start : Start) : Decidable (LandsWhole base s start) := by
  unfold LandsWhole
  split <;> infer_instance

/-! ## What one start can do -/

def setupTokenLoc (base : Path) : Loc := resolve [] (setupTokenPath base).names

theorem createNew_eq {path : Path} {t t' : FileTree Contents} {r : Except IoError Unit}
    (h : createNew path t = (r, t')) :
    r = .ok () ∧ Fs.write path (.text "") t = (.ok (), t') ∨
      (∃ e, r = .error e) ∧ t' = t := by
  unfold createNew at h
  simp only [Fs.bind_apply, Fs.look] at h
  cases hexists : t.exists? path with
  | true =>
      rw [hexists] at h
      cases h
      exact .inr ⟨⟨_, rfl⟩, rfl⟩
  | false =>
      rw [hexists] at h
      change Fs.write path (.text "") t = (r, t') at h
      rcases Fs.write_eq h with ⟨rfl, _⟩ | ⟨he, rfl⟩
      · exact .inl ⟨rfl, h⟩
      · exact .inr ⟨he, rfl⟩

theorem prefixOf_of_le {landed : Nat} {text : String} (h : text.toList.length ≤ landed) :
    prefixOf landed text = text := by
  rw [prefixOf, List.take_of_length_le h, String.ofList_toList]

/-- The start's last steps, once it has created the file. -/
def writeSetupToken (path : Path) (token : String) : FileProg (Except IoError String) :=
  .call (.writeAll path token) fun
    | .error e => .ret (.error e)
    | .ok () => .call (.setOwnerOnlyPerms path) fun _ => .ret (.ok token)

/-- The steps once the directory is there. -/
def openSetupToken (path : Path) (token : String) : FileProg (Except IoError String) :=
  .call (.createNew path) fun
    | .ok () => writeSetupToken path token
    | .error .alreadyExists => .call (.readToString path) .ret
    | .error e => .ret (.error e)

theorem loadOrCreateSetupToken_eq (base : Path) (random : Vector UInt8 32) :
    loadOrCreateSetupToken base random =
      .call (.createDirAll (authDir base)) fun
        | .error e => .ret (.error e)
        | .ok () => openSetupToken (setupTokenPath base) (Base64.encode random.toList) := by
  refine congrArg (Prog.call _) (funext fun r => ?_)
  cases r with
  | error e => rfl
  | ok _ =>
      refine congrArg (Prog.call _) (funext fun r => ?_)
      cases r with
      | error e => cases e <;> rfl
      | ok _ =>
          refine congrArg (Prog.call _) (funext fun r => ?_)
          cases r <;> rfl

/-- What a start makes of the token file: it stays as it was or has the whole
token, and the start returns its token or what was there. -/
def SoundStart (base : Path) (token : String) (files : FileTree Contents)
    (outcome : FileTree Contents × Option (Except IoError String)) : Prop :=
  (∀ c, outcome.1.node (setupTokenLoc base) = some (.file c) →
      files.node (setupTokenLoc base) = some (.file c) ∨ c = .text token) ∧
    ∀ token', outcome.2 = some (.ok token') →
      files.node (setupTokenLoc base) = some (.file (.text token')) ∨ token' = token

/-- No token returned, no change to the file. -/
theorem SoundStart.of_unchanged {base : Path} {token : String} {files : FileTree Contents}
    {result : Option (Except IoError String)} (h : ∀ token', result ≠ some (.ok token')) :
    SoundStart base token files (files, result) :=
  ⟨fun _ => .inl, fun token' htoken => absurd htoken (h token')⟩

theorem SoundStart.of_failed {base : Path} {token : String} {files : FileTree Contents}
    (e : IoError) (faults : List Fault) :
    SoundStart base token files (Prog.exec handle files faults (.ret (.error e))) := by
  rw [Prog.exec_ret]
  exact .of_unchanged (by simp)

/-- Into a file just created, a start that lands its whole token brings just it. -/
theorem exec_writeSetupToken {base : Path} {token : String} {t t' : FileTree Contents}
    {faults : List Fault}
    (hcreated : Fs.write (setupTokenPath base) (.text "") t = (.ok (), t'))
    (hwhole : BringsWhole token faults) (files : FileTree Contents) :
    SoundStart base token files
      (Prog.exec handle t' faults (writeSetupToken (setupTokenPath base) token)) := by
  obtain ⟨u, hwrite, hnode⟩ := Fs.write_again (.text token) hcreated
  have hfile : ∀ c, u.node (setupTokenLoc base) = some (.file c) → c = .text token := by
    intro c hc
    simp only [hnode, setupTokenLoc, if_true, Option.some.injEq, Node.file.injEq] at hc
    exact hc.symm
  -- acknowledged: the start goes on to the permissions, if it lives
  have hacked : ∀ rest, SoundStart base token files (Prog.exec handle u rest
      (.call (.setOwnerOnlyPerms (setupTokenPath base)) fun _ => .ret (.ok token))) := by
    intro rest
    cases rest with
    | nil => exact ⟨fun c hc => .inr (hfile c hc), by simp⟩
    | cons fault rest =>
        rw [Prog.exec_cons, handle, Prog.exec_ret]
        refine ⟨fun c hc => .inr (hfile c hc), fun token' htoken => .inr ?_⟩
        cases htoken
        rfl
  match faults with
  | [] => exact absurd hwhole id
  | .none :: rest =>
      rw [writeSetupToken, Prog.exec_cons, handle, hwrite]
      exact hacked rest
  | .unflushed landed :: rest =>
      rw [writeSetupToken, Prog.exec_cons, handle, prefixOf_of_le hwhole, hwrite]
      exact hacked rest
  | .error landed :: rest =>
      rw [writeSetupToken, Prog.exec_cons, handle, prefixOf_of_le hwhole, hwrite, Prog.exec_ret]
      exact ⟨fun c hc => .inr (hfile c hc), by simp⟩

theorem readToString_eq {path : Path} {t : FileTree Contents} {s : String}
    (h : readToString path t = (.ok s, t)) :
    t.node (resolve [] path.names) = some (.file (.text s)) := by
  unfold readToString at h
  simp only [Fs.bind_apply, Fs.read, Fs.look] at h
  cases hcontents : t.contents path with
  | error e =>
      rw [hcontents] at h
      cases h
  | ok c =>
      rw [hcontents] at h
      cases c with
      | record r => cases h
      | text s' =>
          cases h
          exact (FileTree.contents_eq_ok hcontents).2

theorem readToString_files (path : Path) (t : FileTree Contents) : (readToString path t).2 = t := by
  unfold readToString
  simp only [Fs.bind_apply, Fs.read, Fs.look]
  cases t.contents path with
  | error e => rfl
  | ok c => cases c <;> rfl

/-- A file operation that fails from the start leaves the files. -/
theorem handle_faulty {fault : Fault} (hfault : fault ≠ .none) (files : FileTree Contents)
    (path : Path) :
    handle files (.createDirAll path) fault = (files, .error .other) ∧
      handle files (.createNew path) fault = (files, .error .other) := by
  cases fault with
  | none => exact absurd rfl hfault
  | error n => exact ⟨rfl, rfl⟩
  | unflushed n => exact ⟨rfl, rfl⟩

theorem exec_openSetupToken {base : Path} {token : String} {files : FileTree Contents}
    {faults : List Fault}
    (hwhole : ∀ rest, faults = .none :: rest →
      (createNew (setupTokenPath base) files).1.isOk = true → BringsWhole token rest) :
    SoundStart base token files
      (Prog.exec handle files faults (openSetupToken (setupTokenPath base) token)) := by
  cases faults with
  | nil => exact SoundStart.of_unchanged (by simp)
  | cons fault rest =>
      rw [openSetupToken, Prog.exec_cons]
      by_cases hfault : fault = .none
      · subst hfault
        have hrest := hwhole rest rfl
        rw [handle]
        cases hcreate : createNew (setupTokenPath base) files with
        | mk r t =>
            rw [hcreate] at hrest
            rcases createNew_eq hcreate with ⟨rfl, hcreated⟩ | ⟨⟨e, rfl⟩, rfl⟩
            · exact exec_writeSetupToken hcreated (hrest rfl) files
            · cases e with
              | alreadyExists =>
                  cases rest with
                  | nil => exact SoundStart.of_unchanged (by simp)
                  | cons fault rest =>
                      change SoundStart base token t
                        (Prog.exec handle t (fault :: rest) (.call (.readToString _) .ret))
                      rw [Prog.exec_cons, Prog.exec_ret]
                      by_cases hread : fault = .none
                      · subst hread
                        rw [handle, Prod.fst_swap, Prod.snd_swap, readToString_files]
                        refine ⟨fun c hc => .inl hc, fun token' htoken => .inl ?_⟩
                        refine readToString_eq (Prod.ext (Option.some.inj htoken) ?_)
                        exact readToString_files _ _
                      · cases fault with
                        | none => exact absurd rfl hread
                        | error n => exact SoundStart.of_unchanged (by simp [handle])
                        | unflushed n => exact SoundStart.of_unchanged (by simp [handle])
              | _ => exact SoundStart.of_failed _ rest
      · rw [(handle_faulty hfault files _).2]
        exact SoundStart.of_failed _ rest

/-- One start, from its directory on. -/
theorem exec_loadOrCreate {base : Path} {s : Starts} {start : Start}
    (hlands : LandsWhole base s start) :
    SoundStart base start.token s.files
      (Prog.exec handle s.files start.faults (loadOrCreateSetupToken base start.random)) := by
  rw [loadOrCreateSetupToken_eq]
  unfold LandsWhole at hlands
  cases hfaults : start.faults with
  | nil => exact SoundStart.of_unchanged (by simp)
  | cons fault rest =>
      rw [Prog.exec_cons]
      by_cases hfault : fault = .none
      · subst hfault
        have hdirs := (Fs.createDirAll_grows (authDir base) s.files).file_iff (setupTokenLoc base)
        rw [handle]
        cases hcreate : Fs.createDirAll (authDir base) s.files with
        | mk r t =>
            rw [hcreate] at hdirs
            -- the directories it adds do not concern the token file
            have hback : ∀ outcome, SoundStart base start.token t outcome →
                SoundStart base start.token s.files outcome := by
              rintro outcome ⟨hfile, hresult⟩
              exact ⟨fun c hc => (hfile c hc).imp_left (hdirs c).mp,
                fun token' htoken => (hresult token' htoken).imp_left (hdirs _).mp⟩
            refine hback _ ?_
            cases r with
            | error e => exact SoundStart.of_failed _ rest
            | ok _ =>
                refine exec_openSetupToken fun more hmore hok => ?_
                simp only [hfaults, hmore, hcreate] at hlands
                exact hlands hok
      · rw [(handle_faulty hfault s.files _).1]
        exact SoundStart.of_failed _ rest

/-! ## Every start -/

/-- What every sequence of starts preserves. -/
structure SetupInv (base : Path) (s : Starts) : Prop where
  file_drawn : ∀ c, s.files.node (setupTokenLoc base) = some (.file c) →
    ∃ token ∈ s.drawn, c = .text token
  returned_drawn : ∀ token ∈ s.returned, token ∈ s.drawn
  length_drawn : ∀ token ∈ s.drawn, token.toList.length = 43

theorem SetupInv.step {base : Path} {s s' : Starts} {start : Start} (hinv : SetupInv base s)
    (hlands : LandsWhole base s start) (hstep : s.step base start = some s') :
    SetupInv base s' := by
  obtain ⟨hfile, hresult⟩ := exec_loadOrCreate hlands
  unfold Starts.step at hstep
  cases hexec : Prog.exec handle s.files start.faults
      (loadOrCreateSetupToken base start.random) with
  | mk files result =>
      rw [hexec] at hstep hfile hresult
      cases hstep
      refine ⟨fun c hc => ?_, ?_, ?_⟩
      · rcases hfile c hc with hold | rfl
        · obtain ⟨token, htoken, rfl⟩ := hinv.file_drawn c hold
          exact ⟨token, List.mem_append_left _ htoken, rfl⟩
        · exact ⟨start.token, List.mem_append_right _ List.mem_cons_self, rfl⟩
      · have hold : ∀ token ∈ s.returned, token ∈ s.drawn ++ [start.token] := fun token htoken =>
          List.mem_append_left _ (hinv.returned_drawn token htoken)
        have hnew : ∀ token, result = some (.ok token) → token ∈ s.drawn ++ [start.token] := by
          intro token htoken
          rcases hresult token htoken with hread | rfl
          · obtain ⟨token', htoken', heq⟩ := hinv.file_drawn _ hread
            cases heq
            exact List.mem_append_left _ htoken'
          · exact List.mem_append_right _ List.mem_cons_self
        intro token htoken
        simp only at htoken
        split at htoken
        · rcases List.mem_append.mp htoken with htoken | htoken
          · exact hold token htoken
          · rw [List.mem_singleton.mp htoken]
            exact hnew _ rfl
        · exact hold token htoken
      · intro token htoken
        rcases List.mem_append.mp htoken with htoken | htoken
        · exact hinv.length_drawn token htoken
        · rw [List.mem_singleton.mp htoken, Start.token, Base64.length_encode]
          simp

/-- While each start that creates the token file brings its whole token into it,
every token a start returns is a whole one that some start drew, and no gate lets
a bearer value in as setup that does not contain it. -/
theorem setup_token_complete (base : Path) (files : FileTree Contents)
    (hnone : files.node (setupTokenLoc base) = none) (starts : List Start) (s : Starts)
    (hrun : Starts.run base { files } starts = some s)
    (hlands : Runs.Meets (Starts.step base) (LandsWhole base) { files } starts) :
    ∀ token ∈ s.returned, token ∈ s.drawn ∧ token.toList.length = 43 ∧
      ∀ sha256 (gate : Gate) (state : AppState) (tree : FileTree Contents) (id : String)
        (now : UInt64) (authorization : Option (List UInt8)), state.setupToken = token →
        gate.passes sha256 state tree id now authorization = .ok .setup →
          ∃ bearer, extractBearer authorization = some bearer ∧ bearer ≠ "" ∧
            token.toList <:+: bearer.toList := by
  have hinv : SetupInv base s :=
    Runs.invariant (fun _ _ _ hinv hcond hstep => SetupInv.step hinv hcond hstep)
      ⟨by simp [hnone], by simp, by simp⟩ hlands hrun
  intro token htoken
  have hdrawn := hinv.returned_drawn token htoken
  have hlength := hinv.length_drawn token hdrawn
  refine ⟨hdrawn, hlength, ?_⟩
  rintro sha256 gate state tree id now authorization rfl hpassed
  obtain ⟨bearer, hbearer, rfl⟩ := Gate.passes_eq_ok hpassed
  refine ⟨_, hbearer, ?_, List.infix_refl _⟩
  intro hempty
  rw [hempty] at hlength
  cases hlength

/-! ### Two starts -/

def calm : Start := ⟨.replicate 32 0, [.none, .none, .none, .none]⟩

/-- Killed after the file is created and before the token is written. -/
def killedBeforeWrite : Start := ⟨.replicate 32 0, [.none, .none]⟩

theorem setup_token_complete_calm :
    ∃ s, Starts.run (Path.ofString "/data") { files := .bare Contents } [calm, calm] = some s ∧
      s.returned = [calm.token, calm.token] ∧ calm.token ∈ s.drawn := by
  refine ⟨_, rfl, by decide, ?_⟩
  exact (setup_token_complete (Path.ofString "/data") (.bare Contents) rfl [calm, calm] _ rfl
    (by decide) calm.token (by decide)).1

/-- The next start returns the empty text the file has, and an empty bearer value
is let in as setup. -/
theorem setup_token_empty :
    ¬ ∀ (base : Path) (files : FileTree Contents) (starts : List Start) (s : Starts),
      files.node (setupTokenLoc base) = none →
      Starts.run base { files } starts = some s →
      ∀ token ∈ s.returned, token ∈ s.drawn ∧
        ∀ sha256 (gate : Gate) (state : AppState) (tree : FileTree Contents) (id : String)
          (now : UInt64) (authorization : Option (List UInt8)), state.setupToken = token →
          gate.passes sha256 state tree id now authorization = .ok .setup →
            ∃ bearer, extractBearer authorization = some bearer ∧ bearer ≠ "" ∧
              token.toList <:+: bearer.toList := by
  intro hall
  obtain ⟨_, hgates⟩ := hall (Path.ofString "/data") (.bare Contents) [killedBeforeWrite, calm]
    _ rfl rfl "" (by decide)
  obtain ⟨bearer, hbearer, hne, _⟩ := hgates id .setup
    { connectDir := Path.ofString "/data", setupToken := "", viewerToken := none }
    (.bare Contents) "" 0 (some (asBytes "Bearer ")) rfl rfl
  cases hbearer
  exact hne rfl

end DatumConnect.Auth
