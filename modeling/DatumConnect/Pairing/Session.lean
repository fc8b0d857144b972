import DatumConnect.Lib.Lawful
import DatumConnect.Pairing.Keys
import DatumConnect.Pairing.SetupPlaces
/-!
# The saved login

The session file over any number of pairings, each of which may be stopped before any of its
calls.  The machine has the two clocks: the one a process measures with, which begins anew with the
machine, and the one on the wall, which may be set.
-/

namespace DatumConnect.Pairing.Session

open DatumConnect.Lib
open DatumConnect.Lib.Prog (Only SafeWhen OnOk)
open PairPart

/-! ## The machine -/

/-- How a call is answered, how long that takes, by how much the wall clock is set meanwhile, and
whether the file system refuses. -/
structure Answer where
  took : Nat := 0
  set : Int := 0
  fails : Bool := false
  reply : (c : PairCall) → c.Reply

inductive Entry where
  | began
  | ended
  | called (call : PairCall) (reply : call.Reply) (clock : Nat) (wall : Int)

structure Machine where
  clock : Nat
  wall : Int
  file : Option SessionFile := none
  log : List Entry := []

namespace Machine

variable (m : Machine)

def note (e : Entry) : Machine := { m with log := m.log ++ [e] }

/-- Time passes where something else than the machine is waited for. -/
def pass (answer : Answer) : PairCall → Machine
  | .sleep duration =>
      { m with
        clock := m.clock + duration + answer.took
        wall := m.wall + duration + answer.took + answer.set }
  | c =>
      if c.awaits then
        { m with clock := m.clock + answer.took, wall := m.wall + answer.took + answer.set }
      else m

def reply (answer : Answer) : (c : PairCall) → c.Reply
  | .now => m.clock
  | .utcNow => m.wall
  | .readSession => if answer.fails then .unreadable else m.file.elim .missing .file
  | .writeSession _ => if answer.fails then .error "" else .ok ()
  | c => answer.reply c

/-- The file is replaced as a whole. -/
def fileAfter (answer : Answer) : PairCall → Option SessionFile
  | .writeSession f => if answer.fails then m.file else some f
  | .removeSession => if answer.fails then m.file else none
  | _ => m.file

def handle (c : PairCall) (answer : Answer) : Machine × c.Reply :=
  ({ m.pass answer c with
     file := m.fileAfter answer c
     log := m.log ++ [.called c (m.reply answer c) m.clock m.wall] }, m.reply answer c)

end Machine

/-! ## What was saved -/

/-- A login that was saved, with the times of both clocks then. -/
structure Save where
  login : Login
  projects : List ProjectRef
  clock : Nat
  wall : Int
  deriving DecidableEq, Repr

variable (cfg : PairingConfig)

namespace Save

variable (s : Save)

/-- The end of the login, on the wall clock. -/
def tokenUntil : Option Int := s.login.expiresAt.map fun e => s.wall + ((e - s.clock : Nat) : Int)

/-- For how long the login is kept, on the wall clock. -/
def keptUntil : Int := s.wall + (sessionLife cfg s.login s.clock : Int)

def file : SessionFile where
  version := sessionVersion
  expiresAt := some (s.keptUntil cfg)
  accessToken := s.login.token
  tokenExpiresAt := s.login.expiresAt.map fun e => some (s.wall + ((e - s.clock : Nat) : Int))
  sub := s.login.sub
  email := s.login.email
  projects := s.projects.map fun p =>
    { id := p.name, uid := p.uid, organization := p.org, displayName := p.displayName }

/-- What of a save is asked for again when it is loaded. -/
def readable : Bool :=
  s.login.token ≠ "" && s.projects.all fun p => (checkName "project" p.name).isOk

/-- The login, as it is at a time of both clocks. -/
def resume (clock : Nat) (wall : Int) : Login :=
  { s.login with expiresAt := s.tokenUntil.map fun t => clock + (t - wall).toNat }

/-- What a save is good for at a time of both clocks. -/
def load (clock : Nat) (wall : Int) : SessionLoad :=
  if s.keptUntil cfg ≤ wall then .unusable "its saved login expired"
  else if s.readable then .ready (s.resume clock wall) s.projects
  else .unusable "its saved login could not be read"

/-- What has been looked at before a save. -/
structure Sound : Prop where
  life : sessionLife cfg s.login s.clock ≠ 0
  sub : (checkName "user id" s.login.sub).isOk = true
  email : s.login.email ≠ some ""
  projects : s.projects ≠ []
  listed : ∀ p ∈ s.projects, (checkName "organization" p.org).isOk = true ∧ p.uid ≠ ""

/-- The file says what was saved. -/
theorem load_file {s : Save} (h : s.Sound cfg) (clock : Nat) (wall : Int) :
    (s.file cfg).load wall clock = s.load cfg clock wall := by
  have hbad : (s.file cfg).projects.any badProject =
      !s.projects.all fun p => (checkName "project" p.name).isOk := by
    rw [file, List.any_map, Bool.eq_iff_iff]
    simp only [List.any_eq_true, Function.comp_apply, Bool.not_eq_true', List.all_eq_false]
    apply exists_congr
    intro p
    apply and_congr_right
    intro hp
    obtain ⟨horg, huid⟩ := h.listed p hp
    simp [badProject, horg, huid]
  have hempty : (s.file cfg).projects.isEmpty = false := by
    simpa [file] using h.projects
  have htoken : (s.file cfg).tokenExpiresAt ≠ some none := by
    cases hexpires : s.login.expiresAt <;> simp [file, hexpires]
  have hjoin : (s.file cfg).tokenExpiresAt.join = s.tokenUntil := by
    cases hexpires : s.login.expiresAt <;> simp [file, tokenUntil, hexpires]
  have hemail : s.login.email.filter (· ≠ "") = s.login.email := by
    have hne := h.email
    cases hemail : s.login.email with
    | none => rfl
    | some e =>
        rw [hemail] at hne
        simpa [Option.filter] using hne
  have hprojects : (s.file cfg).projects.map (fun p =>
      ({ name := p.id, uid := p.uid, org := p.organization, displayName := p.displayName } :
        ProjectRef)) = s.projects := by
    rw [file, List.map_map]
    exact List.map_id'' (fun _ => rfl) _
  unfold SessionFile.load
  change (if sessionVersion ≠ sessionVersion then _ else if s.keptUntil cfg ≤ wall then _ else
    if (s.file cfg).tokenExpiresAt = some none then _ else
    if (s.login.token = "" || !(checkName "user id" s.login.sub).isOk ||
      (s.file cfg).projects.isEmpty || (s.file cfg).projects.any badProject) = true then _
    else SessionLoad.ready ⟨_, (s.file cfg).tokenExpiresAt.join.map _, _,
      s.login.email.filter (· ≠ "")⟩ ((s.file cfg).projects.map _)) = _
  rw [if_neg (fun h => h rfl), if_neg htoken, hbad, hempty, h.sub, hjoin, hemail, hprojects, load]
  split
  · rfl
  · by_cases hreadable : s.readable
    · rw [if_pos hreadable, if_neg]
      · rfl
      · simp only [readable, Bool.and_eq_true] at hreadable
        simp [hreadable.2]
        simpa using hreadable.1
    · rw [if_neg hreadable, if_pos]
      simp only [readable, Bool.and_eq_true, not_and] at hreadable
      by_cases htok : s.login.token = ""
      · simp [htok]
      · simpa [htok] using hreadable (by simpa using htok)

end Save

/-! ## Histories -/

def isSave : PairCall → Bool
  | .writeSession _ => true
  | _ => false

/-- The file was written. -/
def Entry.saves : Entry → Bool
  | .called (.writeSession _) (.ok ()) _ _ => true
  | _ => false

/-- The token of a login that this pairing was given and has not tried to save. -/
def Entry.unsaved (before : Option String) : Entry → Option String
  | .began => none
  | .called (.pollToken _) (.token t) _ _ => some t.accessToken
  | .called (.writeSession _) _ _ _ => none
  | _ => before

def unsaved (log : List Entry) : Option String := log.foldl Entry.unsaved none

/-- Only a login that the same pairing was given is saved, and only once. -/
def MayFollow (before : List Entry) (e : Entry) : Prop :=
  ∀ f r clock wall, e = .called (.writeSession f) r clock wall →
    unsaved before = some f.accessToken

def Save.entry (s : Save) : Entry :=
  .called (.writeSession (s.file cfg)) (.ok ()) s.clock s.wall

/-- What was written last is `s`. -/
def LastSave (log : List Entry) (s : Save) : Prop :=
  ∃ before after, log = before ++ s.entry cfg :: after ∧ ∀ e ∈ after, e.saves = false

structure Kept (m : Machine) : Prop where
  lawful : Lawful MayFollow m.log
  file : ∀ f, m.file = some f → ∃ s : Save, f = s.file cfg ∧ s.Sound cfg ∧ LastSave cfg m.log s

variable {cfg}

theorem LastSave.snoc {log : List Entry} {s : Save} {e : Entry} (h : LastSave cfg log s)
    (he : e.saves = false) : LastSave cfg (log ++ [e]) s := by
  obtain ⟨before, after, rfl, hafter⟩ := h
  refine ⟨before, after ++ [e], by simp, ?_⟩
  intro e' he'
  rcases List.mem_append.mp he' with he' | he'
  · exact hafter e' he'
  · rw [List.mem_singleton.mp he', he]

namespace Machine

variable {m : Machine} (answer : Answer)

@[simp] theorem pass_file (c : PairCall) : (m.pass answer c).file = m.file := by
  cases c <;> rfl

theorem handle_log (c : PairCall) :
    (m.handle c answer).1.log = m.log ++ [.called c (m.reply answer c) m.clock m.wall] := rfl

/-- The calls that have nothing to do with saving. -/
def isPlain : PairCall → Bool
  | .pollToken _ | .writeSession _ | .removeSession => false
  | _ => true

theorem unsaved_snoc (log : List Entry) (e : Entry) :
    unsaved (log ++ [e]) = e.unsaved (unsaved log) := by
  simp [unsaved, List.foldl_append]

theorem unsaved_handle {c : PairCall} (h : isPlain c = true) :
    unsaved (m.handle c answer).1.log = unsaved m.log := by
  rw [handle_log, unsaved_snoc]
  cases c with
  | pollToken code => cases h
  | writeSession f => cases h
  | _ => rfl

theorem saves_handle {c : PairCall} (h : isSave c = false) :
    (Entry.called c (m.reply answer c) m.clock m.wall).saves = false := by
  cases c with
  | writeSession f => cases h
  | _ => rfl

end Machine

theorem Kept.note {m : Machine} (h : Kept cfg m) {e : Entry}
    (he : e = .began ∨ e = .ended) : Kept cfg (m.note e) where
  lawful := by
    apply h.lawful.snoc
    rcases he with rfl | rfl <;> exact nofun
  file f hf := by
    obtain ⟨s, hs, hsound, hlast⟩ := h.file f hf
    refine ⟨s, hs, hsound, hlast.snoc ?_⟩
    rcases he with rfl | rfl <;> rfl

/-- Every call but a save. -/
theorem Kept.handle {m : Machine} (h : Kept cfg m) {c : PairCall}
    (hc : isSave c = false) (answer : Answer) : Kept cfg (m.handle c answer).1 where
  lawful := by
    apply h.lawful.snoc
    intro f r clock wall heq
    injection heq with hcall
    rw [hcall] at hc
    cases hc
  file f hf := by
    have hbefore : m.file = some f := by
      cases c with
      | writeSession f' => cases hc
      | removeSession =>
          change (if answer.fails then m.file else none) = some f at hf
          split at hf
          · exact hf
          · cases hf
      | _ => exact hf
    obtain ⟨s, hs, hsound, hlast⟩ := h.file f hbefore
    exact ⟨s, hs, hsound, hlast.snoc (Machine.saves_handle answer hc)⟩

/-- A save of a login that was just given. -/
theorem Kept.save {s : Save} {file : Option SessionFile} {log : List Entry}
    (h : Kept cfg ⟨s.clock, s.wall, file, log⟩) (hsound : s.Sound cfg)
    (hunsaved : unsaved log = some s.login.token) (answer : Answer) :
    Kept cfg (Machine.handle ⟨s.clock, s.wall, file, log⟩ (.writeSession (s.file cfg)) answer).1 where
  lawful := by
    apply h.lawful.snoc
    intro f r clock wall heq
    injection heq with hcall
    injection hcall with hfile
    rw [← hfile]
    exact hunsaved
  file f hf := by
    cases hfails : answer.fails with
    | true =>
        have hbefore : file = some f := by
          change (if answer.fails then file else some (s.file cfg)) = some f at hf
          rwa [hfails] at hf
        obtain ⟨s', hs', hsound', hlast⟩ := h.file f hbefore
        refine ⟨s', hs', hsound', hlast.snoc ?_⟩
        change (Entry.called (.writeSession (s.file cfg))
          (if answer.fails then .error "" else .ok ()) s.clock s.wall).saves = false
        rw [hfails]
        rfl
    | false =>
        refine ⟨s, ?_, hsound, log, [], ?_, List.forall_mem_nil _⟩
        · change (if answer.fails then file else some (s.file cfg)) = some f at hf
          rw [hfails] at hf
          exact (Option.some.inj hf).symm
        · change log ++ [Entry.called (.writeSession (s.file cfg))
            (if answer.fails then .error "" else .ok ()) s.clock s.wall] = _
          rw [hfails]
          rfl

/-! ## The parts of pairing -/

/-- A part of pairing that keeps what is known of the file, and what it comes to. -/
def Keeps (cfg : PairingConfig) {α : Type} (post : Machine → α → Prop) (p : PairPart α)
    (m : Machine) : Prop :=
  SafeWhen Machine.handle (fun _ _ _ => True) (Kept cfg) (OnOk post) p.run m

namespace Keeps

variable {α β : Type} {m : Machine}

theorem mono {post post' : Machine → α → Prop} {p : PairPart α} (h : Keeps cfg post p m)
    (hpost : ∀ t a, Kept cfg t → post t a → post' t a) : Keeps cfg post' p m :=
  SafeWhen.mono h fun t _ ht hr a ha => hpost t a ht (hr a ha)

theorem bind {p : PairPart α} {f : α → PairPart β} {post : Machine → β → Prop}
    (h : Keeps cfg (fun t a => Keeps cfg post (f a) t) p m) : Keeps cfg post (p >>= f) m :=
  SafeWhen.bindOk h

theorem ret {post : Machine → α → Prop} {a : α} (hm : Kept cfg m) (h : post m a) :
    Keeps cfg post (pure a) m := ⟨hm, fun _ ha => Except.ok.inj ha ▸ h⟩

theorem error {post : Machine → α → Prop} (hm : Kept cfg m) (e : PairingError) :
    Keeps cfg post (throwThe PairingError e) m := ⟨hm, nofun⟩

theorem ask {c : PairCall} {f : c.Reply → PairPart β} {post : Machine → β → Prop}
    (hm : Kept cfg m)
    (h : ∀ answer, Keeps cfg post (f (m.handle c answer).2) (m.handle c answer).1) :
    Keeps cfg post (PairPart.ask c >>= f) m :=
  ask_then hm fun answer _ => h answer

/-- A call that has nothing to do with saving. -/
theorem askPlain {c : PairCall} {f : c.Reply → PairPart β} {post : Machine → β → Prop}
    (hc : Machine.isPlain c = true) (hm : Kept cfg m)
    (h : ∀ r t, Kept cfg t → unsaved t.log = unsaved m.log → Keeps cfg post (f r) t) :
    Keeps cfg post (PairPart.ask c >>= f) m := by
  refine ask hm fun answer => h _ _ ?_ (Machine.unsaved_handle answer hc)
  apply hm.handle
  cases c <;> first | rfl | cases hc

theorem callPlain (api : Api) (what : String) {request : ApiRequest} {f : ApiReply → PairPart β}
    {post : Machine → β → Prop} (hm : Kept cfg m)
    (h : ∀ r t, Kept cfg t → unsaved t.log = unsaved m.log → Keeps cfg post (f r) t) :
    Keeps cfg post (api.call what request >>= f) m := by
  refine call_then api what hm fun answer _ => ?_
  have ht : Kept cfg (m.handle (.api api.token request) answer).1 := hm.handle rfl answer
  split
  · exact h _ _ ht (Machine.unsaved_handle answer rfl)
  · exact ⟨ht, nofun⟩

/-- A part of pairing that has nothing to do with saving. -/
theorem plain {p : PairPart α} (hp : Only (fun c => Machine.isPlain c = true) p.run)
    (hm : Kept cfg m) : Keeps cfg (fun t _ => unsaved t.log = unsaved m.log) p m := by
  have hsafe : SafeWhen Machine.handle (fun _ _ _ => True) (Kept cfg)
      (fun t _ => Kept cfg t ∧ unsaved t.log = unsaved m.log) p.run m := by
    apply hp.safeWhen (J := fun t => Kept cfg t ∧ unsaved t.log = unsaved m.log)
    · intro t c answer hc ht _
      refine ⟨ht.1.handle ?_ answer, (Machine.unsaved_handle answer hc).trans ht.2⟩
      cases c <;> first | rfl | cases hc
    · exact fun t ht => ht.1
    · exact ⟨hm, rfl⟩
  exact hsafe.mono fun t _ _ ht _ _ => ht.2

end Keeps

/-- The machine has a login that was just given. -/
structure Given (m : Machine) (login : Login) : Prop where
  token : unsaved m.log = some login.token
  sub : (checkName "user id" login.sub).isOk = true
  email : login.email ≠ some ""

section

variable {m : Machine} (hm : Kept cfg m)

include hm

theorem approvedLogin_keeps (token : TokenSuccess) (htoken : unsaved m.log = some token.accessToken) :
    Keeps cfg Given (approvedLogin cfg token) m := by
  unfold approvedLogin
  apply Keeps.askPlain rfl hm
  intro received t ht hlog
  have hidentity : Only (fun c => Machine.isPlain c = true) (identity token).run := by
    unfold identity
    split
    · exact Only.ret _
    · refine Only.bindE (only_ask rfl) fun reply => ?_
      cases reply <;> exact trivial
  refine Keeps.bind ((Keeps.plain hidentity ht).mono ?_)
  intro t' claims ht' hlog'
  cases hname : checkName "user id" claims.sub with
  | error e => exact Keeps.error ht' e
  | ok _ =>
      apply Keeps.ret ht'
      refine ⟨?_, ?_, ?_⟩
      · rw [hlog', hlog, htoken]
      · rw [hname]
        rfl
      · intro hemail
        have hne := (Option.filter_eq_some_iff.mp hemail).2
        simp at hne

/-- The login of a code that was approved. -/
def Outcome (t : Machine) (outcome : CodeOutcome) : Prop :=
  ∀ login, outcome = .approved login → Given t login

theorem pollForApproval_keeps (auth : DeviceAuthorization) (expiresAt deadline rounds interval : Nat) :
    Keeps cfg Outcome (pollForApproval cfg auth expiresAt deadline rounds interval) m := by
  induction rounds generalizing interval m with
  | zero => exact Keeps.error hm _
  | succ rounds ih =>
      unfold pollForApproval
      apply Keeps.askPlain rfl hm
      intro _ t ht _
      apply Keeps.askPlain rfl ht
      intro now t ht _
      split
      · apply Keeps.ret ht
        intro login hlogin
        cases hlogin
      apply Keeps.ask ht
      intro answer
      have hnext : Kept cfg (t.handle (.pollToken auth.deviceCode) answer).1 := ht.handle rfl answer
      have hunsaved : unsaved (t.handle (.pollToken auth.deviceCode) answer).1.log =
          (Entry.called (.pollToken auth.deviceCode)
            (t.handle (.pollToken auth.deviceCode) answer).2 t.clock t.wall).unsaved
              (unsaved t.log) := by
        rw [Machine.handle_log, Machine.unsaved_snoc]
        rfl
      generalize (t.handle (.pollToken auth.deviceCode) answer).1 = next at hnext hunsaved ⊢
      generalize (t.handle (.pollToken auth.deviceCode) answer).2 = reply at hunsaved ⊢
      cases reply with
      | unreachable => exact ih hnext _
      | unread => exact ih hnext _
      | serverError => exact ih hnext _
      | unexpected => exact Keeps.error hnext _
      | refused status body => exact Keeps.error hnext _
      | token token =>
          refine Keeps.bind ((approvedLogin_keeps hnext token hunsaved).mono ?_)
          intro t' login ht' hlogin
          apply Keeps.ret ht'
          rintro _ ⟨rfl⟩
          exact hlogin
      | error error description =>
          dsimp only
          split
          · exact ih hnext _
          split
          · exact ih hnext _
          split
          · apply Keeps.ret hnext
            intro login hlogin
            cases hlogin
          split <;> exact Keeps.error hnext _

theorem tryCode_keeps (deadline rounds : Nat) :
    Keeps cfg Outcome (tryCode cfg deadline rounds) m := by
  unfold tryCode
  have hstart : Only (fun c => Machine.isPlain c = true) startDeviceAuthorization.run := by
    unfold startDeviceAuthorization
    refine Only.bindE (only_ask rfl) fun reply => ?_
    cases reply <;> exact trivial
  refine Keeps.bind ((Keeps.plain hstart hm).mono fun t auth ht _ => ?_)
  apply Keeps.askPlain rfl ht
  intro _ t ht _
  apply Keeps.askPlain rfl ht
  intro started t ht _
  exact pollForApproval_keeps ht auth _ _ _ _

theorem codes_keeps (deadline rounds codesLeft : Nat) :
    Keeps cfg Given (codes cfg deadline rounds codesLeft) m := by
  induction codesLeft generalizing m with
  | zero => exact Keeps.error hm _
  | succ codesLeft ih =>
      unfold codes
      apply Keeps.askPlain rfl hm
      intro now t ht _
      split
      · exact Keeps.error ht _
      refine Keeps.bind ((tryCode_keeps ht deadline rounds).mono fun t outcome ht houtcome => ?_)
      cases outcome with
      | approved login => exact Keeps.ret ht (houtcome login rfl)
      | expired =>
          apply Keeps.askPlain rfl ht
          intro now t ht _
          split
          · exact Keeps.error ht _
          · apply Keeps.askPlain rfl ht
            intro _ t ht _
            exact ih ht

theorem deviceLogin_keeps (rounds : Nat) : Keeps cfg Given (deviceLogin cfg rounds) m := by
  unfold deviceLogin
  apply Keeps.askPlain rfl hm
  intro started t ht _
  exact codes_keeps ht _ _ _

/-- A login is saved at the times of the two readings. -/
theorem saveSession_keeps {login : Login} (hlogin : Given m login) {projects : List ProjectRef}
    (hprojects : projects ≠ [])
    (hlisted : ∀ p ∈ projects, (checkName "organization" p.org).isOk = true ∧ p.uid ≠ "") :
    Keeps cfg (fun _ _ => True) (saveSession cfg login projects) m := by
  unfold saveSession
  apply Keeps.ask hm
  intro first
  have hread : Kept cfg (m.handle .now first).1 := hm.handle rfl first
  apply Keeps.ask hread
  intro second
  have hwall : Kept cfg ((m.handle .now first).1.handle .utcNow second).1 :=
    hread.handle rfl second
  change Keeps cfg _ (if sessionLife cfg login m.clock = 0 then return () else do
    let _ ← PairPart.ask (.writeSession (Save.file cfg ⟨login, projects, m.clock, m.wall⟩))
    return ()) _
  split
  · exact Keeps.ret hwall trivial
  · rename_i hlife
    apply Keeps.ask hwall
    intro third
    have hsound : Save.Sound cfg ⟨login, projects, m.clock, m.wall⟩ :=
      ⟨hlife, hlogin.sub, hlogin.email, hprojects, hlisted⟩
    have hunsaved : unsaved ((m.handle .now first).1.handle .utcNow second).1.log =
        some login.token := by
      rw [Machine.unsaved_handle second rfl, Machine.unsaved_handle first rfl]
      exact hlogin.token
    exact Keeps.ret (Kept.save hwall hsound hunsaved third) trivial

/-! ## The projects -/

theorem listProjectsOf_keeps (api : Api) (orgs : List String) :
    Keeps cfg (fun t projects => unsaved t.log = unsaved m.log ∧
      ∀ p ∈ projects, (checkName "organization" p.org).isOk = true ∧ p.uid ≠ "")
      (listProjectsOf api orgs) m := by
  induction orgs generalizing m with
  | nil => exact Keeps.ret hm ⟨rfl, List.forall_mem_nil _⟩
  | cons org orgs ih =>
      unfold listProjectsOf
      split
      · rename_i horg
        apply Keeps.callPlain _ _ hm
        intro reply t ht hlog
        rw [← hlog]
        split
        · exact ih ht
        split
        · exact Keeps.error ht _
        · refine Keeps.bind ((ih ht).mono fun t' rest ht' hrest => ?_)
          apply Keeps.ret ht'
          refine ⟨hrest.1, fun p hp => ?_⟩
          rcases List.mem_append.mp hp with hp | hp
          · obtain ⟨item, -, hitem⟩ := List.mem_filterMap.mp hp
            dsimp only at hitem
            split at hitem
            · cases hitem
            · rename_i hne
              obtain rfl := Option.some.inj hitem
              exact ⟨horg, fun huid => hne (Or.inr huid)⟩
          · exact hrest.2 p hp
      · exact ih hm

theorem listProjects_keeps (api : Api) (sub : String) :
    Keeps cfg (fun t projects => unsaved t.log = unsaved m.log ∧
      ∀ p ∈ projects, (checkName "organization" p.org).isOk = true ∧ p.uid ≠ "")
      (listProjects api sub) m := by
  unfold listProjects
  apply Keeps.callPlain _ _ hm
  intro reply t ht hlog
  rw [← hlog]
  split
  · exact Keeps.error ht _
  · exact listProjectsOf_keeps ht api _

theorem waitForProject_keeps (wait : ProjectWait) (projects : List ProjectRef)
    (configured : Option String) (tokenExpiresAt : Option Nat) (rounds : Nat) :
    Keeps cfg (fun _ _ => True)
      (waitForProject cfg wait projects configured tokenExpiresAt rounds) m := by
  have hplain : Only (fun c => Machine.isPlain c = true)
      (waitForProject cfg wait projects configured tokenExpiresAt rounds).run := by
    apply (waitForProject_only cfg wait projects configured tokenExpiresAt rounds).mono
    intro c hc
    cases c <;> first | rfl | cases hc
  exact (Keeps.plain hplain hm).mono fun _ _ _ _ => trivial

/-- Whether the projects are known, or else the login was just given. -/
theorem selectProject_keeps (api : Api) {login : Login} {known : Option (List ProjectRef)}
    (hlogin : known = none → Given m login) (wanted : Option String) (rounds : Nat) :
    Keeps cfg (fun _ _ => True) (selectProject cfg api login wanted known rounds) m := by
  have hprojects : Keeps cfg (fun t projects => known = none → Given t login ∧
      ∀ p ∈ projects, (checkName "organization" p.org).isOk = true ∧ p.uid ≠ "")
      (knownOrListed api login known) m := by
    cases known with
    | some projects => exact Keeps.ret hm nofun
    | none =>
        apply (listProjects_keeps hm api login.sub).mono
        intro t projects _ hlisted _
        obtain ⟨htoken, hsub, hemail⟩ := hlogin rfl
        exact ⟨⟨hlisted.1.trans htoken, hsub, hemail⟩, hlisted.2⟩
  unfold selectProject
  refine Keeps.bind (hprojects.mono fun t projects ht hknown => ?_)
  have hkeep : projects ≠ [] → Keeps cfg (fun _ _ => True)
      (if known.isNone && cfg.sessionFile then saveSession cfg login projects else pure ()) t := by
    intro hne
    split
    · rename_i hnone
      simp only [Bool.and_eq_true, Option.isNone_iff_eq_none] at hnone
      obtain ⟨hgiven, hlisted⟩ := hknown hnone.1
      exact saveSession_keeps ht hgiven hne hlisted
    · exact Keeps.ret ht trivial
  dsimp only
  split
  · split
    · refine Keeps.bind ((hkeep nofun).mono fun t _ ht _ => ?_)
      exact waitForProject_keeps ht _ _ _ _ _
    · split
      · exact Keeps.ret ht trivial
      · refine Keeps.bind ((hkeep nofun).mono fun t _ ht _ => ?_)
        exact waitForProject_keeps ht _ _ _ _ _
  · exact ⟨ht, fun _ _ => trivial⟩

variable (lib : Libraries)

omit hm in
theorem provisionIn_plain (api : Api) (project : ProjectRef) :
    Only (fun c => Machine.isPlain c = true) (provisionIn lib cfg api project).run := by
  have hplain {α : Type} {p : PairPart α}
      (h : Only (fun c => Setup.isIn project.choice c = true) p.run) :
      Only (fun c => Machine.isPlain c = true) p.run := by
    apply h.mono
    intro c hc
    cases c <;> first | rfl | cases hc
  unfold provisionIn
  refine Only.bindE (only_ask rfl) fun _ => ?_
  refine Only.bindE (hplain (Setup.ownAccount_in api rfl)) fun own => ?_
  refine Only.bindE (hplain (Setup.save_in _)) fun _ => ?_
  refine Only.bindE (hplain (Setup.obtainAccess_in api _ _ _ rfl)) fun _ => ?_
  have hkey : Only (fun c => Machine.isPlain c = true) (createKey lib api project.name own.1).run := by
    apply (createKey_only lib api project.name own.1).mono
    intro c hc
    cases c <;> first | rfl | cases hc
  refine Only.bindE hkey fun key => ?_
  unfold saveKey
  refine Only.bindE (only_ask rfl) fun written => ?_
  cases written with
  | error e => exact trivial
  | ok _ => exact Only.bindE (only_ask rfl) fun _ => Only.bindE (only_ask rfl) fun _ => trivial

theorem provision_keeps (api : Api) {login : Login} {known : Option (List ProjectRef)}
    (hlogin : known = none → Given m login) (wanted : Option String) (rounds : Nat) :
    Keeps cfg (fun _ _ => True) (provision lib cfg api login wanted known rounds) m := by
  unfold provision
  refine Keeps.bind ((selectProject_keeps hm api hlogin wanted rounds).mono fun t project ht _ => ?_)
  exact (Keeps.plain (provisionIn_plain lib api project) ht).mono fun _ _ _ _ => trivial

theorem pairAnew_keeps (wanted : Option String) (rounds : Nat) :
    Keeps cfg (fun _ _ => True) (pairAnew lib cfg wanted rounds) m := by
  unfold pairAnew
  refine Keeps.bind ((deviceLogin_keeps hm rounds).mono fun t login ht hlogin => ?_)
  apply Keeps.askPlain rfl ht
  intro _ t' ht' hlog
  exact provision_keeps ht' lib _ (fun _ => ⟨hlog.trans hlogin.token, hlogin.sub, hlogin.email⟩) _ _

theorem dropSession_keeps (reason : String) :
    Keeps cfg (fun _ _ => True) (dropSession reason) m := by
  apply Keeps.ask hm
  intro answer
  apply (Keeps.plain (only_ask rfl) (hm.handle rfl answer)).mono
  exact fun _ _ _ _ => trivial

theorem dropped_keeps (reason : String) (wanted : Option String) (rounds : Nat) :
    Keeps cfg (fun _ _ => True)
      (do dropSession reason; pairAnew lib cfg wanted rounds : PairPart PairedKey) m :=
  Keeps.bind ((dropSession_keeps hm reason).mono fun _ _ ht _ => pairAnew_keeps ht lib wanted rounds)

theorem pairResumed_keeps (wanted : Option String) (rounds : Nat) (login : Login)
    (projects : List ProjectRef) :
    Keeps cfg (fun _ _ => True) (pairResumed lib cfg wanted rounds login projects) m := by
  have hresumed : Keeps cfg (fun _ _ => True)
      (do
        tell (.resumed (login.email.getD login.sub))
        provision lib cfg ⟨login.token, true⟩ login wanted (some projects) rounds :
        PairPart PairedKey) m := by
    apply Keeps.askPlain rfl hm
    intro _ t ht _
    exact provision_keeps ht lib _ (fun hnone : some projects = none => nomatch hnone) _ _
  refine SafeWhen.bind (SafeWhen.mono hresumed fun t r ht _ => ?_)
  split
  · exact dropped_keeps ht lib _ wanted rounds
  · exact ⟨ht, fun _ _ => trivial⟩

theorem pairInner_keeps (rounds : Nat) :
    Keeps cfg (fun _ _ => True) (pairInner lib cfg rounds) m := by
  unfold pairInner
  apply Keeps.askPlain rfl hm
  intro exists_ t ht _
  split
  · exact Keeps.error ht _
  dsimp only
  generalize checkWanted cfg (cfg.project.bind normalizeProject) = checked
  cases checked with
  | error e => exact Keeps.error ht _
  | ok _ =>
      change Keeps cfg _ (if cfg.sessionFile = true then _ else _) t
      split
      · have hload : Only (fun c => Machine.isPlain c = true) loadSession.run := by
          unfold loadSession
          refine Only.bindE (only_ask rfl) fun read => ?_
          cases read with
          | missing => exact trivial
          | unreadable => exact trivial
          | file file =>
              exact Only.bindE (only_ask rfl) fun _ => Only.bindE (only_ask rfl) fun _ => trivial
        refine Keeps.bind ((Keeps.plain hload ht).mono fun t load ht _ => ?_)
        cases load with
        | missing => exact pairAnew_keeps ht lib _ rounds
        | unusable reason => exact dropped_keeps ht lib reason _ rounds
        | ready login projects => exact pairResumed_keeps ht lib _ rounds login projects
      · exact pairAnew_keeps ht lib _ rounds

/-- A pairing keeps what is known of the file, wherever it is stopped. -/
theorem pair_keeps (rounds : Nat) :
    SafeWhen Machine.handle (fun _ _ _ => True) (Kept cfg) (fun _ _ => True) (pair lib cfg rounds) m := by
  refine SafeWhen.bind (SafeWhen.mono (pairInner_keeps hm lib rounds) fun t r ht _ => ?_)
  split
  · exact ⟨ht, fun answer _ => ⟨ht.handle rfl answer, trivial⟩⟩
  · exact ⟨ht, trivial⟩

end

/-! ## Pairings one after the other -/

/-- What the clocks show later, also after the machine was started anew. -/
structure Meanwhile where
  clock : Nat
  wall : Int

variable (cfg) in
/-- A pairing with a configuration of its own, but the same tick and file. -/
structure Attempt where
  own : PairingConfig
  rounds : Nat
  tick : own.tick = cfg.tick
  sessionFile : own.sessionFile = cfg.sessionFile

variable (cfg) in
def host (lib : Libraries) :
    Restarts.Host Machine Answer (Attempt cfg) Meanwhile PairCall PairCall.Reply
      (Except PairingError PairedKey) where
  handle := Machine.handle
  start p := pair lib p.own p.rounds
  began m _ := m.note .began
  ended m _ := m.note .ended
  meanwhile m later := { m with clock := later.clock, wall := later.wall }

abbrev World := Restarts.World Machine PairCall PairCall.Reply (Except PairingError PairedKey)

/-- Nobody has paired yet. -/
def World.fresh (clock : Nat) (wall : Int) : World where
  state := { clock, wall }
  run := none

variable (cfg) in
def anything : Restarts.Cond Machine Answer (Attempt cfg) Meanwhile PairCall where
  begin _ _ := True
  answer _ _ _ := True
  stop _ := True
  meanwhile _ _ := True

variable (cfg) in
/-- The file can be removed. -/
def removable : Restarts.Cond Machine Answer (Attempt cfg) Meanwhile PairCall where
  begin _ _ := True
  answer _ c answer := c = .removeSession → answer.fails = false
  stop _ := True
  meanwhile _ _ := True

section Configurations

variable {own : PairingConfig} (htick : own.tick = cfg.tick)

include htick

theorem ticks_congr (n : Nat) : own.ticks n = cfg.ticks n := by
  rw [PairingConfig.ticks, PairingConfig.ticks, htick]

theorem sessionLife_congr (login : Login) (now : Nat) :
    sessionLife own login now = sessionLife cfg login now := by
  simp only [sessionLife, ticks_congr htick]

theorem Save.file_congr (s : Save) : s.file own = s.file cfg := by
  simp only [Save.file, Save.keptUntil, sessionLife_congr htick]

/-- What is kept depends on the tick alone. -/
theorem Kept.of_tick {m : Machine} (h : Kept own m) : Kept cfg m where
  lawful := h.lawful
  file f hf := by
    obtain ⟨s, rfl, hsound, before, after, hlog, hafter⟩ := h.file f hf
    have hlife : sessionLife cfg s.login s.clock ≠ 0 := by
      rw [← sessionLife_congr htick]
      exact hsound.life
    refine ⟨s, s.file_congr htick,
      ⟨hlife, hsound.sub, hsound.email, hsound.projects, hsound.listed⟩, before, after, ?_, hafter⟩
    rw [hlog, Save.entry, Save.entry, s.file_congr htick]

end Configurations

theorem kept (lib : Libraries) {clock : Nat} {wall : Int}
    {acts : List (Restarts.Act Answer (Attempt cfg) Meanwhile)} {w : World}
    (hrun : Runs.run (Restarts.step (host cfg lib)) (World.fresh clock wall) acts = some w) :
    Kept cfg w.state := by
  have hfresh : Restarts.Kept (host cfg lib) (anything cfg) (Kept cfg) (Kept cfg)
      (World.fresh clock wall) := ⟨fun _ => ⟨Lawful.nil, nofun⟩, nofun⟩
  have hmeets : Runs.Meets (Restarts.step (host cfg lib)) (anything cfg).Holds
      (World.fresh clock wall) acts := by
    apply Runs.Meets.of_forall
    intro w act
    cases act <;> first | exact trivial | exact fun _ _ _ => trivial
  have hkept := Restarts.kept ?_ ?_ ?_ hfresh hmeets hrun
  · exact hkept.state fun _ h => h
  · intro m p hm _
    have hbegun : Kept p.own (m.note .began) := (hm.of_tick p.tick.symm).note (Or.inl rfl)
    have hpair := (pair_keeps hbegun lib p.rounds).weaken fun t ht => ht.of_tick p.tick
    exact hpair.mono fun t _ ht _ => ht.note (Or.inr rfl)
  · exact fun m hm _ => hm
  · exact fun m later hm _ => ⟨hm.lawful, hm.file⟩

/-- A pairing is going on, or was stopped. -/
def Busy (m : Machine) : Prop := ∃ before e, m.log = before ++ [e] ∧ e ≠ .ended

/-- After a pairing that has come to an end the file is gone. -/
def Gone (m : Machine) : Prop := ∀ before, m.log = before ++ [.ended] → m.file = none

theorem Busy.gone {m : Machine} (h : Busy m) : Gone m := by
  intro before hlog
  obtain ⟨before', e, hbusy, he⟩ := h
  rw [hbusy] at hlog
  exact absurd (List.singleton_inj.mp (List.append_inj_right' hlog rfl)) he

theorem busy_handle {m : Machine} {c : PairCall} (answer : Answer) : Busy (m.handle c answer).1 :=
  ⟨m.log, _, rfl, nofun⟩

theorem pair_removes (lib : Libraries) (hfile : cfg.sessionFile = true) {m : Machine} (hm : Busy m)
    (rounds : Nat) :
    SafeWhen Machine.handle (removable cfg).answer Busy (fun t _ => t.file = none)
      (pair lib cfg rounds) m := by
  have hinner : SafeWhen Machine.handle (removable cfg).answer Busy (fun t _ => Busy t)
      (pairInner lib cfg rounds).run m := by
    apply (Only.of_forall (K := fun _ => True) _ fun _ => trivial).safeWhen
    · exact fun _ _ answer _ _ _ => busy_handle answer
    · exact fun _ h => h
    · exact hm
  refine SafeWhen.bind (hinner.mono fun t r ht _ => ?_)
  rw [if_pos hfile]
  refine ⟨ht, fun answer hanswer => ⟨busy_handle answer, ?_⟩⟩
  change (if answer.fails then t.file else none) = none
  rw [hanswer rfl]
  rfl

theorem gone (lib : Libraries) (hfile : cfg.sessionFile = true) {clock : Nat} {wall : Int}
    {acts : List (Restarts.Act Answer (Attempt cfg) Meanwhile)} {w : World}
    (hmeets : Runs.Meets (Restarts.step (host cfg lib)) (removable cfg).Holds
      (World.fresh clock wall) acts)
    (hrun : Runs.run (Restarts.step (host cfg lib)) (World.fresh clock wall) acts = some w) :
    Gone w.state := by
  have hfresh : Restarts.Kept (host cfg lib) (removable cfg) Gone Gone (World.fresh clock wall) :=
    ⟨fun _ _ _ => rfl, nofun⟩
  have hkept := Restarts.kept ?_ ?_ ?_ hfresh hmeets hrun
  · exact hkept.state fun _ h => h
  · intro m p _ _
    have hbegan : Busy (m.note .began) := ⟨m.log, .began, rfl, nofun⟩
    have hremoves := pair_removes lib (p.sessionFile.trans hfile) hbegan p.rounds
    exact (hremoves.weaken fun _ ht => ht.gone).mono fun _ _ _ ht _ _ => ht
  · exact fun m hm _ => hm
  · exact fun m later hm _ => hm

/-- A login that can be gone on with is the one that was saved last, within its time. -/
structure InTime (cfg : PairingConfig) (s : Save) (m : Machine) (login : Login)
    (projects : List ProjectRef) : Prop where
  kept : m.wall < s.wall + cfg.ticks sessionMaxTicks
  token : ∀ e, s.login.expiresAt = some e →
    m.wall + cfg.ticks tokenMarginTicks < s.wall + ((e : Int) - s.clock)
  /-- The clocks have gone together. -/
  login : m.wall - s.wall = m.clock - s.clock → login = s.login
  projects : projects = s.projects

theorem Save.Sound.inTime {s : Save} (h : s.Sound cfg) {m : Machine} {login : Login}
    {projects : List ProjectRef} (hload : s.load cfg m.clock m.wall = .ready login projects) :
    InTime cfg s m login projects := by
  have hlife := h.life
  rw [Save.load] at hload
  split at hload
  · cases hload
  rename_i hbefore
  split at hload
  · obtain ⟨rfl, rfl⟩ := SessionLoad.ready.inj hload
    rw [Save.keptUntil] at hbefore
    rcases hlogin : s.login with ⟨token, expiresAt, sub, email⟩
    rw [sessionLife, hlogin] at hlife hbefore
    cases expiresAt with
    | none =>
        dsimp only at hlife hbefore
        refine ⟨by omega, fun e he => ?_, fun _ => ?_, rfl⟩
        · rw [hlogin] at he
          cases he
        · rw [Save.resume, Save.tokenUntil, hlogin]
          rfl
    | some e =>
        dsimp only at hlife hbefore
        refine ⟨by omega, fun e' he => ?_, fun htogether => ?_, rfl⟩
        · rw [hlogin] at he
          obtain rfl := Option.some.inj he
          omega
        · have hsame : m.clock + (s.wall + ((e - s.clock : Nat) : Int) - m.wall).toNat = e := by
            omega
          rw [Save.resume, Save.tokenUntil, hlogin]
          change Login.mk token (some (m.clock + _)) sub email = _
          rw [hsame]
  · cases hload

/-- However pairings follow one another, each with its own configuration, and wherever each is
stopped: a login is saved only by the pairing that was given it, and once; the file is worth what
was saved last, and nothing after 900 ticks or in the last 120 ticks of the token; and it is gone
after a pairing that has come to an end. -/
theorem login_short_lived (lib : Libraries) {clock : Nat} {wall : Int}
    (acts : List (Restarts.Act Answer (Attempt cfg) Meanwhile)) {w : World}
    (hrun : Runs.run (Restarts.step (host cfg lib)) (World.fresh clock wall) acts = some w) :
    Lawful MayFollow w.state.log ∧
      (∀ f, w.state.file = some f → ∃ s, LastSave cfg w.state.log s ∧
        f.load w.state.wall w.state.clock = s.load cfg w.state.clock w.state.wall ∧
        ∀ login projects, f.load w.state.wall w.state.clock = .ready login projects →
          InTime cfg s w.state login projects) ∧
      (cfg.sessionFile = true →
        Runs.Meets (Restarts.step (host cfg lib)) (removable cfg).Holds (World.fresh clock wall)
          acts → Gone w.state) := by
  have hkept : Kept cfg w.state := kept lib hrun
  refine ⟨hkept.lawful, fun f hf => ?_, fun hfile hmeets => gone lib hfile hmeets hrun⟩
  obtain ⟨s, rfl, hsound, hlast⟩ := hkept.file f hf
  have hload := Save.load_file cfg hsound w.state.clock w.state.wall
  refine ⟨s, hlast, hload, fun login projects hready => ?_⟩
  exact hsound.inTime (hload.symm.trans hready)

/-! ## A pairing that is gone on with -/

/-- The add-on asks for the project, and is started anew with it. -/
def asking : PairingConfig where
  projectWait := some {}
  confirmProject := true
  sessionFile := true

def startedAnew : List (Restarts.Act Answer (Attempt asking) Meanwhile) :=
  let calm : Answer := { took := 40, reply := goesWell "aaaaa" "uid-1" }
  .begin ⟨asking, 3, rfl, rfl⟩ :: List.replicate 17 (.answer calm) ++
    [.stop, .meanwhile ⟨70, 605000⟩, .begin ⟨{ asking with project := some "aaaaa" }, 3, rfl, rfl⟩]

/-- The login can be gone on with. -/
def Machine.resumes (m : Machine) : Option (SessionFile × Login × List ProjectRef) :=
  m.file.bind fun f =>
    match f.load m.wall m.clock with
    | .ready login projects => some (f, login, projects)
    | _ => none

theorem login_short_lived_startedAnew :
    ∃ (w : World) (s : Save) (login : Login) (projects : List ProjectRef),
      Runs.run (Restarts.step (host asking oneKey)) (World.fresh 50 600000) startedAnew = some w ∧
        login.token = "token" ∧ projects = s.projects ∧ LastSave asking w.state.log s ∧
        w.state.wall < s.wall + asking.ticks sessionMaxTicks := by
  have hrun : (Runs.run (Restarts.step (host asking oneKey)) (World.fresh 50 600000)
      startedAnew).any (fun w => w.state.resumes.any fun r => r.2.1.token = "token") = true := by
    decide +kernel
  obtain ⟨w, hw, hany⟩ := Option.any_eq_true _ _ |>.mp hrun
  obtain ⟨⟨f, login, projects⟩, hresumes, htoken⟩ := Option.any_eq_true _ _ |>.mp hany
  obtain ⟨f', hf, hload⟩ := Option.bind_eq_some_iff.mp hresumes
  have hready : f'.load w.state.wall w.state.clock = .ready login projects := by
    split at hload
    · rename_i heq
      cases hload
      exact heq
    · cases hload
  obtain ⟨s, hlast, -, htime⟩ := (login_short_lived oneKey startedAnew hw).2.1 f' hf
  have hin := htime login projects hready
  exact ⟨w, s, login, projects, hw, of_decide_eq_true htoken, hin.projects, hlast, hin.kept⟩

end DatumConnect.Pairing.Session
