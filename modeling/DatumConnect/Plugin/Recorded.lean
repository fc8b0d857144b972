import DatumConnect.Plugin.CommandPlaces
/-!
# Signals to the recorded process

A pid file names a process by its pid.  As long as the system gives that pid to no other process,
what the number stands for is the process that was started by the command that wrote the file,
or nothing any more.
-/

namespace DatumConnect.Plugin.Commands

open DatumConnect.Lib
open DatumConnect.Lib.Pool

section

variable (parseTime : List Char → Option Nat)

/-! ## The numbers in use -/

/-- The number under which a pid file has its process signalled. -/
def Entry.number (entry : Entry) : Option Int := (entry.parse parseTime).map PidFile.rustPid

/-- The numbers a command goes by: the one it has read, if it is to signal or report it, and the
one it is about to write. -/
def Place.numbers (g : Place) : List Int :=
  (match g.op with
    | .ps _ => []
    | _ => (g.entry.bind fun read => read.2.number parseTime).toList) ++
  (if g.wrote then [] else (g.child.map fun child => (child.pid : Int)).toList)

/-- No pid file and no command under way goes by a number that stands for the process. -/
def Unnamed (w : Clients) (p : Proc) : Prop :=
  (∀ f ∈ w.state.files, ∀ n ∈ f.2.number parseTime, ¬p.Addressed n) ∧
    ∀ client ∈ w.clients, client.running = true → ∀ n ∈ client.place.numbers parseTime,
      ¬p.Addressed n

instance (w : Clients) (p : Proc) : Decidable (Unnamed parseTime w p) := by
  unfold Unnamed
  infer_instance

/-- The system gives a process no pid that is in use, and nobody else puts the number of a process
that runs into a pid file. -/
def Unreused (w : Clients) : Act Op Answer → Prop
  | .step i answer =>
      ∀ client ∈ w.clients[i]?, ∀ c ∈ client.next,
        match c with
        | .start role =>
            Unnamed parseTime w (w.state.machine.spawned answer.pid answer.group true role)
        | .arrives =>
            Unnamed parseTime w (w.state.machine.spawned answer.pid answer.group answer.ours .other)
        | .put _ text =>
            ∀ n ∈ ({ text } : Entry).number parseTime, ∀ p ∈ w.state.machine.procs, ¬p.Addressed n
        | _ => True
  | _ => True

instance (w : Clients) (act : Act Op Answer) : Decidable (Unreused parseTime w act) := by
  unfold Unreused
  split
  · have (c : Call) (answer : Answer) : Decidable (match c with
        | .start role =>
            Unnamed parseTime w (w.state.machine.spawned answer.pid answer.group true role)
        | .arrives =>
            Unnamed parseTime w (w.state.machine.spawned answer.pid answer.group answer.ours .other)
        | .put _ text =>
            ∀ n ∈ ({ text } : Entry).number parseTime, ∀ p ∈ w.state.machine.procs, ¬p.Addressed n
        | _ => True) := by
      split <;> infer_instance
    infer_instance
  · infer_instance

/-! ## What the numbers stand for -/

structure Fits (m : Machine) (file : File) (entry : Entry) : Prop where
  addressed : ∀ n, entry.number parseTime = some n → ∀ p ∈ m.procs, p.Addressed n →
    entry.recorded = some p.serial
  daemon : file = .daemon → ∀ p ∈ m.procs, entry.recorded = some p.serial → p.role = .daemon
  old : ∀ serial, entry.recorded = some serial → serial < m.next

/-- A handle that was got for the number in the file. -/
def HandleFits (m : Machine) (entry : Entry) : Handle → Prop
  | .done => True
  | .pidfd serial =>
      serial < m.next ∧
        ∀ p ∈ m.procs, p.ours = true → p.serial = serial → entry.recorded = some serial
  | .pid n => entry.number parseTime = some n

/-- The process a command has started and has not written down yet. -/
structure ChildFits (m : Machine) (op : Op) (child : Proc) : Prop where
  only : ∀ p ∈ m.procs, p.Addressed child.pid ∨ p.serial = child.serial → p = child
  daemon : (∃ binaryPath, op = .daemonStart binaryPath) → child.role = .daemon
  old : child.serial < m.next
  small : child.pid < 2 ^ 31

structure Standing (m : Machine) (g : Place) : Prop where
  entry : ∀ file entry, g.entry = some (file, entry) → (∃ prune, g.op = .ps prune) ∨
    Fits parseTime m file entry
  handle : ∀ file entry handle, g.entry = some (file, entry) → g.handle = some handle →
    (∃ prune, g.op = .ps prune) ∨ HandleFits parseTime m entry handle
  child : g.wrote = false → ∀ child, g.child = some child → ChildFits m g.op child
  seen : ∀ entry n p, g.entry = some (.daemon, entry) → entry.number parseTime = some n →
    g.seen = some (n, some p) → (∃ prune, g.op = .ps prune) ∨
      entry.recorded = some p.serial ∧ p.role = .daemon

variable {parseTime}

theorem Fits.moves {m m' : Machine} {new : Proc → Prop} {file : File} {entry : Entry}
    (h : Fits parseTime m file entry) (hm : Moves m m' new)
    (hnew : ∀ n, entry.number parseTime = some n → ∀ p, new p → ¬p.Addressed n) :
    Fits parseTime m' file entry where
  addressed := by
    intro n hn p hp haddressed
    rcases hm.procs p hp with hold | ⟨-, hp⟩
    · exact h.addressed n hn p hold haddressed
    · exact absurd haddressed (hnew n hn p hp)
  daemon := by
    intro hfile p hp hrecorded
    rcases hm.procs p hp with hold | ⟨hlate, -⟩
    · exact h.daemon hfile p hold hrecorded
    · have hearly := h.old p.serial hrecorded
      omega
  old := fun serial hserial => Nat.lt_of_lt_of_le (h.old serial hserial) hm.next_le

theorem HandleFits.moves {m m' : Machine} {new : Proc → Prop} {entry : Entry} {handle : Handle}
    (h : HandleFits parseTime m entry handle) (hm : Moves m m' new) :
    HandleFits parseTime m' entry handle := by
  cases handle with
  | done => trivial
  | pid n => exact h
  | pidfd serial =>
      refine ⟨Nat.lt_of_lt_of_le h.1 hm.next_le, ?_⟩
      intro p hp hours hserial
      rcases hm.procs p hp with hold | ⟨hlate, -⟩
      · exact h.2 p hold hours hserial
      · have hearly := h.1
        omega

theorem ChildFits.moves {m m' : Machine} {new : Proc → Prop} {op : Op} {child : Proc}
    (h : ChildFits m op child) (hm : Moves m m' new)
    (hnew : ∀ p, new p → ¬p.Addressed child.pid) : ChildFits m' op child where
  only := by
    intro p hp hstands
    rcases hm.procs p hp with hold | ⟨hlate, hp⟩
    · exact h.only p hold hstands
    · rcases hstands with haddressed | hserial
      · exact absurd haddressed (hnew p hp)
      · have hearly := h.old
        omega
  daemon := h.daemon
  old := Nat.lt_of_lt_of_le h.old hm.next_le
  small := h.small

theorem Standing.moves {m m' : Machine} {new : Proc → Prop} {g : Place}
    (h : Standing parseTime m g) (hm : Moves m m' new)
    (hnew : ∀ n ∈ g.numbers parseTime, ∀ p, new p → ¬p.Addressed n) :
    Standing parseTime m' g where
  entry := by
    intro file entry hentry
    rcases h.entry file entry hentry with hps | hfits
    · exact .inl hps
    · by_cases hps : ∃ prune, g.op = .ps prune
      · exact .inl hps
      · refine .inr (hfits.moves hm ?_)
        intro n hn
        apply hnew
        unfold Place.numbers
        apply List.mem_append_left
        split
        · rename_i prune hop
          exact absurd ⟨prune, hop⟩ hps
        · rw [hentry, Option.bind_some, hn]
          exact List.mem_singleton_self n
  handle := fun file entry handle hentry hhandle =>
    (h.handle file entry handle hentry hhandle).imp_right fun hfits => hfits.moves hm
  child := by
    intro hwrote child hchild
    refine (h.child hwrote child hchild).moves hm ?_
    apply hnew
    unfold Place.numbers
    apply List.mem_append_right
    rw [hwrote, hchild]
    exact List.mem_singleton_self _
  seen := h.seen

/-! ## What a call leaves -/

theorem number_eq_some {entry : Entry} {n : Int} (h : entry.number parseTime = some n) :
    ∃ pf, entry.parse parseTime = some pf ∧ n = pf.rustPid := by
  obtain ⟨pf, hpf, hn⟩ := Option.map_eq_some_iff.mp h
  exact ⟨pf, hpf, hn.symm⟩

theorem childFits_spawned {m : Machine} {op : Op} {pid group : Nat} {role : Role}
    (hfree : m.Free pid) (hrole : (∃ binaryPath, op = .daemonStart binaryPath) → role = .daemon) :
    ChildFits (m.spawn pid group true role) op (m.spawned pid group true role) where
  only := by
    intro p hp hstands
    rcases Machine.mem_spawn.mp hp with hold | hnew
    · exfalso
      rcases hstands with ⟨-, ⟨-, hpid⟩ | ⟨hneg, -⟩⟩ | hserial
      · have hother := hfree.2.2 p hold
        have hsame : (pid : Int) = p.pid := hpid
        omega
      · have hsame : (pid : Int) < -1 := hneg
        omega
      · have hlt := m.serial_lt p hold
        have hsame : p.serial = m.next := hserial
        omega
    · exact hnew
  daemon := hrole
  old := Nat.lt_succ_self _
  small := hfree.2.1

theorem handleFits_findProcess {m : Machine} {pidfd : Bool} {file : File} {entry : Entry}
    {n : Int} (hfits : Fits parseTime m file entry) (hn : entry.number parseTime = some n) :
    HandleFits parseTime m entry (m.findProcess pidfd n) := by
  unfold Machine.findProcess
  split
  · rename_i hpidfd
    split
    · rename_i p hfind
      have hmem := List.mem_of_find?_eq_some hfind
      have hpid := List.find?_some hfind
      rw [decide_eq_true_eq] at hpid
      refine ⟨m.serial_lt p hmem, ?_⟩
      intro p' hp' hours hserial
      have hsame := Machine.eq_of_serial hp' hmem hserial
      rw [← hserial]
      apply hfits.addressed n hn p' hp'
      rw [hsame] at hours ⊢
      exact ⟨hours, .inl ⟨hpidfd.2, hpid⟩⟩
    · trivial
  · exact hn

/-- A signal goes to the recorded process alone. -/
theorem targets_recorded {m : Machine} {file : File} {entry : Entry} {handle : Handle}
    (hfits : Fits parseTime m file entry) (hhandle : HandleFits parseTime m entry handle) :
    ∀ serial ∈ m.targets handle, entry.recorded = some serial := by
  intro serial hserial
  cases handle with
  | done => cases hserial
  | pidfd wanted =>
      obtain ⟨p, hp, rfl⟩ := List.mem_map.mp hserial
      obtain ⟨hmem, hwanted⟩ := List.mem_filter.mp hp
      rw [Bool.and_eq_true, decide_eq_true_eq] at hwanted
      have hrecorded := hhandle.2 p hmem hwanted.1 hwanted.2
      rw [hwanted.2]
      exact hrecorded
  | pid n =>
      obtain ⟨p, hp, rfl⟩ := List.mem_map.mp hserial
      obtain ⟨hmem, haddressed⟩ := List.mem_filter.mp hp
      exact hfits.addressed n hhandle p hmem (of_decide_eq_true haddressed)

def FilesFit (parseTime : List Char → Option Nat) (h : Host) : Prop :=
  ∀ f ∈ h.files, Fits parseTime h.machine f.1 f.2

theorem FilesFit.lookup {h : Host} (hfiles : FilesFit parseTime h) {file : File} {entry : Entry}
    (hentry : h.entry file = some entry) : Fits parseTime h.machine file entry := by
  obtain ⟨before, after, hsplit, -⟩ := List.lookup_eq_some_iff.mp hentry
  apply hfiles (file, entry)
  rw [hsplit]
  exact List.mem_append_right _ List.mem_cons_self

/-- The command that makes a call stands as it should after it. -/
theorem Standing.advance {s : Host} {pidfd : Bool} {g : Place} {c : Call} {answer : Answer}
    (h : Standing parseTime s.machine g) (hfiles : FilesFit parseTime s)
    (hallowed : g.Allowed parseTime c)
    (hmoves : Standing parseTime (s.handle pidfd c answer).1.machine g) :
    Standing parseTime (s.handle pidfd c answer).1.machine
      (g.advance parseTime c (s.handle pidfd c answer).2) := by
  cases c with
  | «exists» | listTunnels | beforeDeadline | wait | ends | arrives | put => exact hmoves
  | signal | report | now | create => exact { hmoves with }
  | remove file =>
      cases file with
      | daemon => exact { hmoves with }
      | tunnel name => exact hmoves
  | read file =>
      exact { hmoves with
        entry := by
          intro file' entry hentry
          obtain ⟨entry', hentry', heq⟩ := Option.map_eq_some_iff.mp hentry
          cases heq
          exact .inr (hfiles.lookup hentry')
        handle := nofun
        seen := nofun }
  | pidAlive n =>
      exact { hmoves with
        seen := by
          intro entry n' p hentry hn' hseen
          have hn : n = n' := congrArg Prod.fst (Option.some.inj hseen)
          have hp : s.machine.pidAlive n = some p := congrArg Prod.snd (Option.some.inj hseen)
          subst hn
          obtain ⟨hmem, haddressed⟩ := Machine.mem_of_pidAlive hp
          rcases h.entry .daemon entry hentry with hps | hfits
          · exact .inl hps
          · have hrecorded := hfits.addressed n hn' p hmem haddressed
            exact .inr ⟨hrecorded, hfits.daemon rfl p hmem hrecorded⟩ }
  | findProcess n =>
      exact { hmoves with
        handle := by
          intro file entry handle hentry hhandle
          cases hhandle
          obtain ⟨file', entry', pf, hentry', hparse, hn⟩ := hallowed
          have hsame : (file, entry) = (file', entry') := Option.some.inj (hentry.symm.trans hentry')
          cases hsame
          rcases h.entry file entry hentry with hps | hfits
          · exact .inl hps
          · refine .inr (handleFits_findProcess hfits ?_)
            rw [hn, Entry.number, hparse]
            rfl }
  | write file entry => exact { hmoves with child := fun _ => hmoves.child hallowed.1 }
  | start role =>
      have hchild : (∃ binaryPath, g.op = .daemonStart binaryPath) → role = .daemon := by
        rintro ⟨binaryPath, hop⟩
        cases role with
        | daemon => rfl
        | supervisor name =>
            obtain ⟨-, binaryPath', hop'⟩ := hallowed
            cases hop.symm.trans hop'
        | child name =>
            obtain ⟨-, -, binaryPath', hop'⟩ := hallowed
            cases hop.symm.trans hop'
        | other => exact hallowed.elim
      by_cases hgo : answer.ok = true ∧ s.machine.Free answer.pid
      · have hstarted : s.handle pidfd (.start role) answer =
            ({ s with machine := s.machine.spawn answer.pid answer.group true role },
              some (s.machine.spawned answer.pid answer.group true role)) := if_pos hgo
        rw [hstarted] at hmoves ⊢
        have hfits := @childFits_spawned _ g.op _ answer.group _ hgo.2 hchild
        cases role with
        | supervisor name => exact { hmoves with }
        | child name | daemon | other =>
            exact { hmoves with
              child := by
                intro _ child hsome
                cases hsome
                exact hfits }
      · have hstarted : s.handle pidfd (.start role) answer = (s, none) := if_neg hgo
        rw [hstarted] at hmoves ⊢
        cases role with
        | supervisor name => exact { hmoves with }
        | child name | daemon | other => exact { hmoves with child := nofun }

/-! ## The files a call leaves -/

theorem FilesFit.setFile {h : Host} (hfiles : FilesFit parseTime h) {file : File} {entry : Entry}
    (hentry : Fits parseTime h.machine file entry) : FilesFit parseTime (h.setFile file entry) := by
  intro f hf
  rcases List.mem_cons.mp hf with rfl | hf
  · exact hentry
  · exact hfiles f (List.mem_of_mem_filter hf)

theorem FilesFit.moves {h : Host} {m : Machine} {new : Proc → Prop}
    (hfiles : FilesFit parseTime h) (hm : Moves h.machine m new)
    (hnew : ∀ f ∈ h.files, ∀ n ∈ f.2.number parseTime, ∀ p, new p → ¬p.Addressed n) :
    FilesFit parseTime { h with machine := m } :=
  fun f hf => (hfiles f hf).moves hm (hnew f hf)

/-- A file that says nothing, or nothing of a process that runs. -/
theorem fits_unrecorded {m : Machine} {file : File} {text : List Char}
    (h : ∀ n ∈ ({ text } : Entry).number parseTime, ∀ p ∈ m.procs, ¬p.Addressed n) :
    Fits parseTime m file { text } where
  addressed := fun n hn p hp haddressed => absurd haddressed (h n hn p hp)
  daemon := nofun
  old := nofun

theorem fits_written {m : Machine} {g : Place} {file : File} {entry : Entry}
    (h : Standing parseTime m g) (hallowed : g.Allowed parseTime (.write file entry)) :
    Fits parseTime m file entry := by
  obtain ⟨hwrote, hfile, child, time, binaryPath, goPid, hchild, -, rfl, -⟩ := hallowed
  have hfits := h.child hwrote child hchild
  constructor
  · intro n hn p hp haddressed
    obtain ⟨pf, hparse, rfl⟩ := number_eq_some hn
    have hsmall := hfits.small
    have hnumber := PidFile.rustPid_of_parse_render (by omega) hparse
    rw [hnumber] at haddressed
    rw [hfits.only p hp (.inl haddressed)]
  · rintro rfl p hp hserial
    have hsame := hfits.only p hp (.inr (Option.some.inj hserial).symm)
    rw [hsame]
    exact hfits.daemon hfile.1
  · intro serial hserial
    cases hserial
    exact hfits.old

theorem FilesFit.handle {s : Host} {pidfd : Bool} {g : Place} {c : Call} {answer : Answer}
    (hfiles : FilesFit parseTime s) (h : Standing parseTime s.machine g)
    (hallowed : g.Allowed parseTime c)
    (hput : ∀ file text, c = .put file text →
      ∀ n ∈ ({ text } : Entry).number parseTime, ∀ p ∈ s.machine.procs, ¬p.Addressed n)
    {new : Proc → Prop} (hm : Moves s.machine (s.handle pidfd c answer).1.machine new)
    (hnew : ∀ f ∈ s.files, ∀ n ∈ f.2.number parseTime, ∀ p, new p → ¬p.Addressed n) :
    FilesFit parseTime (s.handle pidfd c answer).1 := by
  have hmoved := hfiles.moves hm hnew
  cases c with
  | «exists» | listTunnels | beforeDeadline | wait | read | pidAlive | findProcess | signal |
    report | now | ends => exact hmoved
  | arrives =>
      change FilesFit parseTime (s.started answer answer.ours .other).1
      unfold Host.started
      change FilesFit parseTime { s with
        machine := (s.started answer answer.ours .other).1.machine } at hmoved
      unfold Host.started at hmoved
      split
      · rename_i hgo
        rw [if_pos hgo] at hmoved
        exact hmoved
      · exact hfiles
  | start role =>
      change FilesFit parseTime (s.started answer true role).1
      unfold Host.started
      change FilesFit parseTime { s with
        machine := (s.started answer true role).1.machine } at hmoved
      unfold Host.started at hmoved
      split
      · rename_i hgo
        rw [if_pos hgo] at hmoved
        exact hmoved
      · exact hfiles
  | remove file => exact fun f hf => hfiles f (List.mem_of_mem_filter hf)
  | put file text => exact hfiles.setFile (fits_unrecorded (hput file text rfl))
  | create file =>
      change FilesFit parseTime (ite _ _ _ : Host × Bool).1
      split
      · exact hfiles.setFile (fits_unrecorded nofun)
      · exact hfiles
  | write file entry =>
      change FilesFit parseTime (ite _ _ _ : Host × Bool).1
      split
      · exact hfiles.setFile (fits_written h hallowed)
      · exact hfiles

theorem moves_call {w : Clients} {i : Nat} {client : Client Op Call Call.Reply Unit Place Unit}
    {pidfd : Bool} {c : Call} {answer : Answer} (hclient : w.clients[i]? = some client)
    (hnext : client.next = some c) (hunreused : Unreused parseTime w (.step i answer)) :
    Moves w.state.machine (w.state.handle pidfd c answer).1.machine (Unnamed parseTime w) := by
  have hcond := hunreused client hclient c hnext
  apply (w.state.moves_handle c answer).mono
  rintro p ⟨-, ⟨role, rfl, rfl⟩ | ⟨rfl, rfl⟩⟩
  · exact hcond
  · exact hcond

/-! ## Every run -/

variable {pidfd : Bool}

/-- Every number in use stands for the recorded process or for none. -/
structure Inv (parseTime : List Char → Option Nat) (pidfd : Bool) (w : Clients) : Prop where
  faithful : System.Faithful (system parseTime pidfd) (fun _ _ _ => True) w
  files : FilesFit parseTime w.state
  clients : ∀ (i : Nat) (cl : Client Op Call Call.Reply Unit Place Unit), w.clients[i]? = some cl →
    cl.running = true → Standing parseTime w.state.machine cl.place
  sent : ∀ sent ∈ w.state.sent, ∀ serial ∈ sent.targets, sent.recorded = some serial
  reported : ∀ r ∈ w.state.reported, r.1 = some r.2.serial ∧ r.2.role = .daemon

theorem inv_start : Inv parseTime pidfd start where
  faithful := by
    intro i cl p hcl
    cases hcl
  files := nofun
  clients := by
    intro i cl hcl
    cases hcl
  sent := nofun
  reported := nofun

theorem standing_new (m : Machine) (op : Op) : Standing parseTime m { op } where
  entry := nofun
  handle := nofun
  child := nofun
  seen := nofun

theorem sent_handle (s : Host) (c : Call) (answer : Answer)
    (hother : ∀ entry handle n, c ≠ .signal entry handle n) :
    (s.handle pidfd c answer).1.sent = s.sent := by
  cases c with
  | signal entry handle n => exact absurd rfl (hother entry handle n)
  | create file | write file entry =>
      simp only [Host.handle]
      split <;> rfl
  | arrives | start role =>
      simp only [Host.handle, Host.started]
      split <;> rfl
  | _ => rfl

theorem reported_handle (s : Host) (c : Call) (answer : Answer)
    (hother : ∀ entry seen, c ≠ .report entry seen) :
    (s.handle pidfd c answer).1.reported = s.reported := by
  cases c with
  | report entry seen => exact absurd rfl (hother entry seen)
  | create file | write file entry =>
      simp only [Host.handle]
      split <;> rfl
  | arrives | start role =>
      simp only [Host.handle, Host.started]
      split <;> rfl
  | _ => rfl

theorem Inv.sent_call {w : Clients} (h : Inv parseTime pidfd w) {g : Place} {c : Call}
    {answer : Answer} (hstanding : Standing parseTime w.state.machine g)
    (hallowed : g.Allowed parseTime c) :
    ∀ sent ∈ (w.state.handle pidfd c answer).1.sent, ∀ serial ∈ sent.targets,
      sent.recorded = some serial := by
  by_cases hc : ∃ entry handle n, c = .signal entry handle n
  · obtain ⟨entry, handle, n, rfl⟩ := hc
    intro sent hsent
    rcases List.mem_cons.mp hsent with rfl | hold
    · obtain ⟨hop, -, file, hentry, hhandle⟩ := hallowed
      rcases hstanding.entry file entry hentry with ⟨prune, hps⟩ | hfits
      · exact absurd hps (hop prune)
      rcases hstanding.handle file entry handle hentry hhandle with ⟨prune, hps⟩ | hhandlefits
      · exact absurd hps (hop prune)
      exact targets_recorded hfits hhandlefits
    · exact h.sent sent hold
  · rw [sent_handle w.state c answer fun entry handle n heq => hc ⟨entry, handle, n, heq⟩]
    exact h.sent

theorem Inv.reported_call {w : Clients} (h : Inv parseTime pidfd w) {g : Place} {c : Call}
    {answer : Answer} (hstanding : Standing parseTime w.state.machine g)
    (hallowed : g.Allowed parseTime c) :
    ∀ r ∈ (w.state.handle pidfd c answer).1.reported, r.1 = some r.2.serial ∧
      r.2.role = .daemon := by
  by_cases hc : ∃ entry seen, c = .report entry seen
  · obtain ⟨entry, seen, rfl⟩ := hc
    intro r hr
    rcases List.mem_cons.mp hr with rfl | hold
    · obtain ⟨hop, -, pf, hentry, hparse, hseen⟩ := hallowed
      have hnumber : entry.number parseTime = some pf.rustPid := by
        rw [Entry.number, hparse]
        rfl
      rcases hstanding.seen entry pf.rustPid seen hentry hnumber hseen with ⟨prune, hps⟩ | hfound
      · exact absurd hps (hop prune)
      · exact hfound
    · exact h.reported r hold
  · rw [reported_handle w.state c answer fun entry seen heq => hc ⟨entry, seen, heq⟩]
    exact h.reported

theorem Inv.call {w : Clients} (h : Inv parseTime pidfd w) {i : Nat} {answer : Answer}
    {client : Client Op Call Call.Reply Unit Place Unit} {c : Call} {k : c.Reply → Cmd Unit}
    (hclient : w.clients[i]? = some client) (hprog : client.prog = some (.call c k))
    (hunreused : Unreused parseTime w (.step i answer))
    (hstep : (system parseTime pidfd).step w (.step i answer) =
      some (w.called (system parseTime pidfd) i client c k answer)) :
    Inv parseTime pidfd (w.called (system parseTime pidfd) i client c k answer) := by
  obtain ⟨hnext, hrunning⟩ := running_of_prog hprog
  have hallowed : client.place.Allowed parseTime c := h.faithful.allowed hclient hprog
  have hstanding := h.clients i client hclient hrunning
  have hm := @moves_call parseTime w i client pidfd c answer hclient hnext hunreused
  have hmoves : ∀ (j : Nat) (cl : Client Op Call Call.Reply Unit Place Unit),
      w.clients[j]? = some cl → cl.running = true →
      Standing parseTime (w.state.handle pidfd c answer).1.machine cl.place := by
    intro j cl hcl hrun
    refine (h.clients j cl hcl hrun).moves hm ?_
    intro n hn p hnew
    exact hnew.2 cl (List.mem_of_getElem? hcl) hrun n hn
  refine ⟨h.faithful.step follows_code hstep, ?files, ?clients, ?sent, ?reported⟩
  case files =>
    refine h.files.handle hstanding hallowed ?_ hm ?_
    · rintro file text rfl
      exact hunreused client hclient _ hnext
    · intro f hf n hn p hnew
      exact hnew.1 f hf n hn
  case clients =>
    intro j cl hcl hrun
    rcases System.client_of_call hcl with ⟨rfl, rfl⟩ | ⟨-, other, hother, rfl⟩
    · exact hstanding.advance h.files hallowed (hmoves j client hclient hrunning)
    · exact hmoves j other hother hrun
  case sent => exact h.sent_call hstanding hallowed
  case reported => exact h.reported_call hstanding hallowed

theorem inv_step (w : Clients) (act : Act Op Answer) (w' : Clients)
    (h : Inv parseTime pidfd w) (hunreused : Unreused parseTime w act)
    (hstep : step parseTime pidfd w act = some w') : Inv parseTime pidfd w' := by
  have hstep' := (System.of_stepWhen hstep).2
  cases act with
  | spawn op =>
      have hw' := System.step_spawn hstep'
      subst hw'
      refine ⟨h.faithful.step follows_code hstep', h.files, ?_, h.sent, h.reported⟩
      intro i cl hcl hrun
      rcases System.client_of_spawn hcl with hold | ⟨-, rfl⟩
      · exact h.clients i cl hold hrun
      · exact standing_new _ op
  | step i answer =>
      obtain ⟨client, c, k, hclient, hprog, rfl⟩ := System.step_call hstep'
      exact h.call hclient hprog hunreused hstep'
  | drop i =>
      obtain ⟨client, c, k, hclient, hprog, rfl⟩ := System.step_drop hstep'
      have hm := moves_abandon w.state client.place fun _ => False
      have hfiles := h.files.moves hm nofun
      refine ⟨h.faithful.step follows_code hstep', ?files, ?clients, ?sent, ?reported⟩
      case clients =>
        intro j cl hcl hrun
        rcases System.client_of_drop hcl with ⟨-, rfl⟩ | ⟨-, hold⟩
        · cases hrun
        · exact (h.clients j cl hold hrun).moves hm fun _ _ _ => False.elim
      case files =>
        change FilesFit parseTime (abandon w.state client.place)
        rw [abandon_eq] at hfiles ⊢
        exact hfiles
      case sent =>
        change ∀ sent ∈ (abandon w.state client.place).sent, _
        rw [abandon_eq]
        exact h.sent
      case reported =>
        change ∀ r ∈ (abandon w.state client.place).reported, _
        rw [abandon_eq]
        exact h.reported

/-- As long as no pid in use goes to another process, every signal is sent to the process that was
started by the command that wrote the pid file, and `daemon start` reports a daemon only. -/
theorem signals_recorded {acts : List (Act Op Answer)} {w : Clients}
    (hmeets : Runs.Meets (step parseTime pidfd) (Unreused parseTime) start acts)
    (hrun : Runs.run (step parseTime pidfd) start acts = some w) :
    (∀ sent ∈ w.state.sent, ∀ serial ∈ sent.targets, sent.recorded = some serial) ∧
      ∀ r ∈ w.state.reported, r.1 = some r.2.serial ∧ r.2.role = .daemon := by
  have hinv : Inv parseTime pidfd w := Runs.invariant inv_step inv_start hmeets hrun
  exact ⟨hinv.sent, hinv.reported⟩

end

/-! ## Runs -/

/-- The daemon is started, reported, stopped, and gone before another process gets its pid. -/
def recordedRun : List (Act Op Answer) :=
  startRun 0 ++ [.spawn (.daemonStart [])] ++ calls 1 3 ++ [.spawn .daemonStop] ++ calls 2 4 ++
    [.spawn (.ends 0)] ++ calls 3 1 ++ calls 2 3 ++
    [.spawn .arrives, .step 4 { pid := 100, group := 100 }]

theorem signals_recorded_daemon :
    ∃ w, Runs.run (step parseNoon true) start recordedRun = some w ∧
      w.state.sent = [{ recorded := some 0, targets := [0] }] ∧ w.state.files = [] ∧
      ∀ sent ∈ w.state.sent, ∀ serial ∈ sent.targets, sent.recorded = some serial := by
  have hmeets : Runs.Meets (step parseNoon true) (Unreused parseNoon) start recordedRun := by
    decide +kernel
  have hrun : ((Runs.run (step parseNoon true) start recordedRun).map
      fun w => (w.state.sent, w.state.files)) =
        some ([{ recorded := some 0, targets := [0] }], []) := by
    decide +kernel
  obtain ⟨w, hw, hstate⟩ := Option.map_eq_some_iff.mp hrun
  exact ⟨w, hw, congrArg Prod.fst hstate, congrArg Prod.snd hstate,
    (signals_recorded hmeets hw).1⟩

/-- What a run has sent and reported. -/
def outcome (acts : List (Act Op Answer)) : Option (List Sent × List (Option Nat × Proc)) :=
  (Runs.run (step parseNoon true) start acts).map fun w => (w.state.sent, w.state.reported)

/-- The daemon ends and another process gets its pid. -/
def reuseRun : List (Act Op Answer) :=
  startRun 0 ++ [.spawn (.ends 0)] ++ calls 1 1 ++
    [.spawn .arrives, .step 2 { pid := 100, group := 7 }]

/-- `daemon stop` signals the process that has got the pid, `daemon start` reports it as the daemon,
and `tunnel stop` signals the whole group of a negative number. -/
theorem others_signalled :
    outcome (reuseRun ++ [.spawn .daemonStop] ++ calls 3 4) =
        some ([{ recorded := some 0, targets := [1] }], []) ∧
    outcome (reuseRun ++ [.spawn (.daemonStart [])] ++ calls 3 3) =
        some ([], [(some 0, { serial := 1, pid := 100, group := 7, ours := true, role := .other })]) ∧
    outcome (reuseRun ++ [.spawn (.put (.tunnel "web")
          "5\n-7\n2026-06-06T12:00:00Z\n/bin/datum-connect\n".toList)] ++ calls 3 1 ++
        [.spawn (.tunnelStop "web")] ++ calls 4 4) =
      some ([{ recorded := none, targets := [1] }], []) := by
  refine ⟨?_, ?_, ?_⟩ <;> decide +kernel

end DatumConnect.Plugin.Commands
