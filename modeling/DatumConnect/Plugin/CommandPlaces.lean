import DatumConnect.Plugin.Commands
/-!
# Where the commands are

What a command has read, seen, started and written so far, and which of its calls follow from
that.
-/

namespace DatumConnect.Plugin.Commands

open DatumConnect.Lib
open DatumConnect.Lib.Prog (Follows Protocol)
open DatumConnect.Lib.Pool

def Op.startsDaemon : Op → Bool
  | .daemonStart _ => true
  | _ => false

structure Place where
  op : Op
  /-- The process a supervisor is. -/
  self : Option Proc := none
  /-- The process the command has started. -/
  child : Option Proc := none
  time : Option (List Char) := none
  wrote : Bool := false
  /-- The pid file the command has read last. -/
  entry : Option (File × Entry) := none
  handle : Option Handle := none
  /-- The number the command has looked up last since then, and what it saw. -/
  seen : Option (Int × Option Proc) := none
  /-- The tunnels found to be zombies. -/
  judged : List String := []
  /-- Between the look of a daemon command at the pid file and its last write. -/
  busy : Bool := false

section

variable (parseTime : List Char → Option Nat)

def Entry.parse (entry : Entry) : Option PidFile := PidFile.parse parseTime entry.text

namespace Place

/-- The pid file a command writes. -/
def Writes (g : Place) : File → Prop
  | .daemon => (∃ binaryPath, g.op = .daemonStart binaryPath) ∧ g.busy = true
  | .tunnel name => ∃ binaryPath, g.op = .runSupervisor name binaryPath

def Allowed (g : Place) : Call → Prop
  | .read .daemon => g.child = none
  | .read (.tunnel _) => g.op.startsDaemon = false
  | .findProcess n =>
      ∃ file entry pf, g.entry = some (file, entry) ∧ entry.parse parseTime = some pf ∧
        n = pf.rustPid
  | .signal entry handle _ =>
      (∀ prune, g.op ≠ .ps prune) ∧ g.child = none ∧
        ∃ file, g.entry = some (file, entry) ∧ g.handle = some handle
  | .report entry seen =>
      (∀ prune, g.op ≠ .ps prune) ∧ g.child = none ∧ ∃ pf, g.entry = some (.daemon, entry) ∧ entry.parse parseTime = some pf ∧
        g.seen = some (pf.rustPid, some seen)
  | .start (.supervisor name) =>
      g.wrote = false ∧ ∃ binaryPath, g.op = .runSupervisor name binaryPath
  | .start (.child name) =>
      g.wrote = false ∧ g.self.isSome = true ∧ ∃ binaryPath, g.op = .runSupervisor name binaryPath
  | .start .daemon =>
      (∃ binaryPath, g.op = .daemonStart binaryPath) ∧ g.busy = true ∧ g.wrote = false ∧
        g.child = none ∧
        ∀ file entry pf, g.entry = some (file, entry) → entry.parse parseTime = some pf →
          g.seen = some (pf.rustPid, none)
  | .start .other => False
  | .create file => g.wrote = false ∧ g.child.isSome = true ∧ g.Writes file
  | .write file entry =>
      g.wrote = false ∧ g.Writes file ∧
        ∃ child time binaryPath goPid, g.child = some child ∧ g.time = some time ∧
          entry = { text := PidFile.render goPid child.pid time binaryPath,
                    recorded := some child.serial } ∧
          (goPid = 0 ∨ ∃ self, g.self = some self ∧ goPid = self.pid)
  | .remove .daemon => g.busy = true
  | .remove (.tunnel name) => ∀ prune, g.op = .ps prune → prune = true ∧ name ∈ g.judged
  | .put file text => g.op = .put file text
  | .ends serial => g.op = .ends serial
  | _ => True

/-- A daemon command is under way from its look at the pid file on. -/
def begins (g : Place) (entry : Option Entry) : Bool :=
  match g.op with
  | .daemonStart _ => true
  | .daemonStop => (entry.bind (Entry.parse parseTime)).isSome
  | _ => g.busy

/-- The supervisor of a tunnel is found dead by `ps`. -/
def judge (g : Place) (n : Int) (seen : Option Proc) : List String :=
  match g.entry, g.seen, g.handle, seen with
  | some (.tunnel name, entry), none, none, none =>
      if (entry.parse parseTime).map PidFile.goPid = some n then name :: g.judged else g.judged
  | _, _, _, _ => g.judged

def advance (g : Place) : (c : Call) → c.Reply → Place
  | .read file, r =>
      { g with
        entry := r.map fun entry => (file, entry)
        handle := none
        seen := none
        busy := if file = .daemon then g.begins parseTime r else g.busy }
  | .pidAlive n, r => { g with seen := some (n, r), judged := g.judge parseTime n r }
  | .findProcess _, r => { g with handle := some r }
  | .signal _ _ signal, r => { g with busy := g.busy && !(signal = 9 && !r) }
  | .now, r => { g with time := some r }
  | .start (.supervisor _), r => { g with self := r }
  | .start _, r => { g with child := r, busy := g.busy && r.isSome }
  | .create _, r => { g with busy := g.busy && r }
  | .write _ _, r => { g with wrote := r, busy := false }
  | .remove .daemon, _ => { g with busy := false }
  | .report _ _, _ => { g with busy := false }
  | _, _ => g

end Place

def protocol : Protocol Call Call.Reply Place where
  allowed := Place.Allowed parseTime
  advance := Place.advance parseTime

/-- A supervisor that is killed takes no further step. -/
def abandon (h : Host) (g : Place) : Host :=
  match g.self with
  | none => h
  | some self => h.ended self.serial

def system (pidfd : Bool) : System Op Call Call.Reply Unit Host Answer Place Unit where
  code := Op.code parseTime
  handle := Host.handle pidfd
  protocol := protocol parseTime
  start op := { op }
  fresh := ()
  notice _ _ _ _ _ := ()
  abandon := abandon

abbrev Clients := World Op Call Call.Reply Unit Host Place Unit

/-- What a call waits for, and what time is given. -/
def Host.allows (h : Host) (answer : Answer) : Call → Bool
  | .wait serial => !decide (h.machine.Alive serial)
  | .now => decide (PidFile.newline ∉ answer.time) && (parseTime answer.time).isSome
  | _ => true

/-- A supervisor goes on only as long as its own process runs. -/
def ready (w : Clients) : Act Op Answer → Bool
  | .step i answer =>
      (w.clients[i]?).all fun client =>
        client.place.self.all (fun self => decide (w.state.machine.Alive self.serial)) &&
          client.next.all (w.state.allows parseTime answer)
  | _ => true

def step (pidfd : Bool) (w : Clients) (act : Act Op Answer) : Option Clients :=
  (system parseTime pidfd).stepWhen (ready parseTime) w act

def start : Clients := { state := {} }

/-! ## The commands keep to the protocol -/

variable {parseTime}

abbrev Keeps (parseTime : List Char → Option Nat) {α : Type} (post : Place → α → Prop)
    (p : Cmd α) (g : Place) : Prop :=
  Follows (protocol parseTime) post p g

theorem follows_writePidFile {file : File} {goPid : Nat} {child : Proc}
    {time binaryPath : List Char} {g : Place} (hwrote : g.wrote = false)
    (hchild : g.child = some child) (htime : g.time = some time) (hfile : g.Writes file)
    (hgo : goPid = 0 ∨ ∃ self, g.self = some self ∧ goPid = self.pid) :
    Keeps parseTime (fun g' _ => g'.op = g.op) (Cmd.writePidFile file goPid child time binaryPath)
      g := by
  have hcreate : g.Allowed parseTime (.create file) := ⟨hwrote, by rw [hchild]; rfl, hfile⟩
  refine Follows.performThen hcreate fun created => ?_
  cases created with
  | false => exact rfl
  | true =>
      have hbusy : (g.busy && true) = g.busy := Bool.and_true _
      have hwrite : (g.advance parseTime (.create file) true).Allowed parseTime
          (.write file {
            text := PidFile.render goPid child.pid time binaryPath
            recorded := some child.serial }) := by
        refine ⟨hwrote, ?_, child, time, binaryPath, goPid, hchild, htime, rfl, hgo⟩
        cases file with
        | daemon => exact ⟨hfile.1, hbusy.trans hfile.2⟩
        | tunnel name => exact hfile
      exact ⟨hwrite, fun _ => rfl⟩

theorem follows_runSupervisor {name : String} {binaryPath : List Char} :
    Keeps parseTime (fun _ _ => True) (Cmd.runSupervisor name binaryPath)
      { op := .runSupervisor name binaryPath } := by
  refine ⟨⟨rfl, binaryPath, rfl⟩, ?_⟩
  intro self
  cases self with
  | none => trivial
  | some self =>
      refine ⟨⟨rfl, rfl, binaryPath, rfl⟩, ?_⟩
      intro child
      cases child with
      | none => trivial
      | some child =>
          change Keeps parseTime _ (ite _ _ _) _
          split
          · refine Follows.performThen trivial fun time => ?_
            have hwrite := @follows_writePidFile parseTime (.tunnel name) self.pid child time binaryPath
              { op := .runSupervisor name binaryPath, self := some self, child := some child,
                time := some time }
              rfl rfl rfl ⟨binaryPath, rfl⟩ (.inr ⟨self, rfl, rfl⟩)
            refine Follows.bind (hwrite.mono ?_)
            intro g written hop
            refine ⟨trivial, fun _ => ⟨?_, fun _ => trivial⟩⟩
            intro prune hprune
            cases hop.symm.trans hprune
          · exact ⟨trivial, fun _ => trivial⟩

theorem advance_op (g : Place) (c : Call) (r : c.Reply) : (g.advance parseTime c r).op = g.op := by
  cases c with
  | start role => cases role <;> rfl
  | remove file => cases file <;> rfl
  | _ => rfl

theorem follows_readPidFile {file : File} {g : Place}
    (hread : g.Allowed parseTime (.read file)) :
    Keeps parseTime
      (fun g' r => ∃ found : Option Entry, g' = g.advance parseTime (.read file) found ∧
        r = found.bind fun entry => (entry.parse parseTime).map fun pf => (entry, pf))
      (Cmd.readPidFile parseTime file) g := by
  refine Follows.performThen hread fun found => ?_
  cases found with
  | none => exact ⟨none, rfl, rfl⟩
  | some entry => exact ⟨some entry, rfl, rfl⟩

theorem follows_awaitExit {file : File} {entry : Entry} {pid : Int} {handle : Handle} {g : Place}
    (hop : ∀ prune, g.op ≠ .ps prune) (hchild : g.child = none)
    (hentry : g.entry = some (file, entry)) (hhandle : g.handle = some handle) (n : Nat) :
    Keeps parseTime (fun g' _ => g'.op = g.op) (Cmd.awaitExit entry pid handle n) g := by
  induction n generalizing g with
  | zero => exact ⟨⟨hop, hchild, file, hentry, hhandle⟩, fun _ => rfl⟩
  | succ n ih =>
      refine Follows.performThen trivial fun seen => ?_
      cases seen with
      | none => exact rfl
      | some seen =>
          exact ih (g := g.advance parseTime (.pidAlive pid) (some seen)) hop hchild hentry hhandle

/-- What a file that could be read says. -/
theorem bind_parse_eq_some {found : Option Entry} {entry : Entry} {pf : PidFile}
    (h : (found.bind fun entry => (entry.parse parseTime).map fun pf => (entry, pf)) =
      some (entry, pf)) : found = some entry ∧ entry.parse parseTime = some pf := by
  obtain ⟨entry', hfound, hmap⟩ := Option.bind_eq_some_iff.mp h
  obtain ⟨pf', hparse, heq⟩ := Option.map_eq_some_iff.mp hmap
  cases heq
  exact ⟨hfound, hparse⟩

theorem follows_tunnelStop {name : String} :
    Keeps parseTime (fun _ _ => True) (Cmd.tunnelStop parseTime name)
      { op := .tunnelStop name } := by
  refine Follows.performThen trivial fun found => ?_
  cases found with
  | false => trivial
  | true =>
      refine Follows.bind ((@follows_readPidFile parseTime (.tunnel name) _ (by exact rfl)).mono ?_)
      rintro g r ⟨found, rfl, hr⟩
      cases r with
      | none => trivial
      | some r =>
          obtain ⟨entry, pf⟩ := r
          obtain ⟨rfl, hparse⟩ := bind_parse_eq_some hr.symm
          have hop : ∀ prune, Op.tunnelStop name ≠ .ps prune := fun _ => Op.noConfusion
          refine Follows.performThen ⟨.tunnel name, entry, pf, rfl, hparse, rfl⟩ fun handle => ?_
          refine Follows.performThen ⟨hop, rfl, .tunnel name, rfl, rfl⟩ fun _ => ?_
          refine Follows.bind ((follows_awaitExit hop rfl rfl rfl 30).mono ?_)
          intro g _ hop
          refine ⟨?_, fun _ => trivial⟩
          intro prune hprune
          cases hop.symm.trans hprune

theorem follows_terminateRounds {file : File} {entry : Entry} {pid : Int} {handle : Handle}
    {g : Place} (hop : ∀ prune, g.op ≠ .ps prune) (hchild : g.child = none)
    (hentry : g.entry = some (file, entry)) (hhandle : g.handle = some handle) (hbusy : g.busy = true) (n : Nat) :
    Keeps parseTime (fun g' ended => ended = true → g'.busy = true)
      (Cmd.terminateRounds entry pid handle n) g := by
  have hlast : ∀ g : Place, (∀ prune, g.op ≠ .ps prune) → g.child = none → g.entry = some (file, entry) → g.handle = some handle →
      g.busy = true →
      Keeps parseTime (fun g' ended => ended = true → g'.busy = true)
        (Cmd.perform (.signal entry handle 9)) g := by
    intro g hop hchild hentry hhandle hbusy
    refine ⟨⟨hop, hchild, file, hentry, hhandle⟩, fun sent => ?_⟩
    intro hsent
    change (g.busy && !(decide ((9 : Nat) = 9) && !sent)) = true
    change sent = true at hsent
    rw [hbusy, hsent]
    rfl
  induction n generalizing g with
  | zero =>
      refine Follows.performThen trivial fun seen => ?_
      cases seen with
      | none => exact fun _ => hbusy
      | some seen => exact hlast _ hop hchild hentry hhandle hbusy
  | succ n ih =>
      refine Follows.performThen trivial fun before => ?_
      cases before with
      | true =>
          refine Follows.performThen trivial fun seen => ?_
          cases seen with
          | none => exact fun _ => hbusy
          | some seen =>
              exact ih (g := g.advance parseTime (.pidAlive pid) (some seen)) hop hchild hentry hhandle hbusy
      | false =>
          refine Follows.performThen trivial fun seen => ?_
          cases seen with
          | none => exact fun _ => hbusy
          | some seen => exact hlast _ hop hchild hentry hhandle hbusy

theorem follows_daemonStop :
    Keeps parseTime (fun _ _ => True) (Cmd.daemonStop parseTime) { op := .daemonStop } := by
  refine Follows.bind ((@follows_readPidFile parseTime .daemon _ (by exact rfl)).mono ?_)
  rintro g r ⟨found, rfl, hr⟩
  cases r with
  | none => trivial
  | some r =>
      obtain ⟨entry, pf⟩ := r
      obtain ⟨rfl, hparse⟩ := bind_parse_eq_some hr.symm
      have hbusy : (Place.advance parseTime { op := .daemonStop } (.read .daemon)
          (some entry)).busy = true := by
        change ((some entry).bind (Entry.parse parseTime)).isSome = true
        rw [Option.bind_some, hparse]
        rfl
      refine Follows.performThen trivial fun seen => ?_
      cases seen with
      | none => exact ⟨hbusy, fun _ => trivial⟩
      | some seen =>
          refine Follows.bind ?_
          have hop : ∀ prune, Op.daemonStop ≠ .ps prune := fun _ => Op.noConfusion
          refine Follows.performThen ⟨.daemon, entry, pf, rfl, hparse, rfl⟩ fun handle => ?_
          refine Follows.performThen ⟨hop, rfl, .daemon, rfl, rfl⟩ fun sent => ?_
          have hstill : ∀ r, (Place.advance parseTime { op := .daemonStop } (.read .daemon)
              (some entry)).busy && !(decide ((15 : Nat) = 9) && !r) = true := by
            intro r
            rw [hbusy]
            rfl
          refine (follows_terminateRounds hop rfl rfl rfl (hstill sent) 300).mono ?_
          intro g ended hended
          cases ended with
          | true => exact ⟨hended rfl, fun _ => trivial⟩
          | false => trivial

theorem follows_launchDaemon {binaryPath : List Char} {g : Place}
    (hstart : g.Allowed parseTime (.start .daemon)) :
    Keeps parseTime (fun _ _ => True) (Cmd.launchDaemon binaryPath) g := by
  refine Follows.performThen hstart fun child => ?_
  cases child with
  | none => trivial
  | some child =>
      refine Follows.performThen trivial fun time => ?_
      have hbusy : (g.busy && (some child).isSome) = true := by
        rw [hstart.2.1]
        rfl
      have hwrite := @follows_writePidFile parseTime .daemon 0 child time binaryPath
        { g with child := some child, busy := g.busy && true, time := some time }
        hstart.2.2.1 rfl rfl ⟨hstart.1, hbusy⟩ (.inl rfl)
      refine Follows.bind (hwrite.mono ?_)
      intro g written hop
      trivial

theorem follows_daemonStart {binaryPath : List Char} :
    Keeps parseTime (fun _ _ => True) (Cmd.daemonStart parseTime binaryPath)
      { op := .daemonStart binaryPath } := by
  refine Follows.bind ((@follows_readPidFile parseTime .daemon _ (by exact rfl)).mono ?_)
  rintro g r ⟨found, rfl, hr⟩
  cases r with
  | none =>
      apply follows_launchDaemon
      refine ⟨⟨binaryPath, rfl⟩, rfl, rfl, rfl, ?_⟩
      intro file entry pf hentry hparse
      cases found with
      | none => cases hentry
      | some entry' =>
          cases hentry
          rw [Option.bind_some, hparse] at hr
          cases hr
  | some r =>
      obtain ⟨entry, pf⟩ := r
      obtain ⟨rfl, hparse⟩ := bind_parse_eq_some hr.symm
      refine Follows.performThen trivial fun seen => ?_
      cases seen with
      | some seen => exact ⟨⟨fun _ => Op.noConfusion, rfl, pf, rfl, hparse, rfl⟩, fun _ => trivial⟩
      | none =>
          apply follows_launchDaemon
          refine ⟨⟨binaryPath, rfl⟩, rfl, rfl, rfl, ?_⟩
          intro file entry' pf' hentry hparse'
          cases hentry
          rw [hparse] at hparse'
          cases hparse'
          rfl

theorem judge_subset (g : Place) (n : Int) (seen : Option Proc) :
    g.judged ⊆ g.judge parseTime n seen := by
  unfold Place.judge
  split
  · split
    · exact List.subset_cons_self ..
    · exact List.Subset.refl _
  · exact List.Subset.refl _

/-- Every tunnel found to be a zombie has been judged so. -/
theorem follows_listRunningTunnels (names : List String) {g : Place}
    (hop : g.op.startsDaemon = false) :
    Keeps parseTime
      (fun g' tunnels => g'.op = g.op ∧ g.judged ⊆ g'.judged ∧
        ∀ name, (name, Status.zombie) ∈ tunnels → name ∈ g'.judged)
      (Cmd.listRunningTunnels parseTime names) g := by
  induction names generalizing g with
  | nil => exact ⟨rfl, List.Subset.refl _, nofun⟩
  | cons name names ih =>
      refine Follows.bind ((@follows_readPidFile parseTime (.tunnel name) _ hop).mono ?_)
      rintro g' r ⟨found, rfl, hr⟩
      cases r with
      | none => exact ih (g := g.advance parseTime (.read (.tunnel name)) found) hop
      | some r =>
          obtain ⟨entry, pf⟩ := r
          obtain ⟨rfl, hparse⟩ := bind_parse_eq_some hr.symm
          refine Follows.performThen trivial fun go => ?_
          refine Follows.performThen trivial fun rust => ?_
          refine Follows.bind ((ih (by exact hop)).mono ?_)
          rintro g' tunnels ⟨hop, hjudged, htunnels⟩
          let read := g.advance parseTime (.read (.tunnel name)) (some entry)
          have hread : read.judge parseTime pf.goPid go ⊆ g'.judged :=
            List.Subset.trans (@judge_subset parseTime
              (read.advance parseTime (.pidAlive pf.goPid) go) pf.rustPid rust) hjudged
          have hgo : g.judged ⊆ g'.judged :=
            List.Subset.trans (judge_subset read pf.goPid go) hread
          refine ⟨hop, hgo, ?_⟩
          intro other hmem
          rcases List.mem_cons.mp hmem with heq | hrest
          · have hname : other = name := congrArg Prod.fst heq
            have hzombie : Status.zombie = computeTunnelStatus go.isSome rust.isSome :=
              congrArg Prod.snd heq
            cases go with
            | some p => cases rust <;> cases hzombie
            | none =>
                have hjudge : read.judge parseTime pf.goPid none = name :: g.judged := by
                  change (if (entry.parse parseTime).map PidFile.goPid = some pf.goPid then _
                    else _) = _
                  rw [hparse]
                  exact if_pos rfl
                apply hread
                rw [hjudge, hname]
                exact List.mem_cons_self
          · exact htunnels other hrest

theorem follows_removeZombies {tunnels : List (String × Status)} {g : Place}
    (hop : g.op = .ps true) (hjudged : ∀ name, (name, Status.zombie) ∈ tunnels → name ∈ g.judged) :
    Keeps parseTime (fun _ _ => True) (Cmd.removeZombies tunnels) g := by
  induction tunnels generalizing g with
  | nil => trivial
  | cons tunnel tunnels ih =>
      obtain ⟨name, status⟩ := tunnel
      have hrest : ∀ name, (name, Status.zombie) ∈ tunnels → name ∈ g.judged :=
        fun other hother => hjudged other (List.mem_cons_of_mem _ hother)
      change Keeps parseTime _ (ite _ _ _) _
      split
      · rename_i hzombie
        subst hzombie
        have hremove : g.Allowed parseTime (.remove (.tunnel name)) := by
          intro prune hprune
          cases hop.symm.trans hprune
          exact ⟨rfl, hjudged name List.mem_cons_self⟩
        refine Follows.performThen hremove fun _ => ?_
        exact ih hop hrest
      · exact ih hop hrest

theorem follows_ps {prune : Bool} :
    Keeps parseTime (fun _ _ => True) (Cmd.ps parseTime prune) { op := .ps prune } := by
  refine Follows.performThen trivial fun names => ?_
  refine Follows.bind ((follows_listRunningTunnels names rfl).mono ?_)
  rintro g tunnels ⟨hop, -, htunnels⟩
  cases prune with
  | true => exact follows_removeZombies hop htunnels
  | false => trivial

theorem follows_code (op : Op) :
    Keeps parseTime (fun _ _ => True) (op.code parseTime) { op } := by
  cases op with
  | runSupervisor name binaryPath => exact follows_runSupervisor
  | tunnelStop name => exact follows_tunnelStop
  | ps prune => exact follows_ps
  | daemonStart binaryPath => exact follows_daemonStart
  | daemonStop => exact follows_daemonStop
  | ends serial => exact ⟨rfl, fun _ => trivial⟩
  | arrives => exact ⟨trivial, fun _ => trivial⟩
  | put file text => exact ⟨rfl, fun _ => trivial⟩

/-! ## Killed commands -/

theorem abandon_eq (s : Host) (g : Place) :
    abandon s g = { s with machine := (abandon s g).machine } := by
  unfold abandon
  cases g.self <;> rfl

theorem moves_abandon (s : Host) (g : Place) (new : Proc → Prop) :
    Moves s.machine (abandon s g).machine new := by
  unfold abandon
  cases g.self with
  | none => exact Moves.refl _ _
  | some self => exact moves_ends _ _ _

theorem running_of_prog {client : Client Op Call Call.Reply Unit Place Unit} {c : Call}
    {k : c.Reply → Cmd Unit} (hprog : client.prog = some (.call c k)) :
    client.next = some c ∧ client.running = true := by
  unfold Client.running Client.next
  rw [hprog]
  exact ⟨rfl, rfl⟩

end

/-! ## Parts of runs -/

/-- What `time.Parse` makes of one text. -/
def parseNoon (line : List Char) : Option Nat :=
  if line = "2026-06-06T12:00:00Z".toList then some 1780747200 else none

/-- The calls of a client that are settled by the files and processes. -/
def calls (i n : Nat) : List (Act Op Answer) := List.replicate n (.step i {})

/-- `daemon start`, as client `i`; the daemon gets the pid 100. -/
def startRun (i : Nat) : List (Act Op Answer) :=
  [.spawn (.daemonStart "/bin/datum-connect-daemon".toList)] ++ calls i 1 ++
    [.step i { pid := 100, group := 100 }, .step i { time := "2026-06-06T12:00:00Z".toList }] ++
    calls i 2

end DatumConnect.Plugin.Commands
