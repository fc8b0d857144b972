import DatumConnect.Plugin.OneDaemon
/-!
# The pid file names the tunnel that runs

If the commands take turns, the pid file of a tunnel names the child of its supervisor, at most one
daemon runs, and `ps` removes pid files of tunnels that are gone only.
-/

namespace DatumConnect.Plugin.Commands

open DatumConnect.Lib
open DatumConnect.Lib.Pool

section

variable {parseTime : List Char → Option Nat} {pidfd : Bool} {w : Clients}

/-! ## The pid file of a supervisor -/

/-- The pid file of the tunnel names the supervisor's child. -/
def NamesChild (parseTime : List Char → Option Nat) (h : Host) (name : String) (cl : Command) :
    Prop :=
  ∃ child entry pf, cl.place.child = some child ∧ h.entry (.tunnel name) = some entry ∧
    entry.parse parseTime = some pf ∧ pf.rustPid = child.pid

/-- A supervisor that runs with its child after some processes have come and gone ran before. -/
theorem Supervises.before {h h' : Host} {new : Proc → Prop} {name : String} {cl : Command}
    (hafter : Supervises h' name cl) (hm : Moves h.machine h'.machine new)
    (hroot : Rooted parseTime h.machine cl.place) : Supervises h name cl := by
  obtain ⟨hop, hwrote, ⟨self, hself, hselfalive⟩, child, hchild, hchildalive⟩ := hafter
  refine ⟨hop, hwrote, ⟨self, hself, ?_⟩, child, hchild, ?_⟩
  · exact hm.alive (hroot.self self hself).1.old hselfalive
  · exact hm.alive (hroot.child child hchild).1.old hchildalive

/-- No call takes the pid file from a supervisor that runs with its child. -/
theorem NamesChild.kept {i : Nat} {g : Place} {c : Call} {answer : Answer} {name : String}
    {cl : Command} (h : NamesChild parseTime w.state name cl) (hcl : cl ∈ w.clients)
    (hsupervises : Supervises w.state name cl) (hturn : Undisturbed parseTime w i g answer c) :
    NamesChild parseTime (w.state.handle pidfd c answer).1 name cl := by
  obtain ⟨child, entry, pf, hchild, hentry, hrest⟩ := h
  refine ⟨child, entry, pf, hchild, ?_, hrest⟩
  rw [w.state.entry_handle answer ?_, hentry]
  intro hchanges
  cases c with
  | create file | write file entry | remove file =>
      cases hchanges
      exact hturn cl hcl hsupervises
  | put file text => exact hturn
  | _ => exact hchanges

theorem supervises_noticing {name : String} {cl : Command} {mine : Bool} {s h : Host} {c : Call}
    {answer : Answer} :
    Supervises h name (cl.noticing (system parseTime pidfd) mine s c answer) ↔
      Supervises h name cl := Iff.rfl

/-- What a call that is neither a start nor a write changes of the command. -/
theorem advance_same {g : Place} {c : Call} {r : c.Reply} (hstart : ∀ role, c ≠ .start role)
    (hwrite : ∀ file entry, c ≠ .write file entry) :
    (g.advance parseTime c r).self = g.self ∧ (g.advance parseTime c r).child = g.child ∧
      (g.advance parseTime c r).wrote = g.wrote := by
  cases c with
  | start role => exact absurd rfl (hstart role)
  | write file entry => exact absurd rfl (hwrite file entry)
  | remove file => cases file <;> exact ⟨rfl, rfl, rfl⟩
  | _ => exact ⟨rfl, rfl, rfl⟩

/-- The supervisor that has made the call. -/
theorem namesChild_moved {i : Nat} {client : Command} {c : Call} {k : c.Reply → Cmd Unit}
    {answer : Answer} {name : String} (hbase : Base parseTime pidfd w)
    (h : ∀ (i : Nat) (cl : Command) (name : String), w.clients[i]? = some cl →
      Supervises w.state name cl → NamesChild parseTime w.state name cl)
    (hclient : w.clients[i]? = some client) (hallowed : client.place.Allowed parseTime c)
    (hturn : Undisturbed parseTime w i client.place answer c)
    (hafter : Supervises (w.state.handle pidfd c answer).1 name
      (client.moved (system parseTime pidfd) w.state c k answer)) :
    NamesChild parseTime (w.state.handle pidfd c answer).1 name
      (client.moved (system parseTime pidfd) w.state c k answer) := by
  have hroot := hbase.rooted i client hclient
  have hplace : (client.moved (system parseTime pidfd) w.state c k answer).place =
      client.place.advance parseTime c (w.state.handle pidfd c answer).2 := rfl
  have hop : (client.moved (system parseTime pidfd) w.state c k answer).place.op =
      client.place.op := advance_op _ _ _
  by_cases hstart : ∃ role, c = .start role
  · exfalso
    obtain ⟨role, rfl⟩ := hstart
    have hwrote := hafter.2.1
    have hbefore : client.place.wrote = false := by
      cases role with
      | supervisor | child => exact hallowed.1
      | daemon => exact hallowed.2.2.1
      | other => exact hallowed.elim
    have hsame : (client.moved (system parseTime pidfd) w.state (.start role) k answer).place.wrote =
        client.place.wrote := by
      cases role <;> rfl
    rw [hsame, hbefore] at hwrote
    cases hwrote
  by_cases hwrite : ∃ file entry, c = .write file entry
  · obtain ⟨file, entry, rfl⟩ := hwrite
    obtain ⟨hwrote, hwrites, child, time, binaryPath, goPid, hchild, htime, hentry, hgo⟩ := hallowed
    obtain ⟨path, hsupervisor⟩ := supervises_eq (hop ▸ hafter.1)
    have hok : answer.ok = true := by
      by_contra hno
      have hreply : (w.state.handle pidfd (.write file entry) answer).2 = false := by
        simp only [Host.handle, if_neg hno]
      have hdone := hafter.2.1
      rw [hplace] at hdone
      change (w.state.handle pidfd (.write file entry) answer).2 = true at hdone
      rw [hreply] at hdone
      cases hdone
    have hfile : file = .tunnel name := by
      cases file with
      | daemon =>
          obtain ⟨⟨path', hother⟩, -⟩ := hwrites
          cases hsupervisor.symm.trans hother
      | tunnel name' =>
          obtain ⟨path', hother⟩ := hwrites
          cases hsupervisor.symm.trans hother
          rfl
    subst hfile
    have hgoPid : goPid < 2 ^ 31 := by
      rcases hgo with rfl | ⟨self, hself, rfl⟩
      · exact Nat.two_pow_pos 31
      · exact (hroot.self self hself).1.small
    have hpid := (hroot.child child hchild).1.small
    obtain ⟨hline, hparsed⟩ := hroot.time time htime
    obtain ⟨t, ht⟩ := Option.isSome_iff_exists.mp hparsed
    obtain ⟨bin, hparse⟩ := @PidFile.parse_render parseTime goPid child.pid _ binaryPath (by omega)
      (by omega) hline t ht
    have hstate : (w.state.handle pidfd (.write (.tunnel name) entry) answer).1 =
        w.state.setFile (.tunnel name) entry := by
      simp only [Host.handle, if_pos hok]
    rw [hstate, hentry]
    exact ⟨child, _, _, hchild, w.state.entry_setFile _ _, hparse, rfl⟩
  · obtain ⟨hself, hchild, hwrote⟩ := @advance_same parseTime client.place _
      (w.state.handle pidfd c answer).2 (fun role heq => hstart ⟨role, heq⟩)
      fun file entry heq => hwrite ⟨file, entry, heq⟩
    have hmid : Supervises (w.state.handle pidfd c answer).1 name client := by
      obtain ⟨hsup, hw, hs, hc⟩ := hafter
      rw [hplace] at hw hs hc
      rw [hwrote] at hw
      rw [hself] at hs
      rw [hchild] at hc
      exact ⟨hop ▸ hsup, hw, hs, hc⟩
    have hbefore := hmid.before (w.state.moves_handle c answer) hroot
    have hnames := @NamesChild.kept _ pidfd _ _ _ _ _ _ _ (h i client name hclient hbefore)
      (List.mem_of_getElem? hclient) hbefore hturn
    obtain ⟨child, entry, pf, hchild', hrest⟩ := hnames
    exact ⟨child, entry, pf, hchild.trans hchild', hrest⟩

/-! ## Tunnels that are gone -/

/-- Tunnels that `ps` has found to be zombies stay so as long as it is at work. -/
def JudgedQuiet (w : Clients) : Prop :=
  ∀ (i : Nat) (cl : Command), w.clients[i]? = some cl → cl.running = true →
    cl.place.op = .ps true → ∀ name ∈ cl.place.judged, w.state.Quiet name

/-- A tunnel comes back only by a start of its own. -/
theorem quiet_handle {s : Host} {c : Call} {answer : Answer} {name : String} (h : s.Quiet name)
    (hc : ∀ role, c = .start role → role.of name = false) :
    (s.handle pidfd c answer).1.Quiet name := by
  intro p hp
  rcases (s.moves_handle c answer).procs p hp with hold | ⟨-, -, ⟨role, hstart, rfl⟩ | ⟨-, rfl⟩⟩
  · exact h p hold
  · exact hc role hstart
  · rfl

theorem quiet_moves {h h' : Host} {name : String}
    (hm : Moves h.machine h'.machine fun _ => False) (hquiet : h.Quiet name) : h'.Quiet name := by
  intro p hp
  rcases hm.procs p hp with hold | ⟨-, hnever⟩
  · exact hquiet p hold
  · exact hnever.elim

theorem judged_advance {g : Place} {c : Call} {r : c.Reply} {name : String}
    (h : name ∈ (g.advance parseTime c r).judged) :
    name ∈ g.judged ∨ ∃ n r', c = .pidAlive n ∧ HEq r r' ∧ name ∈ g.judge parseTime n r' := by
  cases c with
  | pidAlive n => exact .inr ⟨n, r, rfl, HEq.rfl, h⟩
  | start role =>
      cases role <;> exact .inl h
  | remove file =>
      cases file <;> exact .inl h
  | _ => exact .inl h

theorem judgedQuiet_call (h : JudgedQuiet w) (hbase : Base parseTime pidfd w) {i : Nat}
    {client : Command} {c : Call} {k : c.Reply → Cmd Unit} {answer : Answer}
    (hclient : w.clients[i]? = some client) (hprog : client.prog = some (.call c k))
    (hallowed : client.place.Allowed parseTime c)
    (hself : ∀ self, client.place.self = some self → w.state.machine.Alive self.serial)
    (hturn : Undisturbed parseTime w i client.place answer c) :
    JudgedQuiet (w.called (system parseTime pidfd) i client c k answer) := by
  obtain ⟨-, hrunning⟩ := running_of_prog hprog
  intro j cl hcl hrun hop name hname
  rcases System.client_of_call hcl with ⟨rfl, rfl⟩ | ⟨hne, other, hother, rfl⟩
  · have hps : client.place.op = .ps true := (advance_op _ _ _).symm.trans hop
    have hbefore : w.state.Quiet name := by
      rcases judged_advance hname with hold | ⟨n, r, rfl, hr, hjudge⟩
      · exact h j client hclient hrunning hps name hold
      · have hsame : w.state.machine.pidAlive n = r := eq_of_heq hr
        subst hsame
        rcases hturn hps name hjudge with hold | hquiet
        · exact h j client hclient hrunning hps name hold
        · exact hquiet
    apply quiet_handle hbefore
    rintro role rfl
    exfalso
    cases role with
    | supervisor =>
        obtain ⟨-, path, hother⟩ := hallowed
        cases hps.symm.trans hother
    | child =>
        obtain ⟨-, -, path, hother⟩ := hallowed
        cases hps.symm.trans hother
    | daemon =>
        obtain ⟨⟨path, hother⟩, -⟩ := hallowed
        cases hps.symm.trans hother
    | other => exact hallowed
  · have hquiet := h j other hother hrun hop name hname
    apply quiet_handle hquiet
    rintro role rfl
    cases role with
    | daemon | other => rfl
    | supervisor name' =>
        apply decide_eq_false
        rintro rfl
        exact hturn other (List.mem_of_getElem? hother) hrun hop hname
    | child name' =>
        -- The supervisor that starts its child runs, so its tunnel is not a zombie.
        apply decide_eq_false
        rintro rfl
        obtain ⟨-, hsome, path, hsup⟩ := hallowed
        obtain ⟨self, hself'⟩ := Option.isSome_iff_exists.mp hsome
        obtain ⟨p, hp, hserial⟩ := hself self hself'
        obtain ⟨hknown, hrole⟩ := (hbase.rooted i client hclient).self self hself'
        have hpself := hknown.same p hp hserial
        have hnone := hquiet p hp
        rw [hpself, hrole name' (by rw [hsup]; exact decide_eq_true rfl)] at hnone
        exact absurd (decide_eq_true rfl) (Bool.eq_false_iff.mp hnone)

/-! ## Every run -/

structure InOrder (parseTime : List Char → Option Nat) (pidfd : Bool) (w : Clients) : Prop where
  base : Base parseTime pidfd w
  one : OneDaemon parseTime w
  child : ∀ (i : Nat) (cl : Command) (name : String), w.clients[i]? = some cl →
    Supervises w.state name cl → NamesChild parseTime w.state name cl
  judged : JudgedQuiet w

theorem inOrder_start : InOrder parseTime pidfd start := by
  have hnone : ∀ (i : Nat) (cl : Command), start.clients[i]? ≠ some cl := by
    intro i cl hcl
    cases hcl
  refine ⟨base_start, ⟨?_, nofun, ?_, ?_⟩, ?_, ?_⟩
  · exact fun i j cl cl' hcl => absurd hcl (hnone i cl)
  · exact fun i cl child hcl => absurd hcl (hnone i cl)
  · exact fun i cl hcl => absurd hcl (hnone i cl)
  · exact fun i cl name hcl => absurd hcl (hnone i cl)
  · exact fun i cl hcl => absurd hcl (hnone i cl)

theorem InOrder.call (h : InOrder parseTime pidfd w) {i : Nat} {answer : Answer}
    {client : Command} {c : Call} {k : c.Reply → Cmd Unit} (hclient : w.clients[i]? = some client)
    (hprog : client.prog = some (.call c k)) (hready : ready parseTime w (.step i answer) = true)
    (hturn : Undisturbed parseTime w i client.place answer c)
    (hbase : Base parseTime pidfd (w.called (system parseTime pidfd) i client c k answer)) :
    InOrder parseTime pidfd (w.called (system parseTime pidfd) i client c k answer) := by
  obtain ⟨hnext, -⟩ := running_of_prog hprog
  have hallowed : client.place.Allowed parseTime c := h.base.faithful.allowed hclient hprog
  have hself := (ready_call hready hclient hnext).1
  refine ⟨hbase, oneDaemon_call h.one h.base hclient hprog hallowed hturn, ?child,
    judgedQuiet_call h.judged h.base hclient hprog hallowed hself hturn⟩
  intro j cl name hcl hafter
  rcases System.client_of_call hcl with ⟨rfl, rfl⟩ | ⟨-, other, hother, rfl⟩
  · exact namesChild_moved h.base h.child hclient hallowed hturn hafter
  · have hbefore := (supervises_noticing.mp hafter).before (w.state.moves_handle c answer)
      (h.base.rooted j other hother)
    exact (h.child j other name hother hbefore).kept (List.mem_of_getElem? hother) hbefore hturn

theorem InOrder.spawned (h : InOrder parseTime pidfd w) {op : Op}
    (hbase : Base parseTime pidfd (w.spawned (system parseTime pidfd) op)) :
    InOrder parseTime pidfd (w.spawned (system parseTime pidfd) op) := by
  refine ⟨hbase, h.one.spawned, ?child, ?judged⟩
  case child =>
    intro j cl name hcl hsupervises
    rcases System.client_of_spawn hcl with hold | ⟨-, rfl⟩
    · exact h.child j cl name hold hsupervises
    · cases hsupervises.2.1
  case judged =>
    intro j cl hcl hrun hop name hname
    rcases System.client_of_spawn hcl with hold | ⟨-, rfl⟩
    · exact h.judged j cl hold hrun hop name hname
    · cases hname

theorem InOrder.dropped (h : InOrder parseTime pidfd w) {i : Nat} {client : Command}
    (hclient : w.clients[i]? = some client) (hturn : InTurn parseTime w (.drop i))
    (hbase : Base parseTime pidfd (w.dropped (system parseTime pidfd) i client)) :
    InOrder parseTime pidfd (w.dropped (system parseTime pidfd) i client) := by
  have hm := moves_abandon w.state client.place fun _ => False
  refine ⟨hbase, h.one.dropped hclient (hturn client hclient), ?child, ?judged⟩
  case child =>
    intro j cl name hcl hsupervises
    rcases System.client_of_drop hcl with ⟨-, rfl⟩ | ⟨-, hold⟩
    · -- The process of a supervisor that is killed has ended.
      exfalso
      obtain ⟨-, -, ⟨self, hself, p, hp, hserial⟩, -⟩ := hsupervises
      change client.place.self = some self at hself
      change p ∈ (abandon w.state client.place).machine.procs at hp
      unfold abandon at hp
      rw [hself] at hp
      exact (Machine.mem_ends.mp hp).2 hserial
    · have hbefore := hsupervises.before hm (h.base.rooted j cl hold)
      obtain ⟨child, entry, pf, hchild, hentry, hrest⟩ := h.child j cl name hold hbefore
      refine ⟨child, entry, pf, hchild, ?_, hrest⟩
      change (abandon w.state client.place).entry (.tunnel name) = _
      rw [abandon_eq]
      exact hentry
  case judged =>
    intro j cl hcl hrun hop name hname
    rcases System.client_of_drop hcl with ⟨-, rfl⟩ | ⟨-, hold⟩
    · cases hrun
    · exact quiet_moves hm (h.judged j cl hold hrun hop name hname)

theorem inOrder_step (w : Clients) (act : Act Op Answer) (w' : Clients)
    (h : InOrder parseTime pidfd w) (hturn : InTurn parseTime w act)
    (hstep : step parseTime pidfd w act = some w') : InOrder parseTime pidfd w' := by
  have hbase := base_step w act w' h.base hstep
  obtain ⟨hready, hstep'⟩ := System.of_stepWhen hstep
  cases act with
  | spawn op =>
      have hw' := System.step_spawn hstep'
      subst hw'
      exact h.spawned hbase
  | step i answer =>
      obtain ⟨client, c, k, hclient, hprog, rfl⟩ := System.step_call hstep'
      exact h.call hclient hprog hready
        (hturn client hclient c (running_of_prog hprog).1) hbase
  | drop i =>
      obtain ⟨client, c, k, hclient, hprog, rfl⟩ := System.step_drop hstep'
      exact h.dropped hclient hturn hbase

/-- If the commands take turns, the pid file of a tunnel names the child of a supervisor that has
written it and runs with its child, at most one daemon runs, and the pid file that `ps` is about
to remove is of a tunnel none of whose processes runs. -/
theorem pidFiles_in_turn {acts : List (Act Op Answer)}
    (hmeets : Runs.Meets (step parseTime pidfd) (InTurn parseTime) start acts)
    (hrun : Runs.run (step parseTime pidfd) start acts = some w) :
    (∀ (i : Nat) (cl : Command) (name : String) (binaryPath : List Char) (self child : Proc),
      w.clients[i]? = some cl → cl.op = .runSupervisor name binaryPath → cl.place.wrote = true →
      cl.place.self = some self → w.state.machine.Alive self.serial →
      cl.place.child = some child → w.state.machine.Alive child.serial →
      ∃ entry pf, w.state.entry (.tunnel name) = some entry ∧ entry.parse parseTime = some pf ∧
        pf.rustPid = child.pid) ∧
    (∀ p ∈ w.state.machine.procs, ∀ q ∈ w.state.machine.procs, p.role = .daemon →
      q.role = .daemon → p = q) ∧
    ∀ (i : Nat) (cl : Command) (prune : Bool) (name : String), w.clients[i]? = some cl →
      cl.op = .ps prune → cl.next = some (.remove (.tunnel name)) → w.state.Quiet name := by
  have h : InOrder parseTime pidfd w := Runs.invariant inOrder_step inOrder_start hmeets hrun
  refine ⟨?_, ?_, ?_⟩
  · intro i cl name binaryPath self child hcl hop hwrote hself hselfalive hchild hchildalive
    have hsup : cl.place.op.supervises name = true := by
      rw [h.base.op i cl hcl, hop]
      exact decide_eq_true rfl
    obtain ⟨child', entry, pf, hchild', hrest⟩ := h.child i cl name hcl
      ⟨hsup, hwrote, ⟨self, hself, hselfalive⟩, child, hchild, hchildalive⟩
    rw [hchild] at hchild'
    cases hchild'
    exact ⟨entry, pf, hrest⟩
  · exact fun p hp q hq hprole hqrole => h.one.eq hp hq hprole hqrole
  · intro i cl prune name hcl hop hnext
    obtain ⟨k, hprog⟩ := System.prog_of_next hnext
    have hallowed : cl.place.Allowed parseTime (.remove (.tunnel name)) :=
      h.base.faithful.allowed hcl hprog
    have hplace := (h.base.op i cl hcl).trans hop
    obtain ⟨rfl, hjudged⟩ := hallowed prune hplace
    exact h.judged i cl hcl (running_of_prog hprog).2 hplace name hjudged

end

/-! ## Runs -/

/-- `RunSupervisor`, as client `i`, up to its write; its processes get the pid and the next one. -/
def superviseRun (i pid : Nat) : List (Act Op Answer) :=
  [.spawn (.runSupervisor "web" "/bin/datum-connect".toList), .step i { pid, group := pid },
    .step i { pid := pid + 1, group := pid },
    .step i { time := "2026-06-06T12:00:00Z".toList }] ++ calls i 2

/-- What the tunnel's pid file says. -/
def rustPid (w : Clients) : Option Int :=
  ((w.state.entry (.tunnel "web")).bind (Entry.parse parseNoon)).map PidFile.rustPid

/-- A daemon is started, stopped and started again, and a tunnel supervised. -/
def orderlyRun : List (Act Op Answer) :=
  startRun 0 ++ [.spawn .daemonStop] ++ calls 1 4 ++ [.spawn (.ends 0)] ++ calls 2 1 ++ calls 1 3 ++
    startRun 3 ++ superviseRun 4 10 ++ [.spawn (.ps true)] ++ calls 5 4

theorem pidFiles_in_turn_web :
    ∃ w, Runs.run (step parseNoon true) start orderlyRun = some w ∧
      (∃ entry pf, w.state.entry (.tunnel "web") = some entry ∧
        entry.parse parseNoon = some pf ∧ pf.rustPid = (11 : Nat)) ∧
      ∀ p ∈ w.state.machine.procs, ∀ q ∈ w.state.machine.procs, p.role = .daemon →
        q.role = .daemon → p = q := by
  have hmeets : Runs.Meets (step parseNoon true) (InTurn parseNoon) start orderlyRun := by
    decide +kernel
  have hrun : ((Runs.run (step parseNoon true) start orderlyRun).isSome = true) := by
    decide +kernel
  obtain ⟨w, hw⟩ := Option.isSome_iff_exists.mp hrun
  -- Every fact about the last world is read off the run that reached it.
  have hlast {α : Type} (f : Clients → α) {a : α}
      (h : (Runs.run (step parseNoon true) start orderlyRun).map f = some a) : f w = a := by
    rw [hw] at h
    exact Option.some.inj h
  have hop := hlast (fun w => (w.clients[4]?).map fun cl => (cl.op, cl.place.wrote))
    (a := some (.runSupervisor "web" "/bin/datum-connect".toList, true)) (by decide +kernel)
  have hself := hlast (fun w => (w.clients[4]?).map fun cl => cl.place.self)
    (a := some (some ⟨2, 10, 10, true, .supervisor "web"⟩)) (by decide +kernel)
  have hchild := hlast (fun w => (w.clients[4]?).map fun cl => cl.place.child)
    (a := some (some ⟨3, 11, 10, true, .child "web"⟩)) (by decide +kernel)
  have halive := hlast (fun w => (decide (w.state.machine.Alive 2), decide (w.state.machine.Alive 3)))
    (a := (true, true)) (by decide +kernel)
  obtain ⟨cl, hcl, hop⟩ := Option.map_eq_some_iff.mp hop
  rw [hcl] at hself hchild
  rw [Prod.mk.injEq] at hop halive
  have h := pidFiles_in_turn hmeets hw
  exact ⟨w, hw, h.1 4 cl "web" _ _ _ hcl hop.1 hop.2 (Option.some.inj hself)
    (of_decide_eq_true halive.1) (Option.some.inj hchild) (of_decide_eq_true halive.2), h.2.1⟩

/-- A second supervisor takes the pid file from the first, whose child, with the pid 11, goes on;
two starts at a time start two daemons; and `ps` is about to remove the pid file of a tunnel whose
child has outlived its supervisor. -/
theorem pidFiles_disturbed :
    ((Runs.run (step parseNoon true) start (superviseRun 0 10 ++ superviseRun 1 20)).map fun w =>
      (w.state.machine.procs.map Proc.pid, (w.clients[0]?).map fun cl => cl.place.wrote,
        rustPid w)) = some ([10, 11, 20, 21], some true, some 21) ∧
    ((Runs.run (step parseNoon true) start ([.spawn (.daemonStart []), .spawn (.daemonStart [])] ++
        calls 0 1 ++ calls 1 1 ++ [.step 0 { pid := 100 }, .step 1 { pid := 101 }])).map fun w =>
      w.state.machine.procs.map Proc.role) = some [.daemon, .daemon] ∧
    ((Runs.run (step parseNoon true) start (superviseRun 0 10 ++ [.drop 0, .spawn (.ps true)] ++
        calls 1 4)).map fun w =>
      ((w.clients[1]?).bind Client.next, w.state.machine.procs.map Proc.role)) =
      some (some (.remove (.tunnel "web")), [.child "web"]) := by
  refine ⟨?_, ?_, ?_⟩ <;> decide +kernel

end DatumConnect.Plugin.Commands
