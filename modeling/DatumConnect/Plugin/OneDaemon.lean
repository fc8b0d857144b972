import DatumConnect.Plugin.Turns
/-!
# One daemon at a time

`daemon start` looks at the pid file and at the process it names before it starts a daemon.  If no
other daemon command is under way in between, and none loses the file, at most one daemon runs.
-/

namespace DatumConnect.Plugin.Commands

open DatumConnect.Lib
open DatumConnect.Lib.Pool

section

variable (parseTime : List Char → Option Nat)

/-- The daemon's pid file names the process. -/
def NamedIn (h : Host) (p : Proc) : Prop :=
  ∃ entry pf, h.entry .daemon = some entry ∧ entry.recorded = some p.serial ∧
    entry.parse parseTime = some pf ∧ pf.rustPid = p.pid

/-- A `daemon start` on its way from its look at the pid file to its write. -/
structure Starter (cl : Command) : Prop where
  busy : cl.has Place.busy = true
  starts : cl.place.op.startsDaemon = true
  unwritten : cl.place.wrote = false

/-- What a `daemon start` that has not started one yet has read and seen. -/
structure Looked (h : Host) (g : Place) : Prop where
  entry : g.entry = (h.entry .daemon).map fun entry => (.daemon, entry)
  dead : ∀ entry pf, g.entry = some (.daemon, entry) → entry.parse parseTime = some pf →
    g.seen = some (pf.rustPid, none) → h.NoDaemon

structure OneDaemon (w : Clients) : Prop where
  excl : System.Exclusive Place.busy w
  named : ∀ p ∈ w.state.machine.procs, p.role = .daemon → NamedIn parseTime w.state p ∨
    ∃ (i : Nat) (cl : Command), w.clients[i]? = some cl ∧ Starter cl ∧ cl.place.child = some p
  pending : ∀ (i : Nat) (cl : Command) (child : Proc), w.clients[i]? = some cl → Starter cl →
    cl.place.child = some child → ∀ p ∈ w.state.machine.procs, p.role = .daemon → p = child
  looked : ∀ (i : Nat) (cl : Command), w.clients[i]? = some cl → Starter cl →
    cl.place.child = none → Looked parseTime w.state cl.place

variable {parseTime} {pidfd : Bool} {w : Clients}

theorem OneDaemon.eq (h : OneDaemon parseTime w) {p q : Proc} (hp : p ∈ w.state.machine.procs)
    (hq : q ∈ w.state.machine.procs) (hprole : p.role = .daemon) (hqrole : q.role = .daemon) :
    p = q := by
  rcases h.named p hp hprole with hpnamed | ⟨i, cl, hcl, hstarter, hchild⟩
  · rcases h.named q hq hqrole with hqnamed | ⟨i, cl, hcl, hstarter, hchild⟩
    · obtain ⟨entry, pf, hentry, hrecorded, -⟩ := hpnamed
      obtain ⟨entry', pf', hentry', hrecorded', -⟩ := hqnamed
      rw [hentry] at hentry'
      cases hentry'
      rw [hrecorded] at hrecorded'
      exact Machine.eq_of_serial hp hq (Option.some.inj hrecorded')
    · exact h.pending i cl q hcl hstarter hchild p hp hprole
  · exact (h.pending i cl p hcl hstarter hchild q hq hqrole).symm

/-- No other command is busy beside one that is. -/
theorem OneDaemon.alone (h : OneDaemon parseTime w) {i j : Nat} {client cl : Command}
    (hclient : w.clients[i]? = some client) (hcl : w.clients[j]? = some cl)
    (hbusy : client.has Place.busy = true) (hstarter : Starter cl) : j = i :=
  h.excl j i cl client hcl hclient hstarter.busy hbusy

/-- Where a daemon is about to be started none runs. -/
theorem OneDaemon.clear (h : OneDaemon parseTime w) {i : Nat} {client : Command}
    (hclient : w.clients[i]? = some client) (hstarter : Starter client)
    (hchild : client.place.child = none)
    (hseen : ∀ file entry pf, client.place.entry = some (file, entry) →
      entry.parse parseTime = some pf → client.place.seen = some (pf.rustPid, none)) :
    w.state.NoDaemon := by
  intro p hp hrole
  have hlooked := h.looked i client hclient hstarter hchild
  rcases h.named p hp hrole with ⟨entry, pf, hentry, -, hparse, -⟩ | ⟨j, cl, hcl, hother, hpending⟩
  · have hread : client.place.entry = some (.daemon, entry) := by
      rw [hlooked.entry, hentry]
      rfl
    exact hlooked.dead entry pf hread hparse (hseen .daemon entry pf hread hparse) p hp hrole
  · have hsame := h.alone hclient hcl hstarter.busy hother
    subst hsame
    rw [hclient] at hcl
    cases hcl
    rw [hchild] at hpending
    cases hpending

theorem Starter.noticing {cl : Command} {mine : Bool} {s : Host} {c : Call} {answer : Answer} :
    Starter (cl.noticing (system parseTime pidfd) mine s c answer) ↔ Starter cl :=
  ⟨fun h => ⟨h.busy, h.starts, h.unwritten⟩, fun h => ⟨h.busy, h.starts, h.unwritten⟩⟩

/-- A call that changes neither the daemon's pid file nor which daemons run. -/
theorem OneDaemon.called (h : OneDaemon parseTime w) {i : Nat} {client : Command} {c : Call}
    {k : c.Reply → Cmd Unit} {answer : Answer} (hclient : w.clients[i]? = some client)
    (hprog : client.prog = some (.call c k))
    (hentry : (w.state.handle pidfd c answer).1.entry .daemon = w.state.entry .daemon)
    (hdaemons : ∀ p ∈ (w.state.handle pidfd c answer).1.machine.procs, p.role = .daemon →
      p ∈ w.state.machine.procs)
    (hbusy : (client.moved (system parseTime pidfd) w.state c k answer).place.busy = true →
      client.place.busy = true ∨
        client.place.child = none ∧ ∀ cl ∈ w.clients, cl.has Place.busy = false)
    (hkept : client.place.op.startsDaemon = true →
      let g := (client.moved (system parseTime pidfd) w.state c k answer).place
      g.child = client.place.child ∧ g.wrote = client.place.wrote ∧
        (g.busy = client.place.busy ∨ client.place.child = none))
    (hlooked : Starter (client.moved (system parseTime pidfd) w.state c k answer) →
      client.place.child = none →
      Looked parseTime (w.state.handle pidfd c answer).1
        (client.moved (system parseTime pidfd) w.state c k answer).place) :
    OneDaemon parseTime (w.called (system parseTime pidfd) i client c k answer) := by
  have hop : (client.moved (system parseTime pidfd) w.state c k answer).place.op =
      client.place.op := advance_op _ _ _
  have hnodaemon : w.state.NoDaemon → (w.state.handle pidfd c answer).1.NoDaemon :=
    fun hnone p hp hrole => hnone p (hdaemons p hp hrole) hrole
  constructor
  case excl =>
    apply h.excl.called hclient
    intro hhas
    exact (hbusy (Client.place_of_has hhas)).imp (fun hwas => Client.has_of_prog hprog hwas)
      And.right
  case named =>
    intro p hp hrole
    rcases h.named p (hdaemons p hp hrole) hrole with hnamed | ⟨j, cl, hcl, hstarter, hchild⟩
    · left
      obtain ⟨entry, pf, hread, hrest⟩ := hnamed
      exact ⟨entry, pf, hentry.trans hread, hrest⟩
    · right
      by_cases hji : j = i
      · subst hji
        rw [hclient] at hcl
        cases hcl
        obtain ⟨hsame, hwrote, hstill⟩ := hkept hstarter.starts
        have hstill : (client.moved (system parseTime pidfd) w.state c k answer).place.busy =
            client.place.busy := by
          rcases hstill with hstill | hnone
          · exact hstill
          · rw [hchild] at hnone
            cases hnone
        refine ⟨j, _, System.called_self hclient, ⟨?_, ?_, ?_⟩, hsame.trans hchild⟩
        · exact Client.has_of_prog rfl (hstill.trans (Client.place_of_has hstarter.busy))
        · rw [hop]
          exact hstarter.starts
        · exact hwrote.trans hstarter.unwritten
      · exact ⟨j, _, System.called_other hcl hji, Starter.noticing.mpr hstarter, hchild⟩
  case pending =>
    intro j cl child hcl hstarter hchild p hp hrole
    rcases System.client_of_call hcl with ⟨rfl, rfl⟩ | ⟨-, other, hother, rfl⟩
    · have hstarts := hop ▸ hstarter.starts
      obtain ⟨hsame, hwrote, -⟩ := hkept hstarts
      rcases hbusy (Client.place_of_has hstarter.busy) with hwas | ⟨hnone, -⟩
      · have hbefore : Starter client :=
          ⟨Client.has_of_prog hprog hwas, hstarts, hwrote ▸ hstarter.unwritten⟩
        exact h.pending j client child hclient hbefore (hsame ▸ hchild) p
          (hdaemons p hp hrole) hrole
      · rw [hsame, hnone] at hchild
        cases hchild
    · exact h.pending j other child hother (Starter.noticing.mp hstarter) hchild p
        (hdaemons p hp hrole) hrole
  case looked =>
    intro j cl hcl hstarter hchild
    rcases System.client_of_call hcl with ⟨rfl, rfl⟩ | ⟨-, other, hother, rfl⟩
    · have hstarts := hop ▸ hstarter.starts
      exact hlooked hstarter ((hkept hstarts).1 ▸ hchild)
    · have hbefore := h.looked j other hother (Starter.noticing.mp hstarter) hchild
      constructor
      · exact hbefore.entry.trans (congrArg _ hentry.symm)
      · intro entry pf hread hparse hseen
        exact hnodaemon (hbefore.dead entry pf hread hparse hseen)

/-- A call of a busy command: no other `daemon start` is under way. -/
theorem OneDaemon.solo (h : OneDaemon parseTime w) {i : Nat} {client : Command} {c : Call}
    {k : c.Reply → Cmd Unit} {answer : Answer} (hclient : w.clients[i]? = some client)
    (hbusy : client.has Place.busy = true)
    (hnamed : ∀ p ∈ (w.state.handle pidfd c answer).1.machine.procs, p.role = .daemon →
      NamedIn parseTime (w.state.handle pidfd c answer).1 p ∨
        Starter (client.moved (system parseTime pidfd) w.state c k answer) ∧
          (client.moved (system parseTime pidfd) w.state c k answer).place.child = some p)
    (hpending : ∀ child,
      (client.moved (system parseTime pidfd) w.state c k answer).place.child = some child →
      Starter (client.moved (system parseTime pidfd) w.state c k answer) →
      ∀ p ∈ (w.state.handle pidfd c answer).1.machine.procs, p.role = .daemon → p = child)
    (hlooked : Starter (client.moved (system parseTime pidfd) w.state c k answer) →
      (client.moved (system parseTime pidfd) w.state c k answer).place.child = none → False) :
    OneDaemon parseTime (w.called (system parseTime pidfd) i client c k answer) where
  excl := h.excl.called hclient fun _ => .inl hbusy
  named := by
    intro p hp hrole
    refine (hnamed p hp hrole).imp_right ?_
    rintro ⟨hstarter, hchild⟩
    exact ⟨i, _, System.called_self hclient, hstarter, hchild⟩
  pending := by
    intro j cl child hcl hstarter hchild p hp hrole
    rcases System.client_of_call hcl with ⟨rfl, rfl⟩ | ⟨hne, other, hother, rfl⟩
    · exact hpending child hchild hstarter p hp hrole
    · exact absurd (h.alone hclient hother hbusy (Starter.noticing.mp hstarter)) hne
  looked := by
    intro j cl hcl hstarter hchild
    rcases System.client_of_call hcl with ⟨rfl, rfl⟩ | ⟨hne, other, hother, rfl⟩
    · exact (hlooked hstarter hchild).elim
    · exact absurd (h.alone hclient hother hbusy (Starter.noticing.mp hstarter)) hne

/-- A call after which the command stands where it stood. -/
theorem OneDaemon.plain (h : OneDaemon parseTime w) {i : Nat} {client : Command} {c : Call}
    {k : c.Reply → Cmd Unit} {answer : Answer} (hclient : w.clients[i]? = some client)
    (hprog : client.prog = some (.call c k))
    (hentry : (w.state.handle pidfd c answer).1.entry .daemon = w.state.entry .daemon)
    (hdaemons : ∀ p ∈ (w.state.handle pidfd c answer).1.machine.procs, p.role = .daemon →
      p ∈ w.state.machine.procs)
    (hsame : let g := (client.moved (system parseTime pidfd) w.state c k answer).place
      g.child = client.place.child ∧ g.wrote = client.place.wrote ∧
        g.entry = client.place.entry ∧ g.seen = client.place.seen ∧
        (g.busy = client.place.busy ∨ g.busy = false ∧ client.place.child = none)) :
    OneDaemon parseTime (w.called (system parseTime pidfd) i client c k answer) := by
  obtain ⟨hchild, hwrote, hread, hseen, hbusy⟩ := hsame
  have hback : (client.moved (system parseTime pidfd) w.state c k answer).place.busy = true →
      client.place.busy = true := by
    intro hafter
    rcases hbusy with hbusy | ⟨hbusy, -⟩
    · exact hbusy ▸ hafter
    · rw [hbusy] at hafter
      cases hafter
  refine h.called hclient hprog hentry hdaemons (fun hafter => .inl (hback hafter)) ?_ ?_
  · exact fun _ => ⟨hchild, hwrote, hbusy.imp_right And.right⟩
  · intro hstarter hnone
    have hop : (client.moved (system parseTime pidfd) w.state c k answer).place.op =
        client.place.op := advance_op _ _ _
    have hbefore : Starter client :=
      ⟨Client.has_of_prog hprog (hback (Client.place_of_has hstarter.busy)),
        hop ▸ hstarter.starts, hwrote ▸ hstarter.unwritten⟩
    have hlooked := h.looked i client hclient hbefore hnone
    constructor
    · rw [hread, hlooked.entry, hentry]
    · intro entry pf hentry' hparse hseen' p hp hrole
      rw [hread] at hentry'
      rw [hseen] at hseen'
      exact hlooked.dead entry pf hentry' hparse hseen' p (hdaemons p hp hrole) hrole

/-- Only a `daemon start` starts daemons. -/
theorem daemons_handle (s : Host) {c : Call} (answer : Answer) (hc : c ≠ .start .daemon) :
    ∀ p ∈ (s.handle pidfd c answer).1.machine.procs, p.role = .daemon → p ∈ s.machine.procs := by
  intro p hp hrole
  rcases (s.moves_handle c answer).procs p hp with hold | ⟨-, -, hnew⟩
  · exact hold
  · exfalso
    rcases hnew with ⟨role, rfl, rfl⟩ | ⟨-, rfl⟩
    · have hdaemon : role = .daemon := hrole
      subst hdaemon
      exact hc rfl
    · cases hrole

/-! ## The calls of the daemon commands -/

section

variable {i : Nat} {client : Command} {answer : Answer}

theorem OneDaemon.read (h : OneDaemon parseTime w)
    {k : (Call.read .daemon).Reply → Cmd Unit} (hclient : w.clients[i]? = some client)
    (hprog : client.prog = some (.call (.read .daemon) k))
    (hallowed : client.place.Allowed parseTime (.read .daemon))
    (halone : Undisturbed parseTime w i client.place answer (.read .daemon)) :
    OneDaemon parseTime (w.called (system parseTime pidfd) i client (.read .daemon) k answer) := by
  have hchild : client.place.child = none := hallowed
  refine h.called hclient hprog rfl (fun _ hp _ => hp) ?_ (fun _ => ⟨rfl, rfl, .inr hchild⟩) ?_
  · intro _
    by_cases hbusy : client.place.busy = true
    · exact .inl hbusy
    · refine .inr ⟨hchild, ?_⟩
      intro cl hcl
      obtain ⟨j, hlt, hj⟩ := List.getElem_of_mem hcl
      have hget : w.clients[j]? = some cl := List.getElem?_eq_some_iff.mpr ⟨hlt, hj⟩
      by_cases hji : j = i
      · subst hji
        rw [hclient] at hget
        cases hget
        rw [Client.has, Bool.eq_false_iff.mpr hbusy, Bool.and_false]
      · exact halone j hlt hji cl hget
  · exact fun _ _ => ⟨rfl, fun _ _ _ _ hseen => by cases hseen⟩

theorem OneDaemon.pidAlive (h : OneDaemon parseTime w) (hbase : Base parseTime pidfd w) {n : Int}
    {k : (Call.pidAlive n).Reply → Cmd Unit} (hclient : w.clients[i]? = some client)
    (hprog : client.prog = some (.call (.pidAlive n) k)) :
    OneDaemon parseTime (w.called (system parseTime pidfd) i client (.pidAlive n) k answer) := by
  refine h.called hclient hprog rfl (fun _ hp _ => hp) .inl (fun _ => ⟨rfl, rfl, .inl rfl⟩) ?_
  intro hstarter hchild
  have hstill := Client.place_of_has hstarter.busy
  have hbusy : client.place.busy = true := hstill
  have hbefore : Starter client :=
    ⟨Client.has_of_prog hprog hbusy, hstarter.starts, hstarter.unwritten⟩
  have hlooked := h.looked i client hclient hbefore hchild
  refine ⟨hlooked.entry, ?_⟩
  intro entry pf hread hparse hseen p hp hrole
  have hp : p ∈ w.state.machine.procs := hp
  have hn : n = pf.rustPid := congrArg Prod.fst (Option.some.inj hseen)
  have hnone : w.state.machine.pidAlive n = none := congrArg Prod.snd (Option.some.inj hseen)
  rcases h.named p hp hrole with ⟨entry', pf', hentry', -, hparse', hpid⟩ | ⟨j, cl, hcl, hother, hp'⟩
  · have hsame : entry = entry' := by
      have hread' := hlooked.entry
      rw [hentry'] at hread'
      have heq := hread.symm.trans hread'
      cases heq
      rfl
    subst hsame
    rw [hparse] at hparse'
    cases hparse'
    have hproc := hbase.procs p hp
    have halive := Machine.pidAlive_of_mem hp (hproc.2 (by rw [hrole]; exact Role.noConfusion))
      hproc.1
    rw [← hpid, ← hn, hnone] at halive
    cases halive
  · have hsame := h.alone hclient hcl hbefore.busy hother
    subst hsame
    rw [hclient] at hcl
    cases hcl
    rw [hchild] at hp'
    cases hp'

theorem starter_of {client : Command} {c : Call} {k : c.Reply → Cmd Unit}
    (hprog : client.prog = some (.call c k)) (hwrote : client.place.wrote = false)
    (hwrites : client.place.Writes .daemon) : Starter client := by
  obtain ⟨⟨binaryPath, hop⟩, hbusy⟩ := hwrites
  exact ⟨Client.has_of_prog hprog hbusy, by rw [hop]; rfl, hwrote⟩

theorem OneDaemon.create (h : OneDaemon parseTime w) {k : (Call.create .daemon).Reply → Cmd Unit}
    (hclient : w.clients[i]? = some client)
    (hprog : client.prog = some (.call (.create .daemon) k))
    (hallowed : client.place.Allowed parseTime (.create .daemon)) (hok : answer.ok = true) :
    OneDaemon parseTime (w.called (system parseTime pidfd) i client (.create .daemon) k answer) := by
  obtain ⟨hwrote, hsome, hwrites⟩ := hallowed
  have hstarter := starter_of hprog hwrote hwrites
  obtain ⟨child, hchild⟩ := Option.isSome_iff_exists.mp hsome
  have hstate : w.state.handle pidfd (.create .daemon) answer =
      (w.state.setFile .daemon { text := [] }, true) := if_pos hok
  have hpending := h.pending i client child hclient hstarter hchild
  have hplace : (client.moved (system parseTime pidfd) w.state (.create .daemon) k answer).place =
      { client.place with busy := client.place.busy && true } := by
    change client.place.advance parseTime (.create .daemon)
      (w.state.handle pidfd (.create .daemon) answer).2 = _
    rw [hstate]
    rfl
  have hafter : Starter (client.moved (system parseTime pidfd) w.state (.create .daemon) k answer) := by
    refine ⟨Client.has_of_prog rfl ?_, ?_, ?_⟩
    · rw [hplace]
      exact (Bool.and_true _).trans (Client.place_of_has hstarter.busy)
    · rw [hplace]
      exact hstarter.starts
    · rw [hplace]
      exact hwrote
  refine h.solo hclient hstarter.busy ?_ ?_ ?_
  · intro p hp hrole
    rw [hstate] at hp
    refine .inr ⟨hafter, ?_⟩
    rw [hplace, hpending p hp hrole]
    exact hchild
  · intro child' hchild' _ p hp hrole
    rw [hplace] at hchild'
    rw [hstate] at hp
    rw [hpending p hp hrole]
    exact Option.some.inj (hchild.symm.trans hchild')
  · intro _ hnone
    rw [hplace] at hnone
    cases hchild.symm.trans hnone

theorem OneDaemon.write (h : OneDaemon parseTime w) (hbase : Base parseTime pidfd w) {entry : Entry}
    {k : (Call.write .daemon entry).Reply → Cmd Unit} (hclient : w.clients[i]? = some client)
    (hprog : client.prog = some (.call (.write .daemon entry) k))
    (hallowed : client.place.Allowed parseTime (.write .daemon entry)) (hok : answer.ok = true) :
    OneDaemon parseTime
      (w.called (system parseTime pidfd) i client (.write .daemon entry) k answer) := by
  obtain ⟨hwrote, hwrites, child, time, binaryPath, goPid, hchild, htime, hentry, hgo⟩ := hallowed
  have hstarter := starter_of hprog hwrote hwrites
  have hstate : w.state.handle pidfd (.write .daemon entry) answer =
      (w.state.setFile .daemon entry, true) := if_pos hok
  have hpending := h.pending i client child hclient hstarter hchild
  have hroot := hbase.rooted i client hclient
  have hidle : ¬Starter
      (client.moved (system parseTime pidfd) w.state (.write .daemon entry) k answer) := by
    intro hafter
    cases Client.place_of_has hafter.busy
  refine h.solo hclient hstarter.busy ?_ (fun _ _ hafter => absurd hafter hidle)
    (fun hafter => absurd hafter hidle)
  intro p hp hrole
  left
  rw [hstate] at hp ⊢
  have hp' := hpending p hp hrole
  subst hp'
  have hgoPid : goPid < 2 ^ 31 := by
    rcases hgo with rfl | ⟨self, hself, rfl⟩
    · exact Nat.two_pow_pos 31
    · exact (hroot.self self hself).1.small
  have hpid := (hroot.child p hchild).1.small
  obtain ⟨hline, hparsed⟩ := hroot.time time htime
  obtain ⟨t, ht⟩ := Option.isSome_iff_exists.mp hparsed
  obtain ⟨path, hparse⟩ := @PidFile.parse_render parseTime goPid p.pid _ binaryPath (by omega)
    (by omega) hline t ht
  rw [hentry]
  exact ⟨_, _, w.state.entry_setFile .daemon _, rfl, hparse, rfl⟩

theorem OneDaemon.remove (h : OneDaemon parseTime w) {k : (Call.remove .daemon).Reply → Cmd Unit}
    (hclient : w.clients[i]? = some client)
    (hprog : client.prog = some (.call (.remove .daemon) k))
    (hallowed : client.place.Allowed parseTime (.remove .daemon)) (hnone : w.state.NoDaemon) :
    OneDaemon parseTime (w.called (system parseTime pidfd) i client (.remove .daemon) k answer) := by
  refine h.solo hclient (Client.has_of_prog hprog hallowed) ?_ ?_ ?_
  · exact fun p hp hrole => absurd hrole (hnone p hp)
  · exact fun _ _ _ p hp hrole => absurd hrole (hnone p hp)
  · intro hafter _
    cases Client.place_of_has hafter.busy

theorem OneDaemon.startDaemon (h : OneDaemon parseTime w)
    {k : (Call.start .daemon).Reply → Cmd Unit} (hclient : w.clients[i]? = some client)
    (hprog : client.prog = some (.call (.start .daemon) k))
    (hallowed : client.place.Allowed parseTime (.start .daemon)) :
    OneDaemon parseTime (w.called (system parseTime pidfd) i client (.start .daemon) k answer) := by
  obtain ⟨hop, hbusy, hwrote, hchild, hseen⟩ := hallowed
  have hstarter := starter_of hprog hwrote ⟨hop, hbusy⟩
  have hclear := h.clear hclient hstarter hchild hseen
  have hplace : (client.moved (system parseTime pidfd) w.state (.start .daemon) k answer).place =
      { client.place with
        child := (w.state.started answer true .daemon).2
        busy := client.place.busy && (w.state.started answer true .daemon).2.isSome } := rfl
  have hstarted : (w.state.handle pidfd (.start .daemon) answer) =
      w.state.started answer true .daemon := rfl
  cases hreply : (w.state.started answer true .daemon).2 with
  | none =>
      have hidle : ¬Starter
          (client.moved (system parseTime pidfd) w.state (.start .daemon) k answer) := by
        intro hafter
        have hstill := Client.place_of_has hafter.busy
        rw [hplace, hreply] at hstill
        simp at hstill
      refine h.solo hclient hstarter.busy ?_ (fun _ _ hafter => absurd hafter hidle)
        (fun hafter => absurd hafter hidle)
      intro p hp hrole
      exfalso
      have hsame : (w.state.started answer true .daemon).1 = w.state := by
        unfold Host.started at hreply ⊢
        split at hreply
        · cases hreply
        · rename_i hno
          rw [if_neg hno]
      rw [hstarted, hsame] at hp
      exact hclear p hp hrole
  | some d =>
      obtain ⟨hd, hfree, hstate⟩ := started_some hreply
      have hall : ∀ p ∈ (w.state.handle pidfd (.start .daemon) answer).1.machine.procs,
          p.role = .daemon → p = d := by
        intro p hp hrole
        rw [hstarted, hstate] at hp
        rcases Machine.mem_spawn.mp hp with hold | hnew
        · exact absurd hrole (hclear p hold)
        · rw [hnew, hd]
      refine h.solo hclient hstarter.busy ?_ ?_ ?_
      · intro p hp hrole
        right
        have hpd := hall p hp hrole
        subst hpd
        refine ⟨⟨Client.has_of_prog rfl ?_, hstarter.starts, hwrote⟩, hreply⟩
        rw [hplace, hreply]
        exact (Bool.and_true _).trans hbusy
      · intro child hchild' _ p hp hrole
        rw [hplace, hreply] at hchild'
        rw [hall p hp hrole]
        exact Option.some.inj hchild'
      · intro _ hnone
        rw [hplace, hreply] at hnone
        cases hnone

/-! ## Every call -/

theorem startsDaemon_supervisor {op : Op} {name : String} (h : ∃ binaryPath,
    op = .runSupervisor name binaryPath) : op.startsDaemon = false := by
  obtain ⟨binaryPath, rfl⟩ := h
  rfl

/-- A call of a command that starts no daemon, which does not look at the daemon's pid file. -/
theorem OneDaemon.apart (h : OneDaemon parseTime w) {c : Call} {k : c.Reply → Cmd Unit}
    (hclient : w.clients[i]? = some client) (hprog : client.prog = some (.call c k))
    (hentry : (w.state.handle pidfd c answer).1.entry .daemon = w.state.entry .daemon)
    (hdaemons : ∀ p ∈ (w.state.handle pidfd c answer).1.machine.procs, p.role = .daemon →
      p ∈ w.state.machine.procs)
    (hbusy : (client.moved (system parseTime pidfd) w.state c k answer).place.busy = true →
      client.place.busy = true)
    (hop : client.place.op.startsDaemon = false) :
    OneDaemon parseTime (w.called (system parseTime pidfd) i client c k answer) := by
  have hop' : (client.moved (system parseTime pidfd) w.state c k answer).place.op =
      client.place.op := advance_op _ _ _
  refine h.called hclient hprog hentry hdaemons (fun hafter => .inl (hbusy hafter)) ?_ ?_
  · intro hstarts
    rw [hop] at hstarts
    cases hstarts
  · intro hafter
    have hstarts := hafter.starts
    rw [hop', hop] at hstarts
    cases hstarts

theorem oneDaemon_call (h : OneDaemon parseTime w) (hbase : Base parseTime pidfd w) {c : Call}
    {k : c.Reply → Cmd Unit} (hclient : w.clients[i]? = some client)
    (hprog : client.prog = some (.call c k)) (hallowed : client.place.Allowed parseTime c)
    (hturn : Undisturbed parseTime w i client.place answer c) :
    OneDaemon parseTime (w.called (system parseTime pidfd) i client c k answer) := by
  cases c with
  | «exists» | listTunnels | beforeDeadline | wait | findProcess | now =>
      exact h.plain hclient hprog rfl (fun _ hp _ => hp) ⟨rfl, rfl, rfl, rfl, .inl rfl⟩
  | ends serial =>
      exact h.plain hclient hprog rfl (fun _ hp _ => (Machine.mem_ends.mp hp).1)
        ⟨rfl, rfl, rfl, rfl, .inl rfl⟩
  | arrives =>
      exact h.plain hclient hprog (w.state.entry_handle answer id)
        (daemons_handle w.state answer nofun) ⟨rfl, rfl, rfl, rfl, .inl rfl⟩
  | put file text => exact hturn.elim
  | report entry seen =>
      exact h.plain hclient hprog rfl (fun _ hp _ => hp)
        ⟨rfl, rfl, rfl, rfl, .inr ⟨rfl, hallowed.2.1⟩⟩
  | signal entry handle n =>
      refine h.plain hclient hprog rfl (fun _ hp _ => hp) ⟨rfl, rfl, rfl, rfl, ?_⟩
      change (client.place.busy && _) = _ ∨ (client.place.busy && _) = _ ∧ _
      cases client.place.busy with
      | false => exact .inl rfl
      | true =>
          rw [Bool.true_and]
          refine (Bool.eq_false_or_eq_true _).imp id ?_
          exact fun hover => ⟨hover, hallowed.2.1⟩
  | read file =>
      cases file with
      | daemon => exact h.read hclient hprog hallowed hturn
      | tunnel name => exact h.apart hclient hprog rfl (fun _ hp _ => hp) id hallowed
  | pidAlive n => exact h.pidAlive hbase hclient hprog
  | create file =>
      cases file with
      | daemon => exact h.create hclient hprog hallowed hturn
      | tunnel name =>
          refine h.apart hclient hprog (w.state.entry_handle answer nofun)
            (daemons_handle w.state answer nofun) ?_ (startsDaemon_supervisor hallowed.2.2)
          intro hafter
          have hboth : (client.place.busy && _) = true := hafter
          exact ((Bool.and_eq_true _ _).mp hboth).1
  | write file entry =>
      cases file with
      | daemon => exact h.write hbase hclient hprog hallowed hturn
      | tunnel name =>
          exact h.apart hclient hprog (w.state.entry_handle answer nofun)
            (daemons_handle w.state answer nofun) nofun (startsDaemon_supervisor hallowed.2.1)
  | remove file =>
      cases file with
      | daemon => exact h.remove hclient hprog hallowed hturn
      | tunnel name =>
          exact h.plain hclient hprog (w.state.entry_handle answer nofun) (fun _ hp _ => hp)
            ⟨rfl, rfl, rfl, rfl, .inl rfl⟩
  | start role =>
      cases role with
      | daemon => exact h.startDaemon hclient hprog hallowed
      | supervisor name =>
          exact h.plain hclient hprog (w.state.entry_handle answer id)
            (daemons_handle w.state answer nofun) ⟨rfl, rfl, rfl, rfl, .inl rfl⟩
      | child name =>
          refine h.apart hclient hprog (w.state.entry_handle answer id)
            (daemons_handle w.state answer nofun) ?_ (startsDaemon_supervisor hallowed.2.2)
          intro hafter
          have hboth : (client.place.busy && _) = true := hafter
          exact ((Bool.and_eq_true _ _).mp hboth).1
      | other => exact hallowed.elim

end

/-! ## Commands come and go -/

theorem OneDaemon.spawned (h : OneDaemon parseTime w) {op : Op} :
    OneDaemon parseTime (w.spawned (system parseTime pidfd) op) := by
  have hnew : ¬Starter (Client.new (system parseTime pidfd) op) := by
    intro hstarter
    cases Client.place_of_has hstarter.busy
  constructor
  case excl => exact h.excl.spawned rfl
  case named =>
    intro p hp hrole
    refine (h.named p hp hrole).imp_right ?_
    rintro ⟨j, cl, hcl, hstarter, hchild⟩
    refine ⟨j, cl, ?_, hstarter, hchild⟩
    have hlt := (List.getElem?_eq_some_iff.mp hcl).1
    rw [World.spawned, List.getElem?_append_left hlt]
    exact hcl
  case pending =>
    intro j cl child hcl hstarter hchild
    rcases System.client_of_spawn hcl with hold | ⟨-, rfl⟩
    · exact h.pending j cl child hold hstarter hchild
    · exact absurd hstarter hnew
  case looked =>
    intro j cl hcl hstarter hchild
    rcases System.client_of_spawn hcl with hold | ⟨-, rfl⟩
    · exact h.looked j cl hold hstarter hchild
    · exact absurd hstarter hnew

theorem OneDaemon.dropped (h : OneDaemon parseTime w) {i : Nat} {client : Command}
    (hclient : w.clients[i]? = some client)
    (huncut : client.place.op.startsDaemon = true → client.place.busy = true →
      client.place.child = none) :
    OneDaemon parseTime (w.dropped (system parseTime pidfd) i client) := by
  have hm := moves_abandon w.state client.place fun _ => False
  have hprocs : ∀ p ∈ (abandon w.state client.place).machine.procs, p ∈ w.state.machine.procs := by
    intro p hp
    rcases hm.procs p hp with hold | ⟨-, hnever⟩
    · exact hold
    · exact hnever.elim
  have hentry : (abandon w.state client.place).entry .daemon = w.state.entry .daemon := by
    rw [abandon_eq]
    rfl
  have hgone : ¬Starter { client with prog := none } := by
    intro hstarter
    cases hstarter.busy
  constructor
  case excl => exact h.excl.dropped
  case named =>
    intro p hp hrole
    rcases h.named p (hprocs p hp) hrole with hnamed | ⟨j, cl, hcl, hstarter, hchild⟩
    · obtain ⟨entry, pf, hread, hrest⟩ := hnamed
      exact .inl ⟨entry, pf, hentry.trans hread, hrest⟩
    · refine .inr ⟨j, cl, ?_, hstarter, hchild⟩
      have hne : i ≠ j := by
        rintro rfl
        rw [hclient] at hcl
        cases hcl
        rw [huncut hstarter.starts (Client.place_of_has hstarter.busy)] at hchild
        cases hchild
      rw [World.dropped, List.getElem?_set_ne hne]
      exact hcl
  case pending =>
    intro j cl child hcl hstarter hchild p hp hrole
    rcases System.client_of_drop hcl with ⟨-, rfl⟩ | ⟨-, hold⟩
    · exact absurd hstarter hgone
    · exact h.pending j cl child hold hstarter hchild p (hprocs p hp) hrole
  case looked =>
    intro j cl hcl hstarter hchild
    rcases System.client_of_drop hcl with ⟨-, rfl⟩ | ⟨-, hold⟩
    · exact absurd hstarter hgone
    · have hbefore := h.looked j cl hold hstarter hchild
      constructor
      · exact hbefore.entry.trans (congrArg _ hentry.symm)
      · intro entry pf hread hparse hseen p hp hrole
        exact hbefore.dead entry pf hread hparse hseen p (hprocs p hp) hrole

end

end DatumConnect.Plugin.Commands
