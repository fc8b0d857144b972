import DatumConnect.AddonPage.Places
/-!
# The page shows the present

A status is built across many waits, while the job of Allow changes.  It is current as long
as nobody else changes the job while a request holds the lock of the cache; a status whose
own request has changed the job is not, once it is served from the cache.
-/

namespace DatumConnect.AddonPage

open DatumConnect.Lib
open DatumConnect.Lib.Pool
open DatumConnect.HomeAssistant

/-! ## What is served -/

/-- Nothing has changed since the status was begun, if it comes from the cache, and no
Allow has ended since the reading it uses was begun. -/
def Serve.Current (e : Serve) : Prop :=
  (e.fromCache = true → e.build.began = e.changes) ∧ ∀ ends ∈ e.build.reading, ends = e.ends

instance (e : Serve) : Decidable e.Current := by
  unfold Serve.Current
  infer_instance

/-- A build that is up to date. -/
structure Build.Fresh (b : Build) (changes ends : Nat) : Prop where
  began : b.own = false → b.began = changes
  reading : ∀ n ∈ b.reading, n = ends

/-- What is kept is up to date as far as the versions tell. -/
structure Good (p : DaemonPaired) : Prop where
  held : p.history.build.isSome = true → p.held = true
  build : ∀ b ∈ p.history.build, b.Fresh p.history.changes p.history.ends
  reading : p.job.cached.isSome = true → p.history.reading = p.history.ends
  version : ∀ c ∈ p.cache, c.version ≤ p.job.version
  kept : ∀ c ∈ p.cache, c.version = p.job.version →
    (∀ n ∈ p.history.kept.reading, n = p.history.ends) ∧
      (p.history.unbumped = false → p.history.kept.own = false →
        p.history.kept.began = p.history.changes)
  served : ∀ e ∈ p.history.served, e.Current

theorem good_start (marker : Bool) : Good { marker } where
  held h := absurd h Bool.false_ne_true
  build _ hb := absurd hb (Option.not_mem_none _)
  reading h := absurd h Bool.false_ne_true
  version _ hc := absurd hc (Option.not_mem_none _)
  kept _ hc := absurd hc (Option.not_mem_none _)
  served _ he := absurd he List.not_mem_nil

variable {p : DaemonPaired} {c : Call} {answer : Answer}

/-- The call changes the job. -/
def changes (p : DaemonPaired) : Call → Bool
  | .startAllow _ | .skipClear => p.job.running.isNone
  | .allow (.step _) | .finish | .allowEnds _ => true
  | _ => false

/-- What a call has to keep to, so that the page stays current. -/
structure Permits (p : DaemonPaired) (c : Call) : Prop where
  held : ∀ version running, c = .cacheServes version running → p.held = true
  version : ∀ version running, c = .cacheServes version running → version = p.job.version
  filled : ∀ version running status, c = .fillCache version running status →
    version = p.job.version
  hit : ∀ version running, c = .cacheServes version running →
    ∀ cached ∈ p.cache, cached.version = version → cached.running = running →
      p.history.unbumped = false ∧ p.history.kept.own = false
  ends : ∀ last, c = .allowEnds last → p.history.build = none

theorem Good.elapse (h : Good p) (elapsed : Nat) : Good { p with now := p.now + elapsed } :=
  ⟨h.held, h.build, h.reading, h.version, h.kept, h.served⟩

theorem mem_own {build : Option Build} {b : Build}
    (h : b ∈ build.map fun b => { b with own := true }) :
    b.own = true ∧ ∃ b', b' ∈ build ∧ b.reading = b'.reading := by
  obtain ⟨b', hb', rfl⟩ := Option.map_eq_some_iff.mp h
  exact ⟨rfl, b', hb', rfl⟩

/-- A change that moves the version leaves nothing to be served from the cache. -/
theorem Good.change (h : Good p) (f : ProxyJob → ProxyJob)
    (hcached : (f p.job).cached.isSome = true → p.job.cached.isSome = true) :
    Good (p.change f) where
  held hbuild := by
    apply h.held
    simpa [DaemonPaired.change] using hbuild
  build b hb := by
    obtain ⟨hown, b', hb', hreading⟩ := mem_own hb
    refine ⟨fun hnot => ?_, fun n hn => ?_⟩
    · rw [hown] at hnot
      cases hnot
    · rw [hreading] at hn
      exact (h.build b' hb').reading n hn
  reading hsome := h.reading (hcached hsome)
  version c hc := Nat.le_succ_of_le (h.version c hc)
  kept c hc heq := by
    have hle := h.version c hc
    have heq' : c.version = p.job.version + 1 := heq
    omega
  served := h.served

theorem Good.startAllow (h : Good p) (auto : Bool) : Good (p.startAllow auto).1 := by
  unfold DaemonPaired.startAllow
  split
  · exact h
  · have hchange := h.change (fun job =>
      { job with
        running := some (if auto then .verifying else .saving)
        autoTried := auto || job.autoTried
        last := if auto then job.last else none }) id
    exact ⟨hchange.held, hchange.build, hchange.reading, hchange.version, hchange.kept,
      hchange.served⟩

theorem Good.skipClear (h : Good p) : Good p.skipClear.1 := by
  unfold DaemonPaired.skipClear
  split
  · exact h
  · refine ⟨fun hbuild => ?_, fun b hb => ?_, h.reading, h.version, fun c hc heq => ?_, h.served⟩
    · exact h.held (by simpa using hbuild)
    · obtain ⟨hown, b', hb', hreading⟩ := mem_own hb
      refine ⟨fun hnot => ?_, fun n hn => ?_⟩
      · rw [hown] at hnot
        cases hnot
      · rw [hreading] at hn
        exact (h.build b' hb').reading n hn
    · exact ⟨(h.kept c hc heq).1, fun hunbumped => absurd hunbumped.symm Bool.false_ne_true⟩

/-- An end of Allow: nobody has a status under way, and nothing read before is kept. -/
theorem Good.allowEnds (h : Good p) (last : Option (Bool × Said)) (hbuild : p.history.build = none) :
    Good (p.allowEnds last) where
  held hsome := by
    have hnone : (p.allowEnds last).history.build = none := by
      show p.history.build.map _ = none
      rw [hbuild]
      rfl
    rw [hnone] at hsome
    cases hsome
  build b hb := by
    have hnone : (p.allowEnds last).history.build = none := by
      show p.history.build.map _ = none
      rw [hbuild]
      rfl
    rw [hnone] at hb
    cases hb
  reading hsome := absurd hsome Bool.false_ne_true
  version c hc := Nat.le_succ_of_le (h.version c hc)
  kept c hc heq := by
    have hle := h.version c hc
    have heq' : c.version = p.job.version + 1 := heq
    omega
  served := h.served

theorem Good.reads (h : Good p) {ends : Option Nat} (hends : ∀ n ∈ ends, n = p.history.ends) :
    Good (p.reads ends) where
  held hsome := h.held (by simpa [DaemonPaired.reads] using hsome)
  build b hb := by
    obtain ⟨b', hb', rfl⟩ := Option.map_eq_some_iff.mp hb
    exact ⟨(h.build b' hb').began, hends⟩
  reading := h.reading
  version := h.version
  kept := h.kept
  served := h.served

theorem Good.storeReading (h : Good p) (setup : Option ProxySetup) :
    Good (p.storeReading setup) where
  held := h.held
  build := h.build
  reading _ := by
    show (p.history.build.bind Build.reading).getD p.history.ends = p.history.ends
    cases hread : p.history.build.bind Build.reading with
    | none => rfl
    | some n =>
        obtain ⟨b, hb, hn⟩ := Option.bind_eq_some_iff.mp hread
        exact (h.build b hb).reading n hn
  version := h.version
  kept := h.kept
  served := h.served

/-- A status is served that is up to date. -/
theorem Good.serve (h : Good p) (fromCache : Bool) {build : Build}
    (hbegan : fromCache = true → build.began = p.history.changes)
    (hreading : ∀ n ∈ build.reading, n = p.history.ends) : Good (p.serve fromCache build) where
  held hsome := absurd hsome Bool.false_ne_true
  build _ hb := absurd hb (Option.not_mem_none _)
  reading := h.reading
  version := h.version
  kept := h.kept
  served e he := by
    rcases List.mem_append.mp he with hold | hnew
    · exact h.served e hold
    · rw [List.mem_singleton] at hnew
      subst hnew
      exact ⟨hbegan, hreading⟩

theorem Good.cacheServes (h : Good p) {version : Nat} {running : List String}
    (hp : Permits p (.cacheServes version running)) : Good (p.cacheServes version running).1 := by
  unfold DaemonPaired.cacheServes
  split
  · rename_i c hc
    obtain ⟨hcache, hserves⟩ := Option.filter_eq_some_iff.mp hc
    simp only [CachedStatus.serves, Bool.and_eq_true, decide_eq_true_eq] at hserves
    obtain ⟨⟨_, hversion⟩, hrunning⟩ := hserves
    obtain ⟨hunbumped, hown⟩ := hp.hit version running rfl c hcache hversion hrunning
    obtain ⟨hreading, hbegan⟩ := h.kept c hcache (hversion.trans (hp.version version running rfl))
    exact h.serve true (fun _ => hbegan hunbumped hown) hreading
  · refine ⟨fun _ => hp.held version running rfl, fun b hb => ?_, h.reading, h.version, h.kept,
      h.served⟩
    cases hb
    exact ⟨fun _ => rfl, fun n hn => absurd hn (Option.not_mem_none _)⟩

theorem Good.fillCache (h : Good p) {version : Nat} (running : List String) (status : PairedStatus)
    (hversion : version = p.job.version) : Good (p.fillCache version running status) := by
  have hfresh : (p.history.build.getD { began := p.history.changes }).Fresh p.history.changes
      p.history.ends := by
    cases hb : p.history.build with
    | none => exact ⟨fun _ => rfl, fun n hn => absurd hn (Option.not_mem_none _)⟩
    | some b => exact h.build b hb
  have hserve := h.serve false (fun h => absurd h Bool.false_ne_true) hfresh.reading
  refine ⟨hserve.held, hserve.build, hserve.reading, ?_, ?_, hserve.served⟩
  · intro c hc
    cases hc
    exact Nat.le_of_eq hversion
  · intro c hc heq
    exact ⟨hfresh.reading, fun _ hown => hfresh.began hown⟩

theorem Good.serveCall (h : Good p) (hp : Permits p c) : Good (p.serveCall answer c).1 := by
  cases c with
  | lockCache => exact ⟨fun _ => rfl, h.build, h.reading, h.version, h.kept, h.served⟩
  | clearCache =>
      exact ⟨fun h => absurd h Bool.false_ne_true, fun _ hb => absurd hb (Option.not_mem_none _),
        h.reading, fun _ hc => absurd hc (Option.not_mem_none _),
        fun _ hc => absurd hc (Option.not_mem_none _), h.served⟩
  | cacheServes version running => exact h.cacheServes hp
  | fillCache version running status => exact h.fillCache running status (hp.filled _ _ _ rfl)
  | jobSnapshot =>
      refine h.reads fun n hn => ?_
      obtain ⟨s, hs, rfl⟩ := Option.map_eq_some_iff.mp hn
      apply h.reading
      obtain ⟨c, hc, _⟩ := Option.map_eq_some_iff.mp hs
      exact Option.isSome_of_mem (Option.filter_eq_some_iff.mp hc).1
  | stepFinished => exact ⟨h.held, h.build, h.reading, h.version, h.kept, h.served⟩
  | beginRead =>
      refine h.reads fun n hn => ?_
      cases hn
      rfl
  | storeReading setup => exact h.storeReading setup
  | startAllow auto => exact h.startAllow auto
  | writeMarker => exact ⟨h.held, h.build, h.reading, h.version, h.kept, h.served⟩
  | finish => exact h.change (fun job => { job with finished := some true }) id
  | skipClear => exact h.skipClear
  | takeAllow auto =>
      simp only [DaemonPaired.serveCall]
      split
      · exact ⟨h.held, h.build, h.reading, h.version, h.kept, h.served⟩
      · exact h
  | allow c =>
      cases c with
      | step s => exact h.change (fun job => { job with running := some s }) id
      | _ => exact h
  | allowEnds last => exact h.allowEnds last (hp.ends last rfl)
  | _ => exact h

theorem Good.handle (h : Good p) (hp : Permits p c) : Good (handle p c answer).1 := by
  have hlater : Permits { p with now := p.now + answer.elapsed } c :=
    ⟨hp.held, hp.version, hp.filled, hp.hit, hp.ends⟩
  exact (h.elapse answer.elapsed).serveCall hlater

/-! ## What a call does to the job -/

theorem handle_cacheServes (p : DaemonPaired) (version : Nat) (running : List String) :
    let q := (handle p (.cacheServes version running) answer)
    q.1.job = p.job ∧ q.1.waiting = p.waiting ∧ q.1.held = (p.held && q.2.isNone) ∧
      q.1.history.autoStarts = p.history.autoStarts := by
  dsimp only [handle, DaemonPaired.serveCall, DaemonPaired.cacheServes]
  split
  · exact ⟨rfl, rfl, (Bool.and_false _).symm, rfl⟩
  · exact ⟨rfl, rfl, (Bool.and_true _).symm, rfl⟩

theorem handle_takeAllow (p : DaemonPaired) (auto : Bool) :
    let q := (handle p (.takeAllow auto) answer).1
    q.job = p.job ∧ q.held = p.held ∧ q.history.autoStarts = p.history.autoStarts := by
  dsimp only [handle, DaemonPaired.serveCall]
  split <;> exact ⟨rfl, rfl, rfl⟩

theorem startAllow_running {auto : Bool} (h : p.job.running.isSome = true) :
    p.startAllow auto = (p, false) := if_pos h

theorem startAllow_idle {auto : Bool} (h : p.job.running = none) :
    (p.startAllow auto).1.job.running = some (if auto then .verifying else .saving) ∧
      (p.startAllow auto).1.job.autoTried = (auto || p.job.autoTried) ∧
      (p.startAllow auto).1.history.autoStarts =
        p.history.autoStarts + (if auto then 1 else 0) := by
  unfold DaemonPaired.startAllow
  rw [h]
  exact ⟨rfl, rfl, rfl⟩

theorem held_startAllow (p : DaemonPaired) (auto : Bool) : (p.startAllow auto).1.held = p.held := by
  unfold DaemonPaired.startAllow
  split <;> rfl

/-- A skip clears the outcome, and nothing else of the job. -/
theorem skipClear_keeps (p : DaemonPaired) :
    p.skipClear.1.held = p.held ∧ p.skipClear.1.waiting = p.waiting ∧
      p.skipClear.1.job.version = p.job.version ∧ p.skipClear.1.job.running = p.job.running ∧
      p.skipClear.1.job.autoTried = p.job.autoTried ∧
      p.skipClear.1.history.autoStarts = p.history.autoStarts := by
  unfold DaemonPaired.skipClear
  split <;> exact ⟨rfl, rfl, rfl, rfl, rfl, rfl⟩

/-- Only a change of the job moves its version. -/
theorem version_of_unchanged (h : changes p c = false) :
    (AddonPage.handle p c answer).1.job.version = p.job.version := by
  cases c with
  | cacheServes version running =>
      exact congrArg ProxyJob.version (handle_cacheServes p version running).1
  | startAllow auto =>
      have hsome : p.job.running.isSome = true := by
        rw [← Option.not_isNone, Bool.not_eq_true']
        exact h
      have hstate : AddonPage.handle p (.startAllow auto) answer =
          ({ p with now := p.now + answer.elapsed }, false) := startAllow_running hsome
      rw [hstate]
  | skipClear => exact (skipClear_keeps _).2.2.1
  | takeAllow auto => exact congrArg ProxyJob.version (handle_takeAllow p auto).1
  | allow c =>
      cases c with
      | step s => cases h
      | _ => rfl
  | finish => cases h
  | allowEnds last => cases h
  | _ => rfl

/-! ## The lock of the cache -/

/-- Whether the lock is held after a call. -/
def lockAfter (held : Bool) : (c : Call) → c.Reply → Bool
  | .lockCache, _ => true
  | .clearCache, _ | .fillCache _ _ _, _ => false
  | .cacheServes _ _, found => held && found.isNone
  | _, _ => held

theorem held_handle (p : DaemonPaired) (c : Call) (answer : Answer) :
    (handle p c answer).1.held = lockAfter p.held c (handle p c answer).2 := by
  cases c with
  | cacheServes version running => exact (handle_cacheServes p version running).2.2.1
  | startAllow auto => exact held_startAllow _ auto
  | skipClear => exact (skipClear_keeps _).1
  | takeAllow auto => exact (handle_takeAllow p auto).2.1
  | allow c => cases c <;> rfl
  | _ => rfl

theorem holds_advance (g : Place) (c : Call) (r : c.Reply) :
    (g.advance c r).holds = lockAfter g.holds c r := by
  cases c with
  | activeTarget => cases r <;> rfl
  | allow c => cases c <;> rfl
  | _ => rfl

section

variable {held held' : Bool} {r : c.Reply}

theorem lockAfter_true (h : lockAfter held c r = true) : held = true ∨ c = .lockCache := by
  cases c with
  | lockCache => exact Or.inr rfl
  | clearCache => cases h
  | fillCache version running status => cases h
  | cacheServes version running => exact Or.inl (Bool.and_eq_true_iff.mp h).1
  | _ => exact Or.inl h

theorem lockAfter_mono (hheld : held = true → held' = true) (h : lockAfter held c r = true) :
    lockAfter held' c r = true := by
  cases c with
  | lockCache => rfl
  | clearCache => cases h
  | fillCache version running status => cases h
  | cacheServes version running =>
      obtain ⟨hbefore, hnone⟩ := Bool.and_eq_true_iff.mp h
      exact Bool.and_eq_true_iff.mpr ⟨hheld hbefore, hnone⟩
  | _ => exact hheld h

/-- Only the request that holds the lock lets it go. -/
theorem holds_of_lockAfter {g : Place} (hallowed : g.Allowed c) (h : lockAfter true c r = false) :
    g.holds = true := by
  cases c with
  | clearCache => exact hallowed
  | fillCache version running status => exact hallowed.1
  | cacheServes version running => exact hallowed.1
  | _ => cases h

end

section

variable {w w' : Clients} {supervisor : Bool} {parseRfc3339 : String → Option Int} {i : Nat}
  {client : PageClient} {k : c.Reply → Prog Call Call.Reply Result}

/-- At most one request holds the lock, and nobody else can take it. -/
structure Locked (w : Clients) : Prop where
  one : System.Exclusive Place.holds w
  held : ∀ (j : Nat) (cl : PageClient), w.clients[j]? = some cl → cl.has Place.holds = true →
    w.state.held = true

theorem Locked.called (hw : Locked w) (hclient : w.clients[i]? = some client)
    (hprog : client.prog = some (.call c k)) (hallowed : client.place.Allowed c)
    (hready : c = .lockCache → w.state.held = false) :
    Locked (w.called (system supervisor parseRfc3339) i client c k answer) := by
  have hafter (h : (client.moved (system supervisor parseRfc3339) w.state c k answer).has
      Place.holds = true) :
      lockAfter client.place.holds c (handle w.state c answer).2 = true := by
    rw [← holds_advance]
    exact Client.place_of_has h
  constructor
  · refine hw.one.called hclient fun hmoved => ?_
    rcases lockAfter_true (hafter hmoved) with hheld | hlock
    · exact Or.inl (Client.has_of_prog hprog hheld)
    · refine Or.inr fun cl hcl => ?_
      obtain ⟨j, hj⟩ := List.getElem?_of_mem hcl
      cases hhas : cl.has Place.holds with
      | false => rfl
      | true =>
          have hheld := hw.held j cl hj hhas
          rw [hready hlock] at hheld
          cases hheld
  · intro j cl hcl hhas
    change (handle w.state c answer).1.held = true
    rw [held_handle]
    rcases System.client_of_call hcl with ⟨_, rfl⟩ | ⟨hne, other, hother, rfl⟩
    · refine lockAfter_mono (fun hholds => ?_) (hafter hhas)
      exact hw.held i client hclient (Client.has_of_prog hprog hholds)
    · rw [hw.held j other hother hhas]
      cases hlast : lockAfter true c (handle w.state c answer).2 with
      | true => rfl
      | false =>
          have hholds := Client.has_of_prog hprog (holds_of_lockAfter hallowed hlast)
          exact absurd (hw.one i j client other hclient hother hholds hhas).symm hne

theorem Locked.dropped (hw : Locked w) (hclient : w.clients[i]? = some client)
    (hprog : client.prog = some (.call c k)) :
    Locked (w.dropped (system supervisor parseRfc3339) i client) := by
  refine ⟨hw.one.dropped, fun j cl hcl hhas => ?_⟩
  rcases System.client_of_drop hcl with ⟨_, rfl⟩ | ⟨hne, hold⟩
  · cases hhas
  · change DaemonPaired.held (if client.place.holds then _ else w.state) = true
    split
    · rename_i hholds
      have hthere := Client.has_of_prog hprog hholds
      exact absurd (hw.one i j client cl hclient hold hthere hhas).symm hne
    · exact hw.held j cl hold hhas

theorem Locked.spawned (hw : Locked w) (op : Op) :
    Locked (w.spawned (system supervisor parseRfc3339) op) := by
  refine ⟨hw.one.spawned rfl, fun j cl hcl hhas => ?_⟩
  rcases System.client_of_spawn hcl with hold | ⟨_, rfl⟩
  · exact hw.held j cl hold hhas
  · cases hhas

/-! ## One Allow -/

/-- At most one task runs an Allow, and none does while one waits for its task. -/
structure OneAllow (w : Clients) : Prop where
  one : System.Exclusive Place.allowing w
  idle : w.state.job.running = none → w.state.waiting = none
  nobody : w.state.job.running = none ∨ w.state.waiting.isSome = true →
    ∀ (j : Nat) (cl : PageClient), w.clients[j]? = some cl → cl.has Place.allowing = false

/-- A call that neither begins nor ends an Allow. -/
theorem OneAllow.same (hw : OneAllow w) (hclient : w.clients[i]? = some client)
    (hprog : client.prog = some (.call c k))
    (hrunning : (handle w.state c answer).1.job.running = none → w.state.job.running = none)
    (hwaiting : (handle w.state c answer).1.waiting = w.state.waiting)
    (hplace : (client.place.advance c (handle w.state c answer).2).allowing = client.place.allowing) :
    OneAllow (w.called (system supervisor parseRfc3339) i client c k answer) := by
  have hmoved : (client.moved (system supervisor parseRfc3339) w.state c k answer).has
      Place.allowing = client.has Place.allowing := by
    rw [Client.has, Client.has, hprog]
    exact congrArg (true && ·) hplace
  refine ⟨hw.one.called hclient fun h => Or.inl (hmoved ▸ h), fun h => ?_, fun h j cl hcl => ?_⟩
  · change (handle w.state c answer).1.waiting = none
    rw [hwaiting]
    exact hw.idle (hrunning h)
  · have hnobody := hw.nobody (h.imp hrunning fun h => by rwa [← hwaiting])
    rcases System.client_of_call hcl with ⟨_, rfl⟩ | ⟨_, other, hother, rfl⟩
    · rw [hmoved]
      exact hnobody i client hclient
    · exact hnobody j other hother

theorem OneAllow.called (hw : OneAllow w) (hclient : w.clients[i]? = some client)
    (hprog : client.prog = some (.call c k)) (hallowed : client.place.Allowed c) :
    OneAllow (w.called (system supervisor parseRfc3339) i client c k answer) := by
  cases c with
  | takeAllow auto =>
      by_cases hwaits : w.state.waiting = some auto
      · have hnobody := hw.nobody (Or.inr (by rw [hwaits]; rfl))
        have hnone : (handle w.state (.takeAllow auto) answer).1.waiting = none := by
          unfold handle DaemonPaired.serveCall
          dsimp only
          rw [if_pos hwaits]
        refine ⟨hw.one.called hclient fun _ => Or.inr fun cl hcl => ?_, fun _ => hnone,
          fun h j cl hcl => ?_⟩
        · obtain ⟨j, hj⟩ := List.getElem?_of_mem hcl
          exact hnobody j cl hj
        · rcases h with hidle | hsome
          · have hidle' : w.state.job.running = none :=
              (congrArg ProxyJob.running (handle_takeAllow w.state auto).1).symm.trans hidle
            rw [hw.idle hidle'] at hwaits
            cases hwaits
          · change (handle w.state (.takeAllow auto) answer).1.waiting.isSome = true at hsome
            rw [hnone] at hsome
            cases hsome
      · have hstate : handle w.state (.takeAllow auto) answer =
            ({ w.state with now := w.state.now + answer.elapsed }, false) := by
          unfold handle DaemonPaired.serveCall
          dsimp only
          rw [if_neg hwaits]
        refine hw.same hclient hprog (fun h => ?_) ?_ ?_
        · rwa [hstate] at h
        · rw [hstate]
        · rw [hstate]
          exact hallowed.symm
  | startAllow auto =>
      cases hrunning : w.state.job.running with
      | some s =>
          have hsome : w.state.job.running.isSome = true := by
            rw [hrunning]
            rfl
          have hstate : handle w.state (.startAllow auto) answer =
              ({ w.state with now := w.state.now + answer.elapsed }, false) :=
            startAllow_running hsome
          refine hw.same hclient hprog (fun h => ?_) ?_ ?_
          · rwa [hstate] at h
          · rw [hstate]
          · rfl
      | none =>
          have hnobody := hw.nobody (Or.inl hrunning)
          have hlater : { w.state with now := w.state.now + answer.elapsed }.job.running = none :=
            hrunning
          have hstarted : (handle w.state (.startAllow auto) answer).1.job.running =
              some (if auto then .verifying else .saving) := (startAllow_idle hlater).1
          have hmoved : (client.moved (system supervisor parseRfc3339) w.state (.startAllow auto) k
              answer).has Place.allowing = client.has Place.allowing := by
            rw [Client.has, Client.has, hprog]
            rfl
          refine ⟨hw.one.called hclient fun h => Or.inl (hmoved ▸ h), fun h => ?_,
            fun _ j cl hcl => ?_⟩
          · change (handle w.state (.startAllow auto) answer).1.job.running = none at h
            rw [hstarted] at h
            cases h
          · rcases System.client_of_call hcl with ⟨_, rfl⟩ | ⟨_, other, hother, rfl⟩
            · rw [hmoved]
              exact hnobody i client hclient
            · exact hnobody j other hother
  | allowEnds last =>
      have hhas := Client.has_of_prog hprog hallowed.1
      have hwaiting : w.state.waiting = none := by
        cases hwaits : w.state.waiting with
        | none => rfl
        | some auto =>
            have hnobody := hw.nobody (Or.inr (by rw [hwaits]; rfl)) i client hclient
            rw [hhas] at hnobody
            cases hnobody
      refine ⟨hw.one.called hclient fun h => absurd (Client.place_of_has h) Bool.false_ne_true,
        fun _ => hwaiting, fun _ j cl hcl => ?_⟩
      rcases System.client_of_call hcl with ⟨_, rfl⟩ | ⟨hne, other, hother, rfl⟩
      · rfl
      · exact hw.one.others hclient hother hhas hne
  | skipClear =>
      obtain ⟨_, hwaiting, _, hrunning, _⟩ :=
        skipClear_keeps { w.state with now := w.state.now + answer.elapsed }
      exact hw.same hclient hprog (fun h => hrunning.symm.trans h) hwaiting rfl
  | cacheServes version running =>
      obtain ⟨hjob, hwaiting, _⟩ := @handle_cacheServes answer w.state version running
      exact hw.same hclient hprog (fun h => (congrArg ProxyJob.running hjob).symm.trans h) hwaiting rfl
  | activeTarget =>
      refine hw.same hclient hprog id rfl ?_
      cases hreply : (handle w.state .activeTarget answer).2 <;> rfl
  | allow c =>
      cases c with
      | step s => exact hw.same hclient hprog (fun h => absurd h (Option.some_ne_none s)) rfl rfl
      | _ => exact hw.same hclient hprog id rfl rfl
  | _ => exact hw.same hclient hprog id rfl rfl

theorem OneAllow.dropped (hw : OneAllow w) :
    OneAllow (w.dropped (system supervisor parseRfc3339) i client) := by
  have hstate : (w.dropped (system supervisor parseRfc3339) i client).state.job = w.state.job ∧
      (w.dropped (system supervisor parseRfc3339) i client).state.waiting = w.state.waiting := by
    change DaemonPaired.job (if client.place.holds then _ else w.state) = _ ∧
      DaemonPaired.waiting (if client.place.holds then _ else w.state) = _
    split
    · exact ⟨rfl, rfl⟩
    · exact ⟨rfl, rfl⟩
  obtain ⟨hjob, hwaiting⟩ := hstate
  refine ⟨hw.one.dropped, fun h => ?_, fun h j cl hcl => ?_⟩
  · rw [hwaiting]
    rw [hjob] at h
    exact hw.idle h
  · rw [hjob, hwaiting] at h
    rcases System.client_of_drop hcl with ⟨_, rfl⟩ | ⟨_, hold⟩
    · rfl
    · exact hw.nobody h j cl hold

theorem OneAllow.spawned (hw : OneAllow w) (op : Op) :
    OneAllow (w.spawned (system supervisor parseRfc3339) op) := by
  refine ⟨hw.one.spawned rfl, hw.idle, fun h j cl hcl => ?_⟩
  rcases System.client_of_spawn hcl with hold | ⟨_, rfl⟩
  · exact hw.nobody h j cl hold
  · rfl

/-! ## Runs that keep the page current -/

/-- Nobody changes the job while another holds the lock of the cache; a status is served from the
cache only if the last change has moved the version and the request that built it changed nothing;
and a confirmation is found due by one at a time. -/
def orderly (w : Clients) (client : PageClient) (c : Call) : Bool :=
  (!changes w.state c || client.has Place.holds || !w.state.held) &&
    match c with
    | .cacheServes version running =>
        !(w.state.cache.any fun cached => cached.version = version && cached.running = running) ||
          (!w.state.history.unbumped && !w.state.history.kept.own)
    | .autoConfirmDue setup =>
        !w.state.autoConfirmDue setup || w.clients.all fun cl => !cl.has Place.due
    | _ => true

def Orderly (w : Clients) : Act Op Answer → Prop
  | .step i _ => ∀ client ∈ w.clients[i]?, ∀ c ∈ client.next, orderly w client c = true
  | _ => True

instance (w : Clients) (act : Act Op Answer) : Decidable (Orderly w act) := by
  unfold Orderly
  split <;> infer_instance

/-- What holds as long as everybody is orderly. -/
structure Kept (w : Clients) : Prop where
  good : Good w.state
  version : ∀ (j : Nat) (cl : PageClient), w.clients[j]? = some cl → cl.has Place.holds = true →
    ∀ v ∈ cl.place.version, v = w.state.job.version
  auto : w.state.history.autoStarts = w.state.job.autoTried.toNat
  due : System.Exclusive Place.due w
  untried : ∀ (j : Nat) (cl : PageClient), w.clients[j]? = some cl → cl.has Place.due = true →
    w.state.job.autoTried = false

/-- A change is the holder's, or nobody holds the lock. -/
theorem held_of_orderly (h : orderly w client c = true) (hchanges : changes w.state c = true)
    (hholds : client.place.holds = false) : w.state.held = false := by
  have hhas : client.has Place.holds = false := by
    rw [Client.has, hholds]
    exact Bool.and_false _
  have hfirst := (Bool.and_eq_true_iff.mp h).1
  rw [hchanges, hhas] at hfirst
  simpa using hfirst

theorem permits (hlocked : Locked w) (hw : Kept w) (hclient : w.clients[i]? = some client)
    (hprog : client.prog = some (.call c k)) (hallowed : client.place.Allowed c)
    (horderly : orderly w client c = true) : Permits w.state c where
  held version running h := by
    subst h
    exact hlocked.held i client hclient (Client.has_of_prog hprog hallowed.1)
  version version running h := by
    subst h
    exact hw.version i client hclient (Client.has_of_prog hprog hallowed.1) version hallowed.2
  filled version running status h := by
    subst h
    exact hw.version i client hclient (Client.has_of_prog hprog hallowed.1) version hallowed.2
  hit version running h cached hcached hversion hrunning := by
    subst h
    have hsecond := (Bool.and_eq_true_iff.mp horderly).2
    dsimp only at hsecond
    have hany : (w.state.cache.any fun cached =>
        cached.version = version && cached.running = running) = true := by
      rw [Option.mem_def] at hcached
      rw [hcached]
      simp [hversion, hrunning]
    rw [hany] at hsecond
    simpa using hsecond
  ends last h := by
    subst h
    have hheld := held_of_orderly horderly rfl hallowed.2
    cases hbuild : w.state.history.build with
    | none => rfl
    | some b =>
        have hthere := hw.good.held (by rw [hbuild]; rfl)
        rw [hheld] at hthere
        cases hthere

/-- The version last read is the job's where it is kept. -/
theorem version_moved {g : Place} (hversion : g.holds = true → ∀ v ∈ g.version, v = p.job.version)
    (hholds : (g.advance c (handle p c answer).2).holds = true) :
    ∀ v ∈ (g.advance c (handle p c answer).2).version, v = (handle p c answer).1.job.version := by
  rw [holds_advance] at hholds
  cases c with
  | lockCache => nofun
  | startAllow auto => nofun
  | finish => nofun
  | skipClear => nofun
  | allowEnds last => nofun
  | jobVersion =>
      rintro v hv
      cases hv
      rfl
  | cacheServes version running =>
      rintro v hv
      have hbefore := (Bool.and_eq_true_iff.mp hholds).1
      exact (hversion hbefore v hv).trans
        (congrArg ProxyJob.version (handle_cacheServes p version running).1).symm
  | takeAllow auto =>
      rintro v hv
      exact (hversion hholds v hv).trans (congrArg ProxyJob.version (handle_takeAllow p auto).1).symm
  | activeTarget =>
      cases hreply : (handle p .activeTarget answer).2 <;> exact hversion hholds
  | allow c =>
      cases c with
      | step s => nofun
      | _ => exact hversion hholds
  | clearCache => cases hholds
  | fillCache version running status => cases hholds
  | _ => exact hversion hholds

/-- The automatic confirmation is started by one call only. -/
theorem auto_handle (hc : c = .startAllow true → p.job.running.isSome = true) :
    (handle p c answer).1.job.autoTried = p.job.autoTried ∧
      (handle p c answer).1.history.autoStarts = p.history.autoStarts := by
  cases c with
  | startAllow auto =>
      have hlater : handle p (.startAllow auto) answer =
          { p with now := p.now + answer.elapsed }.startAllow auto := rfl
      cases hrunning : p.job.running with
      | some s =>
          have hsome : { p with now := p.now + answer.elapsed }.job.running.isSome = true := by
            rw [hrunning]
            rfl
          rw [hlater, startAllow_running hsome]
          exact ⟨rfl, rfl⟩
      | none =>
          obtain ⟨_, htried, hstarts⟩ :=
            @startAllow_idle { p with now := p.now + answer.elapsed } auto hrunning
          cases auto with
          | true =>
              have hbusy := hc rfl
              rw [hrunning] at hbusy
              cases hbusy
          | false => exact ⟨htried, hstarts⟩
  | cacheServes version running =>
      obtain ⟨hjob, _, _, hstarts⟩ := @handle_cacheServes answer p version running
      exact ⟨congrArg ProxyJob.autoTried hjob, hstarts⟩
  | skipClear => exact (skipClear_keeps _).2.2.2.2
  | takeAllow auto =>
      obtain ⟨hjob, _, hstarts⟩ := @handle_takeAllow answer p auto
      exact ⟨congrArg ProxyJob.autoTried hjob, hstarts⟩
  | allow c => cases c <;> exact ⟨rfl, rfl⟩
  | _ => exact ⟨rfl, rfl⟩

theorem due_advance {g : Place} {r : c.Reply} (h : (g.advance c r).due = true) :
    g.due = true ∧ c ≠ .startAllow true ∨ ∃ setup, c = .autoConfirmDue setup := by
  cases c with
  | autoConfirmDue setup => exact Or.inr ⟨setup, rfl⟩
  | activeTarget =>
      cases r with
      | error e => cases h
      | ok _ => exact Or.inl ⟨h, nofun⟩
  | startAllow auto =>
      obtain ⟨hdue, hmanual⟩ := Bool.and_eq_true_iff.mp h
      refine Or.inl ⟨hdue, fun heq => ?_⟩
      cases heq
      cases hmanual
  | allow c => cases c <;> exact Or.inl ⟨h, nofun⟩
  | _ => exact Or.inl ⟨h, nofun⟩

theorem Kept.called (hlocked : Locked w) (hw : Kept w) (hclient : w.clients[i]? = some client)
    (hprog : client.prog = some (.call c k)) (hallowed : client.place.Allowed c)
    (horderly : orderly w client c = true) :
    Kept (w.called (system supervisor parseRfc3339) i client c k answer) where
  good := hw.good.handle (permits hlocked hw hclient hprog hallowed horderly)
  version j cl hcl hhas := by
    rcases System.client_of_call hcl with ⟨_, rfl⟩ | ⟨hne, other, hother, rfl⟩
    · refine version_moved (fun hholds => ?_) (Client.place_of_has hhas)
      exact hw.version i client hclient (Client.has_of_prog hprog hholds)
    · have hold : other.has Place.holds = true := hhas
      have hnot : client.place.holds = false := by
        cases hholds : client.place.holds with
        | false => rfl
        | true =>
            have hthere := Client.has_of_prog hprog hholds
            exact absurd (hlocked.one i j client other hclient hother hthere hold).symm hne
      have hunchanged : changes w.state c = false := by
        cases hchanges : changes w.state c with
        | false => rfl
        | true =>
            have hheld := held_of_orderly horderly hchanges hnot
            rw [hlocked.held j other hother hold] at hheld
            cases hheld
      intro v hv
      exact (hw.version j other hother hold v hv).trans (version_of_unchanged hunchanged).symm
  auto := by
    change (handle w.state c answer).1.history.autoStarts =
      (handle w.state c answer).1.job.autoTried.toNat
    by_cases hstart : c = .startAllow true ∧ w.state.job.running = none
    · obtain ⟨rfl, hrunning⟩ := hstart
      have huntried := hw.untried i client hclient (Client.has_of_prog hprog (hallowed rfl))
      have hauto := hw.auto
      rw [huntried] at hauto
      obtain ⟨_, htried, hstarts⟩ :=
        @startAllow_idle { w.state with now := w.state.now + answer.elapsed } true hrunning
      calc (handle w.state (.startAllow true) answer).1.history.autoStarts
          = w.state.history.autoStarts + 1 := hstarts
        _ = 1 := congrArg (· + 1) hauto
        _ = (handle w.state (.startAllow true) answer).1.job.autoTried.toNat :=
            (congrArg Bool.toNat htried).symm
    · have hsame := @auto_handle w.state c answer fun h => by
        cases hrunning : w.state.job.running with
        | none => exact absurd ⟨h, hrunning⟩ hstart
        | some s => rfl
      rw [hsame.1, hsame.2]
      exact hw.auto
  due := by
    refine hw.due.called hclient fun hmoved => ?_
    have hafter := Client.place_of_has hmoved
    rcases due_advance hafter with ⟨hdue, _⟩ | ⟨setup, rfl⟩
    · exact Or.inl (Client.has_of_prog hprog hdue)
    · have hfound : w.state.autoConfirmDue setup = true := hafter
      have hsecond := (Bool.and_eq_true_iff.mp horderly).2
      dsimp only at hsecond
      rw [hfound, Bool.not_true, Bool.false_or, List.all_eq_true] at hsecond
      exact Or.inr fun cl hcl => by simpa using hsecond cl hcl
  untried j cl hcl hhas := by
    change (handle w.state c answer).1.job.autoTried = false
    rcases System.client_of_call hcl with ⟨_, rfl⟩ | ⟨hne, other, hother, rfl⟩
    · have hafter := Client.place_of_has hhas
      rcases due_advance hafter with ⟨hdue, hnot⟩ | ⟨setup, rfl⟩
      · rw [(auto_handle fun h => absurd h hnot).1]
        exact hw.untried i client hclient (Client.has_of_prog hprog hdue)
      · have hfound : w.state.autoConfirmDue setup = true := hafter
        unfold DaemonPaired.autoConfirmDue at hfound
        rw [Bool.and_eq_true, Bool.not_eq_true'] at hfound
        exact hfound.2
    · have hold : other.has Place.due = true := hhas
      have hnot : c ≠ .startAllow true := by
        rintro rfl
        have hthere := Client.has_of_prog hprog (hallowed rfl)
        exact hne (hw.due i j client other hclient hother hthere hold).symm
      rw [(auto_handle fun h => absurd h hnot).1]
      exact hw.untried j other hother hold

theorem Good.abandon (h : Good p) :
    Good { p with held := false, history := { p.history with build := none } } where
  held hsome := absurd hsome Bool.false_ne_true
  build _ hb := absurd hb (Option.not_mem_none _)
  reading := h.reading
  version := h.version
  kept := h.kept
  served := h.served

theorem Kept.dropped (hw : Kept w) : Kept (w.dropped (system supervisor parseRfc3339) i client) := by
  have hclients (j : Nat) (cl : PageClient) (q : Place → Bool)
      (hcl : (w.dropped (system supervisor parseRfc3339) i client).clients[j]? = some cl)
      (hhas : cl.has q = true) : w.clients[j]? = some cl := by
    rcases System.client_of_drop hcl with ⟨_, rfl⟩ | ⟨_, hold⟩
    · cases hhas
    · exact hold
  have hstate : (w.dropped (system supervisor parseRfc3339) i client).state =
      if client.place.holds then
        { w.state with held := false, history := { w.state.history with build := none } }
      else w.state := rfl
  constructor
  · rw [hstate]
    split
    · exact hw.good.abandon
    · exact hw.good
  · intro j cl hcl hhas v hv
    rw [hstate]
    split <;> exact hw.version j cl (hclients j cl _ hcl hhas) hhas v hv
  · rw [hstate]
    split <;> exact hw.auto
  · exact hw.due.dropped
  · intro j cl hcl hhas
    rw [hstate]
    split <;> exact hw.untried j cl (hclients j cl _ hcl hhas) hhas

theorem Kept.spawned (hw : Kept w) (op : Op) :
    Kept (w.spawned (system supervisor parseRfc3339) op) := by
  refine ⟨hw.good, fun j cl hcl hhas => ?_, hw.auto, hw.due.spawned rfl, fun j cl hcl hhas => ?_⟩
  · rcases System.client_of_spawn hcl with hold | ⟨_, rfl⟩
    · exact hw.version j cl hold hhas
    · cases hhas
  · rcases System.client_of_spawn hcl with hold | ⟨_, rfl⟩
    · exact hw.untried j cl hold hhas
    · cases hhas

end

/-! ## Runs -/

section

variable {supervisor : Bool} {parseRfc3339 : String → Option Int} {w w' : Clients}
  {act : Act Op Answer}

/-- What holds in every run. -/
structure Safe (supervisor : Bool) (parseRfc3339 : String → Option Int) (w : Clients) : Prop where
  faithful : System.Faithful (system supervisor parseRfc3339) (fun _ _ _ => True) w
  locked : Locked w
  one : OneAllow w

theorem safe_start (marker : Bool) : Safe supervisor parseRfc3339 (start marker) where
  faithful _ _ _ hcl := absurd hcl (by simp [start])
  locked := ⟨fun _ _ _ _ hcl => absurd hcl (by simp [start]), fun _ _ hcl => absurd hcl (by simp [start])⟩
  one := ⟨fun _ _ _ _ hcl => absurd hcl (by simp [start]), fun _ => rfl,
    fun _ _ _ hcl => absurd hcl (by simp [start])⟩

theorem kept_start (marker : Bool) : Kept (start marker) where
  good := good_start marker
  version _ _ hcl := absurd hcl (by simp [start])
  auto := rfl
  due _ _ _ _ hcl := absurd hcl (by simp [start])
  untried _ _ hcl := absurd hcl (by simp [start])

theorem held_of_ready {i : Nat} {client : PageClient} {c : Call} {k : c.Reply → Prog Call Call.Reply Result}
    {answer : Answer} (hready : ready w (.step i answer) = true)
    (hclient : w.clients[i]? = some client) (hprog : client.prog = some (.call c k))
    (hc : c = .lockCache) : w.state.held = false := by
  subst hc
  have hnext : w.clients[i]?.bind Client.next = some .lockCache := by
    rw [hclient, Option.bind_some, Client.next, hprog]
  unfold ready at hready
  dsimp only at hready
  rw [hnext] at hready
  simpa using hready

theorem Safe.step (hs : Safe supervisor parseRfc3339 w)
    (h : step supervisor parseRfc3339 w act = some w') : Safe supervisor parseRfc3339 w' := by
  obtain ⟨hready, hstep⟩ := System.of_stepWhen h
  refine ⟨hs.faithful.step (follows_code parseRfc3339) hstep, ?_, ?_⟩
  · cases act with
    | spawn op =>
        rw [System.step_spawn hstep]
        exact hs.locked.spawned op
    | step i answer =>
        obtain ⟨client, c, k, hclient, hprog, rfl⟩ := System.step_call hstep
        exact hs.locked.called hclient hprog (hs.faithful.allowed hclient hprog)
          (held_of_ready hready hclient hprog)
    | drop i =>
        obtain ⟨client, c, k, hclient, hprog, rfl⟩ := System.step_drop hstep
        exact hs.locked.dropped hclient hprog
  · cases act with
    | spawn op =>
        rw [System.step_spawn hstep]
        exact hs.one.spawned op
    | step i answer =>
        obtain ⟨client, c, k, hclient, hprog, rfl⟩ := System.step_call hstep
        exact hs.one.called hclient hprog (hs.faithful.allowed hclient hprog)
    | drop i =>
        obtain ⟨client, c, k, hclient, hprog, rfl⟩ := System.step_drop hstep
        exact hs.one.dropped

theorem Kept.step (hs : Safe supervisor parseRfc3339 w) (hw : Kept w) (horderly : Orderly w act)
    (h : step supervisor parseRfc3339 w act = some w') : Kept w' := by
  obtain ⟨_, hstep⟩ := System.of_stepWhen h
  cases act with
  | spawn op =>
      rw [System.step_spawn hstep]
      exact hw.spawned op
  | step i answer =>
      obtain ⟨client, c, k, hclient, hprog, rfl⟩ := System.step_call hstep
      have hnext : c ∈ client.next := by
        unfold Client.next
        rw [hprog]
        rfl
      exact hw.called hs.locked hclient hprog (hs.faithful.allowed hclient hprog)
        (horderly client hclient c hnext)
  | drop i =>
      obtain ⟨client, c, k, hclient, hprog, rfl⟩ := System.step_drop hstep
      exact hw.dropped

end

/-- In every run at most one Allow is under way.  If all its steps are orderly then the automatic
confirmation is started at most once, and every status served is current. -/
theorem page_present (supervisor : Bool) (parseRfc3339 : String → Option Int) (marker : Bool)
    (acts : List (Act Op Answer)) {w : Clients}
    (h : Runs.run (step supervisor parseRfc3339) (start marker) acts = some w) :
    OneAllow w ∧ (Runs.Meets (step supervisor parseRfc3339) Orderly (start marker) acts →
      w.state.history.autoStarts ≤ 1 ∧ ∀ e ∈ w.state.history.served, e.Current) := by
  have hsafe : Safe supervisor parseRfc3339 w :=
    Runs.invariant_always (fun _ _ _ hs hstep => hs.step hstep) (safe_start marker) h
  refine ⟨hsafe.one, fun hmeets => ?_⟩
  have hstep (w : Clients) (act : Act Op Answer) (w' : Clients)
      (hw : Safe supervisor parseRfc3339 w ∧ Kept w) (horderly : Orderly w act)
      (h : step supervisor parseRfc3339 w act = some w') :
      Safe supervisor parseRfc3339 w' ∧ Kept w' :=
    ⟨hw.1.step h, hw.2.step hw.1 horderly h⟩
  have hboth := Runs.invariant hstep ⟨safe_start marker, kept_start marker⟩ hmeets h
  refine ⟨?_, hboth.2.good.served⟩
  rw [hboth.2.auto]
  exact Bool.toNat_le _

/-- Home Assistant answers, and has the settings that Allow is for. -/
def accepting : Answer where
  allow
    | .connect _ => .ok ()
    | .httpConfig => .ok (.object [("stable", .object
        [("trusted_proxies", .array [.string "127.0.0.1", .string "::1"]),
         ("use_x_forwarded_for", .bool true)])])
    | c => unreachable c

/-- A status before Allow, one while its task runs, and two when it has ended. -/
def statusAroundAllow : List (Act Op Answer) :=
  [[.spawn .status], List.replicate 14 (.step 0 {}),
    [.spawn .allowProxies], List.replicate 4 (.step 1 {}),
    [.spawn (.allowTask false 2)], List.replicate 3 (.step 2 accepting),
    [.spawn .status], List.replicate 9 (.step 3 accepting), List.replicate 3 (.step 2 accepting),
    [.spawn .status], List.replicate 16 (.step 4 accepting),
    [.spawn .status], List.replicate 4 (.step 5 accepting)].flatten

/-- What a run has come to: the statuses served, and whether an Allow runs. -/
def servedAround (w : Clients) : List (Bool × Nat × Nat) × Bool :=
  (w.state.history.served.map fun e => (e.fromCache, e.changes, e.ends),
    w.state.job.running.isSome)

theorem page_present_aroundAllow :
    ∃ w, Runs.run (step true fun _ => none) (start false) statusAroundAllow = some w ∧
      servedAround w = ([(false, 0, 0), (false, 1, 0), (false, 3, 1), (true, 3, 1)], false) ∧
      OneAllow w ∧ w.state.history.autoStarts ≤ 1 ∧
      ∀ e ∈ w.state.history.served, e.Current := by
  have hmeets : Runs.Meets (step true fun _ => none) Orderly (start false) statusAroundAllow := by
    decide +kernel
  have hserved : ((Runs.run (step true fun _ => none) (start false) statusAroundAllow).map
      servedAround) =
        some ([(false, 0, 0), (false, 1, 0), (false, 3, 1), (true, 3, 1)], false) := by
    decide +kernel
  obtain ⟨w, hrun, haround⟩ := Option.map_eq_some_iff.mp hserved
  obtain ⟨hone, hrest⟩ := page_present true (fun _ => none) false statusAroundAllow hrun
  exact ⟨w, hrun, haround, hone, hrest hmeets⟩

end DatumConnect.AddonPage
