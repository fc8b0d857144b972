import DatumConnect.Heartbeat.Projects
/-!
# What a refresh makes up for

Refreshes one after the other, each with a cache and with probes that may answer yes or no
or fail.  The projects that are known are taken from the cache before the first of them is
probed.
-/

namespace DatumConnect.Heartbeat.Projects

open DatumConnect.Lib
open DatumConnect.Lib.Prog (SafeWhen)

/-- The agent after some refreshes. -/
inductive Reached : Agent → Prop
  | start : Reached {}
  | refresh {s t : Agent} {answers : List Answer} (h : Reached s)
      (hrun : Prog.exec handle s answers refreshProjects = (t, some ())) : Reached t

section Refresh

variable {s t : Agent} {next : List String} {p : String} {yes : Prop}

/-- What a computation comes to; where `yes` holds, every probe finds the project's
connector. -/
abbrev Probing {α : Type} (p : String) (yes : Prop) (post : Agent → α → Prop) (prog : Hb α)
    (s : Agent) : Prop :=
  SafeWhen handle (fun _ _ answer => yes → answer.probe p = .ok true) (fun _ => True) post prog s

theorem mem_keys_register {q r : String} : q ∈ (s.register r).keys ↔ q ∈ s.keys ∨ q = r := by
  unfold Agent.register
  split
  · rename_i hmem
    constructor
    · exact Or.inl
    · rintro (hq | rfl)
      · exact hq
      · exact hmem
  · simp [Agent.keys]

theorem mem_keys_deregister {q r : String} : q ∈ (s.deregister r).keys ↔ q ∈ s.keys ∧ q ≠ r := by
  simp only [Agent.deregister, Agent.keys, List.mem_map, List.mem_filter, decide_eq_true_eq]
  constructor
  · rintro ⟨e, ⟨he, hne⟩, rfl⟩
    exact ⟨⟨e, he, rfl⟩, hne⟩
  · rintro ⟨⟨e, he, rfl⟩, hne⟩
    exact ⟨e, ⟨he, hne⟩, rfl⟩

theorem known_register {q : String} : (s.register q).known = s.known := by
  unfold Agent.register
  split <;> rfl

theorem probing_updateKnown :
    Probing p yes (fun t same => s.known = next.toFinset ∧ same = true ∧ t = s ∨
        s.known ≠ next.toFinset ∧ same = false ∧ t = { s with known := next.toFinset })
      (Hb.updateKnown next) s := by
  refine ⟨trivial, fun answer _ => ⟨trivial, ?_⟩⟩
  simp only [handle]
  split
  · rename_i hknown
    exact Or.inl ⟨hknown, rfl, rfl⟩
  · rename_i hknown
    exact Or.inr ⟨hknown, rfl, rfl⟩

theorem probing_running :
    Probing p yes (fun t running => t = s ∧ ∀ q, q ∈ running ↔ q ∈ s.keys) Hb.runningProjects s :=
  ⟨trivial, fun _ _ => ⟨trivial, rfl, fun _ => mem_arrange⟩⟩

/-- Those that are gone from the cache are deregistered. -/
theorem probing_dismiss (running : List String) (hs : Sound s)
    (hkeys : ∀ q ∈ s.keys, q ∈ next ∨ q ∈ running) :
    Probing p yes (fun t _ => Sound t ∧ t.known = s.known ∧ ∀ q ∈ t.keys, q ∈ next)
      (running.forM (dismiss next)) s := by
  induction running generalizing s with
  | nil =>
      refine ⟨trivial, hs, rfl, fun q hq => ?_⟩
      rcases hkeys q hq with h | h
      · exact h
      · cases h
  | cons r running ih =>
      refine SafeWhen.bind ?_
      unfold dismiss
      split
      · rename_i hmem
        refine ⟨trivial, ih hs fun q hq => ?_⟩
        rcases hkeys q hq with h | h
        · exact Or.inl h
        · rcases List.mem_cons.mp h with rfl | h
          · exact Or.inl hmem
          · exact Or.inr h
      · refine ⟨trivial, fun answer _ => ⟨trivial, ?_⟩⟩
        refine ih (hs.deregister r) fun q hq => ?_
        obtain ⟨hq, hne⟩ := mem_keys_deregister.mp hq
        rcases hkeys q hq with h | h
        · exact Or.inl h
        · rcases List.mem_cons.mp h with rfl | h
          · exact absurd rfl hne
          · exact Or.inr h

/-- A project of the cache is registered where it is not yet and has a connector. -/
theorem probing_enroll {q : String} (hs : Sound s) :
    Probing p yes (fun t _ => Sound t ∧ t.known = s.known ∧ (∀ r ∈ t.keys, r ∈ s.keys ∨ r = q) ∧
        (∀ r ∈ s.keys, r ∈ t.keys) ∧ (yes → q = p → p ∈ t.keys)) (enroll q) s := by
  refine ⟨trivial, fun answer _ => ?_⟩
  show Probing p yes _ (if decide (q ∈ s.keys) = true then _ else _) s
  by_cases hmem : q ∈ s.keys
  · rw [if_pos (decide_eq_true hmem)]
    exact ⟨trivial, hs, rfl, fun r hr => Or.inl hr, fun r hr => hr, fun _ hq => hq ▸ hmem⟩
  · rw [if_neg (by simpa using hmem)]
    refine ⟨trivial, fun answer hprobe => ?_⟩
    dsimp only [Prog.bind]
    split
    · refine ⟨trivial, fun answer' _ => ⟨trivial, hs.register q, known_register, ?_, ?_, ?_⟩⟩
      · exact fun r hr => mem_keys_register.mp hr
      · exact fun r hr => mem_keys_register.mpr (Or.inl hr)
      · rintro _ rfl
        exact mem_keys_register.mpr (Or.inr rfl)
    · rename_i hno
      refine ⟨trivial, hs, rfl, fun r hr => Or.inl hr, fun r hr => hr, ?_⟩
      rintro hyes rfl
      exact absurd (hprobe hyes) hno

theorem probing_enrollEach (names : List String) (hs : Sound s)
    (hnames : ∀ q ∈ names, q ∈ next) (hkeys : ∀ q ∈ s.keys, q ∈ next) :
    Probing p yes (fun t _ => Sound t ∧ t.known = s.known ∧ (∀ q ∈ t.keys, q ∈ next) ∧
        (yes → p ∈ names ∨ p ∈ s.keys → p ∈ t.keys)) (names.forM enroll) s := by
  induction names generalizing s with
  | nil => exact ⟨trivial, hs, rfl, hkeys, fun _ h => h.resolve_left (by simp)⟩
  | cons q names ih =>
      refine SafeWhen.bind ((probing_enroll hs).mono fun t _ _ ht => ?_)
      obtain ⟨hsound, hknown, hwithin, hkept, hregistered⟩ := ht
      have hkeys' : ∀ r ∈ t.keys, r ∈ next := by
        intro r hr
        rcases hwithin r hr with h | rfl
        · exact hkeys r h
        · exact hnames r List.mem_cons_self
      have hnames' : ∀ r ∈ names, r ∈ next := fun r hr => hnames r (List.mem_cons_of_mem q hr)
      refine (ih hsound hnames' hkeys').mono fun u _ _ hu => ?_
      refine ⟨hu.1, hu.2.1.trans hknown, hu.2.2.1, fun hyes hp => hu.2.2.2 hyes ?_⟩
      rcases hp with hp | hp
      · rcases List.mem_cons.mp hp with rfl | hp
        · exact Or.inr (hregistered hyes rfl)
        · exact Or.inl hp
      · exact Or.inr (hkept p hp)

/-- What a refresh comes to. -/
structure Refresh (yes : Prop) (p : String) (cache : List String) (s t : Agent) : Prop where
  sound : Sound t
  known : t.known = cache.toFinset
  within : ∀ q ∈ t.keys, q ∈ t.known
  early : s.known = cache.toFinset → t = s
  registered : yes → s.known ≠ cache.toFinset → p ∈ cache → p ∈ t.keys

theorem refresh_of_exec (yes : Prop) (p : String) {answers : List Answer} {first : Answer}
    (hs : Sound s)
    (hwithin : ∀ q ∈ s.keys, q ∈ s.known)
    (hrun : Prog.exec handle s (first :: answers) refreshProjects = (t, some ()))
    (hyes : yes → ∀ answer ∈ answers, answer.probe p = .ok true) :
    Refresh yes p first.cache s t := by
  have hmem : ∀ q, q ∈ arrange first.order first.cache.dedup ↔ q ∈ first.cache := by
    intro q
    rw [mem_arrange, List.mem_dedup]
  have hset : (arrange first.order first.cache.dedup).toFinset = first.cache.toFinset := by
    ext q
    rw [List.mem_toFinset, List.mem_toFinset, hmem]
  -- the first answer is the cache; what is left is the rest of the refresh
  change Prog.exec handle s answers (refreshTo (arrange first.order first.cache.dedup)) =
    (t, some ()) at hrun
  generalize arrange first.order first.cache.dedup = next at hmem hset hrun
  have hsafe : Probing p yes (fun t _ => Refresh yes p first.cache s t)
      (refreshTo next) s := by
    refine SafeWhen.bind (probing_updateKnown.mono fun u same _ hu => ?_)
    rw [hset] at hu
    obtain ⟨hknown, rfl, rfl⟩ | ⟨hknown, rfl, rfl⟩ := hu
    · exact ⟨trivial, hs, hknown, hwithin, fun _ => rfl, fun _ hne => absurd hknown hne⟩
    · rw [if_neg Bool.false_ne_true]
      have hs' : Sound { s with known := first.cache.toFinset } := ⟨hs.unique, hs.runs⟩
      refine SafeWhen.bind (probing_running.mono fun u running _ hr => ?_)
      obtain ⟨rfl, hrunning⟩ := hr
      refine SafeWhen.bind ((probing_dismiss running hs' fun q hq =>
        Or.inr ((hrunning q).mpr hq)).mono fun u _ _ hu => ?_)
      obtain ⟨husound, huknown, hukeys⟩ := hu
      refine (probing_enrollEach next husound (fun q hq => hq) hukeys).mono fun v _ _ hv => ?_
      obtain ⟨hvsound, hvknown, hvkeys, hvp⟩ := hv
      refine ⟨hvsound, hvknown.trans huknown, fun q hq => ?_, fun h => absurd h hknown,
        fun h _ hp => hvp h (Or.inl ((hmem p).mpr hp))⟩
      rw [hvknown, huknown, List.mem_toFinset, ← hmem]
      exact hvkeys q hq
  have hprobes : ∀ answer ∈ answers, yes → answer.probe p = .ok true :=
    fun answer ha h => hyes h answer ha
  have hpost := (hsafe.exec (Prog.Answered.of_mem hprobes)).2 () (by rw [hrun])
  rw [hrun] at hpost
  exact hpost

end Refresh

/-! ## After any refreshes -/

theorem Reached.sound {s : Agent} (h : Reached s) : Sound s ∧ ∀ q ∈ s.keys, q ∈ s.known := by
  induction h with
  | start => exact ⟨Sound.start, fun q hq => nomatch hq⟩
  | @refresh s t answers h hrun ih =>
      cases answers with
      | nil => cases hrun
      | cons first answers =>
          have hrefresh := refresh_of_exec False "" ih.1 ih.2 hrun False.elim
          exact ⟨hrefresh.sound, hrefresh.within⟩

/-- A project of the cache with a connector is registered after a refresh exactly where the
projects are not those that are known, or it was registered before; and no project that is
gone from the cache has a runner. -/
theorem refreshed_iff {s t : Agent} {first : Answer} {answers : List Answer} (hs : Reached s)
    (hrun : Prog.exec handle s (first :: answers) refreshProjects = (t, some ())) :
    (∀ p ∈ first.cache, (∀ answer ∈ answers, answer.probe p = .ok true) →
      (p ∈ t.keys ↔ s.known ≠ first.cache.toFinset ∨ p ∈ s.keys)) ∧
    ∀ r ∈ t.runners, r.project ∉ first.cache → r.cancelled = true := by
  constructor
  · intro p hp hprobe
    have h := refresh_of_exec True p hs.sound.1 hs.sound.2 hrun
      fun _ => hprobe
    constructor
    · intro hregistered
      by_cases hknown : s.known = first.cache.toFinset
      · rw [h.early hknown] at hregistered
        exact Or.inr hregistered
      · exact Or.inl hknown
    · rintro (hknown | hregistered)
      · exact h.registered trivial hknown hp
      · by_cases hknown : s.known = first.cache.toFinset
        · rw [h.early hknown]
          exact hregistered
        · exact h.registered trivial hknown hp
  · intro r hr hgone
    have h := refresh_of_exec False "" hs.sound.1 hs.sound.2 hrun False.elim
    obtain ⟨n, hn⟩ := List.mem_iff_getElem?.mp hr
    by_contra hlive
    have hmem := h.sound.removedCancelled n r hn (Bool.eq_false_iff.mpr hlive)
    have hkey := h.within r.project (List.mem_map_of_mem hmem)
    rw [h.known, List.mem_toFinset] at hkey
    exact hgone hkey

/-- The probe of a project succeeds. -/
def probed : Answer := { cache := ["p"], order := ["p"], probe := fun _ => .ok true }

/-- It fails. -/
def unprobed : Answer := { cache := ["p"], order := ["p"] }

theorem refreshed_iff_first :
    ∃ t, Prog.exec handle {} (List.replicate 6 probed) refreshProjects = (t, some ()) ∧
      t.keys = ["p"] ∧
      (∀ p ∈ probed.cache, (∀ answer ∈ List.replicate 5 probed, answer.probe p = .ok true) →
        (p ∈ t.keys ↔ (∅ : Finset String) ≠ probed.cache.toFinset ∨ p ∈ ({} : Agent).keys)) ∧
      ∀ r ∈ t.runners, r.project ∉ probed.cache → r.cancelled = true :=
  ⟨_, rfl, rfl, refreshed_iff .start (show Prog.exec handle {} (probed :: List.replicate 5 probed)
    refreshProjects = (_, some ()) from rfl)⟩

/-- The probe fails, and the next refresh does not make up for it. -/
theorem failed_probe_left :
    ∃ s t, Prog.exec handle {} (List.replicate 5 unprobed) refreshProjects = (s, some ()) ∧
      Prog.exec handle s (List.replicate 6 probed) refreshProjects = (t, some ()) ∧
      (∀ answer ∈ List.replicate 6 probed, "p" ∈ answer.cache ∧ answer.probe "p" = .ok true) ∧
      t.keys = [] :=
  ⟨_, _, rfl, rfl, by simp [probed], rfl⟩

end DatumConnect.Heartbeat.Projects
