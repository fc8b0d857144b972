import Mathlib.Data.Finset.Basic
import Mathlib.Data.Finset.Dedup
import DatumConnect.Lib.Pool
/-!
# Which projects have a heartbeat

The heartbeat agent keeps a runner for each project it has registered, and the set of
projects that it knew when it last looked.  The registered projects and the known ones are
behind a lock each; every operation takes one of them for one call at a time, and a refresh
probes the API in between.
-/

namespace DatumConnect.Heartbeat.Projects

open DatumConnect.Lib
open DatumConnect.Lib.Prog (Only Follows Protocol Stays)

/-- A runner, by its cancellation token. -/
structure Runner where
  project : String
  cancelled : Bool := false
  deriving DecidableEq, Repr

/-- Of each registered project the runner's place among all that have been started. -/
structure Agent where
  projects : List (String × Nat) := []
  known : Finset String := ∅
  runners : List Runner := []

namespace Agent

def keys (s : Agent) : List String := s.projects.map Prod.fst

def cancel (tokens : List Nat) (runners : List Runner) : List Runner :=
  runners.mapIdx fun i r => if i ∈ tokens then { r with cancelled := true } else r

/-- `register_project`: a project that is registered keeps its runner. -/
def register (s : Agent) (projectId : String) : Agent :=
  if projectId ∈ s.keys then s
  else { s with
    projects := s.projects ++ [(projectId, s.runners.length)]
    runners := s.runners ++ [{ project := projectId }] }

/-- `deregister_project`. -/
def deregister (s : Agent) (projectId : String) : Agent :=
  { s with
    projects := s.projects.filter fun e => e.1 ≠ projectId
    runners := cancel ((s.projects.filter fun e => e.1 = projectId).map Prod.snd) s.runners }

/-- `clear_projects`. -/
def drain (s : Agent) : Agent :=
  { s with projects := [], runners := cancel (s.projects.map Prod.snd) s.runners }

end Agent

/-! ## The operations -/

inductive Call where
  | orgsProjectsCache
  | updateKnown (next : List String)
  | runningProjects
  | containsProject (projectId : String)
  | probeConnector (projectId : String)
  | registerProject (projectId : String)
  | deregisterProject (projectId : String)
  | clearProjects
  | clearKnownProjects
  deriving DecidableEq, Repr

abbrev Call.Reply : Call → Type
  | .orgsProjectsCache => List String
  | .updateKnown _ => Bool
  | .runningProjects => List String
  | .containsProject _ => Bool
  | .probeConnector _ => Except String Bool
  | _ => Unit

abbrev Hb := Prog Call Call.Reply

namespace Hb

def orgsProjectsCache : Hb (List String) := Prog.perform Call.orgsProjectsCache

def updateKnown (next : List String) : Hb Bool := Prog.perform (Call.updateKnown next)

def runningProjects : Hb (List String) := Prog.perform Call.runningProjects

def containsProject (projectId : String) : Hb Bool :=
  Prog.perform (Call.containsProject projectId)

def probeConnector (projectId : String) : Hb (Except String Bool) :=
  Prog.perform (Call.probeConnector projectId)

def registerProject (projectId : String) : Hb Unit :=
  Prog.perform (Call.registerProject projectId)

def deregisterProject (projectId : String) : Hb Unit :=
  Prog.perform (Call.deregisterProject projectId)

def clearProjects : Hb Unit := Prog.perform Call.clearProjects

def clearKnownProjects : Hb Unit := Prog.perform Call.clearKnownProjects

end Hb

/-- Probe a project that is not registered, and register it if it has a connector. -/
def enroll (projectId : String) : Hb Unit := do
  if ← Hb.containsProject projectId then return ()
  else
    match ← Hb.probeConnector projectId with
    | .ok true => Hb.registerProject projectId
    | _ => return ()

/-- Deregister a project that the cache no longer lists. -/
def dismiss (next : List String) (projectId : String) : Hb Unit :=
  if projectId ∈ next then return () else Hb.deregisterProject projectId

/-- Nothing is done where the projects are those that are known. -/
def refreshTo (next : List String) : Hb Unit := do
  if ← Hb.updateKnown next then return ()
  else
    let running ← Hb.runningProjects
    running.forM (dismiss next)
    next.forM enroll

def refreshProjects : Hb Unit := do
  let next ← Hb.orgsProjectsCache
  refreshTo next

inductive Op where
  | refresh
  | register (projectId : String)
  | deregister (projectId : String)
  | clear
  deriving DecidableEq, Repr

/-- On logout `clear_projects` is followed by `clear_known_projects`. -/
def Op.code : Op → Hb Unit
  | .refresh => refreshProjects
  | .register projectId => Hb.registerProject projectId
  | .deregister projectId => Hb.deregisterProject projectId
  | .clear => do
      Hb.clearProjects
      Hb.clearKnownProjects

/-- What the surroundings bring to a call: the projects that are cached, the order that a
hash set or map is gone through in, and what a probe finds. -/
structure Answer where
  cache : List String := []
  order : List String := []
  probe : String → Except String Bool := fun _ => .error ""

/-- Any order of the entries. -/
def arrange (order entries : List String) : List String :=
  if order.Perm entries then order else entries

def handle (s : Agent) (c : Call) (answer : Answer) : Agent × c.Reply :=
  match c with
  | .orgsProjectsCache => (s, arrange answer.order answer.cache.dedup)
  | .updateKnown next =>
      if s.known = next.toFinset then (s, true) else ({ s with known := next.toFinset }, false)
  | .runningProjects => (s, arrange answer.order s.keys)
  | .containsProject projectId => (s, projectId ∈ s.keys)
  | .probeConnector projectId => (s, answer.probe projectId)
  | .registerProject projectId => (s.register projectId, ())
  | .deregisterProject projectId => (s.deregister projectId, ())
  | .clearProjects => (s.drain, ())
  | .clearKnownProjects => ({ s with known := ∅ }, ())

theorem mem_arrange {order entries : List String} {p : String} :
    p ∈ arrange order entries ↔ p ∈ entries := by
  unfold arrange
  split
  · rename_i hperm
    exact hperm.mem_iff
  · rfl

/-! ## Runners and registrations -/

/-- The registered projects are those with a runner that is not cancelled, each with one. -/
structure Sound (s : Agent) : Prop where
  unique : s.keys.Nodup
  runs : ∀ p n, (p, n) ∈ s.projects ↔ s.runners[n]? = some { project := p }

theorem Sound.start : Sound {} := by
  refine ⟨List.nodup_nil, fun p n => ?_⟩
  simp

theorem getElem?_cancel {tokens : List Nat} {runners : List Runner} {n : Nat} {p : String} :
    (Agent.cancel tokens runners)[n]? = some { project := p } ↔
      runners[n]? = some { project := p } ∧ n ∉ tokens := by
  rw [Agent.cancel, List.getElem?_mapIdx]
  cases runners[n]? with
  | none => simp
  | some r =>
      by_cases hn : n ∈ tokens
      · simp [hn]
      · simp [hn]

namespace Sound

variable {s : Agent}

/-- A token is that of one project. -/
theorem token_unique (h : Sound s) {p q : String} {n : Nat} (hp : (p, n) ∈ s.projects)
    (hq : (q, n) ∈ s.projects) : p = q := by
  have hrunner := (h.runs p n).mp hp
  rw [(h.runs q n).mp hq] at hrunner
  exact (congrArg Runner.project (Option.some.inj hrunner)).symm

theorem register (h : Sound s) (projectId : String) : Sound (s.register projectId) := by
  unfold Agent.register
  split
  · exact h
  · rename_i hfresh
    refine ⟨?_, fun p n => ?_⟩
    · rw [Agent.keys, List.map_append, List.nodup_append]
      refine ⟨h.unique, List.nodup_singleton _, ?_⟩
      rintro q hq r hr rfl
      rw [List.mem_singleton.mp hr] at hq
      exact hfresh hq
    · rw [List.mem_append, h.runs, List.getElem?_append]
      by_cases hn : n < s.runners.length
      · have hne : n ≠ s.runners.length := by omega
        simp [hn, hne]
      · have hnone : s.runners[n]? = none := List.getElem?_eq_none (by omega)
        simp only [hnone, if_neg hn, List.mem_singleton, Prod.mk.injEq]
        rw [List.getElem?_singleton]
        constructor
        · rintro (hno | ⟨rfl, rfl⟩)
          · cases hno
          · simp
        · intro hrunner
          split at hrunner
          · rename_i hzero
            cases hrunner
            exact Or.inr ⟨rfl, by omega⟩
          · cases hrunner

theorem deregister (h : Sound s) (projectId : String) : Sound (s.deregister projectId) := by
  refine ⟨?_, fun p n => ?_⟩
  · exact h.unique.sublist (List.filter_sublist.map _)
  · show (p, n) ∈ s.projects.filter (fun e => e.1 ≠ projectId) ↔
      (Agent.cancel _ s.runners)[n]? = some { project := p }
    rw [getElem?_cancel, ← h.runs, List.mem_filter]
    refine and_congr_right fun hmem => ?_
    have htoken : n ∈ (s.projects.filter fun e => e.1 = projectId).map Prod.snd ↔ p = projectId := by
      constructor
      · intro hn
        obtain ⟨⟨q, m⟩, hq, rfl⟩ := List.mem_map.mp hn
        obtain ⟨hq, hqp⟩ := List.mem_filter.mp hq
        rw [h.token_unique hmem hq]
        exact of_decide_eq_true hqp
      · rintro rfl
        exact List.mem_map.mpr ⟨(p, n), List.mem_filter.mpr ⟨hmem, by simp⟩, rfl⟩
    rw [htoken]
    simp

theorem drain (h : Sound s) : Sound s.drain := by
  refine ⟨List.nodup_nil, fun p n => ?_⟩
  show (p, n) ∈ [] ↔ (Agent.cancel (s.projects.map Prod.snd) s.runners)[n]? = some { project := p }
  rw [getElem?_cancel, ← h.runs]
  constructor
  · intro hmem
    cases hmem
  · rintro ⟨hmem, hn⟩
    exact absurd (List.mem_map.mpr ⟨(p, n), hmem, rfl⟩) hn

/-- No call makes a second runner of a project, or forgets one. -/
theorem handle (h : Sound s) (c : Call) (answer : Answer) :
    Sound (Projects.handle s c answer).1 := by
  cases c with
  | registerProject projectId => exact h.register projectId
  | deregisterProject projectId => exact h.deregister projectId
  | clearProjects => exact h.drain
  | clearKnownProjects => exact ⟨h.unique, h.runs⟩
  | updateKnown next =>
      simp only [Projects.handle]
      split
      · exact h
      · exact ⟨h.unique, h.runs⟩
  | _ => exact h

end Sound

/-- At any time a project has one runner at most that is not cancelled. -/
def OneRunner (s : Agent) : Prop :=
  ∀ (n m : Nat) (r r' : Runner), s.runners[n]? = some r → s.runners[m]? = some r' →
    r.project = r'.project → r.cancelled = false → r'.cancelled = false → n = m

/-- A runner that is not, or no longer, in the map is cancelled. -/
def RemovedCancelled (s : Agent) : Prop :=
  ∀ n r, s.runners[n]? = some r → r.cancelled = false → (r.project, n) ∈ s.projects

theorem Sound.removedCancelled {s : Agent} (h : Sound s) : RemovedCancelled s := by
  intro n r hr hlive
  rw [h.runs, hr]
  cases r
  cases hlive
  rfl

theorem Sound.oneRunner {s : Agent} (h : Sound s) : OneRunner s := by
  intro n m r r' hr hr' hproject hlive hlive'
  have hn := h.removedCancelled n r hr hlive
  have hm := h.removedCancelled m r' hr' hlive'
  rw [hproject] at hn
  have hunique := h.unique
  exact congrArg Prod.snd (List.inj_on_of_nodup_map hunique hn hm rfl)

theorem Sound.cancelled {s : Agent} (h : Sound s) (hempty : s.projects = []) :
    ∀ r ∈ s.runners, r.cancelled = true := by
  intro r hr
  obtain ⟨n, hn⟩ := List.mem_iff_getElem?.mp hr
  cases hlive : r.cancelled with
  | true => rfl
  | false =>
      have hmem := h.removedCancelled n r hn hlive
      rw [hempty] at hmem
      cases hmem

end DatumConnect.Heartbeat.Projects
