import DatumConnect.Tunnels.Progress
import Mathlib.Data.List.Basic
/-!
# What the checkpoints are read from

`TunnelProgress::from_resources` reads the checkpoints in the conditions of an HTTPProxy and its
Connector.  A condition speaks of the generation of its resource that the controller had seen.
-/

namespace DatumConnect.Tunnels

/-- A condition as the control plane reports it. -/
structure ReportedCondition where
  type : String
  status : String
  observedGeneration : Option Int
  reason : String
  message : String
  deriving DecidableEq, Repr

/-- What is read of a resource. -/
structure Reported where
  name : Option String
  generation : Option Int
  conditions : Option (List ReportedCondition)
  deriving DecidableEq, Repr

/-- `CONNECTOR_REASON_DEFERRED_TO_OWNER` -/
def deferredToOwner : String := "DeferredToOwner"

namespace ReportedCondition

/-- The condition speaks of the generation, or a later one. -/
def Fresh (c : ReportedCondition) (generation : Option Int) : Prop :=
  generation.getD 0 ≤ c.observedGeneration.getD 0

instance (c : ReportedCondition) (generation : Option Int) : Decidable (c.Fresh generation) := by
  unfold Fresh
  infer_instance

end ReportedCondition

namespace Reported

variable (r : Reported)

/-- The condition of a type: the first one. -/
def condition (type : String) : Option ReportedCondition :=
  (r.conditions.getD []).find? fun c => c.type = type

/-- `Kind/name`. -/
def shown (kind : String) : Option String := r.name.map fun name => s!"{kind}/{name}"

def stepStatus (type : String) : StepStatus :=
  match r.condition type with
  | some c => if c.status = "True" ∧ c.Fresh r.generation then .ready else .pending
  | none => .unknown

/-- `make_step` -/
def makeStep (kind : ProgressStepKind) (type resource : String) : ProgressStep where
  kind
  status := r.stepStatus type
  reason := (r.condition type).map (·.reason)
  message := (r.condition type).map (·.message)
  resource := r.shown resource

end Reported

/-- What is read of a connector that is not there. -/
def noConnector : Reported where
  name := none
  generation := none
  conditions := none

namespace TunnelProgress

/-- `hostnames` are those of the proxy. -/
def fromResources (hostnames : List String) (proxy : Reported) (connector : Option Reported) :
    TunnelProgress where
  hostnames
  steps :=
    let connector := connector.getD noConnector
    [proxy.makeStep .proxyAccepted "Accepted" "HTTPProxy",
      proxy.makeStep .certificatesReady "CertificatesReady" "HTTPProxy",
      connector.makeStep .connectorReady "Ready" "Connector",
      connector.makeStep .irohDnsPublished "IrohDNSPublished" "Connector",
      proxy.makeStep .proxyProgrammed "Programmed" "HTTPProxy",
      proxy.makeStep .connectorMetadataProgrammed "ConnectorMetadataProgrammed" "HTTPProxy"]

end TunnelProgress

/-! ## What ready and failed mean -/

namespace Reported

/-- The condition of a type is the first one with it in the list. -/
def Has (r : Reported) (type : String) (c : ReportedCondition) : Prop :=
  ∃ before after, r.conditions.getD [] = before ++ c :: after ∧ c.type = type ∧
    ∀ b ∈ before, b.type ≠ type

/-- The condition is there, is true, and speaks of the resource as it is now. -/
def Shows (r : Reported) (type : String) : Prop :=
  ∃ c, r.Has type c ∧ c.status = "True" ∧ c.Fresh r.generation

theorem condition_eq_some {r : Reported} {type : String} {c : ReportedCondition} :
    r.condition type = some c ↔ r.Has type c := by
  rw [condition, List.find?_eq_some_iff_append, Has]
  refine ⟨?_, ?_⟩
  · rintro ⟨htype, before, after, heq, hbefore⟩
    refine ⟨before, after, heq, of_decide_eq_true htype, fun b hb => ?_⟩
    simpa using hbefore b hb
  · rintro ⟨before, after, heq, htype, hbefore⟩
    exact ⟨decide_eq_true htype, before, after, heq, fun b hb => by simpa using hbefore b hb⟩

/-- Where no type is listed twice, any condition of a type is the condition of it. -/
theorem has_iff_mem {r : Reported} {type : String} {c : ReportedCondition}
    (hnodup : ((r.conditions.getD []).map (·.type)).Nodup) :
    r.Has type c ↔ c ∈ r.conditions.getD [] ∧ c.type = type := by
  refine ⟨?_, ?_⟩
  · rintro ⟨before, after, heq, htype, _⟩
    rw [heq]
    exact ⟨List.mem_append_right _ List.mem_cons_self, htype⟩
  · rintro ⟨hmem, htype⟩
    obtain ⟨before, after, heq⟩ := List.append_of_mem hmem
    refine ⟨before, after, heq, htype, fun b hb hsame => ?_⟩
    rw [heq, List.map_append, List.map_cons, List.nodup_append] at hnodup
    exact hnodup.2.2 b.type (List.mem_map_of_mem hb) c.type List.mem_cons_self
      (hsame.trans htype.symm)

theorem stepStatus_ready {r : Reported} {type : String} :
    r.stepStatus type = .ready ↔ r.Shows type := by
  unfold stepStatus
  split
  · rename_i c hc
    have hhas := condition_eq_some.mp hc
    split
    · rename_i hnow
      exact iff_of_true rfl ⟨c, hhas, hnow⟩
    · rename_i hnot
      refine iff_of_false StepStatus.noConfusion ?_
      rintro ⟨c', hhas', hnow⟩
      have hsame := hc.symm.trans (condition_eq_some.mpr hhas')
      cases hsame
      exact hnot hnow
  · rename_i hnone
    refine iff_of_false StepStatus.noConfusion ?_
    rintro ⟨c, hhas, _⟩
    rw [condition_eq_some.mpr hhas] at hnone
    cases hnone

theorem stepStatus_unknown {r : Reported} {type : String} :
    r.stepStatus type = .unknown ↔ ∀ c, ¬r.Has type c := by
  unfold stepStatus
  split
  · rename_i c hc
    refine iff_of_false ?_ fun h => h c (condition_eq_some.mp hc)
    split <;> exact StepStatus.noConfusion
  · rename_i hnone
    refine iff_of_true rfl fun c hhas => ?_
    rw [condition_eq_some.mpr hhas] at hnone
    cases hnone

theorem not_shows_noConnector (type : String) : ¬noConnector.Shows type := by
  rintro ⟨c, ⟨before, after, heq, _⟩, _⟩
  cases before <;> cases heq

/-- The step of another connector owning the name, from what is true of the resource now or was. -/
theorem isTerminalFailure_makeStep {r : Reported} {resource : String} :
    (r.makeStep .irohDnsPublished "IrohDNSPublished" resource).isTerminalFailure = true ↔
      ∃ c, r.Has "IrohDNSPublished" c ∧ c.reason = deferredToOwner ∧
        ¬(c.status = "True" ∧ c.Fresh r.generation) := by
  have hstep : (r.makeStep .irohDnsPublished "IrohDNSPublished" resource).isTerminalFailure = true ↔
      r.stepStatus "IrohDNSPublished" = .pending ∧
        (r.condition "IrohDNSPublished").map (·.reason) = some deferredToOwner := by
    rw [ProgressStep.isTerminalFailure, Bool.and_eq_true, Bool.and_eq_true]
    exact ⟨fun h => ⟨of_decide_eq_true h.1.2, of_decide_eq_true h.2⟩, fun h =>
      ⟨⟨rfl, decide_eq_true h.1⟩, decide_eq_true h.2⟩⟩
  rw [hstep, stepStatus]
  refine ⟨?_, ?_⟩
  · rintro ⟨hpending, hreason⟩
    obtain ⟨c, hc, hreason⟩ := Option.map_eq_some_iff.mp hreason
    rw [hc] at hpending
    refine ⟨c, condition_eq_some.mp hc, hreason, fun hnow => ?_⟩
    change (if _ then StepStatus.ready else StepStatus.pending) = _ at hpending
    rw [if_pos hnow] at hpending
    cases hpending
  · rintro ⟨c, hhas, hreason, hnot⟩
    rw [condition_eq_some.mpr hhas]
    exact ⟨if_neg hnot, congrArg some hreason⟩

end Reported

/-- Every condition that is required is there, and true now. -/
structure ReadyNow (proxy : Reported) (connector : Option Reported) : Prop where
  exists_connector : ∃ c, connector = some c ∧ ∀ type ∈ ["Ready", "IrohDNSPublished"], c.Shows type
  onProxy : ∀ type ∈ ["Accepted", "CertificatesReady", "Programmed"], proxy.Shows type
  metadata : ∀ c, proxy.Has "ConnectorMetadataProgrammed" c →
    c.status = "True" ∧ c.Fresh proxy.generation

/-- A failure that is reported is one that the connector shows now. -/
def FailedNow (progress : TunnelProgress) (connector : Option Reported) : Prop :=
  ∀ step, progress.terminalFailure = some step →
    ∃ r c, connector = some r ∧ r.Has "IrohDNSPublished" c ∧ step.reason = some c.reason ∧
      c.Fresh r.generation

theorem allReady_iff {hostnames : List String} {proxy : Reported} {connector : Option Reported} :
    (TunnelProgress.fromResources hostnames proxy connector).allReady = true ↔
      ReadyNow proxy connector := by
  have hmetadata : (proxy.stepStatus "ConnectorMetadataProgrammed" = .unknown ∨
        proxy.stepStatus "ConnectorMetadataProgrammed" = .ready) ↔
      ∀ c, proxy.Has "ConnectorMetadataProgrammed" c →
        c.status = "True" ∧ c.Fresh proxy.generation := by
    rw [Reported.stepStatus_unknown, Reported.stepStatus_ready]
    refine ⟨?_, fun h => ?_⟩
    · rintro (hnone | ⟨c, hhas, hnow⟩) c' hhas'
      · exact absurd hhas' (hnone c')
      · have hsame := (Reported.condition_eq_some.mpr hhas).symm.trans
          (Reported.condition_eq_some.mpr hhas')
        cases hsame
        exact hnow
    · by_cases hhas : ∃ c, proxy.Has "ConnectorMetadataProgrammed" c
      · obtain ⟨c, hhas⟩ := hhas
        exact .inr ⟨c, hhas, h c hhas⟩
      · exact .inl fun c hc => hhas ⟨c, hc⟩
  have hsteps : (TunnelProgress.fromResources hostnames proxy connector).allReady = true ↔
      proxy.stepStatus "Accepted" = .ready ∧ proxy.stepStatus "CertificatesReady" = .ready ∧
        (connector.getD noConnector).stepStatus "Ready" = .ready ∧
        (connector.getD noConnector).stepStatus "IrohDNSPublished" = .ready ∧
        proxy.stepStatus "Programmed" = .ready ∧
        (proxy.stepStatus "ConnectorMetadataProgrammed" = .unknown ∨
          proxy.stepStatus "ConnectorMetadataProgrammed" = .ready) := by
    simp [TunnelProgress.fromResources, TunnelProgress.allReady, Reported.makeStep]
  rw [hsteps, hmetadata]
  simp only [Reported.stepStatus_ready]
  refine ⟨?_, ?_⟩
  · rintro ⟨haccepted, hcertificates, hready, hdns, hprogrammed, hmeta⟩
    cases connector with
    | none => exact absurd hready (Reported.not_shows_noConnector _)
    | some c => exact ⟨⟨c, rfl, by simp_all⟩, by simp_all, hmeta⟩
  · rintro ⟨⟨c, rfl, hconnector⟩, hproxy, hmeta⟩
    exact ⟨hproxy _ (by decide), hproxy _ (by decide), hconnector _ (by decide),
      hconnector _ (by decide), hproxy _ (by decide), hmeta⟩

theorem terminalFailure_eq {hostnames : List String} {proxy : Reported}
    {connector : Option Reported} {step : ProgressStep} :
    (TunnelProgress.fromResources hostnames proxy connector).terminalFailure = some step ↔
      step.isTerminalFailure = true ∧
        step = (connector.getD noConnector).makeStep .irohDnsPublished "IrohDNSPublished"
          "Connector" := by
  have hother (r : Reported) (kind : ProgressStepKind) (type resource : String)
      (hkind : kind ≠ .irohDnsPublished) : (r.makeStep kind type resource).isTerminalFailure = false := by
    simp [Reported.makeStep, ProgressStep.isTerminalFailure, hkind]
  rw [TunnelProgress.terminalFailure, TunnelProgress.fromResources]
  simp only [List.find?_cons, List.find?_nil, hother _ _ _ _ (show
    ProgressStepKind.proxyAccepted ≠ .irohDnsPublished by decide), hother _ _ _ _ (show
    ProgressStepKind.certificatesReady ≠ .irohDnsPublished by decide), hother _ _ _ _ (show
    ProgressStepKind.connectorReady ≠ .irohDnsPublished by decide), hother _ _ _ _ (show
    ProgressStepKind.proxyProgrammed ≠ .irohDnsPublished by decide), hother _ _ _ _ (show
    ProgressStepKind.connectorMetadataProgrammed ≠ .irohDnsPublished by decide)]
  cases hterminal : ((connector.getD noConnector).makeStep .irohDnsPublished "IrohDNSPublished"
      "Connector").isTerminalFailure with
  | true =>
      refine ⟨fun h => ?_, fun h => congrArg some h.2.symm⟩
      obtain rfl := Option.some.inj h
      exact ⟨hterminal, rfl⟩
  | false =>
      refine ⟨nofun, fun h => ?_⟩
      rw [h.2, hterminal] at h
      cases h.1

/-- All is ready exactly if it is now; and a failure is one now exactly if the connector's condition
of another owner does not speak of an earlier generation. -/
theorem ready_failed_now_iff (hostnames : List String) (proxy : Reported)
    (connector : Option Reported) :
    (((TunnelProgress.fromResources hostnames proxy connector).allReady = true ↔
          ReadyNow proxy connector) ∧
        FailedNow (TunnelProgress.fromResources hostnames proxy connector) connector) ↔
      ¬∃ r c, connector = some r ∧ r.Has "IrohDNSPublished" c ∧ c.reason = deferredToOwner ∧
        ¬c.Fresh r.generation := by
  refine ⟨?_, fun hfresh => ⟨allReady_iff, fun step hstep => ?_⟩⟩
  · rintro ⟨_, hfailed⟩ ⟨r, c, rfl, hhas, hreason, hstale⟩
    have hterminal : (r.makeStep .irohDnsPublished "IrohDNSPublished" "Connector").isTerminalFailure =
        true :=
      Reported.isTerminalFailure_makeStep.mpr ⟨c, hhas, hreason, fun h => hstale h.2⟩
    obtain ⟨r', c', hr, hhas', _, hnow⟩ := hfailed _ (terminalFailure_eq.mpr ⟨hterminal, rfl⟩)
    cases hr
    have hsame := (Reported.condition_eq_some.mpr hhas).symm.trans
      (Reported.condition_eq_some.mpr hhas')
    cases hsame
    exact hstale hnow
  · obtain ⟨hterminal, rfl⟩ := terminalFailure_eq.mp hstep
    obtain ⟨c, hhas, hreason, _⟩ := Reported.isTerminalFailure_makeStep.mp hterminal
    cases connector with
    | none =>
        obtain ⟨before, after, heq, _⟩ := hhas
        cases before <;> cases heq
    | some r =>
        refine ⟨r, c, rfl, hhas, ?_, ?_⟩
        · exact congrArg (Option.map (·.reason)) (Reported.condition_eq_some.mpr hhas)
        · exact Decidable.byContradiction fun hstale => hfresh ⟨r, c, rfl, hhas, hreason, hstale⟩

/-- The connector has been changed since the controller found that another one owns the name. -/
def changedSince : Reported where
  name := some "connector-1"
  generation := some 2
  conditions := some [{
    type := "IrohDNSPublished", status := "False", observedGeneration := some 1
    reason := deferredToOwner, message := "owned by another connector" }]

theorem failed_before :
    (TunnelProgress.fromResources [] noConnector (some changedSince)).terminalFailure =
        some (changedSince.makeStep .irohDnsPublished "IrohDNSPublished" "Connector") ∧
      ∀ c ∈ changedSince.condition "IrohDNSPublished", ¬c.Fresh changedSince.generation := by
  refine ⟨?_, ?_⟩ <;> decide

end DatumConnect.Tunnels
