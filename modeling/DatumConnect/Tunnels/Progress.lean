import Mathlib.Data.Bool.Basic
/-!
# The progress of a tunnel

The checkpoints that the control plane reports while a tunnel is set up.
-/

namespace DatumConnect.Tunnels

inductive ProgressStepKind where
  | proxyAccepted
  | certificatesReady
  | connectorReady
  | irohDnsPublished
  | proxyProgrammed
  | connectorMetadataProgrammed
  deriving DecidableEq, Repr

namespace ProgressStepKind

def label : ProgressStepKind → String
  | .proxyAccepted => "tunnel accepted"
  | .certificatesReady => "TLS certificate issued"
  | .connectorReady => "connector ready"
  | .irohDnsPublished => "iroh DNS published"
  | .proxyProgrammed => "route programmed"
  | .connectorMetadataProgrammed => "envoy metadata propagated"

def resourceKind : ProgressStepKind → String
  | .connectorReady | .irohDnsPublished => "Connector"
  | _ => "HTTPProxy"

end ProgressStepKind

inductive StepStatus where
  | unknown
  | pending
  | ready
  deriving DecidableEq, Repr

structure ProgressStep where
  kind : ProgressStepKind
  status : StepStatus
  reason : Option String
  message : Option String
  resource : Option String
  deriving DecidableEq, Repr

/-- Another connector owns the node's DNS record: waiting does not help. -/
def ProgressStep.isTerminalFailure (step : ProgressStep) : Bool :=
  step.kind = .irohDnsPublished && step.status = .pending && step.reason = some "DeferredToOwner"

def formatTerminalFailure (step : ProgressStep) : String :=
  let resource := step.resource.getD "(none)"
  s!"Tunnel setup failed at step: {step.kind.label} ({step.kind.resourceKind})\n" ++
    s!"  resource: {resource}\n" ++
    (step.reason.elim "" fun reason => s!"  reason: {reason}\n") ++
    (step.message.elim "" fun message => s!"  message: {message}\n") ++
    if step.isTerminalFailure then
      "\nAnother connector with the same iroh key owns the DNS record for this tunnel. Most likely this means you are running two connectors against the same listen_key store. Stop the other connector or use a different repo directory.\n"
    else ""

structure TunnelProgress where
  hostnames : List String
  steps : List ProgressStep
  deriving DecidableEq, Repr

namespace TunnelProgress

/-- The last step counts as ready while nothing is reported of it. -/
def allReady (progress : TunnelProgress) : Bool :=
  progress.steps.all fun step =>
    (step.kind = .connectorMetadataProgrammed && step.status = .unknown) || step.status = .ready

def terminalFailure (progress : TunnelProgress) : Option ProgressStep :=
  progress.steps.find? ProgressStep.isTerminalFailure

end TunnelProgress

end DatumConnect.Tunnels
