import DatumConnect.Cli.Listen
/-!
# The waiting of the listen command

Much of the command waits for what others do, and changes nothing of its own.
-/

namespace DatumConnect.Cli

open DatumConnect.Lib
open DatumConnect.Lib.Prog (Only)
open DatumConnect.Cloud (Error SvcE)
open DatumConnect.Tunnels

/-- A call that looks, waits or tells others that the node is there. -/
def Call.waits : Call → Bool
  | .startHeartbeat _ | .registerProject _ _ | .hasRelay _ | .sleepMillis _ | .activeProgress _
  | .resolveHostname _ | .verifyEndpoints _ _ => true
  | _ => false

def Waits (c : Call) : Prop := c.waits = true

section

variable {α : Type} {K : Call → Prop}

theorem only_orFail {p : Task (Except Error α)} (h : Only K p) : Only K (TaskE.orFail p).run :=
  h.bind fun _ => Only.ret _

theorem only_lift {p : Task α} (h : Only K p) : Only K (TaskE.lift p).run :=
  h.bind fun _ => Only.ret _

theorem only_fail {message : String} : Only K (TaskE.fail message : TaskE α).run :=
  Only.ret _

end

theorem waits_perform {c : Call} (h : c.waits = true) : Only Waits (Task.perform c) :=
  Only.perform h

theorem waits_awaitRelay {key : String} (tries : Nat) :
    Only Waits (Session.awaitRelay key tries) := by
  induction tries with
  | zero => exact Only.ret _
  | succ tries ih =>
      refine (waits_perform rfl).bind fun hasRelay => ?_
      cases hasRelay with
      | true => exact Only.ret _
      | false => exact (waits_perform rfl).bind fun _ => ih

theorem waits_startHeartbeat {session : Session} {key : String} :
    Only Waits (session.startHeartbeat key) := by
  refine (waits_perform rfl).bind fun _ => ?_
  exact (waits_perform rfl).bind fun _ => waits_awaitRelay 40

theorem waits_awaitTunnelProgress {tunnelId : String} (rounds : Nat) :
    Only Waits (Session.awaitTunnelProgress tunnelId rounds).run := by
  induction rounds with
  | zero => exact Only.ret _
  | succ rounds ih =>
      refine (only_lift (waits_perform rfl)).bindE fun reply => ?_
      match reply with
      | .error err => exact Only.ret _
      | .ok none => exact only_fail
      | .ok (some progress) =>
          simp only
          split
          · exact only_fail
          · split
            · exact Only.ret _
            · exact (only_lift (waits_perform rfl)).bindE fun _ => ih

theorem waits_awaitHostnames {tunnelId : String} (progress : TunnelProgress) (tries : Nat) :
    Only Waits (Session.awaitHostnames tunnelId progress tries) := by
  induction tries generalizing progress with
  | zero => exact Only.ret _
  | succ tries ih =>
      unfold Session.awaitHostnames
      split
      · exact Only.ret _
      · refine (waits_perform rfl).bind fun _ => (waits_perform rfl).bind fun reply => ?_
        split
        · exact ih _
        · exact ih _

theorem waits_verify {tunnelId endpoint : String} (hostnames : List String) :
    Only Waits (Session.verify tunnelId endpoint hostnames).run := by
  cases hostnames with
  | nil => exact only_fail
  | cons hostname more =>
      exact (only_orFail (waits_perform rfl)).bindE fun _ => only_orFail (waits_perform rfl)

end DatumConnect.Cli
