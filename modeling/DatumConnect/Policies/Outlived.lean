import DatumConnect.Policies.Kept
/-!
# Policies and their tunnel

A delete that succeeds has removed both policies, unless the server has refused it one of
them, or a pass has made one anew after the delete had looked.
-/

namespace DatumConnect.Policies

open DatumConnect.Lib
open DatumConnect.Lib.Pool
open DatumConnect.Cloud
open DatumConnect.Tunnels

variable {tunnelId : String} {s : Store}

/-- A policy of the kind that a delete leaves: one this code has not made. -/
def Foreign (which : Which) (o : DynamicObject) : Prop :=
  which = .waf ∧ hasManagedBy o.toJson = false

theorem none_outlives {w : Clients} {acts : List (Act Op Answer)}
    (hrun : Runs.run (system tunnelId).step s.start acts = some w) {i : Nat}
    {client : Client Op Call Call.Reply Result Place Notes} {outcome : TunnelDeleteOutcome}
    (hclient : w.clients[i]? = some client) (hresult : client.result = some (some (.ok outcome)))
    {which : Which} (hrefused : client.place.progress which ≠ .refused)
    (hedited : client.notes.edited which = false) (hwritten : client.notes.written which = false) :
    ∀ o, w.state.objects which = some o → Foreign which o := by
  have hsound := sound_run hrun
  have hended : Ended client.op client.place (some (.ok outcome)) :=
    hsound.faithful.ended hclient hresult
  have hwatching := hsound.watching client (List.mem_of_getElem? hclient)
  rcases hended outcome rfl which with hdone | hdenied
  · exact hwatching.done which hdone hedited hwritten
  · exact absurd hdenied hrefused

def noPolicies : Store where
  objects _ := none
  numbered := nofun

def anyService : TunnelService where
  endpointId := "key"
  publishTickets := false
  createTrafficProtectionPolicies := false
  wafExemptMatches := none
  edgePolicies := true
  friendlyDeviceName := "device"
  os := "linux"
  parseUrl _ := none

/-- As many calls that go as they should. -/
def served (n : Nat) : List Answer := List.replicate n {}

/-- A pass that makes both policies, then a delete with the given answers where it looks at
them and deletes them. -/
def passThenDelete (answers : List Answer) : List (Act Op Answer) :=
  .spawn (.pass "web") :: (served 4).map (.step 0) ++
    .spawn (.delete anyService "p") ::
    (served 4 ++ answers ++ served 4).map (.step 1)

theorem none_outlives_passThenDelete :
    ∃ w client outcome,
      Runs.run (system "t").step noPolicies.start (passThenDelete (served 4)) = some w ∧
      w.clients[1]? = some client ∧ client.result = some (some (.ok outcome)) ∧
      ∀ o, w.state.objects .waf = some o → Foreign .waf o := by
  refine ⟨_, _, _, rfl, rfl, rfl, ?_⟩
  exact @none_outlives "t" noPolicies _ (passThenDelete (served 4)) rfl 1 _ _ rfl rfl
    .waf (by decide) rfl rfl

theorem forbidden_honest : (KubeError.api 403 "forbidden").isNotFound = false := rfl

def forbidden : Answer where
  outcome := .failed (.api 403 "forbidden") forbidden_honest

/-- A delete that may not look at the policies succeeds and leaves both. -/
theorem refused_outlives :
    (Runs.run (system "t").step noPolicies.start (passThenDelete [forbidden, forbidden])).any fun w =>
      w.clients.all (fun client => !client.running) &&
      (w.clients[1]?.bind Client.result).any (fun r => r.any Except.isOk) &&
      (w.state.objects .waf).any (fun o => hasManagedBy o.toJson) &&
      (w.state.objects .timeout).isSome := by
  decide +kernel

end DatumConnect.Policies
