import DatumConnect.Policies.Passes
import DatumConnect.Tunnels.Makes
/-!
# Where passes and deletes are

A pass replaces the WAF policy it has read and classified; a delete looks at each policy
first and deletes it afterwards.  Beside that, each operation notes what the others have
written since it last looked.
-/

namespace DatumConnect.Policies

open DatumConnect.Lib
open DatumConnect.Lib.Prog (Only Follows Protocol Stays OnOk)
open DatumConnect.Lib.Pool
open DatumConnect.Cloud
open DatumConnect.Tunnels

/-! ## Where an operation is -/

/-- What has become of a policy that a delete is to remove. -/
inductive Progress where
  | ahead
  | due
  | done
  | refused
  | failed
  deriving DecidableEq, Repr

structure Place where
  /-- The WAF policy a pass has read. -/
  read : Option DynamicObject := none
  progress : Which → Progress := fun _ => .ahead

/-- The WAF policy goes only if this code made it, the request timeout always. -/
def goes : (kind : Kind) → kind.Spec → Bool
  | .trafficProtectionPolicy, spec => spec.managed
  | _, _ => true

def lookedAt {kind : Kind} : Except KubeError (Option (Object kind.Spec)) → Progress
  | .ok none => .done
  | .ok (some policy) => if goes kind policy.spec then .due else .done
  | .error err => if err.isDenied then .refused else .failed

def deleted : Except KubeError Unit → Progress
  | .ok () => .done
  | .error err =>
      if err.isNotFound then .done else if err.isDenied then .refused else .failed

variable (tunnelId : String)

namespace Place

def mark (g : Place) (which : Which) (p : Progress) : Place :=
  { g with progress := Function.update g.progress which p }

def Allowed (g : Place) : Call → Prop
  | .create which policy => which = .waf → hasManagedBy policy.toJson = true
  | .replace which policy =>
      which = .waf ∧ ∃ existing, g.read = some existing ∧ LooksLegacy existing.toJson tunnelId ∧
        policy = upgradedWafPolicy existing tunnelId
  | .service (.delete kind name) =>
      ∀ which, whichOf tunnelId kind name = some which → g.progress which = .due
  | _ => True

def advance (g : Place) : (c : Call) → c.Reply → Place
  | .getOpt .waf, .ok existing => { g with read := existing }
  | .service (.getOpt kind name), r =>
      match whichOf tunnelId kind name with
      | some which => g.mark which (lookedAt r)
      | none => g
  | .service (.delete kind name), r =>
      match whichOf tunnelId kind name with
      | some which => g.mark which (deleted r)
      | none => g
  | _, _ => g

end Place

def protocol : Protocol Call Call.Reply Place where
  allowed := Place.Allowed tunnelId
  advance := Place.advance tunnelId

/-- What has been written since the operation last looked at a policy: by another client,
or by a pass. -/
structure Notes where
  edited : Which → Bool := fun _ => false
  written : Which → Bool := fun _ => false

namespace Notes

def afresh (n : Notes) (which : Which) : Notes where
  edited := Function.update n.edited which false
  written := Function.update n.written which false

def notice (mine : Bool) (n : Notes) (s : Store) (c : Call) (answer : Answer) : Notes :=
  match c with
  | .edit which _ => { n with edited := Function.update n.edited which true }
  | .create which _ | .replace which _ =>
      if (handle tunnelId s c answer).1.version = s.version then n
      else { n with written := Function.update n.written which true }
  | .service (.getOpt kind name) =>
      match whichOf tunnelId kind name with
      | some which => if mine then n.afresh which else n
      | none => n
  | _ => n

end Notes

def system : System Op Call Call.Reply Result Store Answer Place Notes where
  code := Op.code tunnelId
  handle := handle tunnelId
  protocol := protocol tunnelId
  start _ := {}
  fresh := {}
  notice := Notes.notice tunnelId
  abandon s _ := s

abbrev Clients := World Op Call Call.Reply Result Store Place Notes

variable {tunnelId}

/-! ## The operations keep to the protocol -/

theorem follows_ensureRequestTimeout {g : Place} :
    Stays (protocol tunnelId) g (ensureRequestTimeout tunnelId) := by
  refine Stays.bind (Stays.perform trivial fun r => rfl) fun r => ?_
  split
  · exact Stays.ret _
  · exact Stays.ret _
  · exact Stays.bind (Stays.perform (fun h => nomatch h) fun r => rfl) fun _ => Stays.ret _

theorem follows_ensureWaf {label : String} {g : Place} :
    Follows (protocol tunnelId) (fun _ _ => True) (ensureWaf tunnelId label) g := by
  refine Follows.performThen trivial fun r => ?_
  split
  · exact trivial
  · rename_i existing
    split
    · exact trivial
    · exact trivial
    · rename_i hlegacy
      have hlooks := looksLegacy_of_classify hlegacy
      exact Follows.performThen ⟨rfl, existing, rfl, hlooks, rfl⟩ fun _ => trivial
  · exact Follows.performThen (fun _ => managed_newWafPolicy tunnelId label) fun _ => trivial

/-- A call of the tunnel service that is not about the two policies. -/
def Apart (tunnelId : String) : Cloud.Call → Prop
  | .getOpt kind name | .delete kind name => whichOf tunnelId kind name = none
  | _ => True

abbrev serviceProtocol (tunnelId : String) : Protocol Cloud.Call Cloud.Call.Reply Place :=
  (protocol tunnelId).comap Call.service

theorem stays_apart {α : Type} {p : Svc α} {g : Place} (h : Only (Apart tunnelId) p) :
    Stays (serviceProtocol tunnelId) g p := by
  refine Stays.of_only h (fun c hc => ?_) fun c r hc => ?_
  · cases c with
    | delete kind name =>
        intro which hwhich
        rw [hc] at hwhich
        cases hwhich
    | _ => trivial
  · cases c with
    | delete kind name | getOpt kind name =>
        have hnone : whichOf tunnelId kind name = none := hc
        simp only [serviceProtocol, Protocol.comap, protocol, Place.advance, hnone]
    | _ => rfl

/-- The delete is through with the policy: gone, none of its business, or refused. -/
def Place.Settled (g : Place) (which : Which) : Prop :=
  g.progress which = .done ∨ g.progress which = .refused

/-- The place, but for one policy. -/
def Place.At (g g' : Place) (which : Which) : Prop :=
  ∀ other, other ≠ which → g'.progress other = g.progress other

theorem Place.advance_get {kind : Kind} {name : String} {which : Which} {g : Place}
    (h : whichOf tunnelId kind name = some which)
    (r : Except KubeError (Option (Object kind.Spec))) :
    g.advance tunnelId (.service (.getOpt kind name)) r =
      g.mark which (lookedAt r) := by
  simp only [Place.advance, h]

theorem Place.advance_delete {kind : Kind} {name : String} {which : Which} {g : Place}
    (h : whichOf tunnelId kind name = some which) (r : Except KubeError Unit) :
    g.advance tunnelId (.service (.delete kind name)) r =
      g.mark which (deleted r) := by
  simp only [Place.advance, h]

theorem Place.at_mark (g : Place) (which : Which) (p : Progress) : g.At (g.mark which p) which :=
  fun _ h => Function.update_of_ne h ..

theorem Place.progress_mark (g : Place) (which : Which) (p : Progress) :
    (g.mark which p).progress which = p := Function.update_self ..

/-- A policy found is one to delete, or none of the delete's business. -/
theorem follows_checkPolicy {kind : Kind} {what name : String} {which : Which} {g : Place}
    (h : whichOf tunnelId kind name = some which) :
    Follows (serviceProtocol tunnelId)
      (OnOk fun g' found => g.At g' which ∧
        match found with
        | none => g'.Settled which
        | some policy => g'.progress which = if goes kind policy.spec then .due else .done)
      (checkPolicy kind what name).run g := by
  refine Follows.liftThen trivial fun r => ?_
  have hadvance : (serviceProtocol tunnelId).advance g (.getOpt kind name) r =
      g.mark which (lookedAt r) :=
    Place.advance_get h r
  rw [hadvance]
  have hself := g.progress_mark which (lookedAt r)
  cases r with
  | ok found =>
      rintro found' ⟨⟩
      refine ⟨g.at_mark which _, ?_⟩
      cases found with
      | none => exact .inl hself
      | some policy => exact hself
  | error err =>
      simp only
      split
      · rename_i hdenied
        rintro found' ⟨⟩
        refine ⟨g.at_mark which _, .inr ?_⟩
        rw [hself, lookedAt, if_pos hdenied]
      · rintro found' ⟨⟩

theorem follows_deletePolicy {kind : Kind} {name : String} {which : Which} {g : Place}
    (h : whichOf tunnelId kind name = some which) (hdue : g.progress which = .due) :
    Follows (serviceProtocol tunnelId)
      (OnOk fun g' _ => g.At g' which ∧ g'.Settled which) (deletePolicy kind name).run g := by
  have hallowed : (serviceProtocol tunnelId).allowed g (.delete kind name) := by
    intro which' hwhich'
    rw [h] at hwhich'
    cases hwhich'
    exact hdue
  refine Follows.liftThen hallowed fun r => ?_
  have hadvance : (serviceProtocol tunnelId).advance g (.delete kind name) r =
      g.mark which (deleted r) :=
    Place.advance_delete h r
  rw [hadvance]
  have hself := g.progress_mark which (deleted r)
  cases r with
  | ok _ =>
      rintro b ⟨⟩
      exact ⟨g.at_mark which _, .inl hself⟩
  | error err =>
      simp only
      split
      · rintro b ⟨⟩
        exact ⟨g.at_mark which _, .inl hself⟩
      · rename_i hnot
        split
        · rename_i hdenied
          rintro b ⟨⟩
          refine ⟨g.at_mark which _, ?_⟩
          rw [Place.Settled, hself, deleted, if_pos hdenied]
          split
          · exact .inl rfl
          · exact .inr rfl
        · rintro b ⟨⟩

theorem follows_deleteWafPolicy {g : Place} :
    Follows (serviceProtocol tunnelId) (OnOk fun g' _ => g'.Settled .waf)
      (deleteWafPolicy (wafPolicyName tunnelId)).run g := by
  have h : whichOf tunnelId .trafficProtectionPolicy (wafPolicyName tunnelId) = some .waf :=
    if_pos rfl
  refine Follows.bindOk ((follows_checkPolicy h).mono fun g' r hr found hfound => ?_)
  obtain ⟨_, hcase⟩ := hr found hfound
  cases found with
  | none =>
      rintro edge ⟨⟩
      exact hcase
  | some policy =>
      simp only
      by_cases hmanaged : policy.spec.managed = true
      · rw [if_pos hmanaged]
        have hdue : g'.progress .waf = .due := hcase.trans (if_pos hmanaged)
        refine Follows.bindOk ((follows_deletePolicy h hdue).mono fun g'' r' hr' b hb => ?_)
        rintro edge ⟨⟩
        exact (hr' b hb).2
      · rw [if_neg hmanaged]
        rintro edge ⟨⟩
        exact .inl (hcase.trans (if_neg hmanaged))

theorem follows_deleteTimeoutPolicy {g : Place} (hwaf : g.Settled .waf) :
    Follows (serviceProtocol tunnelId) (OnOk fun g' _ => ∀ which, g'.Settled which)
      (deleteTimeoutPolicy (timeoutPolicyName tunnelId)).run g := by
  have h : whichOf tunnelId .backendTrafficPolicy (timeoutPolicyName tunnelId) = some .timeout :=
    if_pos rfl
  have hboth {g' : Place} (hat : g'.progress .waf = g.progress .waf) (htimeout : g'.Settled .timeout)
      (which : Which) : g'.Settled which := by
    cases which with
    | waf =>
        unfold Place.Settled
        rw [hat]
        exact hwaf
    | timeout => exact htimeout
  refine Follows.bindOk ((follows_checkPolicy h).mono fun g' r hr found hfound => ?_)
  obtain ⟨hat, hcase⟩ := hr found hfound
  have hat' : g'.progress .waf = g.progress .waf := hat .waf (by decide)
  cases found with
  | none =>
      rintro gone ⟨⟩
      exact hboth hat' hcase
  | some policy =>
      have hdue : g'.progress .timeout = .due := hcase
      refine Follows.bindOk ((follows_deletePolicy h hdue).mono fun g'' r' hr' b hb => ?_)
      rintro gone ⟨⟩
      exact hboth (((hr' b hb).1 .waf (by decide)).trans hat') (hr' b hb).2

theorem follows_deleteEdgePolicies {g : Place} :
    Follows (serviceProtocol tunnelId) (OnOk fun g' _ => ∀ which, g'.Settled which)
      (deleteEdgePolicies tunnelId).run g := by
  refine Follows.bindOk (follows_deleteWafPolicy.mono fun g' r hr waf hwaf => ?_)
  refine Follows.bindOk ((follows_deleteTimeoutPolicy (hr waf hwaf)).mono fun g'' r' hr' t ht => ?_)
  rintro edge ⟨⟩
  exact hr' t ht

theorem whichOf_tunnelId (kind : Kind) : whichOf tunnelId kind tunnelId = none := by
  have hne (suffix : String) (h : suffix ≠ "") : tunnelId ≠ tunnelId ++ suffix := by
    intro heq
    have hlen := congrArg String.length heq
    rw [String.length_append] at hlen
    have : suffix.length = 0 := by omega
    exact h (String.length_eq_zero_iff.mp this)
  unfold whichOf
  split
  · exact if_neg (hne "-waf" (by decide))
  · exact if_neg (hne "-timeout" (by decide))
  · rfl

theorem listing_apart : Listing (Apart tunnelId) where
  client _ := trivial
  list _ _ := trivial

theorem follows_deleteProject (svc : TunnelService) (projectId : String) {g : Place} :
    Follows (serviceProtocol tunnelId) (OnOk fun g' _ => ∀ which, g'.Settled which)
      (svc.deleteProject projectId tunnelId).run g := by
  have hget {kind : Kind} {name : String} (h : whichOf tunnelId kind name = none) :
      Only (Apart tunnelId) (Svc.getOpt kind name) :=
    Only.perform (show Apart tunnelId (.getOpt kind name) from h)
  have hother (c : Cloud.Call) (h : Apart tunnelId c) :
      Only (Apart tunnelId) (SvcE.lift (Prog.perform c)).run := Makes.lift (Only.perform h)
  refine (stays_apart (Makes.client listing_apart projectId)).andThenOk fun _ => ?_
  refine (stays_apart (Makes.mapError (hget rfl))).andThenOk fun existing => ?_
  refine (stays_apart (Makes.connectorToDelete svc listing_apart fun _ _ => trivial)).andThenOk
    fun connectorName => ?_
  have hedge : Follows (serviceProtocol tunnelId) (OnOk fun g' _ => ∀ which, g'.Settled which)
      (SvcE.mapError (.within "Failed to delete the tunnel's edge policies")
        (deleteEdgePolicies tunnelId).run).run g := by
    refine Follows.bind (follows_deleteEdgePolicies.mono fun g' r hr => ?_)
    cases r with
    | ok edge =>
        rintro edge' ⟨⟩
        exact hr edge rfl
    | error err => rintro edge' ⟨⟩
  refine Follows.bindOk (hedge.mono fun g' r hr edge hok => ?_)
  have hsettled := hr edge hok
  have hthere (kind : Kind) (name loadContext deleteContext : String)
      (h : whichOf tunnelId kind name = none) :
      Only (Apart tunnelId) (deleteIfThere kind name loadContext deleteContext).run :=
    Makes.deleteIfThere (K := Apart tunnelId) h h
  refine (stays_apart (Makes.deleteProxy rfl)).andThenOk fun _ => ?_
  refine (stays_apart (hthere _ _ _ _ rfl)).andThenOk fun connectorAd => ?_
  refine (stays_apart (hthere _ _ _ _ (whichOf_tunnelId _))).andThenOk fun policy => ?_
  refine (stays_apart (hother (.updateProxies (.removeProxy tunnelId)) trivial)).andThenOk
    fun _ => ?_
  refine (stays_apart (Makes.deleteConnectorOf listing_apart (fun _ => rfl) (fun _ => rfl)
    fun _ => rfl)).andThenOk fun connector => ?_
  refine (stays_apart (hother (.deleteTunnelDir projectId tunnelId) trivial)).andThenOk
    fun _ => ?_
  rintro outcome ⟨⟩
  exact hsettled

/-- Where a delete has succeeded, it is through with both policies. -/
def Ended (_ : Op) (g : Place) (r : Result) : Prop :=
  ∀ outcome, r = some (.ok outcome) → ∀ which, g.Settled which

theorem follows_code (op : Op) :
    Follows (protocol tunnelId) (Ended op) (op.code tunnelId) {} := by
  cases op with
  | pass label =>
      refine Follows.bind ?_
      refine follows_ensureRequestTimeout.andThen fun _ => ?_
      refine follows_ensureWaf.mono fun g _ _ => ?_
      rintro outcome ⟨⟩
  | delete svc projectId =>
      refine Follows.bind ((follows_deleteProject svc projectId).embed.mono fun g r hr => ?_)
      rintro outcome ⟨⟩
      exact hr outcome rfl
  | edit which policy =>
      refine Follows.performThen trivial fun _ => ?_
      rintro outcome ⟨⟩

end DatumConnect.Policies
