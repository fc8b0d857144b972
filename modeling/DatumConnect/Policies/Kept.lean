import DatumConnect.Policies.Places
/-!
# Policies of others are kept

If a WAF policy has changed since a pass has read it, the server refuses to replace it.
Between the look and the delete of a delete nothing is refused.
-/

namespace DatumConnect.Policies

open DatumConnect.Lib
open DatumConnect.Lib.Pool
open DatumConnect.Cloud
open DatumConnect.Tunnels

variable {tunnelId : String} {s : Store} {c : Call} {answer : Answer}

/-! ## What a call does to the policies -/

/-- The policies after a call. -/
inductive Effect (tunnelId : String) (s : Store) (c : Call) : Store → Prop where
  | none : Effect tunnelId s c s
  | created (which : Which) (policy : DynamicObject) (hcall : c = .create which policy)
      (hfree : s.objects which = none) : Effect tunnelId s c (s.write which policy)
  | replaced (which : Which) (policy current : DynamicObject) (hcall : c = .replace which policy)
      (hcurrent : s.objects which = some current)
      (hversion : policy.resourceVersion = none ∨
        policy.resourceVersion = current.resourceVersion) :
      Effect tunnelId s c (s.write which policy)
  | edited (which : Which) (policy : Option DynamicObject) (hcall : c = .edit which policy) :
      Effect tunnelId s c (s.edit which policy)
  | deleted (which : Which) (kind : Kind) (name : String)
      (hcall : c = .service (.delete kind name)) (hwhich : whichOf tunnelId kind name = some which) :
      Effect tunnelId s c (s.remove which)

theorem Effect.replying {α : Type} {outcome : Outcome} {r : Store × Except KubeError α}
    (h : Effect tunnelId s c r.1) : Effect tunnelId s c (s.replying outcome r).1 := by
  cases outcome with
  | done => exact h
  | failed err _ => exact .none
  | lost err _ => exact h

theorem effect_handle (tunnelId : String) (s : Store) (c : Call) (answer : Answer) :
    Effect tunnelId s c (handle tunnelId s c answer).1 := by
  cases c with
  | getOpt which => exact Effect.replying .none
  | create which policy =>
      refine Effect.replying ?_
      unfold Store.create
      split
      · exact .none
      · rename_i hfree
        exact .created which policy rfl hfree
  | replace which policy =>
      refine Effect.replying ?_
      unfold Store.replace
      split
      · exact .none
      · rename_i current hcurrent
        split
        · rename_i hversion
          exact .replaced which policy current rfl hcurrent hversion
        · exact .none
  | edit which policy => exact .edited which policy rfl
  | service c =>
      cases c with
      | getOpt kind name =>
          simp only [handle, Store.serve]
          split
          · exact Effect.replying .none
          · exact .none
      | delete kind name =>
          simp only [handle, Store.serve]
          split
          · rename_i which hwhich
            refine Effect.replying ?_
            unfold Store.delete
            split
            · exact .none
            · exact .deleted which kind name rfl hwhich
          · exact .none
      | _ => exact .none

/-! ## What a reply tells -/

theorem replying_ok {α : Type} {outcome : Outcome} {t : Store} {a b : α}
    (h : (s.replying outcome (t, .ok a)).2 = .ok b) : b = a := by
  cases outcome with
  | done =>
      cases h
      rfl
  | failed err _ => cases h
  | lost err _ => cases h

theorem replying_fst {α : Type} {outcome : Outcome} {r : Except KubeError α} :
    (s.replying outcome (s, r)).1 = s := by
  cases outcome <;> rfl

theorem handle_service_get {kind : Kind} {name : String} {which : Which}
    (h : whichOf tunnelId kind name = some which) :
    handle tunnelId s (.service (.getOpt kind name)) answer =
      s.replying answer.outcome (s, .ok ((s.objects which).bind (shown kind))) := by
  simp only [handle, Store.serve, h]

theorem handle_service_delete {kind : Kind} {name : String} {which : Which}
    (h : whichOf tunnelId kind name = some which) :
    handle tunnelId s (.service (.delete kind name)) answer =
      s.replying answer.outcome (s.delete tunnelId which) := by
  simp only [handle, Store.serve, h]

/-- What the tunnel service sees of a policy tells whether this code made it. -/
theorem shown_spec {kind : Kind} {name : String} {which : Which} (o : DynamicObject)
    (h : whichOf tunnelId kind name = some which) :
    ∃ policy, shown kind o = some policy ∧
      (goes kind policy.spec = true ↔ (which = .waf → hasManagedBy o.toJson = true)) := by
  unfold whichOf at h
  split at h
  · split at h
    · cases h
      refine ⟨_, rfl, ?_⟩
      exact ⟨fun hgoes _ => hgoes, fun hmanaged => hmanaged rfl⟩
    · cases h
  · split at h
    · cases h
      exact ⟨_, rfl, fun _ hwaf => (by cases hwaf), fun _ => rfl⟩
    · cases h
  · cases h

theorem lookedAt_error {kind : Kind} {err : KubeError} {p : Progress}
    (h : lookedAt (.error err : Except KubeError (Option (Object kind.Spec))) = p) :
    p ≠ .done ∧ p ≠ .due := by
  subst h
  simp only [lookedAt]
  by_cases hdenied : err.isDenied = true
  · rw [if_pos hdenied]
    decide
  · rw [if_neg hdenied]
    decide

/-- What a look leaves to do is what is there to delete. -/
theorem lookedAt_reply {kind : Kind} {name : String} {which : Which}
    (h : whichOf tunnelId kind name = some which) {p : Progress}
    (hp : lookedAt (handle tunnelId s (.service (.getOpt kind name)) answer).2 = p)
    {o : DynamicObject} (ho : s.objects which = some o) :
    (p = .done → which = .waf ∧ hasManagedBy o.toJson = false) ∧
      (p = .due → which = .waf → hasManagedBy o.toJson = true) := by
  rw [handle_service_get h] at hp
  obtain ⟨policy, hshown, hgoes⟩ := shown_spec o h
  cases hout : answer.outcome with
  | done =>
      rw [hout, Store.replying, ho, Option.bind_some, hshown] at hp
      by_cases hgo : goes kind policy.spec = true
      · have hdue : p = .due := hp.symm.trans (if_pos hgo)
        subst hdue
        exact ⟨fun h => (by cases h), fun _ => hgoes.mp hgo⟩
      · have hdone : p = .done := hp.symm.trans (if_neg hgo)
        subst hdone
        refine ⟨fun _ => ?_, fun h => by cases h⟩
        rw [hgoes, Classical.not_imp] at hgo
        exact ⟨hgo.1, Bool.eq_false_iff.mpr hgo.2⟩
  | failed err _ | lost err _ =>
      rw [hout, Store.replying] at hp
      have herror := lookedAt_error hp
      exact ⟨fun hdone => absurd hdone herror.1, fun hdue => absurd hdue herror.2⟩

/-- A delete that is told that the policy is gone leaves none. -/
theorem deleted_reply (s : Store) (answer : Answer) {kind : Kind} {name : String} {which : Which}
    (h : whichOf tunnelId kind name = some which) :
    deleted (handle tunnelId s (.service (.delete kind name)) answer).2 ≠ .due ∧
      (deleted (handle tunnelId s (.service (.delete kind name)) answer).2 = .done →
        (handle tunnelId s (.service (.delete kind name)) answer).1.objects which = none) := by
  have herror (err : KubeError) (honest : err.isNotFound = false) :
      deleted (.error err) = .refused ∨ deleted (.error err) = .failed := by
    rw [deleted, honest]
    simp only [Bool.false_eq_true, if_false]
    split
    · exact .inl rfl
    · exact .inr rfl
  rw [handle_service_delete h]
  cases hout : answer.outcome with
  | done =>
      simp only [Store.replying, Store.delete]
      split
      · rename_i hnone
        exact ⟨by simp [deleted, Cluster.notFound, KubeError.isNotFound], fun _ => hnone⟩
      · exact ⟨by simp [deleted], fun _ => s.objects_remove which⟩
  | failed err honest | lost err honest =>
      simp only [Store.replying]
      rcases herror err honest with h | h
      · rw [h]
        exact ⟨by decide, fun h => by cases h⟩
      · rw [h]
        exact ⟨by decide, fun h => by cases h⟩

/-! ## What an operation knows of the policies -/

/-- What a pass has read is what is there, if it has the same version; what a delete has
found out still holds unless somebody has written since. -/
structure Watching (s : Store) (g : Place) (n : Notes) : Prop where
  read : ∀ o, g.read = some o → ∃ v ≤ s.version, o.resourceVersion = some v ∧
    ∀ current, s.objects .waf = some current → current.resourceVersion = some v → current = o
  due : g.progress .waf = .due → n.edited .waf = false →
    ∀ o, s.objects .waf = some o → hasManagedBy o.toJson = true
  done : ∀ which, g.progress which = .done → n.edited which = false → n.written which = false →
    ∀ o, s.objects which = some o → which = .waf ∧ hasManagedBy o.toJson = false

theorem Watching.fresh (s : Store) : Watching s {} {} where
  read := nofun
  due := nofun
  done := nofun

/-- Nothing noted is forgotten. -/
structure Notes.Extends (n n' : Notes) : Prop where
  edited : ∀ which, n'.edited which = false → n.edited which = false
  written : ∀ which, n'.written which = false → n.written which = false

theorem Notes.Extends.refl (n : Notes) : n.Extends n := ⟨fun _ => id, fun _ => id⟩

theorem Watching.noted {g : Place} {n n' : Notes} (h : Watching s g n) (hn : n.Extends n') :
    Watching s g n' where
  read := h.read
  due hdue hedited := h.due hdue (hn.edited _ hedited)
  done which hdone hedited hwritten :=
    h.done which hdone (hn.edited _ hedited) (hn.written _ hwritten)

/-- A version says nothing about who made the policy. -/
theorem hasManagedBy_version (policy : DynamicObject) (v : Option Nat) :
    hasManagedBy { policy with resourceVersion := v }.toJson = hasManagedBy policy.toJson := by
  rw [hasManagedBy_toJson, hasManagedBy_toJson]

/-- A write gives the policy a version that nobody has read. -/
theorem Watching.write {g : Place} {n : Notes} (h : Watching s g n) (which : Which)
    (policy : DynamicObject)
    (hdue : which = .waf → n.edited .waf = false → hasManagedBy policy.toJson = true)
    (hdone : n.edited which = true ∨ n.written which = true) :
    Watching (s.write which policy) g n where
  read := by
    intro o ho
    obtain ⟨v, hle, hv, hcurrent⟩ := h.read o ho
    have hle' : v ≤ (s.write which policy).version := Nat.le_succ_of_le hle
    refine ⟨v, hle', hv, fun current hobj hversion => ?_⟩
    by_cases hwhich : which = .waf
    · subst hwhich
      rw [Store.objects_write, Option.some.injEq] at hobj
      subst hobj
      have heq : s.version + 1 = v := Option.some.inj hversion
      omega
    · rw [s.objects_write_of_ne policy (Ne.symm hwhich)] at hobj
      exact hcurrent current hobj hversion
  due := by
    intro hprogress hedited o ho
    by_cases hwhich : which = .waf
    · subst hwhich
      rw [Store.objects_write, Option.some.injEq] at ho
      rw [← ho, hasManagedBy_version]
      exact hdue rfl hedited
    · rw [s.objects_write_of_ne policy (Ne.symm hwhich)] at ho
      exact h.due hprogress hedited o ho
  done := by
    intro other hprogress hedited hwritten o ho
    by_cases hwhich : other = which
    · subst hwhich
      rcases hdone with hnoted | hnoted
      · rw [hedited] at hnoted
        cases hnoted
      · rw [hwritten] at hnoted
        cases hnoted
    · rw [s.objects_write_of_ne policy hwhich] at ho
      exact h.done other hprogress hedited hwritten o ho

theorem objects_of_remove {which other : Which} {o : DynamicObject}
    (h : (s.remove which).objects other = some o) : s.objects other = some o := by
  by_cases hwhich : other = which
  · subst hwhich
    rw [Store.objects_remove] at h
    cases h
  · rwa [s.objects_remove_of_ne hwhich] at h

theorem Watching.remove {g : Place} {n : Notes} (h : Watching s g n) (which : Which) :
    Watching (s.remove which) g n where
  read := by
    intro o ho
    obtain ⟨v, hle, hv, hcurrent⟩ := h.read o ho
    exact ⟨v, hle, hv, fun current hobj => hcurrent current (objects_of_remove hobj)⟩
  due hprogress hedited o ho := h.due hprogress hedited o (objects_of_remove ho)
  done other hprogress hedited hwritten o ho :=
    h.done other hprogress hedited hwritten o (objects_of_remove ho)

/-- What a pass writes is managed. -/
def WritesManaged (c : Call) : Prop :=
  ∀ policy, c = .create .waf policy ∨ c = .replace .waf policy → hasManagedBy policy.toJson = true

theorem writesManaged_of_allowed {g : Place} (h : Place.Allowed tunnelId g c) :
    WritesManaged c := by
  rintro policy (rfl | rfl)
  · exact h rfl
  · obtain ⟨_, existing, _, _, rfl⟩ := h
    exact managed_upgradedWafPolicy existing tunnelId

/-- The notes on a call of somebody else. -/
theorem notice_extends (tunnelId : String) (n : Notes) (s : Store) (c : Call) (answer : Answer) :
    n.Extends (Notes.notice tunnelId false n s c answer) := by
  cases c with
  | edit which policy =>
      refine ⟨fun other h => ?_, fun _ => id⟩
      by_cases hwhich : other = which
      · subst hwhich
        simp [Notes.notice] at h
      · simpa [Notes.notice, hwhich] using h
  | create which policy | replace which policy =>
      refine ⟨fun other h => ?_, fun other h => ?_⟩
      · simp only [Notes.notice] at h
        split at h
        · exact h
        · exact h
      · simp only [Notes.notice] at h
        split at h
        · exact h
        · by_cases hwhich : other = which
          · subst hwhich
            simp at h
          · simpa [hwhich] using h
  | getOpt which => exact .refl n
  | service c =>
      cases c with
      | getOpt kind name =>
          simp only [Notes.notice]
          split
          · exact .refl n
          · exact .refl n
      | _ => exact .refl n

/-- A write by a pass is noted. -/
theorem written_notice {mine : Bool} {n : Notes} {which : Which} {policy : DynamicObject}
    (hc : c = .create which policy ∨ c = .replace which policy)
    (ht : (handle tunnelId s c answer).1 = s.write which policy) :
    (Notes.notice tunnelId mine n s c answer).written which = true := by
  have hversion : (handle tunnelId s c answer).1.version ≠ s.version := by
    rw [ht]
    exact Nat.succ_ne_self _
  rcases hc with rfl | rfl
  · rw [Notes.notice, if_neg hversion]
    exact Function.update_self ..
  · rw [Notes.notice, if_neg hversion]
    exact Function.update_self ..

theorem edited_notice (tunnelId : String) (n : Notes) (s : Store) (answer : Answer) {mine : Bool}
    {which : Which} {policy : Option DynamicObject} (hc : c = .edit which policy) :
    (Notes.notice tunnelId mine n s c answer).edited which = true := by
  subst hc
  exact Function.update_self ..

theorem Watching.noticed {g : Place} {n : Notes} (h : Watching s g n) (hc : WritesManaged c)
    (tunnelId : String) (answer : Answer) :
    Watching (handle tunnelId s c answer).1 g (Notes.notice tunnelId false n s c answer) := by
  have hn := h.noted (notice_extends tunnelId n s c answer)
  have heffect := effect_handle tunnelId s c answer
  generalize ht : (handle tunnelId s c answer).1 = t at heffect ⊢
  cases heffect with
  | none => exact hn
  | created which policy hcall hfree =>
      refine hn.write which policy (fun hwaf _ => ?_) (.inr (written_notice (.inl hcall) ht))
      subst hwaf
      exact hc policy (.inl hcall)
  | replaced which policy current hcall hcurrent hversion =>
      refine hn.write which policy (fun hwaf _ => ?_) (.inr (written_notice (.inr hcall) ht))
      subst hwaf
      exact hc policy (.inr hcall)
  | edited which policy hcall =>
      have hnoted : (Notes.notice tunnelId false n s c answer).edited which = true :=
        edited_notice tunnelId n s answer hcall
      cases policy with
      | none => exact hn.remove which
      | some policy =>
          refine hn.write which policy (fun hwaf hclean => ?_) (.inl hnoted)
          subst hwaf
          rw [hnoted] at hclean
          cases hclean
  | deleted which kind name hcall hwhich => exact hn.remove which

theorem Notes.afresh_of_ne (n : Notes) {which other : Which} (h : other ≠ which) :
    (n.afresh which).edited other = n.edited other ∧
      (n.afresh which).written other = n.written other :=
  ⟨Function.update_of_ne h .., Function.update_of_ne h ..⟩

theorem Watching.read_now {g : Place} {n : Notes} (h : Watching s g n) :
    Watching s { g with read := s.objects .waf } n where
  read := by
    intro o ho
    obtain ⟨v, hv, hle⟩ := s.numbered .waf o ho
    refine ⟨v, hle, hv, fun current hobj _ => ?_⟩
    have hsome : some o = some current := ho.symm.trans hobj
    exact (Option.some.inj hsome).symm
  due := h.due
  done := h.done

/-- A look: what was noted before it no longer matters. -/
theorem Watching.looked {g : Place} {n : Notes} (h : Watching s g n) {which : Which} {p : Progress}
    (hp : ∀ o, s.objects which = some o →
      (p = .done → which = .waf ∧ hasManagedBy o.toJson = false) ∧
        (p = .due → which = .waf → hasManagedBy o.toJson = true)) :
    Watching s (g.mark which p) (n.afresh which) where
  read := h.read
  due := by
    intro hprogress hedited o ho
    by_cases hwhich : which = .waf
    · subst hwhich
      rw [Place.progress_mark] at hprogress
      exact (hp o ho).2 hprogress rfl
    · rw [g.at_mark which p .waf (Ne.symm hwhich)] at hprogress
      rw [(n.afresh_of_ne (Ne.symm hwhich)).1] at hedited
      exact h.due hprogress hedited o ho
  done := by
    intro other hprogress hedited hwritten o ho
    by_cases hwhich : other = which
    · subst hwhich
      rw [Place.progress_mark] at hprogress
      exact (hp o ho).1 hprogress
    · rw [g.at_mark which p other hwhich] at hprogress
      rw [(n.afresh_of_ne hwhich).1] at hedited
      rw [(n.afresh_of_ne hwhich).2] at hwritten
      exact h.done other hprogress hedited hwritten o ho

theorem Watching.afterDelete {g : Place} {n : Notes} (h : Watching s g n) {which : Which}
    {p : Progress} (hdue : p ≠ .due) (hdone : p = .done → s.objects which = none) :
    Watching s (g.mark which p) n where
  read := h.read
  due := by
    intro hprogress hedited o ho
    by_cases hwhich : which = .waf
    · subst hwhich
      rw [Place.progress_mark] at hprogress
      exact absurd hprogress hdue
    · rw [g.at_mark which p .waf (Ne.symm hwhich)] at hprogress
      exact h.due hprogress hedited o ho
  done := by
    intro other hprogress hedited hwritten o ho
    by_cases hwhich : other = which
    · subst hwhich
      rw [Place.progress_mark] at hprogress
      rw [hdone hprogress] at ho
      cases ho
    · rw [g.at_mark which p other hwhich] at hprogress
      exact h.done other hprogress hedited hwritten o ho

/-- The call of the operation itself. -/
theorem Watching.moved {g : Place} {n : Notes} (h : Watching s g n)
    (hallowed : g.Allowed tunnelId c) (answer : Answer) :
    Watching (handle tunnelId s c answer).1
      (g.advance tunnelId c (handle tunnelId s c answer).2)
      (Notes.notice tunnelId true n s c answer) := by
  have hn := h.noticed (writesManaged_of_allowed hallowed) tunnelId answer
  cases c with
  | getOpt which =>
      cases which with
      | timeout => exact hn
      | waf =>
          have hsame : (handle tunnelId s (.getOpt .waf) answer).1 = s := replying_fst
          cases hr : (handle tunnelId s (.getOpt .waf) answer).2 with
          | error err => exact hn
          | ok existing =>
              have heq : existing = s.objects .waf := replying_ok hr
              rw [hsame] at hn ⊢
              rw [heq]
              exact hn.read_now
  | service c =>
      cases c with
      | getOpt kind name =>
          cases hwhich : whichOf tunnelId kind name with
          | none =>
              have hnotice : Notes.notice tunnelId true n s (.service (.getOpt kind name)) answer =
                  Notes.notice tunnelId false n s (.service (.getOpt kind name)) answer := by
                simp only [Notes.notice, hwhich]
              have hadvance (r : Except KubeError (Option (Object kind.Spec))) :
                  g.advance tunnelId (.service (.getOpt kind name)) r = g := by
                simp only [Place.advance, hwhich]
              rw [hnotice, hadvance]
              exact hn
          | some which =>
              have hsame : (handle tunnelId s (.service (.getOpt kind name)) answer).1 = s := by
                rw [handle_service_get hwhich]
                exact replying_fst
              have hnotice : Notes.notice tunnelId true n s (.service (.getOpt kind name)) answer =
                  n.afresh which := by
                simp only [Notes.notice, hwhich, if_true]
              rw [hsame, hnotice, Place.advance_get hwhich]
              exact h.looked fun o ho => lookedAt_reply hwhich rfl ho
      | delete kind name =>
          cases hwhich : whichOf tunnelId kind name with
          | none =>
              have hadvance (r : Except KubeError Unit) :
                  g.advance tunnelId (.service (.delete kind name)) r = g := by
                simp only [Place.advance, hwhich]
              rw [hadvance]
              exact hn
          | some which =>
              obtain ⟨hdue, hdone⟩ := deleted_reply s answer hwhich
              rw [Place.advance_delete hwhich]
              exact hn.afterDelete hdue hdone
      | _ => exact hn
  | _ => exact hn

/-! ## Every run -/

/-- The policies as they are before anything is started. -/
def Store.start (s : Store) : Clients := { state := s }

structure Sound (tunnelId : String) (w : Clients) : Prop where
  faithful : System.Faithful (system tunnelId) Ended w
  watching : ∀ client ∈ w.clients, Watching w.state client.place client.notes

theorem sound_start (tunnelId : String) (s : Store) : Sound tunnelId s.start where
  faithful := fun _ _ _ hcl => nomatch hcl
  watching := nofun

theorem sound_step {w w' : Clients} {act : Act Op Answer} (h : Sound tunnelId w)
    (hstep : (system tunnelId).step w act = some w') : Sound tunnelId w' := by
  refine ⟨h.faithful.step follows_code hstep, fun cl hcl => ?_⟩
  obtain ⟨j, hj⟩ := List.mem_iff_getElem?.mp hcl
  cases act with
  | spawn op =>
      rw [System.step_spawn hstep] at hj ⊢
      rcases System.client_of_spawn hj with hold | ⟨_, rfl⟩
      · exact h.watching cl (List.mem_of_getElem? hold)
      · exact Watching.fresh w.state
  | step i answer =>
      obtain ⟨client, c, k, hclient, hprog, rfl⟩ := System.step_call hstep
      have hallowed := h.faithful.allowed hclient hprog
      rcases System.client_of_call hj with ⟨_, rfl⟩ | ⟨_, other, hother, rfl⟩
      · exact (h.watching client (List.mem_of_getElem? hclient)).moved hallowed answer
      · have hmanaged := writesManaged_of_allowed hallowed
        exact (h.watching other (List.mem_of_getElem? hother)).noticed hmanaged tunnelId answer
  | drop i =>
      obtain ⟨client, c, k, hclient, hprog, rfl⟩ := System.step_drop hstep
      rcases System.client_of_drop hj with ⟨_, rfl⟩ | ⟨_, hold⟩
      · exact h.watching client (List.mem_of_getElem? hclient)
      · exact h.watching cl (List.mem_of_getElem? hold)

theorem sound_run {w : Clients} {acts : List (Act Op Answer)}
    (hrun : Runs.run (system tunnelId).step s.start acts = some w) : Sound tunnelId w :=
  Runs.invariant_always (fun _ _ _ h hstep => sound_step h hstep) (sound_start tunnelId s) hrun

/-- What may become of a WAF policy by a call of this code: nothing, the upgrade of the
policy that the earlier add-on made, or a delete. -/
def Respected (tunnelId : String) (n : Notes) (old : DynamicObject) : Option DynamicObject → Prop
  | some new => new = old ∨ LooksLegacy old.toJson tunnelId ∧
      ∃ v, new = { upgradedWafPolicy old tunnelId with resourceVersion := v }
  | none => hasManagedBy old.toJson = true ∨ n.edited .waf = true

theorem others_kept {w : Clients} {acts : List (Act Op Answer)}
    (hrun : Runs.run (system tunnelId).step s.start acts = some w) {i : Nat}
    {client : Client Op Call Call.Reply Result Place Notes} (hclient : w.clients[i]? = some client)
    {c : Call} (hnext : client.next = some c) (hcode : ∀ which policy, c ≠ .edit which policy)
    {old : DynamicObject} (hold : w.state.objects .waf = some old) (answer : Answer) :
    Respected tunnelId client.notes old ((handle tunnelId w.state c answer).1.objects .waf) := by
  obtain ⟨k, hprog⟩ := System.prog_of_next hnext
  have hsound := sound_run hrun
  have hallowed : client.place.Allowed tunnelId c := hsound.faithful.allowed hclient hprog
  have hwatching := hsound.watching client (List.mem_of_getElem? hclient)
  have hsame : Respected tunnelId client.notes old (some old) := .inl rfl
  have heffect := effect_handle tunnelId w.state c answer
  generalize (handle tunnelId w.state c answer).1 = t at heffect
  cases heffect with
  | none => rwa [hold]
  | created which policy hcall hfree =>
      have hne : Which.waf ≠ which := by
        rintro rfl
        rw [hold] at hfree
        cases hfree
      rwa [w.state.objects_write_of_ne policy hne, hold]
  | replaced which policy current hcall hcurrent hversion =>
      subst hcall
      obtain ⟨rfl, existing, hread, hlegacy, rfl⟩ := hallowed
      obtain ⟨v, _, hv, hseen⟩ := hwatching.read existing hread
      have hcurrentVersion : current.resourceVersion = some v := by
        rcases hversion with hnone | heq
        · have hkept : (upgradedWafPolicy existing tunnelId).resourceVersion = some v := hv
          rw [hkept] at hnone
          cases hnone
        · exact heq.symm.trans hv
      have hexisting : current = existing := hseen current hcurrent hcurrentVersion
      have hold' : old = existing := by
        rw [← hexisting]
        exact Option.some.inj (hold.symm.trans hcurrent)
      subst hold'
      rw [Store.objects_write]
      exact .inr ⟨hlegacy, _, rfl⟩
  | edited which policy hcall => exact absurd hcall (hcode which policy)
  | deleted which kind name hcall hwhich =>
      subst hcall
      cases which with
      | timeout => rwa [w.state.objects_remove_of_ne (by decide), hold]
      | waf =>
          rw [Store.objects_remove]
          have hdue : client.place.progress .waf = .due := hallowed .waf hwhich
          cases hedited : client.notes.edited .waf with
          | true => exact .inr hedited
          | false => exact .inl (hwatching.due hdue hedited old hold)

/-- The server holds one WAF policy. -/
def holding (policy : DynamicObject) : Store where
  objects
    | .waf => some { policy with resourceVersion := some 1 }
    | .timeout => none
  version := 1
  numbered := by
    intro which o ho
    cases which with
    | waf =>
        cases ho
        exact ⟨1, rfl, Nat.le_refl _⟩
    | timeout => cases ho

/-- The earlier add-on's policy, but for its sampling, which is left at the default. -/
def unsampledPolicy : DynamicObject :=
  { newWafPolicy "t" "home-assistant" with
    annotations := none
    data := [("spec", .object [
      ("mode", .string "Disabled"),
      ("ruleSets", ruleSets),
      ("targetRefs", .array [.object [
        ("group", .string httpRouteGroup),
        ("kind", .string "HTTPRoute"),
        ("name", .string "t")]])])] }

/-- A pass that has read the policy and goes on to replace it. -/
def passUpTo (steps : Nat) : List (Act Op Answer) :=
  .spawn (.pass "home-assistant") :: List.replicate steps (.step 0 {})

theorem others_kept_unsampled :
    ∃ w client c, Runs.run (system "t").step (holding unsampledPolicy).start (passUpTo 3) = some w ∧
      w.clients[0]? = some client ∧ client.next = some c ∧
      Respected "t" client.notes { unsampledPolicy with resourceVersion := some 1 }
        ((handle "t" w.state c {}).1.objects .waf) := by
  refine ⟨_, _, .replace .waf (upgradedWafPolicy { unsampledPolicy with resourceVersion := some 1 }
    "t"), rfl, rfl, rfl, ?_⟩
  exact @others_kept "t" (holding unsampledPolicy) _ (passUpTo 3) rfl 0 _ rfl _ rfl
    (fun _ _ => nofun) _ rfl {}

/-- The policy is replaced, though its spec is not the one that the earlier add-on wrote. -/
theorem unsampled_replaced :
    ((Runs.run (system "t").step (holding unsampledPolicy).start (passUpTo 3)).bind fun w =>
        w.state.objects .waf) = some { unsampledPolicy with resourceVersion := some 1 } ∧
      ((Runs.run (system "t").step (holding unsampledPolicy).start (passUpTo 4)).bind fun w =>
        w.state.objects .waf) =
        some { upgradedWafPolicy unsampledPolicy "t" with resourceVersion := some 3 } ∧
      jsonEq (unsampledPolicy.toJson.index "spec") (legacyWafSpec "t") = false := by
  decide +kernel

end DatumConnect.Policies
