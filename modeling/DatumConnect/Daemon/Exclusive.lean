import DatumConnect.Lib.Traces
import DatumConnect.Daemon.DeleteFiles
/-!
# The add-on's own tunnel

A label names one tunnel of the add-on, and every other tunnel that this daemon has files of is an
older one.  Older tunnels are stopped when the daemon starts, and the page offers to remove them.
-/

namespace DatumConnect.Daemon

open DatumConnect.Lib
open DatumConnect.Lib.Files
open DatumConnect.Lib.Prog (Traces Only OnOk Within)
open DatumConnect.Cloud (Error)
open DatumConnect.Tunnels

structure Partition where
  active : Option TunnelSummary := none
  older : List TunnelSummary := []

/-- One turn of the loop of `partition`. -/
def Partition.put (label : String) (isLocal : String → Bool) (out : Partition) (t : TunnelSummary) :
    Partition :=
  if out.active.isNone && t.label = label then { out with active := some t }
  else if isLocal t.id then { out with older := out.older ++ [t] }
  else out

def partition (tunnels : List TunnelSummary) (label : String) (isLocal : String → Bool) :
    Partition :=
  tunnels.foldl (Partition.put label isLocal) {}

/-- Anything else is not a path to look at. -/
def isPathId (id : String) : Bool :=
  id ≠ "" && id.toList.all (fun c => c.isAlphanum || c = '-' || c = '.') &&
    id.toList.head? ≠ some '.'

def listenKeyPath (connectDir : Path) (project id : String) : Path :=
  (tunnelDir connectDir project id).join "listen_key"

/-- `isFile` is what the system says of a path. -/
def isLocallyKnown (isFile : Path → Bool) (connectDir : Path) (project id : String) : Bool :=
  isPathId id &&
    (isFile (inspectorTargetPath connectDir id) || isFile (listenKeyPath connectDir project id))

/-! ## The two that ask for it -/

/-- What they call, each by the function of the daemon.  An inspector is spawned for a tunnel. -/
inductive Command where
  | listActive
  | isFile
  | runningContains (id : String)
  | stop (id : String) (reason : StopReason) (actor : String)
  | start (id actor : String)
  | delete (id actor : String)
  | loadInspectorTarget (id : String)
  | spawnInspector (id : String) (target : RealTarget)
  | retargetActive (id endpoint : String)
  | installInspector (id : String) (target : RealTarget) (endpoint : String)

abbrev Command.Reply : Command → Type
  | .listActive => Except Error (List TunnelSummary)
  | .isFile => Path → Bool
  | .runningContains _ => Bool
  | .stop _ _ _ => Except Rejection TunnelSummary
  | .start _ _ => Except Rejection TunnelSummary
  | .delete _ _ => Except Rejection TunnelDeleteOutcome
  | .loadInspectorTarget _ => Option String
  | .spawnInspector _ _ => Except Error String
  | .retargetActive _ _ => Except Error TunnelSummary
  | .installInspector _ _ _ => Unit

abbrev Script := Prog Command Command.Reply

def Script.perform (c : Command) : Script c.Reply := Prog.perform c

/-- Of the state and the settings, what is asked of the label. -/
structure AddOn where
  app : AppState
  connectDir : Path
  exclusiveLabel : Option String

namespace AddOn

variable (addOn : AddOn)

def isLocal (isFile : Path → Bool) (id : String) : Bool :=
  isLocallyKnown isFile addOn.connectDir addOn.app.projectId id

def partition (tunnels : List TunnelSummary) (label : String) (isFile : Path → Bool) : Partition :=
  Daemon.partition tunnels label (addOn.isLocal isFile)

/-- The ids of the tunnels that stay off. -/
def olderIds (tunnels : List TunnelSummary) : Script (List String) :=
  match addOn.exclusiveLabel with
  | some label => do
      let isFile ← Script.perform .isFile
      return (addOn.partition tunnels label isFile).older.map TunnelSummary.id
  | none => return []

def stopOlder (t : TunnelSummary) : Script Unit :=
  if !t.enabled then return ()
  else do
    let _ ← Script.perform (.stop t.id .manual "system")
    return ()

/-- Whether the proxy points at the inspector, now or already. -/
def repointed (t : TunnelSummary) (inspectorEndpoint : String) : Script Bool :=
  if inspectorEndpoint.toList = Text.trimEndMatches '/' t.endpoint.toList then return true
  else do
    match ← Script.perform (.retargetActive t.id inspectorEndpoint) with
    | .ok _ => return true
    | .error _ => return false

def reconcileInspector (t : TunnelSummary) : Script Unit := do
  match ← Script.perform (.loadInspectorTarget t.id) with
  | none => return ()
  | some target =>
      match addOn.app.parseRealTarget target with
      | .error _ => return ()
      | .ok realTarget =>
          match ← Script.perform (.spawnInspector t.id realTarget) with
          | .error _ => return ()
          | .ok inspectorEndpoint =>
              if ← repointed t inspectorEndpoint then
                Script.perform (.installInspector t.id realTarget inspectorEndpoint)
                if t.enabled then
                  let _ ← Script.perform (.start t.id "system")
                  return ()
                else return ()
              else return ()

/-- What `run` does with the tunnels there are when the daemon starts. -/
def reconcile : Script Unit := do
  match ← Script.perform .listActive with
  | .error _ => return ()
  | .ok tunnels =>
      let older ← addOn.olderIds tunnels
      (tunnels.filter fun t => t.id ∈ older).forM stopOlder
      (tunnels.filter fun t => t.id ∉ older).forM addOn.reconcileInspector

/-- The tunnels as the page splits them. -/
def split (tunnels : List TunnelSummary) : Script (List TunnelSummary × List TunnelSummary) :=
  match addOn.exclusiveLabel with
  | some label => do
      let isFile ← Script.perform .isFile
      let part := addOn.partition tunnels label isFile
      return (part.active.toList, part.older)
  | none => return (tunnels, [])

def removable (older : List TunnelSummary) (id : String) : Option TunnelSummary :=
  older.find? fun t => t.id = id

/-- Why nothing was removed: 409, 503, 409 and 502. -/
inductive RemoveError where
  | onlyInAddOn
  | notListed (err : Error)
  | notOlder
  | notDeleted (err : Rejection)

structure RemoveOutcome where
  id : String
  label : String

def stopFirst (t : TunnelSummary) : Script Unit := do
  if ← Script.perform (.runningContains t.id) then
    let _ ← Script.perform (.stop t.id .manual "addon-page")
    return ()
  else return ()

def removeInner (id : String) : Script (Except RemoveError RemoveOutcome) :=
  if addOn.exclusiveLabel.isNone then return .error .onlyInAddOn
  else do
    match ← Script.perform .listActive with
    | .error err => return .error (.notListed err)
    | .ok tunnels =>
        let (_, older) ← addOn.split tunnels
        match removable older id with
        | none => return .error .notOlder
        | some t =>
            stopFirst t
            match ← Script.perform (.delete t.id "addon-page") with
            | .error err => return .error (.notDeleted err)
            | .ok _ => return .ok { id := t.id, label := t.label }

end AddOn

/-! ## What there can be to read of them -/

abbrev Event := Σ c : Command, c.Reply

/-- A list of tunnels is one that can be read of a cluster, whatever else happens to it. -/
def Genuine : (c : Command) → c.Reply → Prop
  | .listActive, reply => ∃ (cluster : Cloud.Cluster) (answers : List Cloud.Answer),
      (Prog.exec Cloud.Cluster.handle cluster answers TunnelService.listActive.run).2 = some reply
  | _, _ => True

/-- The tunnel that is stopped. -/
def Command.stops : Command → Option String
  | .stop id _ _ => some id
  | _ => none

def stopped (log : List Event) : List String := log.filterMap fun event => event.1.stops

/-- The tunnel that gets an inspector, or is started. -/
def Command.bringsUp : Command → Option String
  | .start id _ => some id
  | .spawnInspector id _ => some id
  | .retargetActive id _ => some id
  | .installInspector id _ _ => some id
  | _ => none

/-- The older ones of the tunnels stay off: those that are on are stopped, each once and in their
order, and the others alone are brought up. -/
structure KeepsOff (tunnels older : List TunnelSummary) (log : List Event) (result : Option Unit) :
    Prop where
  begun : stopped log <+: (older.filter fun t => t.enabled).map TunnelSummary.id
  done : result = some () → stopped log = (older.filter fun t => t.enabled).map TunnelSummary.id
  others : ∀ event ∈ log, ∀ id, event.1.bringsUp = some id →
    id ∈ tunnels.map TunnelSummary.id ∧ id ∉ older.map TunnelSummary.id

/-- Either the tunnels have not been read, or the older ones of them stay off. -/
def AddOn.Reconciled (addOn : AddOn) (label : String) (log : List Event) (result : Option Unit) :
    Prop :=
  log = [] ∧ result = none ∨
  (∃ reply, log = [⟨.listActive, reply⟩] ∧ (result = some () → ∃ err, reply = .error err)) ∨
  ∃ tunnels isFile rest, log = ⟨.listActive, .ok tunnels⟩ :: ⟨.isFile, isFile⟩ :: rest ∧
    KeepsOff tunnels (addOn.partition tunnels label isFile).older rest result

/-- Before a tunnel is deleted, it is an older one of a list that has been read for that, and not
the active one. -/
def AddOn.RemovesOlder (addOn : AddOn) (id : String) (log : List Event) : Prop :=
  ∀ before victim actor reply after, log = before ++ ⟨.delete victim actor, reply⟩ :: after →
    victim = id ∧ ∃ label tunnels isFile rest, addOn.exclusiveLabel = some label ∧
      before = ⟨.listActive, .ok tunnels⟩ :: ⟨.isFile, isFile⟩ :: rest ∧
      (∃ t ∈ (addOn.partition tunnels label isFile).older, t.id = id) ∧
      (∀ t, (addOn.partition tunnels label isFile).active = some t → t.id ≠ id) ∧
      addOn.isLocal isFile id = true

/-! ## The split -/

variable {label : String} {isLocal : String → Bool}

theorem put_local {active : Option TunnelSummary} {older : List TunnelSummary} {t : TunnelSummary}
    (h : active.isSome = true ∨ t.label ≠ label) :
    Partition.put label isLocal { active, older } t =
      { active, older := older ++ [t].filter fun t => isLocal t.id } := by
  have hnot : ¬ (active.isNone && decide (t.label = label)) = true := by
    cases active with
    | none =>
      rcases h with h | h
      · cases h
      · simpa using h
    | some a => exact Bool.false_ne_true
  unfold Partition.put
  rw [if_neg hnot]
  cases hlocal : isLocal t.id <;> simp [hlocal]

theorem foldl_active (a : TunnelSummary) (tunnels older : List TunnelSummary) :
    tunnels.foldl (Partition.put label isLocal) { active := some a, older } =
      { active := some a, older := older ++ tunnels.filter fun t => isLocal t.id } := by
  induction tunnels generalizing older with
  | nil => simp
  | cons t tunnels ih =>
    rw [List.foldl_cons, put_local (Or.inl rfl), ih, List.append_assoc, ← List.filter_append,
      List.singleton_append]

theorem foldl_none (tunnels older : List TunnelSummary) :
    tunnels.foldl (Partition.put label isLocal) { active := none, older } =
      { active := tunnels.find? fun t => t.label = label
        older := older ++ (tunnels.eraseP fun t => t.label = label).filter fun t => isLocal t.id } := by
  induction tunnels generalizing older with
  | nil => simp
  | cons t tunnels ih =>
    by_cases hlabel : t.label = label
    · have hput : Partition.put label isLocal { active := none, older } t =
          { active := some t, older } := if_pos (by simp [hlabel])
      rw [List.foldl_cons, hput, foldl_active, List.find?_cons_of_pos (by simp [hlabel]),
        List.eraseP_cons_of_pos (by simp [hlabel])]
    · rw [List.foldl_cons, put_local (Or.inr hlabel), ih, List.append_assoc, ← List.filter_append,
        List.singleton_append, List.find?_cons_of_neg (by simp [hlabel]),
        List.eraseP_cons_of_neg (by simp [hlabel])]

/-- The active tunnel is the first with the label, and the older ones are what is local of the
rest. -/
theorem partition_eq (tunnels : List TunnelSummary) (label : String) (isLocal : String → Bool) :
    partition tunnels label isLocal =
      { active := tunnels.find? fun t => t.label = label
        older := (tunnels.eraseP fun t => t.label = label).filter fun t => isLocal t.id } :=
  foldl_none tunnels []

theorem older_sublist (tunnels : List TunnelSummary) (label : String) (isLocal : String → Bool) :
    (partition tunnels label isLocal).older.Sublist tunnels := by
  rw [partition_eq]
  exact List.filter_sublist.trans List.eraseP_sublist

theorem active_not_older {tunnels : List TunnelSummary} {label : String} {isLocal : String → Bool}
    (hnodup : (tunnels.map TunnelSummary.id).Nodup) {active t : TunnelSummary}
    (hactive : (partition tunnels label isLocal).active = some active)
    (ht : t ∈ (partition tunnels label isLocal).older) : active.id ≠ t.id := by
  rw [partition_eq] at hactive ht
  obtain ⟨hlabel, before, after, hsplit, hbefore⟩ := List.find?_eq_some_iff_append.mp hactive
  have hnot : ∀ u ∈ before, ¬ decide (u.label = label) = true := by
    intro u hu
    have hu := hbefore u hu
    simpa using hu
  have hmem := (List.mem_filter.mp ht).1
  rw [hsplit, List.eraseP_append_right _ hnot,
    List.eraseP_cons_of_pos (p := fun b : TunnelSummary => decide (b.label = label)) hlabel] at hmem
  rw [hsplit, List.map_append, List.map_cons] at hnodup
  have hout := List.nodup_middle.mp hnodup
  rw [← List.map_append] at hout
  intro heq
  apply (List.nodup_cons.mp hout).1
  rw [heq]
  exact List.mem_map_of_mem hmem

/-- Elements are told apart by their ids. -/
theorem filter_mem_map {α β : Type} [DecidableEq β] {f : α → β} {part all : List α}
    (h : part.Sublist all) (hnodup : (all.map f).Nodup) :
    (all.filter fun a => f a ∈ part.map f) = part := by
  induction h with
  | slnil => rfl
  | @cons part all a hsub ih =>
    rw [List.map_cons, List.nodup_cons] at hnodup
    have hnot : ¬ decide (f a ∈ part.map f) = true := by
      rw [decide_eq_true_eq]
      exact fun hmem => hnodup.1 ((hsub.map f).subset hmem)
    rw [List.filter_cons_of_neg (p := fun a => decide (f a ∈ part.map f)) hnot]
    exact ih hnodup.2
  | cons_cons a hsub ih =>
    rw [List.map_cons, List.nodup_cons] at hnodup
    rw [List.filter_cons_of_pos (by simp)]
    refine congrArg (a :: ·) ((List.filter_congr ?_).trans (ih hnodup.2))
    intro b hb
    have hne : f b ≠ f a := by
      intro heq
      apply hnodup.1
      rw [← heq]
      exact List.mem_map_of_mem hb
    simp [hne]

/-! ## Local state -/

theorem isName_of_isPathId {id : String} (h : isPathId id = true) : IsName id := by
  simp only [isPathId, Bool.and_eq_true, decide_eq_true_eq, List.all_eq_true] at h
  obtain ⟨⟨hne, hall⟩, hdot⟩ := h
  refine ⟨hne, ?_, ?_, ?_⟩
  · intro hslash
    have hchar := hall '/' hslash
    revert hchar
    decide
  · rintro rfl
    exact hdot rfl
  · rintro rfl
    exact hdot rfl

/-- An id is known by files of its own. -/
theorem isLocallyKnown_iff (isFile : Path → Bool) (connectDir : Path) (project id : String) :
    isLocallyKnown isFile connectDir project id = true ↔ isPathId id = true ∧
      (isFile { connectDir with
          names := connectDir.names ++ ["daemon_inspector_targets", id ++ ".txt"] } = true ∨
        isFile { connectDir.join project with
          names := (connectDir.join project).names ++ [id, "listen_key"] } = true) := by
  unfold isLocallyKnown
  rw [Bool.and_eq_true, Bool.or_eq_true]
  refine and_congr_right fun hid => ?_
  have hname := isName_of_isPathId hid
  have htarget : inspectorTargetPath connectDir id = { connectDir with
      names := connectDir.names ++ ["daemon_inspector_targets", id ++ ".txt"] } := by
    rw [inspectorTargetPath, Path.join_of_isName connectDir (by decide),
      Path.join_of_isName _ (isName_append_txt hname)]
    simp
  have hkey : listenKeyPath connectDir project id = { connectDir.join project with
      names := (connectDir.join project).names ++ [id, "listen_key"] } := by
    rw [listenKeyPath, tunnelDir, Path.join_of_isName _ hname, Path.join_of_isName _ (by decide)]
    simp
  rw [htarget, hkey]

/-! ## Lists of tunnels -/

/-- Nothing is said of the cluster. -/
def Anyhow (_ _ : Cloud.Cluster) : Prop := True

instance : Std.Refl Anyhow := ⟨fun _ => trivial⟩

instance : IsTrans Cloud.Cluster Anyhow := ⟨fun _ _ _ _ _ => trivial⟩

theorem within_anyhow {α : Type} (p : Cloud.Svc α) (s : Cloud.Cluster) :
    Within Cloud.Cluster.handle Anyhow (fun _ _ => True) p s :=
  (Only.of_forall p fun _ => trivial).within (K := fun _ => True) (fun _ _ _ _ => trivial) s

/-- A server has one object of a name, and a tunnel's id is one. -/
theorem within_listActive (s : Cloud.Cluster) :
    Within Cloud.Cluster.handle Anyhow
      (OnOk fun _ tunnels => (tunnels.map TunnelSummary.id).Nodup)
      TunnelService.listActive.run s := by
  have hlist (s : Cloud.Cluster) : Within Cloud.Cluster.handle Anyhow
      (OnOk fun _ proxies => (proxies.map Object.name).Nodup)
      (Cloud.SvcE.orElseContext (Cloud.Svc.list .httpProxy .everything)
        "Failed to list HTTPProxy objects").run s := by
    refine Within.call fun answer => ⟨trivial, Within.ret ?_⟩
    intro proxies hproxies
    rcases Cloud.Cluster.list_reply s .httpProxy .everything answer with hreply | ⟨err, hreply⟩
    · rw [hreply] at hproxies
      cases hproxies
      exact Table.unique _ |>.sublist (List.filter_sublist.map _)
    · rw [hreply] at hproxies
      cases hproxies
  refine Within.bindOk ((within_anyhow _ s).mono fun t _ _ _ project _ => ?_)
  cases project with
  | none => exact Within.ret fun _ h => by cases h; exact List.nodup_nil
  | some projectId =>
    refine Within.bindOk ?_
    refine Within.bindOk ((within_anyhow _ t).mono fun u _ _ _ _ _ => ?_)
    refine Within.bindOk ((hlist u).mono fun v _ _ hproxies proxies heq => ?_)
    have hnodup := hproxies proxies heq
    refine Within.bindOk ((within_anyhow _ v).mono fun w _ _ _ ads _ => ?_)
    refine Within.bindOk ((within_anyhow _ w).mono fun x _ _ _ connectors _ => ?_)
    refine Within.ret ?_
    rintro both ⟨⟩
    refine Within.ret ?_
    rintro tunnels ⟨⟩
    show (((TunnelService.tunnelProxies proxies).map
      (TunnelService.summarize ads connectors)).map TunnelSummary.id).Nodup
    rw [List.map_map]
    exact hnodup.sublist (List.filter_sublist.map _)

theorem nodup_of_genuine {tunnels : List TunnelSummary}
    (h : Genuine .listActive (.ok tunnels)) : (tunnels.map TunnelSummary.id).Nodup := by
  obtain ⟨cluster, answers, hrun⟩ := h
  exact ((within_listActive cluster).exec answers).2 _ hrun tunnels rfl

/-! ## What they do -/

theorem stopped_append (a b : List Event) : stopped (a ++ b) = stopped a ++ stopped b :=
  List.filterMap_append

theorem stopped_eq_nil {log : List Event} (h : ∀ event ∈ log, event.1.stops = none) :
    stopped log = [] :=
  List.filterMap_eq_nil_iff.mpr h

theorem traces_stopOlder {l : List TunnelSummary} {log : List Event} {result : Option Unit}
    (h : Traces Genuine (l.forM AddOn.stopOlder) log result) :
    stopped log <+: (l.filter fun t => t.enabled).map TunnelSummary.id ∧
      (result = some () → stopped log = (l.filter fun t => t.enabled).map TunnelSummary.id) := by
  induction l generalizing log with
  | nil =>
    obtain ⟨rfl, -⟩ := h
    exact ⟨List.prefix_refl _, fun _ => rfl⟩
  | cons t l ih =>
    change Traces Genuine (AddOn.stopOlder t >>= fun _ => l.forM AddOn.stopOlder) log result at h
    unfold AddOn.stopOlder at h
    cases henabled : t.enabled with
    | false =>
      rw [henabled] at h
      rw [List.filter_cons_of_neg (by simp [henabled])]
      exact ih h
    | true =>
      rw [henabled] at h
      rw [List.filter_cons_of_pos henabled, List.map_cons]
      rcases h with ⟨rfl, rfl⟩ | ⟨reply, rest, -, rfl, hrest⟩
      · exact ⟨List.nil_prefix, fun h => by cases h⟩
      · obtain ⟨hbegun, hdone⟩ := ih hrest
        refine ⟨(List.prefix_cons_inj t.id).mpr hbegun, fun hresult => ?_⟩
        exact congrArg (t.id :: ·) (hdone hresult)

theorem only_stopOlder (t : TunnelSummary) :
    Only (fun c : Command => c.bringsUp = none) (AddOn.stopOlder t) := by
  unfold AddOn.stopOlder
  split
  · exact Only.ret ()
  · exact Only.bind (Only.perform rfl) fun _ => Only.ret ()

theorem only_reconcileInspector (addOn : AddOn) (t : TunnelSummary) :
    Only (fun c : Command => c.stops = none ∧ ∀ id, c.bringsUp = some id → id = t.id)
      (addOn.reconcileInspector t) := by
  have hown {c : Command} (hstops : c.stops = none) (hup : c.bringsUp = some t.id) :
      c.stops = none ∧ ∀ id, c.bringsUp = some id → id = t.id :=
    ⟨hstops, fun id hid => Option.some.inj (hid.symm.trans hup)⟩
  have hrepointed (endpoint : String) : Only
      (fun c : Command => c.stops = none ∧ ∀ id, c.bringsUp = some id → id = t.id)
      (AddOn.repointed t endpoint) := by
    unfold AddOn.repointed
    split
    · exact Only.ret _
    · refine Only.bind (Only.perform (hown rfl rfl)) fun reply => ?_
      cases reply <;> exact Only.ret _
  unfold AddOn.reconcileInspector
  refine Only.bind (Only.perform ⟨rfl, fun id hid => by cases hid⟩) fun target => ?_
  cases target with
  | none => exact Only.ret ()
  | some target =>
    show Only _ (match addOn.app.parseRealTarget target with | .error _ => _ | .ok _ => _)
    cases addOn.app.parseRealTarget target with
    | error err => exact Only.ret ()
    | ok realTarget =>
      refine Only.bind (Only.perform (hown rfl rfl)) fun endpoint => ?_
      cases endpoint with
      | error err => exact Only.ret ()
      | ok endpoint =>
        refine (hrepointed endpoint).bind fun repointed => ?_
        cases repointed with
        | false => exact Only.ret ()
        | true =>
          refine Only.bind (Only.perform (hown rfl rfl)) fun _ => ?_
          cases t.enabled with
          | false => exact Only.ret ()
          | true => exact Only.bind (Only.perform (hown rfl rfl)) fun _ => Only.ret ()

/-- What follows the split of the tunnels. -/
theorem keepsOff {addOn : AddOn} {isFile : Path → Bool} {tunnels : List TunnelSummary}
    {label : String} (hnodup : (tunnels.map TunnelSummary.id).Nodup) {log : List Event}
    {result : Option Unit}
    (h : Traces Genuine (do
      (tunnels.filter fun t => t.id ∈
        (addOn.partition tunnels label isFile).older.map TunnelSummary.id).forM AddOn.stopOlder
      (tunnels.filter fun t => t.id ∉
        (addOn.partition tunnels label isFile).older.map TunnelSummary.id).forM
          addOn.reconcileInspector) log result) :
    KeepsOff tunnels (addOn.partition tunnels label isFile).older log result := by
  have holder := filter_mem_map (older_sublist tunnels label (addOn.isLocal isFile)) hnodup
  rw [show addOn.partition tunnels label isFile =
    partition tunnels label (addOn.isLocal isFile) from rfl] at h ⊢
  rw [holder] at h
  have hquiet : ∀ {log : List Event} {result : Option Unit}, Traces Genuine
      ((partition tunnels label (addOn.isLocal isFile)).older.forM AddOn.stopOlder) log result →
        ∀ event ∈ log, event.1.bringsUp = none :=
    fun h => h.of_only (Only.forM fun t _ => only_stopOlder t)
  rcases h.bind with ⟨hstops, rfl⟩ | ⟨a, before, after, rfl, hstops, hrest⟩
  · refine ⟨(traces_stopOlder hstops).1, nofun, ?_⟩
    intro event hevent id hid
    rw [hquiet hstops event hevent] at hid
    cases hid
  · have hafter := hrest.of_only (K := fun c => c.stops = none ∧ ∀ id, c.bringsUp = some id →
        id ∈ tunnels.map TunnelSummary.id ∧
          id ∉ (partition tunnels label (addOn.isLocal isFile)).older.map TunnelSummary.id)
      (Only.forM fun t ht => (only_reconcileInspector addOn t).mono fun c hc => ⟨hc.1, fun id hid => by
        obtain ⟨hmem, hnot⟩ := List.mem_filter.mp ht
        rw [hc.2 id hid]
        exact ⟨List.mem_map_of_mem hmem, of_decide_eq_true hnot⟩⟩)
    have hall := (traces_stopOlder hstops).2 rfl
    have hstopped : stopped (before ++ after) = stopped before := by
      rw [stopped_append, stopped_eq_nil fun event hevent => (hafter event hevent).1,
        List.append_nil]
    refine ⟨?_, fun _ => ?_, ?_⟩
    · rw [hstopped, hall]
    · rw [hstopped, hall]
    · intro event hevent id hid
      rcases List.mem_append.mp hevent with hevent | hevent
      · rw [hquiet hstops event hevent] at hid
        cases hid
      · exact (hafter event hevent).2 id hid

theorem reconciled {addOn : AddOn} {label : String} (hlabel : addOn.exclusiveLabel = some label)
    {log : List Event} {result : Option Unit} (h : Traces Genuine addOn.reconcile log result) :
    addOn.Reconciled label log result := by
  rcases h with ⟨rfl, rfl⟩ | ⟨reply, rest, hgenuine, rfl, hrest⟩
  · exact Or.inl ⟨rfl, rfl⟩
  · refine Or.inr ?_
    cases reply with
    | error err =>
      obtain ⟨rfl, -⟩ := hrest
      exact Or.inl ⟨_, rfl, fun _ => ⟨err, rfl⟩⟩
    | ok tunnels =>
      change Traces Genuine (addOn.olderIds tunnels >>= fun older => _) rest result at hrest
      unfold AddOn.olderIds at hrest
      rw [hlabel] at hrest
      rcases hrest with ⟨rfl, rfl⟩ | ⟨isFile, rest, -, rfl, hrest⟩
      · exact Or.inl ⟨_, rfl, fun h => by cases h⟩
      · exact Or.inr ⟨tunnels, isFile, rest, rfl, keepsOff (nodup_of_genuine hgenuine) hrest⟩

/-- The command deletes no tunnel. -/
def Command.keeps : Command → Bool
  | .delete _ _ => false
  | _ => true

/-- The last command of these deletes the tunnel, if one does. -/
theorem eq_of_append_cons {log before after : List Event} {victim actor : String}
    {reply : Except Rejection TunnelDeleteOutcome} (hkeeps : ∀ event ∈ log, event.1.keeps = true)
    {last : Event} (h : log ++ [last] = before ++ ⟨.delete victim actor, reply⟩ :: after) :
    before = log ∧ last = ⟨.delete victim actor, reply⟩ := by
  rcases List.eq_nil_or_concat after with rfl | ⟨init, final, rfl⟩
  · obtain ⟨hlog, hlast⟩ := List.append_inj' h rfl
    exact ⟨hlog.symm, List.singleton_inj.mp hlast⟩
  · have hshape : before ++ ⟨.delete victim actor, reply⟩ :: (init ++ [final]) =
        (before ++ ⟨.delete victim actor, reply⟩ :: init) ++ [final] := by simp
    rw [List.concat_eq_append, hshape] at h
    obtain ⟨hlog, -⟩ := List.append_inj' h rfl
    have hkept := hkeeps ⟨.delete victim actor, reply⟩ (by rw [hlog]; simp)
    cases hkept

theorem removesOlder_of_keeps {addOn : AddOn} {id : String} {log : List Event}
    (h : ∀ event ∈ log, event.1.keeps = true) : addOn.RemovesOlder id log := by
  rintro before victim actor reply after rfl
  have hkept := h ⟨.delete victim actor, reply⟩ (by simp)
  cases hkept

theorem only_stopFirst (t : TunnelSummary) :
    Only (fun c : Command => c.keeps = true) (AddOn.stopFirst t) := by
  unfold AddOn.stopFirst
  refine Only.bind (Only.perform rfl) fun running => ?_
  cases running with
  | false => exact Only.ret ()
  | true => exact Only.bind (Only.perform rfl) fun _ => Only.ret ()

theorem removesOlder {addOn : AddOn} {id : String} {log : List Event}
    {result : Option (Except AddOn.RemoveError AddOn.RemoveOutcome)}
    (h : Traces Genuine (addOn.removeInner id) log result) : addOn.RemovesOlder id log := by
  unfold AddOn.removeInner at h
  cases hlabel : addOn.exclusiveLabel with
  | none =>
    rw [hlabel] at h
    obtain ⟨rfl, -⟩ := h
    exact removesOlder_of_keeps (by simp)
  | some label =>
    rw [hlabel] at h
    rcases h with ⟨rfl, -⟩ | ⟨tunnels, rest, hgenuine, rfl, h⟩
    · exact removesOlder_of_keeps (by simp)
    cases tunnels with
    | error err =>
      obtain ⟨rfl, -⟩ := h
      exact removesOlder_of_keeps (by simp [Command.keeps])
    | ok tunnels =>
      change Traces Genuine (addOn.split tunnels >>= fun both => _) rest result at h
      unfold AddOn.split at h
      rw [hlabel] at h
      rcases h with ⟨rfl, -⟩ | ⟨isFile, rest, -, rfl, h⟩
      · exact removesOlder_of_keeps (by simp [Command.keeps])
      change Traces Genuine (match AddOn.removable _ id with | none => _ | some t => _) rest result
        at h
      cases hfound : AddOn.removable (addOn.partition tunnels label isFile).older id with
      | none =>
        rw [hfound] at h
        obtain ⟨rfl, -⟩ := h
        exact removesOlder_of_keeps (by simp [Command.keeps])
      | some t =>
        rw [hfound] at h
        have hid : t.id = id := of_decide_eq_true
          (List.find?_some (p := fun t : TunnelSummary => decide (t.id = id)) hfound)
        have holder := List.mem_of_find?_eq_some hfound
        rcases h.bind with ⟨hstop, -⟩ | ⟨_, before, after, rfl, hstop, hrest⟩
        · apply removesOlder_of_keeps
          simpa [Command.keeps] using hstop.of_only (only_stopFirst t)
        · have hkeeps := hstop.of_only (only_stopFirst t)
          rcases hrest with ⟨rfl, -⟩ | ⟨outcome, last, -, rfl, hlast⟩
          · apply removesOlder_of_keeps
            simpa [Command.keeps] using hkeeps
          · have hlast : last = [] := by
              cases outcome <;> exact hlast.1
            intro front victim actor reply back hsplit
            rw [hlast, ← List.cons_append, ← List.cons_append] at hsplit
            obtain ⟨rfl, hevent⟩ := eq_of_append_cons (by simpa [Command.keeps] using hkeeps) hsplit
            obtain ⟨rfl, rfl⟩ : t.id = victim ∧ "addon-page" = actor := by
              injection hevent with hcommand
              injection hcommand with hvictim hactor
              exact ⟨hvictim, hactor⟩
            refine ⟨hid, label, tunnels, isFile, before, hlabel, rfl, ⟨t, holder, hid⟩, ?_, ?_⟩
            · intro active hactive
              rw [← hid]
              exact active_not_older (nodup_of_genuine hgenuine) hactive holder
            · have hlocal := partition_eq tunnels label (addOn.isLocal isFile)
              rw [← hid]
              rw [AddOn.partition, hlocal] at holder
              exact (List.mem_filter.mp holder).2

/-- The label's first tunnel is the add-on's: the split is by it and by the files there are of each
id, the older ones stay off when the daemon starts, and only they are removed. -/
theorem one_tunnel :
    (∀ (tunnels : List TunnelSummary) (label : String) (isLocal : String → Bool),
      (partition tunnels label isLocal).active = tunnels.find? (fun t => t.label = label) ∧
      (partition tunnels label isLocal).older =
        (tunnels.eraseP fun t => t.label = label).filter fun t => isLocal t.id) ∧
    (∀ (isFile : Path → Bool) (connectDir : Path) (project id : String),
      isLocallyKnown isFile connectDir project id = true ↔ isPathId id = true ∧
        (isFile { connectDir with
            names := connectDir.names ++ ["daemon_inspector_targets", id ++ ".txt"] } = true ∨
          isFile { connectDir.join project with
            names := (connectDir.join project).names ++ [id, "listen_key"] } = true)) ∧
    (∀ (addOn : AddOn) (label : String), addOn.exclusiveLabel = some label → ∀ log result,
      Traces Genuine addOn.reconcile log result → addOn.Reconciled label log result) ∧
    ∀ (addOn : AddOn) (id : String) (log : List Event)
      (result : Option (Except AddOn.RemoveError AddOn.RemoveOutcome)),
      Traces Genuine (addOn.removeInner id) log result → addOn.RemovesOlder id log := by
  refine ⟨fun tunnels label isLocal => ?_, isLocallyKnown_iff, fun addOn label hlabel log result h => ?_,
    fun addOn id log result h => ?_⟩
  · rw [partition_eq]
    exact ⟨rfl, rfl⟩
  · exact reconciled hlabel h
  · exact removesOlder h

def plainAddOn : AddOn where
  app := plainApp
  connectDir := Path.ofString "/data"
  exclusiveLabel := some "home-assistant"

def listedSpec (label : String) : Cloud.ProxySpec where
  label := some label
  hostnames := none
  rules := Cloud.desiredProxyRules "http://h:1" "conn-a" none

/-- The add-on's tunnel was renamed once, and its older one is still on. -/
def renamedTunnel : Cloud.Cluster :=
  let advertised := Cloud.advertisementSpec "conn-a" { address := "h", port := 1 }
  let s := (Cloud.Cluster.empty.create .httpProxy "tunnel-a" (listedSpec "home-assistant")).1
  let s := (s.create .httpProxy "tunnel-b" (listedSpec "old")).1
  let s := (s.create .connectorAdvertisement "tunnel-a" advertised).1
  (s.create .connectorAdvertisement "tunnel-b" advertised).1

/-- A tunnel of that list. -/
def renamedSummary (id label : String) : TunnelSummary where
  id
  label
  endpoint := "http://h:1"
  hostnames := []
  enabled := true
  accepted := false
  programmed := false
  connectorMetadataProgrammed := true
  connectorReady := false
  connectorName := some "conn-a"
  connectorDevice := none
  createdAt := none


def olderTunnel : TunnelSummary := renamedSummary "tunnel-b" "old"

def bothTunnels : List TunnelSummary := [renamedSummary "tunnel-a" "home-assistant", olderTunnel]

/-- The older one is stopped, and the active one gets its inspector and is started. -/
def startedUp : List Event :=
  [⟨.listActive, .ok bothTunnels⟩, ⟨.isFile, fun _ => true⟩,
    ⟨.stop "tunnel-b" .manual "system", .ok olderTunnel⟩,
    ⟨.loadInspectorTarget "tunnel-a", some "h:1"⟩,
    ⟨.spawnInspector "tunnel-a" { normalized := "http://h:1" }, .ok "http://h:1"⟩,
    ⟨.installInspector "tunnel-a" { normalized := "http://h:1" } "http://h:1", ()⟩,
    ⟨.start "tunnel-a" "system", .ok (renamedSummary "tunnel-a" "home-assistant")⟩]

/-- The older one was started by hand, and is removed. -/
def olderRemoved : List Event :=
  [⟨.listActive, .ok bothTunnels⟩, ⟨.isFile, fun _ => true⟩, ⟨.runningContains "tunnel-b", true⟩,
    ⟨.stop "tunnel-b" .manual "addon-page", .ok olderTunnel⟩,
    ⟨.delete "tunnel-b" "addon-page", .ok {
      projectId := "p"
      httpProxy := some "tunnel-b"
      connectorAd := some "tunnel-b"
      trafficProtectionPolicy := none
      connector := none
      wafPolicy := none
      timeoutPolicy := none }⟩]

theorem genuine_bothTunnels : Genuine .listActive (.ok bothTunnels) :=
  ⟨renamedTunnel, List.replicate 5 {}, rfl⟩

theorem one_tunnel_renamed :
    stopped startedUp = ["tunnel-b"] ∧
      plainAddOn.Reconciled "home-assistant" startedUp (some ()) ∧
      plainAddOn.RemovesOlder "tunnel-b" olderRemoved := by
  refine ⟨rfl, one_tunnel.2.2.1 plainAddOn "home-assistant" rfl _ _ ?_,
    one_tunnel.2.2.2 plainAddOn "tunnel-b" _ (some (.ok { id := "tunnel-b", label := "old" })) ?_⟩
  · refine Or.inr ⟨_, _, genuine_bothTunnels, rfl, Or.inr ⟨_, _, trivial, rfl, ?_⟩⟩
    refine Or.inr ⟨_, _, trivial, rfl, Or.inr ⟨_, _, trivial, rfl, ?_⟩⟩
    refine Or.inr ⟨_, _, trivial, rfl, Or.inr ⟨_, _, trivial, rfl, ?_⟩⟩
    exact Or.inr ⟨_, _, trivial, rfl, rfl, rfl⟩
  · refine Or.inr ⟨_, _, genuine_bothTunnels, rfl, Or.inr ⟨_, _, trivial, rfl, ?_⟩⟩
    refine Or.inr ⟨_, _, trivial, rfl, Or.inr ⟨_, _, trivial, rfl, ?_⟩⟩
    exact Or.inr ⟨_, _, trivial, rfl, rfl, rfl⟩

end DatumConnect.Daemon
