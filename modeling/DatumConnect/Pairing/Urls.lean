import DatumConnect.Lib.Traces
import DatumConnect.Lib.UrlPath
import DatumConnect.Pairing.Parts
import DatumConnect.Pairing.ProjectIds
/-!
# The addresses of the requests

Names that replies and files bring stand between the slashes of a request's path.  A user id and an
organization have been checked for the characters a name can have, which two dots have, too; the id
of a listed project and the account of the record of an unfinished pairing have not.
-/

namespace DatumConnect.Pairing

open DatumConnect.Lib
open DatumConnect.Lib.Prog (Only OnlyWhen EndsWhen Traces)
open PairPart

/-! ## What a request is meant to ask for -/

namespace ApiRequest

def controlPlane (kind name : String) : List String :=
  ["apis", "resourcemanager.miloapis.com", "v1alpha1", kind, name, "control-plane", "apis"]

/-- The segments of a path, each name as one. -/
def segments : ApiRequest → List String
  | organizationMemberships sub =>
      ["apis", "iam.miloapis.com", "v1alpha1", "users", sub, "control-plane", "apis",
        "resourcemanager.miloapis.com", "v1alpha1", "organizationmemberships"]
  | projects org =>
      controlPlane "organizations" org ++ ["resourcemanager.miloapis.com", "v1alpha1", "projects"]
  | getServiceAccount project name =>
      controlPlane "projects" project ++ ["iam.miloapis.com", "v1alpha1", "serviceaccounts", name]
  | createServiceAccount project _ _ =>
      controlPlane "projects" project ++ ["iam.miloapis.com", "v1alpha1", "serviceaccounts"]
  | createPolicyBinding project _ =>
      controlPlane "organizations" project.org ++ ["iam.miloapis.com", "v1alpha1", "namespaces",
        bindingNamespace project, "policybindings"]
  | getPolicyBinding project sa =>
      controlPlane "organizations" project.org ++ ["iam.miloapis.com", "v1alpha1", "namespaces",
        bindingNamespace project, "policybindings", bindingName project sa]
  | createServiceAccountKey project _ _ _ =>
      controlPlane "projects" project ++ ["identity.miloapis.com", "v1alpha1", "serviceaccountkeys"]

/-- Wherever the API is, the address is read as the path has been put together, and no name in it is
empty. -/
def ReadAsMeant (request : ApiRequest) : Prop :=
  (∀ done, UrlPath.read done request.path.toList =
      done ++ request.segments.map String.toList) ∧ "" ∉ request.segments

end ApiRequest

def Undotted (s : String) : Prop := s ≠ "." ∧ s ≠ ".."

instance (s : String) : Decidable (Undotted s) := inferInstanceAs (Decidable (_ ∧ _))

/-- One segment of an address. -/
def OneSegment (s : String) : Prop := UrlPath.isSegment s.toList = true

/-- One segment at the end of an address. -/
def LastSegment (s : String) : Prop :=
  OneSegment s ∧ ∃ c, s.toList.getLast? = some c ∧ UrlPath.isEdge c = false

/-- What has to hold of the names. -/
def ApiRequest.Harmless : ApiRequest → Prop
  | organizationMemberships sub => Undotted sub
  | projects org => Undotted org
  | getServiceAccount project name => OneSegment project ∧ LastSegment name
  | createServiceAccount project _ _ => OneSegment project
  | createPolicyBinding project _ => Undotted project.org
  | getPolicyBinding project sa => Undotted project.org ∧ LastSegment (bindingName project sa)
  | createServiceAccountKey project _ _ _ => OneSegment project

/-! ## Names -/

/-- What `check_name` lets pass. -/
def Checked (name : String) : Prop :=
  name ≠ "" ∧ ∀ c ∈ name.toList, c.isAlphanum = true ∨ c = '-' ∨ c = '.' ∨ c = '_'

theorem checked_of_isOk {what name : String} (h : (checkName what name).isOk = true) :
    Checked name := by
  unfold checkName at h
  split at h
  · rename_i hname
    refine ⟨hname.1, fun c hc => ?_⟩
    simpa [or_assoc] using List.all_eq_true.mp hname.2.2 c hc
  · cases h

theorem checked_of_ok {what name : String} {u : Unit} (h : checkName what name = .ok u) :
    Checked name := by
  apply @checked_of_isOk what
  rw [h]
  rfl

theorem toLower_eq {c d : Char} (hd : d.toNat < 97) (h : c.toLower = d) : c = d := by
  rcases toLower_eq_or c with heq | ⟨hlow, -, hlower⟩
  · rw [← heq]
    exact h
  · rw [h] at hlower
    omega

theorem Checked.isSegment {name : String} (h : Checked name) :
    ∀ c ∈ name.toList, UrlPath.isDropped c = false ∧ UrlPath.endsPath c = false ∧
      UrlPath.isSeparator c = false := by
  intro c hc
  have hne : c ≠ '\t' ∧ c ≠ '\n' ∧ c ≠ '\r' ∧ c ≠ '?' ∧ c ≠ '#' ∧ c ≠ '/' ∧ c ≠ '\\' := by
    refine ⟨?_, ?_, ?_, ?_, ?_, ?_, ?_⟩ <;> rintro rfl <;> exact absurd (h.2 _ hc) (by decide)
  simp only [UrlPath.isDropped, UrlPath.endsPath, UrlPath.isSeparator, Bool.or_eq_false_iff,
    decide_eq_false_iff_not]
  exact ⟨⟨⟨hne.1, hne.2.1⟩, hne.2.2.1⟩, ⟨hne.2.2.2.1, hne.2.2.2.2.1⟩, hne.2.2.2.2.2⟩

/-- A name of these characters is spelled as a dot segment only if it is one. -/
theorem Checked.oneSegment_iff {name : String} (h : Checked name) :
    OneSegment name ↔ Undotted name := by
  have hpercent : '%' ∉ name.toList.map Char.toLower := by
    intro hmem
    obtain ⟨c, hc, hlower⟩ := List.mem_map.mp hmem
    have heq := toLower_eq (by decide) hlower
    rw [heq] at hc
    exact absurd (h.2 _ hc) (by decide)
  have hdots : ∀ n, name.toList.map Char.toLower = List.replicate n '.' ↔
      name.toList = List.replicate n '.' := by
    intro n
    rw [List.eq_replicate_iff, List.eq_replicate_iff, List.length_map, List.forall_mem_map]
    refine and_congr_right fun _ => forall₂_congr fun c _ => ⟨toLower_eq (by decide), ?_⟩
    rintro rfl
    rfl
  have hone : UrlPath.isSingleDot name.toList = true ↔ name = "." := by
    unfold UrlPath.isSingleDot UrlPath.singleDots
    simp only [List.map_cons, List.map_nil, List.contains_cons, List.contains_nil, Bool.or_false,
      Bool.or_eq_true, beq_iff_eq]
    rw [← String.toList_inj]
    constructor
    · rintro (heq | heq)
      · exact (hdots 1).mp heq
      · rw [heq] at hpercent
        exact absurd (by decide) hpercent
    · intro heq
      exact Or.inl ((hdots 1).mpr heq)
  have htwo : UrlPath.isDoubleDot name.toList = true ↔ name = ".." := by
    unfold UrlPath.isDoubleDot UrlPath.doubleDots
    simp only [List.map_cons, List.map_nil, List.contains_cons, List.contains_nil, Bool.or_false,
      Bool.or_eq_true, beq_iff_eq]
    rw [← String.toList_inj]
    constructor
    · rintro (heq | heq | heq | heq)
      · exact (hdots 2).mp heq
      all_goals
        rw [heq] at hpercent
        exact absurd (by decide) hpercent
    · intro heq
      exact Or.inl ((hdots 2).mpr heq)
  unfold OneSegment Undotted
  rw [UrlPath.isSegment_iff, ← Bool.not_eq_true, ← Bool.not_eq_true, hone, htwo]
  exact and_iff_right h.isSegment

/-- What has a dash in it is no dot segment. -/
theorem oneSegment_of_dash {s : List Char} (hdash : '-' ∈ s)
    (h : ∀ c ∈ s, UrlPath.isDropped c = false ∧ UrlPath.endsPath c = false ∧
      UrlPath.isSeparator c = false) : UrlPath.isSegment s = true := by
  have hlower : '-' ∈ s.map Char.toLower := List.mem_map.mpr ⟨'-', hdash, rfl⟩
  rw [UrlPath.isSegment_iff]
  refine ⟨h, ?_, ?_⟩
  · rw [Bool.eq_false_iff]
    intro hdot
    have hmem := List.contains_iff_mem.mp hdot
    have hall : ∀ dots ∈ UrlPath.singleDots, '-' ∉ dots := by decide
    exact hall _ hmem hlower
  · rw [Bool.eq_false_iff]
    intro hdot
    have hmem := List.contains_iff_mem.mp hdot
    have hall : ∀ dots ∈ UrlPath.doubleDots, '-' ∉ dots := by decide
    exact hall _ hmem hlower

/-! ## Requests -/

namespace ApiRequest

/-- What the code has seen to of the names of a request. -/
def Seen : ApiRequest → Prop
  | organizationMemberships sub => Checked sub
  | projects org => Checked org
  | getServiceAccount project _ => project ≠ ""
  | createServiceAccount project _ _ => project ≠ ""
  | createPolicyBinding project _ => Checked project.org
  | getPolicyBinding project _ => Checked project.org
  | createServiceAccountKey project _ _ _ => project ≠ ""

theorem path_eq (request : ApiRequest) :
    request.path.toList = UrlPath.join (request.segments.map String.toList) := by
  cases request <;>
  · simp only [path, userCp, orgCp, projectCp, serviceAccountsPath, policyBindingsPath, segments,
      controlPlane, iam, resourceManager, identity, toString, String.toList_append,
      List.append_assoc, List.map_cons, List.map_nil, List.map_append, UrlPath.join_append,
      UrlPath.join_cons, UrlPath.join_nil, List.append_nil, List.cons_append]
    rfl

theorem readAsMeant_iff {request : ApiRequest} :
    request.ReadAsMeant ↔ (∀ s ∈ request.segments, OneSegment s) ∧
      (∀ c ∈ request.path.toList.getLast?, UrlPath.isEdge c = false) ∧ "" ∉ request.segments := by
  unfold ReadAsMeant
  rw [path_eq]
  constructor
  · rintro ⟨hread, hne⟩
    have hfirst := hread []
    rw [List.nil_append] at hfirst
    refine ⟨fun s hs => ?_, UrlPath.not_edge_of_read hfirst, hne⟩
    apply @UrlPath.isSegment_of_mem_read (UrlPath.join (request.segments.map String.toList))
    rw [hfirst]
    exact List.mem_map_of_mem hs
  · rintro ⟨hsegments, hend, hne⟩
    exact ⟨UrlPath.read_join (List.forall_mem_map.mpr hsegments) hend, hne⟩

theorem edge_iff {request : ApiRequest} {last : String}
    (hlast : request.segments.getLast? = some last) (hne : last ≠ "") :
    (∀ c ∈ request.path.toList.getLast?, UrlPath.isEdge c = false) ↔
      ∀ c ∈ last.toList.getLast?, UrlPath.isEdge c = false := by
  obtain ⟨init, hinit⟩ := List.getLast?_eq_some_iff.mp hlast
  rw [path_eq, hinit, List.map_append, List.map_singleton, UrlPath.getLast?_join]
  intro hnil
  exact hne (String.toList_eq_nil_iff.mp hnil)

end ApiRequest

theorem lastSegment_iff {s : String} (hne : s ≠ "") :
    LastSegment s ↔ OneSegment s ∧ ∀ c ∈ s.toList.getLast?, UrlPath.isEdge c = false := by
  unfold LastSegment
  refine and_congr_right fun _ => ?_
  have hnil : s.toList ≠ [] := fun hnil => hne (String.toList_eq_nil_iff.mp hnil)
  rw [List.getLast?_eq_some_getLast hnil]
  generalize s.toList.getLast hnil = c
  constructor
  · rintro ⟨d, hd, hedge⟩ e he
    rw [← Option.some.inj hd] at hedge
    rw [← Option.some.inj he]
    exact hedge
  · intro h
    exact ⟨c, rfl, h c rfl⟩

theorem LastSegment.ne_empty {s : String} (h : LastSegment s) : s ≠ "" := by
  obtain ⟨-, c, hc, -⟩ := h
  rintro rfl
  cases hc

theorem plain_of_all {s : List Char}
    (h : (s.all fun c => !UrlPath.isDropped c && !UrlPath.endsPath c && !UrlPath.isSeparator c) =
      true) :
    ∀ c ∈ s, UrlPath.isDropped c = false ∧ UrlPath.endsPath c = false ∧
      UrlPath.isSeparator c = false := by
  intro c hc
  have hchar := List.all_eq_true.mp h c hc
  simpa only [Bool.and_eq_true, Bool.not_eq_true', and_assoc] using hchar

theorem oneSegment_namespace {project : ProjectRef} (h : Checked project.org) :
    OneSegment (ApiRequest.bindingNamespace project) := by
  have hlist : (ApiRequest.bindingNamespace project).toList =
      "organization-".toList ++ project.org.toList := String.toList_append
  unfold OneSegment
  rw [hlist]
  refine oneSegment_of_dash (List.mem_append_left _ (by decide)) fun c hc => ?_
  rcases List.mem_append.mp hc with hc | hc
  · exact plain_of_all (by decide) c hc
  · exact h.isSegment c hc

theorem namespace_ne_empty (project : ProjectRef) : ApiRequest.bindingNamespace project ≠ "" := by
  intro hempty
  have hlist : (ApiRequest.bindingNamespace project).toList =
      "organization-".toList ++ project.org.toList := String.toList_append
  rw [hempty] at hlist
  exact absurd (List.append_eq_nil_iff.mp hlist.symm).1 (by decide)

/-- A segment of a path that is no name. -/
def isFixed (s : String) : Bool :=
  ["apis", "iam.miloapis.com", "resourcemanager.miloapis.com", "identity.miloapis.com", "v1alpha1",
    "users", "organizations", "projects", "control-plane", "organizationmemberships",
    "serviceaccounts", "namespaces", "policybindings", "serviceaccountkeys"].contains s

theorem oneSegment_of_isFixed {s : String} (h : isFixed s = true) :
    OneSegment s ∧ s ≠ "" ∧ ∀ c ∈ s.toList.getLast?, UrlPath.isEdge c = false := by
  have hall : (["apis", "iam.miloapis.com", "resourcemanager.miloapis.com",
      "identity.miloapis.com", "v1alpha1", "users", "organizations", "projects", "control-plane",
      "organizationmemberships", "serviceaccounts", "namespaces", "policybindings",
      "serviceaccountkeys"].all fun s => UrlPath.isSegment s.toList && !s.isEmpty &&
        s.toList.getLast?.all fun c => !UrlPath.isEdge c) = true := by
    decide +kernel
  have hs := List.all_eq_true.mp hall s (List.contains_iff_mem.mp h)
  simp only [Bool.and_eq_true, Bool.not_eq_true', Option.all_eq_true] at hs
  refine ⟨hs.1.1, ?_, fun c hc => hs.2 c hc⟩
  rintro rfl
  exact absurd hs.1.2 (by decide)

/-- Only the names of a request matter, and how the last one ends. -/
theorem ApiRequest.readAsMeant_iff_names {request : ApiRequest} {init names : List String} {last : String}
    (hsegments : request.segments = init ++ [last])
    (hnames : ∀ s ∈ init ++ [last], isFixed s = true ∨ s ∈ names)
    (hsub : ∀ s ∈ names, s ∈ init ++ [last]) :
    request.ReadAsMeant ↔ (∀ s ∈ names, OneSegment s ∧ s ≠ "") ∧
      ∀ c ∈ last.toList.getLast?, UrlPath.isEdge c = false := by
  rw [readAsMeant_iff, hsegments]
  constructor
  · rintro ⟨hone, hend, hne⟩
    refine ⟨fun s hs => ⟨hone s (hsub s hs), ?_⟩, ?_⟩
    · rintro rfl
      exact hne (hsub "" hs)
    · refine (edge_iff ?_ ?_).mp hend
      · rw [hsegments]
        exact List.getLast?_concat
      · rintro rfl
        exact hne (List.mem_append_right _ List.mem_cons_self)
  · rintro ⟨hone, hend⟩
    have hall : ∀ s ∈ init ++ [last], OneSegment s ∧ s ≠ "" := by
      intro s hs
      rcases hnames s hs with hfixed | hname
      · exact ⟨(oneSegment_of_isFixed hfixed).1, (oneSegment_of_isFixed hfixed).2.1⟩
      · exact hone s hname
    refine ⟨fun s hs => (hall s hs).1, ?_, fun hempty => (hall "" hempty).2 rfl⟩
    refine (edge_iff ?_ (hall last (List.mem_append_right _ List.mem_cons_self)).2).mpr hend
    rw [hsegments]
    exact List.getLast?_concat

/-- The address of a request is read as it is meant if the names in it that have not been checked
are segments, and those that have are no dot segments. -/
theorem ApiRequest.readAsMeant_iff_harmless {request : ApiRequest} (h : request.Seen) :
    request.ReadAsMeant ↔ request.Harmless := by
  have hend : ∀ {s : String}, isFixed s = true →
      ((∀ c ∈ s.toList.getLast?, UrlPath.isEdge c = false) ↔ True) := fun hs =>
    iff_true_intro (oneSegment_of_isFixed hs).2.2
  cases request with
  | organizationMemberships sub =>
    rw [@readAsMeant_iff_names _ ["apis", "iam.miloapis.com", "v1alpha1", "users", sub,
      "control-plane", "apis", "resourcemanager.miloapis.com", "v1alpha1"] [sub]
      "organizationmemberships" rfl (by simp [isFixed]) (by simp), hend (by decide)]
    have hsub : Checked sub := h
    simp only [List.forall_mem_singleton, hsub.oneSegment_iff, and_true]
    exact and_iff_left hsub.1
  | projects org =>
    rw [@readAsMeant_iff_names _ (controlPlane "organizations" org ++
      ["resourcemanager.miloapis.com", "v1alpha1"]) [org] "projects" rfl
      (by simp [controlPlane, isFixed]) (by simp [controlPlane]), hend (by decide)]
    have horg : Checked org := h
    simp only [List.forall_mem_singleton, horg.oneSegment_iff, and_true]
    exact and_iff_left horg.1
  | getServiceAccount project name =>
    rw [@readAsMeant_iff_names _ (controlPlane "projects" project ++
      ["iam.miloapis.com", "v1alpha1", "serviceaccounts"]) [project, name] name rfl
      (by simp [controlPlane, isFixed]) (by simp [controlPlane])]
    simp only [List.forall_mem_cons, List.not_mem_nil, false_imp_iff, implies_true, and_true]
    constructor
    · rintro ⟨⟨hproject, hname⟩, hlast⟩
      exact ⟨hproject.1, (lastSegment_iff hname.2).mpr ⟨hname.1, hlast⟩⟩
    · rintro ⟨hproject, hname⟩
      have hlast := (lastSegment_iff hname.ne_empty).mp hname
      exact ⟨⟨⟨hproject, h⟩, hlast.1, hname.ne_empty⟩, hlast.2⟩
  | createServiceAccount project name device =>
    rw [@readAsMeant_iff_names _ (controlPlane "projects" project ++
      ["iam.miloapis.com", "v1alpha1"]) [project] "serviceaccounts" rfl
      (by simp [controlPlane, isFixed]) (by simp [controlPlane]), hend (by decide)]
    simp only [List.forall_mem_singleton, and_true]
    exact and_iff_left h
  | createPolicyBinding project sa =>
    have horg : Checked project.org := h
    rw [@readAsMeant_iff_names _ (controlPlane "organizations" project.org ++
      ["iam.miloapis.com", "v1alpha1", "namespaces", bindingNamespace project])
      [project.org, bindingNamespace project] "policybindings" rfl
      (by simp [controlPlane, isFixed]) (by simp [controlPlane]), hend (by decide)]
    simp only [List.forall_mem_cons, List.not_mem_nil, false_imp_iff, implies_true, and_true,
      horg.oneSegment_iff]
    constructor
    · rintro ⟨⟨hdots, -⟩, -⟩
      exact hdots
    · intro hdots
      exact ⟨⟨hdots, horg.1⟩, oneSegment_namespace horg, namespace_ne_empty project⟩
  | getPolicyBinding project sa =>
    have horg : Checked project.org := h
    rw [@readAsMeant_iff_names _ (controlPlane "organizations" project.org ++
      ["iam.miloapis.com", "v1alpha1", "namespaces", bindingNamespace project, "policybindings"])
      [project.org, bindingNamespace project, bindingName project sa] (bindingName project sa) rfl
      (by simp [controlPlane, isFixed]) (by simp [controlPlane])]
    simp only [List.forall_mem_cons, List.not_mem_nil, false_imp_iff, implies_true, and_true,
      horg.oneSegment_iff]
    constructor
    · rintro ⟨⟨⟨hdots, -⟩, -, hname⟩, hlast⟩
      exact ⟨hdots, (lastSegment_iff hname.2).mpr ⟨hname.1, hlast⟩⟩
    · rintro ⟨hdots, hname⟩
      have hlast := (lastSegment_iff hname.ne_empty).mp hname
      exact ⟨⟨⟨hdots, horg.1⟩, ⟨oneSegment_namespace horg, namespace_ne_empty project⟩, hlast.1,
        hname.ne_empty⟩, hlast.2⟩
  | createServiceAccountKey project name sa expires =>
    rw [@readAsMeant_iff_names _ (controlPlane "projects" project ++
      ["identity.miloapis.com", "v1alpha1"]) [project] "serviceaccountkeys" rfl
      (by simp [controlPlane, isFixed]) (by simp [controlPlane]), hend (by decide)]
    simp only [List.forall_mem_singleton, and_true]
    exact and_iff_left h

/-! ## Where the names come from -/

/-- `CHARS` -/
def IsSuffix (s : String) : Prop := ∀ c ∈ s.toList, c.isLower = true ∨ c.isDigit = true

/-- What there is to say of the names that replies and files bring. -/
structure Origins where
  user : String → Prop
  organization : String → Prop
  project : String → Prop
  account : String → Prop
  made : ∀ suffix, IsSuffix suffix → account ("home-assistant-" ++ suffix)

namespace Origins

variable (o : Origins)

/-- The replies that bring names, and the project that is selected. -/
def Offers : (c : PairCall) → c.Reply → Prop
  | .pollToken _, .token t => ∀ claims, t.idClaims = some claims → o.user claims.sub
  | .userinfo _, .claims claims => o.user claims.sub
  | .api _ (.organizationMemberships _), .reply r => ∀ org ∈ organizationsOf r, o.organization org
  | .event (.projectSelected project organization), _ =>
      o.project project ∧ o.organization organization
  | .readPending, some pending => o.account pending.serviceAccount
  | .randomSuffix _, suffix => IsSuffix suffix
  | _, _ => True

def Carries : ApiRequest → Prop
  | .organizationMemberships sub => Checked sub ∧ o.user sub
  | .projects org => Checked org ∧ o.organization org
  | .getServiceAccount project name => project ≠ "" ∧ o.project project ∧ o.account name
  | .createServiceAccount project _ _ => project ≠ "" ∧ o.project project
  | .createPolicyBinding project _ => Checked project.org ∧ o.organization project.org
  | .getPolicyBinding project sa =>
      Checked project.org ∧ o.organization project.org ∧ o.project project.name ∧ o.account sa.name
  | .createServiceAccountKey project _ _ _ => project ≠ "" ∧ o.project project

def Sends : PairCall → Prop
  | .api _ request => o.Carries request
  | _ => True

variable {α β : Type}

/-- A part sends names of these origins only, and `good` holds of what it returns. -/
abbrev Part (good : α → Prop) (p : PairPart α) : Prop :=
  EndsWhen o.Offers o.Sends good (fun _ => True) p

variable {o}

/-- A part that sends nothing. -/
theorem Part.of_only {K : PairCall → Prop} {p : PairPart α} (h : Only K p.run)
    (hK : ∀ token request, ¬ K (.api token request)) : o.Part (fun _ => True) p := by
  refine EndsWhen.of_only (h.mono fun c hc => ?_)
  cases c with
  | api token request => exact absurd hc (hK token request)
  | _ => exact trivial

theorem Part.login {p : PairPart α} (h : Only (fun c => c.isLogin = true) p.run) :
    o.Part (fun _ => True) p :=
  Part.of_only h fun _ _ => Bool.false_ne_true

theorem Part.keeping {p : PairPart α} (h : Only (fun c => c.isKeeping = true) p.run) :
    o.Part (fun _ => True) p :=
  Part.of_only h fun _ _ => Bool.false_ne_true

theorem Part.callThen {api : Api} {what : String} {request : ApiRequest} {f : ApiReply → PairPart β}
    {good : β → Prop} (h : o.Carries request)
    (hf : ∀ reply, o.Offers (.api api.token request) (.reply reply) → o.Part good (f reply)) :
    o.Part good (api.call what request >>= f) := by
  refine ⟨h, fun sent hsent => ?_⟩
  change OnlyWhen _ _ _ (ExceptT.bindCont f (api.received what sent))
  cases hreceived : api.received what sent with
  | error e => exact trivial
  | ok reply =>
    obtain ⟨rfl, -⟩ := api.received_eq_ok what hreceived
    exact hf reply hsent

/-! ## The login -/

/-- The user id has been checked. -/
def Signed (o : Origins) (login : Login) : Prop := Checked login.sub ∧ o.user login.sub

theorem identity_part {token : TokenSuccess}
    (h : ∀ claims, token.idClaims = some claims → o.user claims.sub) :
    o.Part (fun claims => o.user claims.sub) (identity token) := by
  unfold identity
  cases hclaims : token.idClaims with
  | some claims => exact h claims hclaims
  | none =>
    refine EndsWhen.liftThen trivial fun reply hreply => ?_
    cases reply with
    | unreachable e => exact trivial
    | refused status body => exact trivial
    | unexpected => exact trivial
    | claims claims => exact hreply

theorem approvedLogin_part (cfg : PairingConfig) {token : TokenSuccess}
    (h : ∀ claims, token.idClaims = some claims → o.user claims.sub) :
    o.Part o.Signed (approvedLogin cfg token) := by
  unfold approvedLogin
  refine EndsWhen.liftThen trivial fun received _ => EndsWhen.bind ?_
  refine (identity_part h).weaken fun claims hclaims => ?_
  cases hname : checkName "user id" claims.sub with
  | error e => exact trivial
  | ok _ => exact ⟨checked_of_ok hname, hclaims⟩

/-- The login of a code that was approved. -/
def Approved (o : Origins) (outcome : CodeOutcome) : Prop :=
  ∀ login, outcome = .approved login → o.Signed login

theorem approved_expired : o.Approved .expired := nofun

theorem pollForApproval_part (cfg : PairingConfig) (auth : DeviceAuthorization)
    (expiresAt deadline rounds interval : Nat) :
    o.Part o.Approved (pollForApproval cfg auth expiresAt deadline rounds interval) := by
  induction rounds generalizing interval with
  | zero => exact trivial
  | succ rounds ih =>
    unfold pollForApproval
    refine EndsWhen.liftThen trivial fun _ _ => EndsWhen.liftThen trivial fun now _ => ?_
    split
    · exact approved_expired
    refine EndsWhen.liftThen trivial fun reply hreply => ?_
    cases reply with
    | unreachable => exact ih _
    | unread => exact ih _
    | serverError => exact ih _
    | unexpected => exact trivial
    | refused status body => exact trivial
    | token token =>
      refine EndsWhen.bind ((approvedLogin_part cfg hreply).weaken fun login hlogin => ?_)
      intro login' heq
      cases heq
      exact hlogin
    | error error description =>
      dsimp only
      split
      · exact ih _
      split
      · exact ih _
      split
      · exact approved_expired
      split <;> exact trivial

theorem tryCode_part (cfg : PairingConfig) (deadline rounds : Nat) :
    o.Part o.Approved (tryCode cfg deadline rounds) := by
  unfold tryCode
  refine EndsWhen.bind ((Part.login startDeviceAuthorization_only).weaken fun auth _ => ?_)
  refine EndsWhen.liftThen trivial fun _ _ => EndsWhen.liftThen trivial fun started _ => ?_
  exact pollForApproval_part cfg auth _ _ _ _

theorem codes_part (cfg : PairingConfig) (deadline rounds codesLeft : Nat) :
    o.Part o.Signed (codes cfg deadline rounds codesLeft) := by
  induction codesLeft with
  | zero => exact trivial
  | succ codesLeft ih =>
    unfold codes
    refine EndsWhen.liftThen trivial fun now _ => ?_
    split
    · exact trivial
    refine EndsWhen.bind ((tryCode_part cfg deadline rounds).weaken fun outcome houtcome => ?_)
    cases outcome with
    | approved login => exact houtcome login rfl
    | expired =>
      refine EndsWhen.liftThen trivial fun now _ => ?_
      split
      · exact trivial
      · exact EndsWhen.liftThen trivial fun _ _ => ih

theorem deviceLogin_part (cfg : PairingConfig) (rounds : Nat) :
    o.Part o.Signed (deviceLogin cfg rounds) :=
  EndsWhen.liftThen trivial fun _ _ => codes_part cfg _ rounds rounds

/-! ## The project -/

/-- A project has a name, and its organization has been checked. -/
def Listed (p : ProjectRef) : Prop := p.name ≠ "" ∧ Checked p.org

theorem listed_of_mem_projectsOf {org : String} (horg : Checked org) {reply : ApiReply}
    {p : ProjectRef} (h : p ∈ projectsOf org reply) : Listed p := by
  obtain ⟨item, -, hitem⟩ := List.mem_filterMap.mp h
  dsimp only at hitem
  split at hitem
  · cases hitem
  · rename_i hne
    obtain rfl := Option.some.inj hitem
    exact ⟨fun hname => hne (Or.inl hname), horg⟩

theorem listProjectsOf_part (api : Api) {orgs : List String}
    (h : ∀ org ∈ orgs, o.organization org) :
    o.Part (fun projects => ∀ p ∈ projects, Listed p) (listProjectsOf api orgs) := by
  induction orgs with
  | nil => exact List.forall_mem_nil _
  | cons org orgs ih =>
    have hrest := ih fun org' horg' => h org' (List.mem_cons_of_mem org horg')
    unfold listProjectsOf
    split
    · rename_i hok
      have hchecked := checked_of_isOk hok
      refine Part.callThen ⟨hchecked, h org List.mem_cons_self⟩ fun reply _ => ?_
      split
      · exact hrest
      split
      · exact trivial
      · refine EndsWhen.bind (hrest.weaken fun projects hprojects => ?_)
        intro p hp
        rcases List.mem_append.mp hp with hp | hp
        · exact listed_of_mem_projectsOf hchecked hp
        · exact hprojects p hp
    · exact hrest

theorem listProjects_part (api : Api) {sub : String} (h : Checked sub ∧ o.user sub) :
    o.Part (fun projects => ∀ p ∈ projects, Listed p) (listProjects api sub) := by
  unfold listProjects
  refine Part.callThen h fun reply hreply => ?_
  split
  · exact trivial
  · exact listProjectsOf_part api hreply

theorem mem_of_findProject {projects : List ProjectRef} {id : String} {p : ProjectRef}
    (h : findProject projects id = some p) : p ∈ projects := List.mem_of_find?_eq_some h

theorem mem_of_chooseProject {projects : List ProjectRef} {wanted : Option String} {p : ProjectRef}
    (h : chooseProject projects wanted = .ok p) : p ∈ projects := by
  unfold chooseProject at h
  dsimp only at h
  split at h
  · split at h
    · rename_i hfound
      rw [← Except.ok.inj h]
      exact mem_of_findProject hfound
    · split at h <;> cases h
  · rw [← Except.ok.inj h]
    exact List.mem_singleton_self _
  · cases h
  · cases h

theorem waitRounds_part {wait : ProjectWait} {projects : List ProjectRef}
    (deadline total rounds : Nat) (seen : Option String) :
    o.Part (fun p => p ∈ projects) (waitRounds wait projects deadline total rounds seen) := by
  induction rounds generalizing seen with
  | zero => exact trivial
  | succ rounds ih =>
    unfold waitRounds
    refine EndsWhen.liftThen trivial fun now _ => ?_
    split
    · exact trivial
    refine EndsWhen.liftThen trivial fun _ _ => EndsWhen.liftThen trivial fun now _ => ?_
    split
    · exact ih _
    refine EndsWhen.liftThen trivial fun value _ => ?_
    cases value with
    | error e => exact ih _
    | ok value =>
      dsimp only
      split
      · exact ih _
      split
      · rename_i p hfound
        obtain ⟨id, -, hid⟩ := Option.bind_eq_some_iff.mp hfound
        exact mem_of_findProject hid
      · exact EndsWhen.liftThen trivial fun now _ => EndsWhen.liftThen trivial fun _ _ => ih _

theorem waitForProject_part (cfg : PairingConfig) (wait : ProjectWait) (projects : List ProjectRef)
    (configured : Option String) (tokenExpiresAt : Option Nat) (rounds : Nat) :
    o.Part (fun p => p ∈ projects)
      (waitForProject cfg wait projects configured tokenExpiresAt rounds) := by
  unfold waitForProject
  refine EndsWhen.liftThen trivial fun started _ => EndsWhen.liftThen trivial fun _ _ => ?_
  exact waitRounds_part _ _ _ _

theorem selectProject_part (cfg : PairingConfig) (api : Api) {login : Login}
    (wanted : Option String) {known : Option (List ProjectRef)} (rounds : Nat)
    (hlogin : known = none → o.Signed login)
    (hknown : ∀ projects, known = some projects → ∀ p ∈ projects, Listed p) :
    o.Part Listed (selectProject cfg api login wanted known rounds) := by
  have hlisted : o.Part (fun projects => ∀ p ∈ projects, Listed p)
      (knownOrListed api login known) := by
    cases known with
    | none => exact listProjects_part api (hlogin rfl)
    | some projects => exact hknown projects rfl
  unfold selectProject
  refine EndsWhen.bind (hlisted.weaken fun projects hprojects => ?_)
  have hwait (wait : ProjectWait) (configured : Option String) : o.Part Listed
      (waitForProject cfg wait projects configured login.expiresAt rounds) :=
    (waitForProject_part cfg wait projects configured login.expiresAt rounds).weaken hprojects
  have hkeep : o.Part (fun _ => True) (if known.isNone && cfg.sessionFile then
      saveSession cfg login projects else pure () : PairPart Unit) := by
    split
    · exact Part.keeping (saveSession_only cfg login projects)
    · exact trivial
  have hchoose : o.Part Listed (ExceptT.mk (pure (chooseProject projects wanted)) : PairPart _) :=
    EndsWhen.of_result (fun p hp => hprojects p (mem_of_chooseProject hp)) fun _ _ => trivial
  dsimp only
  split
  · split
    · exact EndsWhen.bind (hkeep.weaken fun _ _ => hwait _ _)
    · split
      · rename_i p hp
        exact hprojects p (mem_of_chooseProject hp)
      · exact EndsWhen.bind (hkeep.weaken fun _ _ => hwait _ _)
  · exact hchoose

/-! ## The service account -/

theorem getServiceAccount_part (api : Api) {project name : String}
    (h : o.Carries (.getServiceAccount project name)) :
    o.Part (fun found => ∀ sa, found = some sa → sa.name = name)
      (getServiceAccount api project name) := by
  unfold getServiceAccount
  refine Part.callThen h fun reply _ => ?_
  split
  · exact nofun
  split
  · exact trivial
  · intro sa hsa
    rw [← Option.some.inj hsa]
    rfl

theorem settleAccount_part (cfg : PairingConfig) (api : Api) {project name : String}
    (h : o.Carries (.getServiceAccount project name)) (createdUid : String) (ticksLeft : Nat) :
    o.Part (fun found => ∀ sa, found = some sa → sa.name = name)
      (settleAccount cfg api project name createdUid ticksLeft) := by
  induction ticksLeft with
  | zero => exact nofun
  | succ ticksLeft ih =>
    unfold settleAccount
    refine EndsWhen.bind ((getServiceAccount_part api h).weaken fun found hfound => ?_)
    split
    · rename_i sa hsa
      intro sa' hsa'
      rw [← Option.some.inj hsa']
      exact hfound sa (Option.filter_eq_some_iff.mp hsa).1
    · exact EndsWhen.liftThen trivial fun _ _ => ih

theorem createServiceAccountNamed_part (cfg : PairingConfig) (api : Api) {project : String}
    (h : project ≠ "" ∧ o.project project) (namesLeft : Nat) :
    o.Part (fun sa => o.account sa.name) (createServiceAccountNamed cfg api project namesLeft) := by
  induction namesLeft with
  | zero => exact trivial
  | succ namesLeft ih =>
    unfold createServiceAccountNamed
    refine EndsWhen.liftThen trivial fun suffix hsuffix => ?_
    have hname := o.made suffix hsuffix
    refine Part.callThen h fun reply _ => ?_
    split
    · exact ih
    split
    · exact trivial
    split
    · exact trivial
    · refine EndsWhen.bind ((settleAccount_part cfg api ⟨h.1, h.2, hname⟩ _ _).weaken fun found hfound => ?_)
      cases found with
      | none => exact trivial
      | some sa =>
        change o.account sa.name
        rw [hfound sa rfl]
        exact hname

theorem earlierAccount_part (api : Api) {project : String} (h : project ≠ "" ∧ o.project project) :
    o.Part (fun found => ∀ sa, found = some sa → o.account sa.1.name)
      (earlierAccount api project) := by
  unfold earlierAccount
  refine EndsWhen.liftThen trivial fun pending hpending => ?_
  split
  · exact nofun
  · rename_i p hp
    obtain ⟨hread, -⟩ := Option.filter_eq_some_iff.mp hp
    rw [hread] at hpending
    have hname : o.account p.serviceAccount := hpending
    refine EndsWhen.bind ((getServiceAccount_part api ⟨h.1, h.2, hname⟩).weaken fun found hfound => ?_)
    cases found with
    | none => exact nofun
    | some sa =>
      dsimp only
      split
      · refine EndsWhen.liftThen trivial fun _ _ => ?_
        intro sa' hsa'
        rw [← Option.some.inj hsa']
        change o.account sa.name
        rw [hfound sa rfl]
        exact hname
      · exact nofun

theorem ownAccount_part (cfg : PairingConfig) (api : Api) {project : String}
    (h : project ≠ "" ∧ o.project project) :
    o.Part (fun sa => o.account sa.1.name) (ownAccount cfg api project) := by
  unfold ownAccount
  refine EndsWhen.bind ((earlierAccount_part api h).weaken fun found hfound => ?_)
  cases found with
  | some sa => exact hfound sa rfl
  | none =>
    refine EndsWhen.bind ((createServiceAccountNamed_part cfg api h 3).weaken fun sa hsa => ?_)
    exact EndsWhen.liftThen trivial fun _ _ => hsa

/-! ## The binding and the key -/

theorem settleBinding_part (cfg : PairingConfig) (api : Api) {project : ProjectRef}
    {sa : ServiceAccountRef} (h : o.Carries (.getPolicyBinding project sa)) (what : String)
    (ticksLeft : Nat) (last : String) :
    o.Part (fun _ => True) (settleBinding cfg api project sa what ticksLeft last) := by
  induction ticksLeft generalizing last with
  | zero => exact trivial
  | succ ticksLeft ih =>
    unfold settleBinding
    refine Part.callThen h fun reply _ => ?_
    split
    · exact trivial
    split
    · exact trivial
    · exact EndsWhen.liftThen trivial fun _ _ => ih _

theorem grantAccess_part (cfg : PairingConfig) (api : Api) {project : ProjectRef}
    {sa : ServiceAccountRef} (h : o.Carries (.getPolicyBinding project sa)) :
    o.Part (fun _ => True) (grantAccess cfg api project sa) := by
  unfold grantAccess
  refine Part.callThen ⟨h.1, h.2.1⟩ fun reply _ => ?_
  split
  · exact settleBinding_part cfg api h _ _ _
  split <;> exact trivial

theorem createKeyNamed_part (lib : Libraries) (api : Api) {project : String}
    (h : project ≠ "" ∧ o.project project) (sa : ServiceAccountRef) (expires : String)
    (namesLeft : Nat) :
    o.Part (fun _ => True) (createKeyNamed lib api project sa expires namesLeft) := by
  induction namesLeft with
  | zero => exact trivial
  | succ namesLeft ih =>
    have hname : o.Part (fun _ => True) (keyName sa (2 - namesLeft)) := by
      unfold keyName
      split
      · exact trivial
      · exact EndsWhen.liftThen trivial fun _ _ => trivial
    unfold createKeyNamed
    refine EndsWhen.bind (hname.weaken fun name _ => ?_)
    refine Part.callThen h fun reply _ => ?_
    split
    · exact ih
    split
    · exact trivial
    split
    · exact trivial
    split <;> exact trivial

/-! ## All of it -/

theorem save_part (pending : Pending) : o.Part (fun _ => True) pending.save := by
  unfold Pending.save
  refine EndsWhen.liftThen trivial fun reply _ => ?_
  cases reply <;> exact trivial

theorem obtainAccess_part (cfg : PairingConfig) (api : Api) {project : ProjectRef}
    {sa : ServiceAccountRef} (h : o.Carries (.getPolicyBinding project sa)) (refusedBefore : Bool)
    (state : Pending) :
    o.Part (fun _ => True) (obtainAccess cfg api project sa refusedBefore state) := by
  apply EndsWhen.runThen
  refine (grantAccess_part cfg api h).mono (fun u _ => ?_) fun e _ => ?_
  · exact ⟨trivial, fun _ _ => trivial⟩
  · split
    · rename_i heq
      cases heq
    · split
      · exact ⟨trivial, fun _ _ => trivial⟩
      · exact EndsWhen.bind ((save_part _).weaken fun _ _ => trivial)
    · exact trivial

theorem saveKey_part (project : ProjectRef) (sa : ServiceAccountRef) (key : String) :
    o.Part (fun _ => True) (saveKey project sa key) := by
  unfold saveKey
  refine EndsWhen.liftThen trivial fun reply _ => ?_
  cases reply with
  | error e => exact trivial
  | ok u => exact EndsWhen.liftThen trivial fun _ _ => EndsWhen.liftThen trivial fun _ _ => trivial

theorem provisionIn_part (lib : Libraries) (cfg : PairingConfig) (api : Api) {project : ProjectRef}
    (h : Listed project) : o.Part (fun _ => True) (provisionIn lib cfg api project) := by
  unfold provisionIn
  refine EndsWhen.liftThen trivial fun _ hselected => ?_
  have hproject : project.name ≠ "" ∧ o.project project.name := ⟨h.1, hselected.1⟩
  refine EndsWhen.bind ((ownAccount_part cfg api hproject).weaken fun found hfound => ?_)
  refine EndsWhen.bind ((save_part _).weaken fun _ _ => ?_)
  refine EndsWhen.bind ((obtainAccess_part cfg api ⟨h.2, hselected.2, hproject.2, hfound⟩ _ _).weaken
    fun _ _ => ?_)
  have hkey : o.Part (fun _ => True) (createKey lib api project.name found.1) :=
    EndsWhen.liftThen trivial fun expires _ => createKeyNamed_part lib api hproject _ expires 3
  exact EndsWhen.bind (hkey.weaken fun key _ => saveKey_part project _ key)

theorem provision_part (lib : Libraries) (cfg : PairingConfig) (api : Api) {login : Login}
    (wanted : Option String) {known : Option (List ProjectRef)} (rounds : Nat)
    (hlogin : known = none → o.Signed login)
    (hknown : ∀ projects, known = some projects → ∀ p ∈ projects, Listed p) :
    o.Part (fun _ => True) (provision lib cfg api login wanted known rounds) :=
  EndsWhen.bind ((selectProject_part cfg api wanted rounds hlogin hknown).weaken fun _ h =>
    provisionIn_part lib cfg api h)

theorem pairAnew_part (lib : Libraries) (cfg : PairingConfig) (wanted : Option String)
    (rounds : Nat) : o.Part (fun _ => True) (pairAnew lib cfg wanted rounds) := by
  unfold pairAnew
  refine EndsWhen.bind ((deviceLogin_part cfg rounds).weaken fun login hlogin => ?_)
  refine EndsWhen.liftThen trivial fun _ _ => ?_
  exact provision_part lib cfg _ wanted rounds (fun _ => hlogin) nofun

theorem listed_of_load {file : SessionFile} {wall : Int} {now : Nat} {login : Login}
    {projects : List ProjectRef} (h : file.load wall now = .ready login projects) :
    ∀ p ∈ projects, Listed p := by
  unfold SessionFile.load at h
  cases hexpires : file.expiresAt with
  | none => simp [hexpires] at h
  | some expiresAt =>
    simp only [hexpires] at h
    split at h
    · simp at h
    split at h
    · simp at h
    split at h
    · simp at h
    split at h
    · simp at h
    · rename_i hbad
      simp only [SessionLoad.ready.injEq] at h
      obtain ⟨-, rfl⟩ := h
      rw [Bool.or_eq_true, not_or, List.any_eq_true, not_exists] at hbad
      intro p hp
      obtain ⟨q, hq, rfl⟩ := List.mem_map.mp hp
      have hgood : ¬ badProject q = true := fun h => hbad.2 q ⟨hq, h⟩
      simp only [badProject, Bool.or_eq_true, not_or, Bool.not_eq_true', Bool.not_eq_false] at hgood
      exact ⟨(checked_of_isOk hgood.1.1).1, checked_of_isOk hgood.1.2⟩

theorem loadSession_part :
    o.Part (fun load => ∀ login projects, load = .ready login projects → ∀ p ∈ projects, Listed p)
      loadSession := by
  unfold loadSession
  refine EndsWhen.liftThen trivial fun read _ => ?_
  cases read with
  | missing => exact nofun
  | unreadable => exact nofun
  | file file =>
    refine EndsWhen.liftThen trivial fun wall _ => EndsWhen.liftThen trivial fun now _ => ?_
    intro login projects h
    exact listed_of_load h

theorem dropSession_part (reason : String) : o.Part (fun _ => True) (dropSession reason) :=
  EndsWhen.liftThen trivial fun _ _ => ⟨trivial, fun _ _ => trivial⟩

theorem pairResumed_part (lib : Libraries) (cfg : PairingConfig) (wanted : Option String)
    (rounds : Nat) (login : Login) {projects : List ProjectRef} (h : ∀ p ∈ projects, Listed p) :
    o.Part (fun _ => True) (pairResumed lib cfg wanted rounds login projects) := by
  have hresumed : o.Part (fun _ => True) (do
      tell (.resumed (login.email.getD login.sub))
      provision lib cfg ⟨login.token, true⟩ login wanted (some projects) rounds) := by
    refine EndsWhen.liftThen trivial fun _ _ => ?_
    refine provision_part lib cfg _ wanted rounds nofun fun projects' heq => ?_
    obtain rfl := Option.some.inj heq
    exact h
  apply EndsWhen.runThen
  refine hresumed.mono (fun key _ => trivial) fun e _ => ?_
  split
  · exact EndsWhen.bind ((dropSession_part _).weaken fun _ _ => pairAnew_part lib cfg wanted rounds)
  · exact trivial

theorem pairInner_part (lib : Libraries) (cfg : PairingConfig) (rounds : Nat) :
    o.Part (fun _ => True) (pairInner lib cfg rounds) := by
  unfold pairInner
  refine EndsWhen.liftThen trivial fun there _ => ?_
  split
  · exact trivial
  have hwanted : o.Part (fun _ => True)
      (ExceptT.mk (pure (checkWanted cfg (cfg.project.bind normalizeProject))) : PairPart Unit) :=
    EndsWhen.of_result (fun _ _ => trivial) fun _ _ => trivial
  refine EndsWhen.bind (hwanted.weaken fun _ _ => ?_)
  split
  · refine EndsWhen.bind (loadSession_part.weaken fun load hload => ?_)
    cases load with
    | missing => exact pairAnew_part lib cfg _ rounds
    | unusable reason =>
      exact EndsWhen.bind ((dropSession_part reason).weaken fun _ _ => pairAnew_part lib cfg _ rounds)
    | ready login projects =>
      exact pairResumed_part lib cfg _ rounds login (hload login projects rfl)
  · exact pairAnew_part lib cfg _ rounds

theorem pair_sends (lib : Libraries) (cfg : PairingConfig) (rounds : Nat) :
    OnlyWhen o.Offers o.Sends (fun _ => True) (pair lib cfg rounds) := by
  apply OnlyWhen.bind
  apply OnlyWhen.mono (pairInner_part lib cfg rounds)
  intro r _
  split
  · exact ⟨trivial, fun _ _ => trivial⟩
  · exact trivial

/-! ## What the names have to be -/

/-- Names of any kind. -/
def any : Origins where
  user _ := True
  organization _ := True
  project _ := True
  account _ := True
  made _ _ := trivial

theorem lastSegment_made {suffix : String} (h : IsSuffix suffix) :
    LastSegment ("home-assistant-" ++ suffix) := by
  have hlist : ("home-assistant-" ++ suffix).toList =
      "home-assistant-".toList ++ suffix.toList := String.toList_append
  have hlower : ∀ c : Char, c.isLower = true ∨ c.isDigit = true →
      (UrlPath.isDropped c = false ∧ UrlPath.endsPath c = false ∧ UrlPath.isSeparator c = false) ∧
        UrlPath.isEdge c = false := by
    intro c hc
    have hlow : 48 ≤ c.toNat := by
      rcases hc with hc | hc
      · have hbounds : 97 ≤ c.val ∧ c.val ≤ 122 := by
          simpa only [Bool.and_eq_true, decide_eq_true_eq] using
            (show (decide (97 ≤ c.val) && decide (c.val ≤ 122)) = true from hc)
        exact Nat.le_trans (by decide) (UInt32.le_iff_toNat_le.mp hbounds.1)
      · exact (Text.isDigit_bounds hc).1
    have hne : c ≠ '\t' ∧ c ≠ '\n' ∧ c ≠ '\r' ∧ c ≠ '?' ∧ c ≠ '#' ∧ c ≠ '/' ∧ c ≠ '\\' := by
      refine ⟨?_, ?_, ?_, ?_, ?_, ?_, ?_⟩ <;> rintro rfl <;> exact absurd hc (by decide)
    simp only [UrlPath.isDropped, UrlPath.endsPath, UrlPath.isSeparator, UrlPath.isEdge,
      Bool.or_eq_false_iff, decide_eq_false_iff_not]
    exact ⟨⟨⟨⟨hne.1, hne.2.1⟩, hne.2.2.1⟩, ⟨hne.2.2.2.1, hne.2.2.2.2.1⟩, hne.2.2.2.2.2⟩, by omega⟩
  have hdash : '-' ∈ ("home-assistant-" ++ suffix).toList := by
    rw [hlist]
    exact List.mem_append_left _ (by decide)
  refine ⟨oneSegment_of_dash hdash ?_, ?_⟩
  · rw [hlist]
    exact List.forall_mem_append.mpr
      ⟨plain_of_all (by decide), fun c hc => (hlower c (h c hc)).1⟩
  · rw [hlist]
    rcases List.eq_nil_or_concat suffix.toList with hnil | ⟨init, c, hc⟩
    · rw [hnil]
      exact ⟨'-', by decide, by decide⟩
    · rw [List.concat_eq_append] at hc
      rw [hc, ← List.append_assoc, List.getLast?_concat]
      refine ⟨c, rfl, (hlower c (h c ?_)).2⟩
      rw [hc]
      exact List.mem_append_right _ List.mem_cons_self

/-- Names that do no harm, each where it comes from. -/
def plain : Origins where
  user := Undotted
  organization := Undotted
  project := OneSegment
  account := LastSegment
  made _ := lastSegment_made

theorem Carries.seen {request : ApiRequest} (h : o.Carries request) : request.Seen := by
  cases request <;> exact h.1

theorem lastSegment_bindingName {project : ProjectRef} {sa : ServiceAccountRef}
    (hproject : OneSegment project.name) (hsa : LastSegment sa.name) :
    LastSegment (ApiRequest.bindingName project sa) := by
  have hlist : (ApiRequest.bindingName project sa).toList =
      project.name.toList ++ '-' :: sa.name.toList := by
    have happend : ApiRequest.bindingName project sa = project.name ++ "-" ++ sa.name := rfl
    rw [happend, String.toList_append, String.toList_append, List.append_assoc]
    rfl
  obtain ⟨hone, c, hc, hedge⟩ := hsa
  refine ⟨?_, c, ?_, hedge⟩
  · unfold OneSegment
    rw [hlist]
    refine oneSegment_of_dash (List.mem_append_right _ List.mem_cons_self) ?_
    refine List.forall_mem_append.mpr ⟨(UrlPath.isSegment_iff.mp hproject).1, ?_⟩
    exact List.forall_mem_cons.mpr ⟨by decide, (UrlPath.isSegment_iff.mp hone).1⟩
  · obtain ⟨init, hinit⟩ := List.getLast?_eq_some_iff.mp hc
    rw [hlist, hinit, ← List.cons_append, ← List.append_assoc]
    exact List.getLast?_concat

theorem Carries.harmless {request : ApiRequest} (h : plain.Carries request) : request.Harmless := by
  cases request with
  | organizationMemberships sub => exact h.2
  | projects org => exact h.2
  | getServiceAccount project name => exact h.2
  | createServiceAccount project name device => exact h.2
  | createPolicyBinding project sa => exact h.2
  | getPolicyBinding project sa => exact ⟨h.2.1, lastSegment_bindingName h.2.2.1 h.2.2.2⟩
  | createServiceAccountKey project name sa expires => exact h.2

end Origins

/-- An address is read as it is meant if its names do no harm, and they do none if nothing that
brings one brings one that does. -/
theorem urls_kept (lib : Libraries) (cfg : PairingConfig) (rounds : Nat)
    {log : List (Σ c, PairCall.Reply c)} {result : Option (Except PairingError PairedKey)}
    (h : Traces Origins.any.Offers (pair lib cfg rounds) log result) {token : String}
    {request : ApiRequest} {reply : Sent} (hmem : ⟨.api token request, reply⟩ ∈ log) :
    (request.ReadAsMeant ↔ request.Harmless) ∧
      ((∀ event ∈ log, Origins.plain.Offers event.1 event.2) → request.ReadAsMeant) := by
  have hsent : Origins.any.Carries request :=
    ((Origins.pair_sends lib cfg rounds).traces h).1 _ hmem
  have hiff := ApiRequest.readAsMeant_iff_harmless hsent.seen
  refine ⟨hiff, fun hall => hiff.mpr ?_⟩
  have hplain : Origins.plain.Carries request :=
    ((Origins.pair_sends lib cfg rounds).traces (h.strengthen hall)).1 _ hmem
  exact hplain.harmless

/-- Nothing can be parsed here. -/
def deafLibraries : Libraries where
  parseJson _ := none
  parseKeyFile _ := .error ""
  rsaKeyFromPem _ := .error ""

/-- A login that is approved at once, by this user id, and the first request with its token. -/
def approvedBy (sub : String) : List (Σ c, PairCall.Reply c) :=
  [⟨.keyOutExists, false⟩, ⟨.now, 0⟩, ⟨.now, 0⟩,
    ⟨.deviceAuthorization, .authorization { deviceCode := "d", userCode := "U" }⟩,
    ⟨.event (.code "U" 300), ()⟩, ⟨.now, 0⟩, ⟨.sleep 5000, ()⟩, ⟨.now, 0⟩,
    ⟨.pollToken "d", .token ⟨"t", none, some ⟨sub, none⟩, none⟩⟩,
    ⟨.now, 0⟩, ⟨.event (.approved sub), ()⟩,
    ⟨.api "t" (.organizationMemberships sub), .failed "reset"⟩]

theorem approvedBy_traces : ∀ sub ∈ ["300000000000000001", ".."],
    ∃ result, Traces Origins.any.Offers (pair deafLibraries {} 1) (approvedBy sub) result := by
  intro sub hsub
  simp only [List.mem_cons, List.not_mem_nil, or_false] at hsub
  rcases hsub with rfl | rfl <;>
  exact ⟨_, Or.inr ⟨_, _, trivial, rfl, Or.inr ⟨_, _, trivial, rfl, Or.inr ⟨_, _, trivial, rfl,
    Or.inr ⟨_, _, trivial, rfl, Or.inr ⟨_, _, trivial, rfl, Or.inr ⟨_, _, trivial, rfl,
    Or.inr ⟨_, _, trivial, rfl, Or.inr ⟨_, _, trivial, rfl,
    Or.inr ⟨_, _, by exact fun _ _ => trivial, rfl, Or.inr ⟨_, _, trivial, rfl,
    Or.inr ⟨_, _, trivial, rfl, Or.inr ⟨_, _, by exact trivial, rfl, rfl, rfl⟩⟩⟩⟩⟩⟩⟩⟩⟩⟩⟩⟩⟩

theorem urls_kept_one :
    (ApiRequest.organizationMemberships "300000000000000001").ReadAsMeant := by
  obtain ⟨result, hrun⟩ := approvedBy_traces "300000000000000001" (by decide)
  have hmem : (⟨.api "t" (.organizationMemberships "300000000000000001"), .failed "reset"⟩ :
      Σ c, PairCall.Reply c) ∈ approvedBy "300000000000000001" := by
    simp [approvedBy]
  apply (urls_kept deafLibraries {} 1 hrun hmem).1.mpr
  show Undotted "300000000000000001"
  decide +kernel

/-- The user whose id is two dots is taken out of the address. -/
theorem url_collapsed :
    ∃ log result, Traces Origins.any.Offers (pair deafLibraries {} 1) log result ∧
      ∃ token request reply, ⟨.api token request, reply⟩ ∈ log ∧ ¬ request.ReadAsMeant ∧
        UrlPath.read [] request.path.toList = ["apis", "iam.miloapis.com", "v1alpha1",
          "control-plane", "apis", "resourcemanager.miloapis.com", "v1alpha1",
          "organizationmemberships"].map String.toList := by
  obtain ⟨result, hrun⟩ := approvedBy_traces ".." (by decide)
  have hread : UrlPath.read [] (ApiRequest.organizationMemberships "..").path.toList = ["apis",
      "iam.miloapis.com", "v1alpha1", "control-plane", "apis", "resourcemanager.miloapis.com",
      "v1alpha1", "organizationmemberships"].map String.toList := by
    decide +kernel
  refine ⟨_, result, hrun, "t", .organizationMemberships "..", .failed "reset", ?_, ?_, hread⟩
  · simp [approvedBy]
  · rintro ⟨hmeant, -⟩
    have hfirst := hread.symm.trans (hmeant [])
    have hlength := congrArg List.length hfirst
    revert hlength
    decide

end DatumConnect.Pairing
