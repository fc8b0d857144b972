import DatumConnect.Plugin.Install
/-!
# Installing and uninstalling touch one tunnel

For a name that is one entry's.  Any other leads the removal of the state directory away
from the tunnel's own.
-/

namespace DatumConnect.Plugin

open DatumConnect.Lib
open DatumConnect.Lib.Files

variable {layout : Layout} {name : String}

/-! ## What the commands call -/

/-- A call on behalf of the tunnel of that name. -/
def OwnCall (layout : Layout) (name : String) : Call → Prop
  | .validateSession _ | .ssarCheck _ | .stat _ => True
  | .mkdirAll p => p = (configFilePath layout name).tail
  | .writeFile p _ | .remove p => p = configFilePath layout name
  | .serviceInstall cfg _ => cfg.name = name
  | .serviceStop tunnelName _ | .serviceUninstall tunnelName _ => tunnelName = name
  | .removeAll p => p = serviceStateDir layout name

abbrev Calls (layout : Layout) (name : String) {α : Type} (p : Command α) : Prop :=
  Prog.Only (OwnCall layout name) p

theorem calls_isInstalled : Calls layout name (isInstalled layout name) := by
  refine ⟨trivial, fun r => ?_⟩
  rcases r with e | ⟨⟩
  · cases e <;> exact trivial
  · exact trivial

theorem calls_save (cfg : TunnelConfig) (now : String) :
    Calls layout name (save cfg now (configFilePath layout name)) := by
  refine ⟨rfl, fun r => ?_⟩
  rcases r with e | ⟨⟩
  · exact trivial
  · exact ⟨rfl, fun _ => trivial⟩

theorem calls_removeConfig : Calls layout name (removeConfig layout name) := by
  refine ⟨rfl, fun r => ?_⟩
  rcases r with e | ⟨⟩
  · cases e <;> exact trivial
  · exact trivial

theorem calls_checkSession (env : Env) (session : String) :
    Calls layout name (checkSession env session) := by
  refine ⟨trivial, fun r => ?_⟩
  rcases r with e | ⟨⟩
  · exact trivial
  · show Calls layout name (ite _ _ _)
    split
    · refine ⟨trivial, fun r => ?_⟩
      rcases r with e | ⟨⟩ <;> exact trivial
    · exact trivial

theorem calls_installConfig (env : Env) (flags : InstallFlags) (h : flags.name = name) :
    Calls layout name (installConfig layout env flags) := by
  subst h
  apply calls_isInstalled.bind
  intro installed
  rcases installed with e | _ | _
  · exact trivial
  · apply (calls_save _ _).bind
    intro saved
    rcases saved with e | ⟨⟩
    · exact trivial
    · cases env.binPath with
      | none => exact trivial
      | some binPath =>
          refine ⟨rfl, fun r => ?_⟩
          rcases r with e | ⟨⟩
          · exact calls_removeConfig.bind fun _ => trivial
          · exact trivial
  · exact trivial

theorem calls_runInstall (env : Env) (flags : InstallFlags) (h : flags.name = name) :
    Calls layout name (runInstall layout env flags) := by
  unfold runInstall
  split
  · exact trivial
  split
  · exact trivial
  split
  · exact trivial
  split
  · exact trivial
  apply (calls_checkSession env flags.session).bind
  intro refused
  cases refused with
  | some exit => exact trivial
  | none => exact calls_installConfig env flags h

theorem calls_runUninstall (env : Env) : Calls layout name (runUninstall layout env name) := by
  unfold runUninstall
  split
  · exact trivial
  apply calls_isInstalled.bind
  intro installed
  rcases installed with e | _ | _
  · exact trivial
  · exact trivial
  · cases env.binPath with
    | none => exact trivial
    | some binPath =>
        refine ⟨rfl, fun _ => ⟨rfl, fun uninstalled => ?_⟩⟩
        rcases uninstalled with e | ⟨⟩
        · exact trivial
        · apply calls_removeConfig.bind
          intro removed
          rcases removed with e | ⟨⟩
          · exact trivial
          · cases env.home with
            | false => exact trivial
            | true => exact ⟨rfl, fun _ => trivial⟩

/-! ## What a call changes -/

/-- Nothing but the tunnel's own changes. -/
def Quiet (layout : Layout) (name : String) (t t' : Tree) : Prop :=
  ∀ loc, ¬ Own layout name loc → KeptAt t t' loc

theorem KeptAt.of_eq {t t' : Tree} {loc : Loc} (h : t'.node loc = t.node loc) : KeptAt t t' loc :=
  .inl h

theorem KeptAt.trans {t u v : Tree} {loc : Loc} (h : KeptAt t u loc) (h' : KeptAt u v loc) :
    KeptAt t v loc := by
  rcases h with h | ⟨hnone, hdir⟩
  · rcases h' with h' | ⟨hnone', hdir'⟩
    · exact .inl (h'.trans h)
    · exact .inr ⟨h ▸ hnone', hdir'⟩
  · rcases h' with h' | ⟨hnone', -⟩
    · exact .inr ⟨hnone, h'.trans hdir⟩
    · rw [hdir] at hnone'
      cases hnone'

instance : Std.Refl (Quiet layout name) := ⟨fun _ _ _ => .of_eq rfl⟩

instance : IsTrans Tree (Quiet layout name) :=
  ⟨fun _ _ _ h h' loc hloc => (h loc hloc).trans (h' loc hloc)⟩

theorem plain_configFilePath (h : IsName name) : ∀ n ∈ configFilePath layout name, IsName n := by
  rw [configFilePath_of_isName layout h]
  intro n hn
  rcases List.mem_cons.mp hn with rfl | hn
  · exact isName_append h (by decide) (by decide)
  · exact layout.plain _ (by simp) n hn

/-- An operation on the config file. -/
theorem quiet_of_touches {m : Fs Contents Unit} (h : IsName name)
    (hm : Fs.Touches (· = resolve [] (pathOf (configFilePath layout name)).names) m) (t : Tree) :
    Quiet layout name t (m t).2 := by
  intro loc hloc
  apply KeptAt.of_eq
  apply hm
  rw [resolve_pathOf (plain_configFilePath h)]
  intro heq
  exact hloc (.inl heq)

theorem quiet_of_grows {t t' : Tree} (h : Fs.Grows t t') : Quiet layout name t t' :=
  fun loc _ => h loc

theorem own_stateDir (h : IsName name) {loc : Loc} (hloc : serviceStateDir layout name <:+ loc) :
    Own layout name loc := by
  right
  right
  rw [serviceStateDir_of_isName layout h] at hloc ⊢
  refine ⟨List.suffix_cons _ _, ?_, hloc⟩
  intro heq
  exact absurd (congrArg List.length heq) (by simp)

theorem quiet_removeSome (h : IsName name) (t : Tree) (gone : Loc → Bool) :
    Quiet layout name t (t.removeSome (serviceStateDir layout name) gone) := by
  intro loc hloc
  apply KeptAt.of_eq
  apply FileTree.removeSome_node_of_not
  intro hbelow
  exact hloc (own_stateDir h hbelow)

theorem not_unit {loc : Loc} (h : ¬ Own layout name loc) : ¬ UnitFile layout name loc :=
  fun hunit => h (.inr (.inl hunit))

theorem quiet_handle (services : Services layout) (h : IsName name) (t : Tree) {c : Call}
    (hc : OwnCall layout name c) (answer : Answer) :
    Quiet layout name t (handle services t c answer).1 := by
  cases answer with
  | fails e => cases c <;> exact Std.Refl.refl t
  | works =>
      cases c with
      | validateSession | ssarCheck | stat => exact Std.Refl.refl t
      | mkdirAll p => exact quiet_of_grows (Fs.createDirAll_grows _ t)
      | writeFile p cfg => cases hc; exact quiet_of_touches h (Fs.write_touches _ _) t
      | serviceInstall cfg binPath =>
          cases hc
          exact fun loc hloc => services.install_frame cfg binPath t loc h (not_unit hloc)
      | serviceStop tunnelName binPath =>
          cases hc
          exact fun loc hloc => services.stop_frame _ binPath t loc h (not_unit hloc)
      | serviceUninstall tunnelName binPath =>
          cases hc
          exact fun loc hloc => services.uninstall_frame _ binPath t loc h (not_unit hloc)
      | remove p => cases hc; exact quiet_of_touches h (Fs.removeFile_touches _) t
      | removeAll p => cases hc; exact quiet_removeSome h t _
  | partly levels gone =>
      cases c with
      | validateSession | ssarCheck | stat | remove => exact Std.Refl.refl t
      | mkdirAll p => exact quiet_of_grows (Fs.createDirAll_grows _ t)
      | writeFile p cfg => cases hc; exact quiet_of_touches h (Fs.write_touches _ _) t
      | serviceInstall cfg binPath =>
          cases hc
          exact fun loc hloc => services.install_frame cfg binPath t loc h (not_unit hloc)
      | serviceStop tunnelName binPath =>
          cases hc
          exact fun loc hloc => services.stop_frame _ binPath t loc h (not_unit hloc)
      | serviceUninstall tunnelName binPath =>
          cases hc
          exact fun loc hloc => services.uninstall_frame _ binPath t loc h (not_unit hloc)
      | removeAll p => cases hc; exact quiet_removeSome h t _

theorem quiet_exec (services : Services layout) (h : IsName name) {α : Type} {p : Command α}
    (hp : Calls layout name p) (answers : List Answer) (t : Tree) :
    Quiet layout name t (Prog.exec (handle services) t answers p).1 := by
  have hwithin := hp.within (fun s c answer hc => quiet_handle services h s hc answer) t
  exact (hwithin.exec answers).1

/-! ## Other tunnels -/

theorem append_ne_append {a b ext ext' : String} {c : Char}
    (hlast : ext.toList.getLast? = some c) (hlast' : ext'.toList.getLast? ≠ some c)
    (hne : ext' ≠ "") : a ++ ext ≠ b ++ ext' := by
  intro heq
  have hlist := congrArg (fun s => s.toList.getLast?) heq
  have hnil : ext'.toList ≠ [] := by simpa using hne
  simp only [String.toList_append, List.getLast?_append, hlast] at hlist
  cases hext : ext'.toList.getLast? with
  | none => exact hnil (List.getLast?_eq_none_iff.mp hext)
  | some d =>
      rw [hext] at hlist hlast'
      exact hlast' hlist.symm

theorem append_right_ne {a b ext : String} (hne : a ≠ b) : a ++ ext ≠ b ++ ext := by
  intro heq
  have hlist := congrArg String.toList heq
  rw [String.toList_append, String.toList_append] at hlist
  exact hne (String.toList_injective (List.append_cancel_right hlist))

/-- Nothing outside the services directory is in a service's state directory. -/
theorem not_below_of_apart {dir : Loc} {x : String}
    (h : dir ∈ [layout.configDir, layout.tunnelDir, layout.logDir, layout.unitDir]) :
    ¬ name :: layout.servicesDir <:+ x :: dir := by
  intro hsuffix
  apply layout.apart dir h
  rcases List.suffix_cons_iff.mp hsuffix with heq | hbelow
  · exact (List.cons.inj heq).2 ▸ List.suffix_rfl
  · exact (List.suffix_cons _ _).trans hbelow

theorem head_ne_of_unit {dir : Loc} {other ext : String} {c : Char}
    (hlast : ext.toList.getLast? = some c) (hservice : c ≠ 'e') (hplist : c ≠ 't') :
    ¬ UnitFile layout name ((other ++ ext) :: dir) := by
  rintro ⟨-, hhead | hhead⟩
  · refine append_ne_append hlast ?_ (by decide) (Option.some.inj hhead)
    intro heq
    exact hservice (Option.some.inj heq).symm
  · refine append_ne_append hlast ?_ (by decide) (Option.some.inj hhead)
    intro heq
    exact hplist (Option.some.inj heq).symm

/-- What is another tunnel's is not this one's. -/
theorem not_own_of_other {other : String} (h : IsName name) (hother : IsName other)
    (hne : other ≠ name) {loc : Loc} (hloc : OfTunnel layout other loc) :
    ¬ Own layout name loc := by
  unfold OfTunnel at hloc
  unfold Own
  rw [configFilePath_of_isName layout hother, serviceStateDir_of_isName layout hother,
    pidFilePath_of_isName layout hother, logFilePath_of_isName layout hother] at hloc
  rw [configFilePath_of_isName layout h, serviceStateDir_of_isName layout h]
  rintro (rfl | hunit | ⟨-, -, hstate⟩)
  · -- this tunnel's config file
    rcases hloc with heq | hbelow | heq | heq
    · exact append_right_ne hne (List.cons.inj heq).1.symm
    · exact not_below_of_apart (by simp) hbelow
    · exact append_ne_append (c := 'l') (by decide) (by decide) (by decide) (List.cons.inj heq).1
    · exact append_ne_append (c := 'l') (by decide) (by decide) (by decide) (List.cons.inj heq).1
  · -- its unit
    rcases hloc with rfl | hbelow | rfl | rfl
    · exact head_ne_of_unit (c := 'l') (by decide) (by decide) (by decide) hunit
    · rcases List.suffix_or_suffix_of_suffix hunit.1 hbelow with hin | hin
      · rcases List.suffix_cons_iff.mp hin with heq | hin
        · exact layout.apart layout.unitDir (by simp) (heq ▸ List.suffix_cons _ _)
        · exact layout.units_apart hin
      · exact layout.apart layout.unitDir (by simp) ((List.suffix_cons _ _).trans hin)
    · exact head_ne_of_unit (c := 'd') (by decide) (by decide) (by decide) hunit
    · exact head_ne_of_unit (c := 'g') (by decide) (by decide) (by decide) hunit
  · -- its state
    rcases hloc with rfl | hbelow | rfl | rfl
    · exact not_below_of_apart (by simp) hstate
    · have hsame : other :: layout.servicesDir <:+ name :: layout.servicesDir :=
        List.suffix_of_suffix_length_le hbelow hstate (Nat.le_refl _)
      exact hne (List.cons.inj (hsame.eq_of_length rfl)).1
    · exact not_below_of_apart (by simp) hstate
    · exact not_below_of_apart (by simp) hstate

theorem contained_of_isName (h : IsName name) : Contained layout name := by
  intro services env flags toInstall toUninstall t hname
  have hinstall := quiet_exec services h (calls_runInstall env flags hname) toInstall t
  have huninstall := quiet_exec services h (calls_runUninstall env) toUninstall
    (Prog.exec (handle services) t toInstall (runInstall layout env flags)).1
  have hrest : Quiet layout name t
      (installThenUninstall layout services env flags toInstall toUninstall t) := by
    unfold installThenUninstall
    rw [hname]
    exact IsTrans.trans _ _ _ hinstall huninstall
  refine ⟨?_, hrest⟩
  intro other hother hne loc hloc
  exact hrest loc (not_own_of_other h hother hne hloc)

/-! ## Any other name -/

/-- No path of names leads further down from a place that is not deeper. -/
theorem length_resolve_le {a b : Loc} (h : a.length ≤ b.length) (names : List String) :
    (resolve a names).length ≤ (resolve b names).length := by
  induction names generalizing a b with
  | nil => exact h
  | cons n names ih =>
      apply ih
      unfold next
      split
      · exact h
      · split
        · rw [List.length_tail, List.length_tail]
          omega
        · rw [List.length_cons, List.length_cons]
          omega

theorem plain_next {loc : Loc} {n : String} (hloc : ∀ m ∈ loc, IsName m) (hne : n ≠ "")
    (hslash : '/' ∉ n.toList) : ∀ m ∈ next loc n, IsName m := by
  unfold next
  split
  · exact hloc
  · rename_i hdot
    split
    · intro m hm
      exact hloc m (List.mem_of_mem_tail hm)
    · rename_i hdots
      intro m hm
      rcases List.mem_cons.mp hm with rfl | hm
      · exact ⟨hne, hslash, hdot, hdots⟩
      · exact hloc m hm

theorem plain_resolve {loc : Loc} {names : List String} (hloc : ∀ m ∈ loc, IsName m)
    (hnames : ∀ n ∈ names, n ≠ "" ∧ '/' ∉ n.toList) : ∀ m ∈ resolve loc names, IsName m := by
  induction names generalizing loc with
  | nil => exact hloc
  | cons n names ih =>
      obtain ⟨hne, hslash⟩ := hnames n List.mem_cons_self
      exact ih (plain_next hloc hne hslash) fun m hm => hnames m (List.mem_cons_of_mem n hm)

theorem plain_join {dir : Loc} (hdir : ∀ m ∈ dir, IsName m) (s : String) :
    ∀ m ∈ join dir s, IsName m := by
  apply plain_resolve hdir
  intro n hn
  obtain ⟨piece, hpiece, rfl⟩ := List.mem_map.mp hn
  obtain ⟨hmem, hpne⟩ := List.mem_filter.mp hpiece
  refine ⟨by simpa using hpne, ?_⟩
  intro hslash
  rw [String.toList_ofList] at hslash
  exact (mem_of_mem_splitSlash hmem '/' hslash).2 rfl

/-- With an extension the last piece of a name is a name of its own; without it, it may
lead up, or nowhere. -/
theorem join_append {dir dir' : Loc} {s ext : String} (hext : '/' ∉ ext.toList)
    (hlong : 2 < ext.toList.length) :
    ∃ dirs last, join dir (s ++ ext) = (last ++ ext) :: resolve dir dirs ∧
      (join dir' s = resolve dir' dirs ∨ join dir' s = next (resolve dir' dirs) last) := by
  obtain ⟨init, last, hs, happ⟩ := splitSlash_append (s := s.toList) hext
  refine ⟨(init.filter (· ≠ [])).map String.ofList, String.ofList last, ?_, ?_⟩
  · have hne : last ++ ext.toList ≠ [] := by
      intro hnil
      rw [(List.append_eq_nil_iff.mp hnil).2] at hlong
      exact absurd hlong (by decide)
    have hnames : (Path.ofString (s ++ ext)).names =
        (init.filter (· ≠ [])).map String.ofList ++ [String.ofList last ++ ext] := by
      simp [Path.ofString, String.toList_append, happ, List.filter_append, hne,
        String.ofList_append]
    have hlast : 2 < (String.ofList last ++ ext).toList.length := by
      rw [String.toList_append, List.length_append]
      omega
    unfold join
    rw [hnames, resolve_append, resolve_cons, resolve_nil, next_of_ne]
    · rintro heq
      rw [heq] at hlast
      exact absurd hlast (by decide)
    · rintro heq
      rw [heq] at hlast
      exact absurd hlast (by decide)
  · by_cases hlast : last = []
    · left
      unfold join
      simp [Path.ofString, hs, List.filter_append, hlast]
    · right
      unfold join
      have hnames : (Path.ofString s).names =
          (init.filter (· ≠ [])).map String.ofList ++ [String.ofList last] := by
        simp [Path.ofString, hs, List.filter_append, hlast]
      rw [hnames, resolve_append, resolve_cons, resolve_nil]

/-- The config file is not on the way to the state directory. -/
theorem config_not_above_state (hdeep : layout.servicesDir.length ≤ layout.configDir.length)
    (name : String) : ¬ configFilePath layout name <:+ serviceStateDir layout name := by
  intro hsuffix
  obtain ⟨dirs, last, hconfig, hstate⟩ := @join_append layout.configDir
    layout.servicesDir name ".yaml" (by decide) (by decide)
  have hlen := hsuffix.length_le
  have hdirs := length_resolve_le hdeep dirs
  unfold configFilePath serviceStateDir at hsuffix hlen
  rw [hconfig, List.length_cons] at hlen
  rw [hconfig] at hsuffix
  rcases hstate with hstate | hstate
  · rw [hstate] at hlen
    omega
  · rw [hstate] at hlen hsuffix
    unfold next at hlen hsuffix
    split at hlen
    · omega
    · split at hlen
      · rw [List.length_tail] at hlen
        omega
      · rename_i hdot hdots
        rw [if_neg hdot, if_neg hdots] at hsuffix
        rw [List.length_cons] at hlen
        have heq := hsuffix.eq_of_length (by rw [List.length_cons, List.length_cons]; omega)
        have hhead := congrArg (fun s => s.toList.length) (List.cons.inj heq).1
        simp only [String.toList_append, List.length_append] at hhead
        have hyaml : (".yaml" : String).toList.length = 5 := by decide
        omega

theorem exists_fresh (names : List String) : ∃ f, ∀ n ∈ names, n ≠ f := by
  have hbound : ∃ k, ∀ n ∈ names, n.toList.length < k := by
    induction names with
    | nil => exact ⟨0, by simp⟩
    | cons n names ih =>
        obtain ⟨k, hk⟩ := ih
        refine ⟨k + n.toList.length + 1, ?_⟩
        intro m hm
        rcases List.mem_cons.mp hm with rfl | hm
        · omega
        · have := hk m hm
          omega
  obtain ⟨k, hk⟩ := hbound
  refine ⟨String.ofList (List.replicate k 'x'), ?_⟩
  intro n hn heq
  have hlt := hk n hn
  rw [heq, String.toList_ofList, List.length_replicate] at hlt
  exact absurd hlt (Nat.lt_irrefl k)

/-- A tree with one config file and one file in one state directory. -/
def twoFiles (config state : Loc) (f : String) (cfg : TunnelConfig) (hne : config ≠ [])
    (hconfig : ¬ config <:+ state) (hf : f ∉ config) : Tree where
  node loc :=
    if loc = config then some (.file (.yaml cfg))
    else if loc = f :: state then some (.file (.other ""))
    else if loc <:+ state ∨ loc <:+ config.tail then some .dir
    else none
  root_dir := by
    rw [if_neg (Ne.symm hne), if_neg (by simp), if_pos (.inl (List.nil_suffix))]
  parent_dir := by
    intro n loc hnode
    have hdir : loc <:+ state ∨ loc <:+ config.tail := by
      by_cases hc : n :: loc = config
      · right
        rw [← hc]
        exact List.suffix_rfl
      · rw [if_neg hc] at hnode
        by_cases hs : n :: loc = f :: state
        · left
          rw [(List.cons.inj hs).2]
        · rw [if_neg hs] at hnode
          by_cases hd : n :: loc <:+ state ∨ n :: loc <:+ config.tail
          · exact hd.imp (List.suffix_cons n loc).trans (List.suffix_cons n loc).trans
          · rw [if_neg hd] at hnode
            exact absurd rfl hnode
    have hlen : config.tail.length < config.length := by
      rw [List.length_tail]
      exact Nat.sub_lt (List.length_pos_iff.mpr hne) Nat.one_pos
    rw [if_neg, if_neg, if_pos hdir]
    · rintro rfl
      rcases hdir with h | h
      · exact absurd h.length_le (Nat.not_succ_le_self _)
      · exact hf (List.mem_of_mem_tail (h.subset List.mem_cons_self))
    · rintro rfl
      rcases hdir with h | h
      · exact hconfig h
      · exact absurd h.length_le (Nat.not_le.mpr hlen)

/-- The manager that changes no file. -/
def idleServices (layout : Layout) : Services layout where
  install _ _ t := (.ok (), t)
  stop _ _ t := (.ok (), t)
  uninstall _ _ t := (.ok (), t)
  install_frame _ _ _ _ _ _ := .of_eq rfl
  stop_frame _ _ _ _ _ _ := .of_eq rfl
  uninstall_frame _ _ _ _ _ _ := .of_eq rfl

/-- Where the config file is a file, an uninstall that nothing fails empties the state
directory. -/
theorem uninstall_removes {env : Env} {t : Tree} {binPath : String} {cfg : TunnelConfig}
    (hne : name ≠ "") (hbin : env.binPath = some binPath) (hhome : env.home = true)
    (hconfig : t.node (configFilePath layout name) = some (.file (.yaml cfg)))
    {loc : Loc} (hloc : serviceStateDir layout name <:+ loc) (hroot : loc ≠ []) :
    (Prog.exec (handle (idleServices layout)) t (List.replicate 5 .works)
      (runUninstall layout env name)).1.node loc = none := by
  have hplain := plain_join (layout.plain layout.configDir (by simp)) (name ++ ".yaml")
  have hnode : t.node (configFilePath layout name) ≠ none := by
    rw [hconfig]
    exact Option.some_ne_none _
  have hfind : t.find (pathOf (configFilePath layout name)) = .ok (configFilePath layout name) :=
    find_pathOf hplain hnode
  have hstat : stat t (configFilePath layout name) = .ok () := by
    unfold stat
    simp only [hfind, hconfig, Option.isSome_some, if_true]
  obtain ⟨u, hremove⟩ : ∃ u, Fs.removeFile (pathOf (configFilePath layout name)) t = (.ok (), u) := by
    have hunlink : ∃ u, t.unlink (configFilePath layout name) = .ok u := by
      unfold FileTree.unlink
      split
      · exact ⟨_, rfl⟩
      · rename_i hdir
        rw [hconfig] at hdir
        cases hdir
      · rename_i hnone
        exact absurd hnone hnode
    obtain ⟨u, hu⟩ := hunlink
    exact ⟨u, Fs.edit_of_ok (Fs.bind_eq_ok.mpr ⟨_, hfind, hu⟩)⟩
  have hrun : (Prog.exec (handle (idleServices layout)) t (List.replicate 5 .works)
      (runUninstall layout env name)).1 =
        u.removeSome (serviceStateDir layout name) fun _ => true := by
    simp [runUninstall, hne, isInstalled, handle, hstat, hbin, hhome, uninstallService,
      idleServices, removeConfig, hremove, List.replicate, Prog.perform]
  rw [hrun]
  exact FileTree.removeSome_node_all hloc hroot

theorem killed_at_once {services : Services layout} {env : Env} {t : Tree} :
    (Prog.exec (handle services) t [] (runInstall layout env ⟨name, "", "", "", ""⟩)).1 = t := by
  unfold runInstall
  split <;> rfl

theorem isName_of_contained (hdeep : layout.servicesDir.length ≤ layout.configDir.length)
    (hne : name ≠ "") (h : Contained layout name) : IsName name := by
  by_contra hname
  obtain ⟨f, hf⟩ := exists_fresh
    ([serviceName name ++ ".service", serviceName name ++ ".plist"] ++ configFilePath layout name)
  have hfconfig : f ∉ configFilePath layout name := fun hmem =>
    hf f (List.mem_append_right _ hmem) rfl
  have hconfig : configFilePath layout name ≠ [] := by
    obtain ⟨dirs, last, heq, -⟩ := @join_append layout.configDir layout.servicesDir name ".yaml"
      (by decide) (by decide)
    unfold configFilePath
    rw [heq]
    exact List.cons_ne_nil _ _
  let t := twoFiles (configFilePath layout name) (serviceStateDir layout name) f { name }
    hconfig (config_not_above_state hdeep name) hfconfig
  let env : Env :=
    { k8sApi := "", credentialsHelper := "", binPath := some "datumctl-connect", home := true
      now := "" }
  have hbefore : t.node (f :: serviceStateDir layout name) = some (.file (.other "")) := by
    have hother : f :: serviceStateDir layout name ≠ configFilePath layout name := fun heq =>
      hfconfig (heq ▸ List.mem_cons_self)
    exact (if_neg hother).trans (if_pos rfl)
  have hafter : (installThenUninstall layout (idleServices layout) env ⟨name, "", "", "", ""⟩ []
      (List.replicate 5 .works) t).node (f :: serviceStateDir layout name) = none := by
    unfold installThenUninstall
    rw [killed_at_once]
    exact uninstall_removes hne rfl rfl (if_pos rfl) (List.suffix_cons _ _) (List.cons_ne_nil _ _)
  have hlost : ¬ KeptAt t (installThenUninstall layout (idleServices layout) env
      ⟨name, "", "", "", ""⟩ [] (List.replicate 5 .works) t) (f :: serviceStateDir layout name) := by
    unfold KeptAt
    rw [hbefore, hafter]
    rintro (heq | ⟨heq, -⟩) <;> cases heq
  obtain ⟨hothers, hrest⟩ := h (idleServices layout) env ⟨name, "", "", "", ""⟩ []
    (List.replicate 5 .works) t rfl
  by_cases hbelow : layout.servicesDir <:+ serviceStateDir layout name ∧
      serviceStateDir layout name ≠ layout.servicesDir
  · -- The first step down from the services directory is into another tunnel's state.
    obtain ⟨⟨front, hfront⟩, hproper⟩ := hbelow
    have hfne : front ≠ [] := by
      rintro rfl
      exact hproper hfront.symm
    have hmem : front.getLast hfne ∈ serviceStateDir layout name := by
      rw [← hfront]
      exact List.mem_append_left _ (List.getLast_mem hfne)
    have hother : IsName (front.getLast hfne) :=
      plain_join (layout.plain layout.servicesDir (by simp)) name _ hmem
    apply hlost
    apply hothers _ hother
    · rintro heq
      exact hname (heq ▸ hother)
    · right
      left
      rw [serviceStateDir_of_isName layout hother, ← hfront]
      refine ⟨f :: front.dropLast, ?_⟩
      have hsplit := List.dropLast_append_getLast hfne
      calc f :: front.dropLast ++ front.getLast hfne :: layout.servicesDir
          = f :: ((front.dropLast ++ [front.getLast hfne]) ++ layout.servicesDir) := by simp
        _ = f :: (front ++ layout.servicesDir) := by rw [hsplit]
  · apply hlost
    apply hrest
    rintro (heq | ⟨-, hunit⟩ | ⟨hin, hproper, -⟩)
    · exact hfconfig (heq ▸ List.mem_cons_self)
    · rcases hunit with heq | heq
      · exact hf _ (by simp) (Option.some.inj heq).symm
      · exact hf _ (by simp) (Option.some.inj heq).symm
    · exact hbelow ⟨hin, hproper⟩

/-- **Installing and uninstalling touch one tunnel** exactly under the names of one entry. -/
theorem contained_iff (name : String) (hne : name ≠ "") :
    (∀ layout, Contained layout name) ↔ IsName name := by
  constructor
  · intro h
    have hroot := h (.standard [] (by simp))
    exact isName_of_contained (by decide) hne hroot
  · intro h layout
    exact contained_of_isName h

theorem contained_iff_web : Contained (.standard ["me", "home"] (by decide)) "web" :=
  (contained_iff "web" (by decide)).mpr (by decide) _

/-- Under the name `.` the state directory is that of all services. -/
theorem dot_not_contained :
    serviceStateDir (.standard ["me", "home"] (by decide)) "." =
        (Layout.standard ["me", "home"] (by decide)).servicesDir ∧
      ¬ Contained (.standard ["me", "home"] (by decide)) "." := by
  refine ⟨by decide, ?_⟩
  intro h
  exact absurd (isName_of_contained (by decide) (by decide) h) (by decide)

end DatumConnect.Plugin
