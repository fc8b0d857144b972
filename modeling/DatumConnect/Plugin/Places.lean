import DatumConnect.Lib.FileTree
/-!
# Where the plugin keeps a tunnel

A tunnel's files are found from its name: the name, with or without an extension, joined
to one directory for each kind of file.
-/

namespace DatumConnect.Plugin

open DatumConnect.Lib.Files

/-- `filepath.Join` of a directory and a text: the names are followed as they stand, so `.`
and `..` are gone from the path. -/
def join (dir : Loc) (s : String) : Loc := resolve dir (Path.ofString s).names

/-- The path of a place, from the root. -/
def pathOf (loc : Loc) : Path := { absolute := true, names := loc.reverse }

/-- The directories the plugin works in.  None is inside the one that holds the services'
state, nor that one inside the one of the units. -/
structure Layout where
  configDir : Loc
  servicesDir : Loc
  tunnelDir : Loc
  logDir : Loc
  unitDir : Loc
  plain : ∀ dir ∈ [configDir, servicesDir, tunnelDir, logDir, unitDir], ∀ name ∈ dir, IsName name
  apart : ∀ dir ∈ [configDir, tunnelDir, logDir, unitDir], ¬ servicesDir <:+ dir
  units_apart : ¬ unitDir <:+ servicesDir

section

variable (layout : Layout)

def configFilePath (name : String) : Loc := join layout.configDir (name ++ ".yaml")

/-- The state directory of the service, as `uninstall` computes it. -/
def serviceStateDir (name : String) : Loc := join layout.servicesDir name

def pidFilePath (name : String) : Loc := join layout.tunnelDir (name ++ ".pid")

def logFilePath (name : String) : Loc := join layout.logDir (name ++ ".log")

end

theorem suffix_of_append_suffix {a b home : Loc} (h : a ++ home <:+ b ++ home) : a <:+ b := by
  obtain ⟨before, heq⟩ := h
  rw [← List.append_assoc] at heq
  exact ⟨before, List.append_cancel_right heq⟩

theorem standard_apart (home : Loc) : ∀ dir ∈ [["config", "connect", "datumctl", ".config"] ++ home,
      ["tunnels", "connect", "datumctl", "state", ".local"] ++ home,
      ["logs", "connect", "datumctl", "state", ".local"] ++ home,
      ["user", "systemd", ".config"] ++ home],
    ¬ ["services", "connect", ".datumctl"] ++ home <:+ dir := by
  intro dir hdir hsuffix
  simp only [List.mem_cons, List.not_mem_nil, or_false] at hdir
  rcases hdir with rfl | rfl | rfl | rfl <;>
    exact absurd (suffix_of_append_suffix hsuffix) (by decide)

/-- The directories under a home directory where no `XDG` variable says otherwise. -/
def Layout.standard (home : Loc) (hhome : ∀ name ∈ home, IsName name) : Layout where
  configDir := ["config", "connect", "datumctl", ".config"] ++ home
  servicesDir := ["services", "connect", ".datumctl"] ++ home
  tunnelDir := ["tunnels", "connect", "datumctl", "state", ".local"] ++ home
  logDir := ["logs", "connect", "datumctl", "state", ".local"] ++ home
  unitDir := ["user", "systemd", ".config"] ++ home
  plain := by
    intro dir hdir name hname
    have hfront : ∀ front ∈ [["config", "connect", "datumctl", ".config"],
        ["services", "connect", ".datumctl"], ["tunnels", "connect", "datumctl", "state", ".local"],
        ["logs", "connect", "datumctl", "state", ".local"], ["user", "systemd", ".config"]],
        ∀ n ∈ front, IsName n := by
      decide
    simp only [List.mem_cons, List.not_mem_nil, or_false] at hdir
    rcases hdir with rfl | rfl | rfl | rfl | rfl <;>
      exact (List.mem_append.mp hname).elim (hfront _ (by simp) name) (hhome name)
  apart := standard_apart home
  units_apart := fun h => absurd (suffix_of_append_suffix h) (by decide)

/-! ## The places of a name that is one entry's -/

theorem isName_append {name ext : String} (h : IsName name) (hext : '/' ∉ ext.toList)
    (hlong : 2 < ext.toList.length) : IsName (name ++ ext) := by
  obtain ⟨hne, hslash, -, -⟩ := h
  have hlen : 2 < (name ++ ext).toList.length := by
    rw [String.toList_append, List.length_append]
    omega
  refine ⟨?_, ?_, ?_, ?_⟩
  · rintro heq
    rw [heq] at hlen
    exact absurd hlen (by decide)
  · rw [String.toList_append, List.mem_append, not_or]
    exact ⟨hslash, hext⟩
  · rintro heq
    rw [heq] at hlen
    exact absurd hlen (by decide)
  · rintro heq
    rw [heq] at hlen
    exact absurd hlen (by decide)

theorem join_of_isName {dir : Loc} {s : String} (h : IsName s) : join dir s = s :: dir := by
  unfold join
  rw [Path.ofString_of_isName h, resolve_cons, next_of_isName dir h, resolve_nil]

theorem configFilePath_of_isName (layout : Layout) {name : String} (h : IsName name) :
    configFilePath layout name = (name ++ ".yaml") :: layout.configDir :=
  join_of_isName (isName_append h (by decide) (by decide))

theorem pidFilePath_of_isName (layout : Layout) {name : String} (h : IsName name) :
    pidFilePath layout name = (name ++ ".pid") :: layout.tunnelDir :=
  join_of_isName (isName_append h (by decide) (by decide))

theorem logFilePath_of_isName (layout : Layout) {name : String} (h : IsName name) :
    logFilePath layout name = (name ++ ".log") :: layout.logDir :=
  join_of_isName (isName_append h (by decide) (by decide))

theorem serviceStateDir_of_isName (layout : Layout) {name : String} (h : IsName name) :
    serviceStateDir layout name = name :: layout.servicesDir :=
  join_of_isName h

theorem resolve_pathOf {loc : Loc} (h : ∀ name ∈ loc, IsName name) :
    resolve [] (pathOf loc).names = loc := by
  have hne : ∀ name ∈ loc.reverse, name ≠ "." ∧ name ≠ ".." := by
    intro name hname
    obtain ⟨-, -, hdot, hdots⟩ := h name (List.mem_reverse.mp hname)
    exact ⟨hdot, hdots⟩
  show resolve [] loc.reverse = loc
  rw [resolve_of_forall_ne [] hne, List.reverse_reverse, List.append_nil]

/-- An entry is found at its place. -/
theorem find_pathOf {α : Type} {t : FileTree α} {loc : Loc} (h : ∀ name ∈ loc, IsName name)
    (hnode : t.node loc ≠ none) : t.find (pathOf loc) = .ok loc := by
  have hnames : ∀ name ∈ loc.reverse, name ≠ "." ∧ name ≠ ".." := by
    intro name hname
    obtain ⟨-, -, hdot, hdots⟩ := h name (List.mem_reverse.mp hname)
    exact ⟨hdot, hdots⟩
  have hwalk := @FileTree.walk_of_node α t [] loc.reverse hnames (by simpa using hnode)
  rw [List.reverse_reverse, List.append_nil] at hwalk
  exact hwalk

end DatumConnect.Plugin
