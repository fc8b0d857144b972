import DatumConnect.Lib.Options
import DatumConnect.Plugin.Install
/-!
# The launch chain

`tunnel listen` and the installed service start the Rust binary, the first itself, the second
and the first in the background through `tunnel run`.  Each hands its settings on as an
argument list that the next one reads.
-/

namespace DatumConnect.Plugin

open DatumConnect.Lib
open DatumConnect.Lib.Options
open DatumConnect.Lib.Files

/-! ## The Rust binary -/

inductive Commands where
  | list
  | listen (label endpoint id : Option String)
  | update (id : String) (label endpoint : Option String)
  | delete (id : String)
  deriving DecidableEq, Repr

structure Args where
  repo : Option String
  project : Option String
  json : Bool
  debug : Bool
  command : Commands
  deriving DecidableEq, Repr

/-- The options that are taken before and after the subcommand. -/
def globalDefs : List OptionDef :=
  [{ name := "json", takesValue := false }, { name := "debug", takesValue := false }]

def argsDefs : List OptionDef :=
  [{ name := "repo", takesValue := true }, { name := "project", takesValue := true }] ++ globalDefs

def listenDefs : List OptionDef :=
  [{ name := "label", takesValue := true }, { name := "endpoint", takesValue := true },
   { name := "id", takesValue := true }] ++ globalDefs

def deleteDefs : List OptionDef := { name := "id", takesValue := true } :: globalDefs

/-- The options of a subcommand, which takes no other argument. -/
def subcommand (defs : List OptionDef) (rest : List String) :
    Except Refused (List (String × String)) :=
  match clap defs rest with
  | .error e => .error e
  | .ok (_, arg :: _) => .error (.unknown arg)
  | .ok (set, []) => .ok set

def parseCommand (name : String) (rest : List String) :
    Except Refused (Commands × List (String × String)) :=
  if name = "list" then (subcommand globalDefs rest).map fun set => (.list, set)
  else if name = "listen" then
    (subcommand listenDefs rest).map fun set =>
      (.listen (valueOf "label" set) (valueOf "endpoint" set) (valueOf "id" set), set)
  else if name = "update" then
    match subcommand listenDefs rest with
    | .error e => .error e
    | .ok set =>
        match valueOf "id" set with
        | none => .error (.missingValue "id")
        | some id => .ok (.update id (valueOf "label" set) (valueOf "endpoint" set), set)
  else if name = "delete" then
    match subcommand deleteDefs rest with
    | .error e => .error e
    | .ok set =>
        match valueOf "id" set with
        | none => .error (.missingValue "id")
        | some id => .ok (.delete id, set)
  else .error .command

/-- `Args::parse`; `environment` is asked where an option has a variable of its own. -/
def parseArgs (environment : String → Option String) (argv : List String) : Except Refused Args :=
  match clap argsDefs argv with
  | .error e => .error e
  | .ok (_, []) => .error .command
  | .ok (set, name :: rest) =>
      (parseCommand name rest).map fun (command, more) =>
        { repo := (valueOf "repo" set).or (environment "DATUM_CONNECT_DIR")
          project := (valueOf "project" set).or (environment "DATUM_PROJECT")
          json := ((valueOf "json" set).or (valueOf "json" more)).isSome
          debug := ((valueOf "debug" set).or (valueOf "debug" more)).isSome
          command }

/-! ## The plugin -/

structure ListenFlags where
  label : String
  endpoint : String
  id : String
  yes : Bool
  detach : Bool
  name : String
  logFile : String
  deriving DecidableEq, Repr

/-- An option and its value, if there is one. -/
def optional (option value : String) : List String :=
  if value ≠ "" then [option, value] else []

def yesOption (yes : Bool) : List String := if yes then ["--yes"] else []

/-- The arguments `runListen` starts the Rust binary with. -/
def listenArgs (project : String) (flags : ListenFlags) : List String :=
  ["--json", "--project", project, "listen"] ++ optional "--endpoint" flags.endpoint ++
    optional "--id" flags.id ++ optional "--label" flags.label ++
    yesOption flags.yes

def foregroundArgs (name logFile endpoint label : String) (yes : Bool) : List String :=
  ["tunnel", "run", "--name", name] ++ optional "--log-file" logFile ++
    optional "--endpoint" endpoint ++ optional "--label" label ++ yesOption yes

def serviceArgs (cfg : TunnelConfig) : List String := ["tunnel", "run", "--name", cfg.name]

/-- `daemon.Config`. -/
structure Config where
  name : String
  label : String
  endpoint : String
  logFile : String
  yes : Bool
  deriving DecidableEq, Repr

/-- The arguments `RunSupervisor` starts the Rust binary with. -/
def supervisorArgs (cfg : Config) : List String :=
  ["--json", "listen", "--endpoint", cfg.endpoint] ++ optional "--label" cfg.label ++
    yesOption cfg.yes ++ optional "--log-file" cfg.logFile

def pathString (loc : Loc) : String := "/" ++ String.intercalate "/" loc.reverse

/-- The flags of `tunnel run`, those of the root command after its own. -/
def runDefs (inherited : List OptionDef) : List OptionDef :=
  [{ name := "name", takesValue := true }, { name := "project", takesValue := true },
   { name := "help", short := some 'h', takesValue := false }] ++ inherited

inductive LaunchError where
  | flags (e : Refused)
  | exit (code : Nat)
  deriving DecidableEq, Repr

section

variable (layout : Layout) (inherited : List OptionDef) (load : String → Option TunnelConfig)

/-- `runRun`, up to what it has `RunSupervisor` start. -/
def runRun (argv : List String) : Except LaunchError Config :=
  match pflag (runDefs inherited) argv with
  | .error e => .error (.flags e)
  | .ok (set, _) =>
      let name := (valueOf "name" set).getD ""
      let project := (valueOf "project" set).getD ""
      if name = "" then .error (.exit 64)
      else
        match load name with
        | none => .error (.exit 1)
        | some cfg =>
            if project ≠ "" ∧ project ≠ cfg.project then .error (.exit 64)
            else .ok
              { name, label := cfg.label, endpoint := cfg.endpoint
                logFile := pathString (logFilePath layout name), yes := false }

/-- The plugin, started with arguments for `tunnel run`. -/
def pluginRun (argv : List String) : Except LaunchError Config :=
  match argv with
  | "tunnel" :: "run" :: rest => runRun layout inherited load rest
  | _ => .error (.flags .command)

end

/-! ## What is to come of the settings -/

structure Settings where
  name : String
  label : String
  endpoint : String
  id : String
  logFile : String
  project : String
  session : String
  yes : Bool
  deriving DecidableEq, Repr

inductive Entry where
  | listen
  | listenDetached
  | install
  deriving DecidableEq, Repr

/-- The command takes the settings and goes on to start something. -/
def Accepts : Entry → Settings → Prop
  | .listen, s => s.endpoint ≠ "" ∨ s.id ≠ ""
  | .listenDetached, s => s.endpoint ≠ "" ∧ s.id = "" ∧ s.name ≠ ""
  | .install, s => s.name ≠ "" ∧ s.endpoint ≠ "" ∧ s.session ≠ "" ∧ s.project ≠ ""

def Settings.listenFlags (s : Settings) (detach : Bool) : ListenFlags where
  label := s.label
  endpoint := s.endpoint
  id := s.id
  yes := s.yes
  detach
  name := s.name
  logFile := s.logFile

/-- What `tunnel install` saves, and the service's `tunnel run` loads. -/
def Settings.config (s : Settings) : TunnelConfig where
  name := s.name
  label := s.label
  endpoint := s.endpoint
  project := s.project
  session := s.session

/-- A setting that is not given is the empty text. -/
def given (value : String) : Option String := if value ≠ "" then some value else none

/-- The Rust binary takes the arguments, and reads the label and the endpoint of the settings. -/
def Understood (environment : String → Option String) (s : Settings) (argv : List String) : Prop :=
  ∃ args id, parseArgs environment argv = .ok args ∧
    args.command = .listen (given s.label) (given s.endpoint) id

/-- Every program of the chain takes what the one before it hands on. -/
def ChainWorks (layout : Layout) (inherited : List OptionDef)
    (environment : String → Option String) (s : Settings) : Entry → Prop
  | .listen => Understood environment s (listenArgs s.project (s.listenFlags false))
  | .listenDetached =>
      ∃ load cfg, pluginRun layout inherited load
          (foregroundArgs s.name s.logFile s.endpoint s.label s.yes) = .ok cfg ∧
        Understood environment s (supervisorArgs cfg)
  | .install =>
      ∃ cfg, pluginRun layout inherited (fun name => if name = s.name then some s.config else none)
          (serviceArgs s.config) = .ok cfg ∧
        Understood environment s (supervisorArgs cfg)

/-! ## Reading an argument list of ours -/

/-- The words of the lists. -/
theorem classify_words :
    classify "--json" = .long "json" none ∧
    classify "--project" = .long "project" none ∧
    classify "--endpoint" = .long "endpoint" none ∧
    classify "--id" = .long "id" none ∧
    classify "--label" = .long "label" none ∧
    classify "--yes" = .long "yes" none ∧
    classify "--log-file" = .long "log-file" none ∧
    classify "--name" = .long "name" none ∧
    classify "listen" = .plain := by
  decide +kernel

theorem classify_json : classify "--json" = .long "json" none := classify_words.1

theorem classify_project : classify "--project" = .long "project" none := classify_words.2.1

theorem classify_endpoint : classify "--endpoint" = .long "endpoint" none := classify_words.2.2.1

theorem classify_id : classify "--id" = .long "id" none := classify_words.2.2.2.1

theorem classify_label : classify "--label" = .long "label" none := classify_words.2.2.2.2.1

theorem classify_yes : classify "--yes" = .long "yes" none := classify_words.2.2.2.2.2.1

theorem classify_logFile : classify "--log-file" = .long "log-file" none :=
  classify_words.2.2.2.2.2.2.1

theorem classify_name : classify "--name" = .long "name" none := classify_words.2.2.2.2.2.2.2.1

theorem classify_listen : classify "listen" = .plain := classify_words.2.2.2.2.2.2.2.2

/-- What an option that may be left out comes to be set to. -/
def setTo (name value : String) : List (String × String) :=
  if value ≠ "" then [(name, value)] else []

theorem not_dashed_empty : ¬ Dashed "" := by decide

theorem clapOptions_optional {defs : List OptionDef} {option name : String} {d : OptionDef}
    (harg : classify option = .long name none) (hd : findLong defs name = some d)
    (hvalue : d.takesValue = true) (value : String) (rest : List String) :
    clapOptions defs (optional option value ++ rest) =
      if Dashed value then .error (.missingValue name)
      else (clapOptions defs rest).map fun r => (setTo name value ++ r.1, r.2) := by
  unfold optional setTo
  by_cases hempty : value = ""
  · subst hempty
    rw [if_neg not_dashed_empty, if_neg (not_not.mpr rfl), if_neg (not_not.mpr rfl)]
    show clapOptions defs rest = _
    cases clapOptions defs rest <;> rfl
  · rw [if_pos hempty, List.cons_append, List.cons_append, List.nil_append,
      clapOptions_value harg hd hvalue, if_pos hempty]
    rfl

theorem clapOptions_yes (yes : Bool) :
    clapOptions listenDefs (yesOption yes) =
      if yes then .error (.unknown "--yes") else .ok ([], []) := by
  cases yes with
  | false => rfl
  | true => exact clapOptions_unknown classify_yes (by decide)

/-- What `listen` makes of the settings. -/
theorem clapOptions_listen (endpoint id label : String) (yes : Bool) :
    clapOptions listenDefs (optional "--endpoint" endpoint ++ (optional "--id" id ++
        (optional "--label" label ++ yesOption yes))) =
      if Dashed endpoint then .error (.missingValue "endpoint")
      else if Dashed id then .error (.missingValue "id")
      else if Dashed label then .error (.missingValue "label")
      else if yes then .error (.unknown "--yes")
      else .ok (setTo "endpoint" endpoint ++ (setTo "id" id ++ setTo "label" label), []) := by
  rw [clapOptions_optional classify_endpoint (d := ⟨"endpoint", none, true⟩) (by decide) rfl,
    clapOptions_optional classify_id (d := ⟨"id", none, true⟩) (by decide) rfl,
    clapOptions_optional classify_label (d := ⟨"label", none, true⟩) (by decide) rfl,
    clapOptions_yes]
  by_cases hendpoint : Dashed endpoint
  · rw [if_pos hendpoint, if_pos hendpoint]
  rw [if_neg hendpoint, if_neg hendpoint]
  by_cases hid : Dashed id
  · rw [if_pos hid, if_pos hid]
    rfl
  rw [if_neg hid, if_neg hid]
  by_cases hlabel : Dashed label
  · rw [if_pos hlabel, if_pos hlabel]
    rfl
  rw [if_neg hlabel, if_neg hlabel]
  cases yes with
  | true => rfl
  | false => simp [Except.map]

/-- The settings as they are read back. -/
theorem valueOf_listen (endpoint id label : String) :
    let set := setTo "endpoint" endpoint ++ (setTo "id" id ++ setTo "label" label)
    (set.map Prod.fst).Nodup ∧ valueOf "label" set = given label ∧
      valueOf "endpoint" set = given endpoint ∧ valueOf "id" set = given id := by
  unfold setTo given
  by_cases hendpoint : endpoint = "" <;> by_cases hid : id = "" <;> by_cases hlabel : label = "" <;>
    simp [hendpoint, hid, hlabel, valueOf]

theorem clap_front (project : String) (rest : List String) :
    clap argsDefs ("--json" :: "--project" :: project :: "listen" :: rest) =
      if Dashed project then .error (.missingValue "project")
      else .ok ([("json", "true"), ("project", project)], "listen" :: rest) := by
  unfold clap
  rw [clapOptions_flag classify_json (d := ⟨"json", none, false⟩) (by decide) rfl,
    clapOptions_value classify_project (d := ⟨"project", none, true⟩) (by decide) rfl,
    clapOptions_plain classify_listen]
  by_cases hproject : Dashed project
  · rw [if_pos hproject, if_pos hproject]
    rfl
  · rw [if_neg hproject, if_neg hproject]
    rfl

theorem parseArgs_listen {environment : String → Option String} {argv rest : List String}
    {set more : List (String × String)} (hfront : clap argsDefs argv = .ok (set, "listen" :: rest))
    (hrest : subcommand listenDefs rest = .ok more) :
    ∃ args, parseArgs environment argv = .ok args ∧ args.command =
      .listen (valueOf "label" more) (valueOf "endpoint" more) (valueOf "id" more) := by
  have hcommand : parseCommand "listen" rest =
      .ok (.listen (valueOf "label" more) (valueOf "endpoint" more) (valueOf "id" more), more) := by
    unfold parseCommand
    rw [if_neg (by decide), if_pos rfl, hrest]
    rfl
  unfold parseArgs
  simp only [hfront, hcommand]
  exact ⟨_, rfl, rfl⟩

theorem parseArgs_front {environment : String → Option String} {argv : List String} {e : Refused}
    (h : clap argsDefs argv = .error e) : parseArgs environment argv = .error e := by
  unfold parseArgs
  simp only [h]

theorem parseArgs_refused {environment : String → Option String} {argv rest : List String}
    {set : List (String × String)} {e : Refused}
    (hfront : clap argsDefs argv = .ok (set, "listen" :: rest))
    (hrest : subcommand listenDefs rest = .error e) : parseArgs environment argv = .error e := by
  have hcommand : parseCommand "listen" rest = .error e := by
    unfold parseCommand
    rw [if_neg (by decide), if_pos rfl, hrest]
    rfl
  unfold parseArgs
  simp only [hfront, hcommand]
  rfl

theorem subcommand_of_error {defs : List OptionDef} {rest : List String} {e : Refused}
    (h : clapOptions defs rest = .error e) : subcommand defs rest = .error e := by
  unfold subcommand clap
  simp only [h]

/-- Nothing a value is taken from starts with a dash, and `--yes` is not given. -/
structure Plain (s : Settings) : Prop where
  yes : s.yes = false
  endpoint : ¬ Dashed s.endpoint
  id : ¬ Dashed s.id
  label : ¬ Dashed s.label
  project : ¬ Dashed s.project

theorem listenArgs_eq (s : Settings) : listenArgs s.project (s.listenFlags false) =
    "--json" :: "--project" :: s.project :: "listen" :: (optional "--endpoint" s.endpoint ++
      (optional "--id" s.id ++ (optional "--label" s.label ++
        yesOption s.yes))) := by
  simp only [listenArgs, Settings.listenFlags, List.append_assoc, List.cons_append,
    List.nil_append]

theorem understood_of_plain {environment : String → Option String} {s : Settings} (h : Plain s) :
    Understood environment s (listenArgs s.project (s.listenFlags false)) := by
  have hfront := clap_front s.project (optional "--endpoint" s.endpoint ++ (optional "--id" s.id ++
    (optional "--label" s.label ++ yesOption s.yes)))
  rw [if_neg h.project] at hfront
  have hread := clapOptions_listen s.endpoint s.id s.label s.yes
  rw [if_neg h.endpoint, if_neg h.id, if_neg h.label, h.yes] at hread
  obtain ⟨hnodup, hlabel, hendpoint, hid⟩ := valueOf_listen s.endpoint s.id s.label
  have hsub : subcommand listenDefs (optional "--endpoint" s.endpoint ++ (optional "--id" s.id ++
      (optional "--label" s.label ++ yesOption s.yes))) =
        .ok (setTo "endpoint" s.endpoint ++ (setTo "id" s.id ++ setTo "label" s.label)) := by
    unfold subcommand clap
    rw [h.yes, hread]
    simp only [Bool.false_eq_true, if_false, if_pos hnodup]
  obtain ⟨args, hargs, hcommand⟩ := @parseArgs_listen environment _ _ _ _ hfront hsub
  rw [hlabel, hendpoint, hid] at hcommand
  refine ⟨args, _, ?_, hcommand⟩
  rw [listenArgs_eq]
  exact hargs

theorem plain_of_understood {environment : String → Option String} {s : Settings}
    (h : Understood environment s (listenArgs s.project (s.listenFlags false))) : Plain s := by
  obtain ⟨args, id, hargs, -⟩ := h
  have hfront := clap_front s.project (optional "--endpoint" s.endpoint ++ (optional "--id" s.id ++
    (optional "--label" s.label ++ yesOption s.yes)))
  rw [listenArgs_eq] at hargs
  by_cases hproject : Dashed s.project
  · rw [if_pos hproject] at hfront
    rw [parseArgs_front hfront] at hargs
    cases hargs
  rw [if_neg hproject] at hfront
  have hread := clapOptions_listen s.endpoint s.id s.label s.yes
  have hnot : ∀ e, clapOptions listenDefs (optional "--endpoint" s.endpoint ++
      (optional "--id" s.id ++ (optional "--label" s.label ++
        yesOption s.yes))) ≠ .error e := by
    intro e herror
    rw [parseArgs_refused hfront (subcommand_of_error herror)] at hargs
    cases hargs
  by_cases hendpoint : Dashed s.endpoint
  · rw [if_pos hendpoint] at hread
    exact absurd hread (hnot _)
  by_cases hid : Dashed s.id
  · rw [if_neg hendpoint, if_pos hid] at hread
    exact absurd hread (hnot _)
  by_cases hlabel : Dashed s.label
  · rw [if_neg hendpoint, if_neg hid, if_pos hlabel] at hread
    exact absurd hread (hnot _)
  by_cases hyes : s.yes = true
  · rw [if_neg hendpoint, if_neg hid, if_neg hlabel, if_pos hyes] at hread
    exact absurd hread (hnot _)
  exact ⟨Bool.eq_false_iff.mpr hyes, hendpoint, hid, hlabel, hproject⟩

/-! ## The ways that lead nowhere -/

/-- `listen` has no `--log-file`. -/
theorem not_understood_supervisorArgs {environment : String → Option String} {s : Settings}
    {cfg : Config} (hlog : cfg.logFile ≠ "") (hyes : cfg.yes = false) :
    ¬ Understood environment s (supervisorArgs cfg) := by
  rintro ⟨args, id, hargs, -⟩
  have hargv : supervisorArgs cfg = "--json" :: "listen" :: "--endpoint" :: cfg.endpoint ::
      (optional "--label" cfg.label ++ ["--log-file", cfg.logFile]) := by
    simp [supervisorArgs, hyes, yesOption, optional, hlog]
  have hfront : clap argsDefs (supervisorArgs cfg) = .ok ([("json", "true")], "listen" ::
      "--endpoint" :: cfg.endpoint :: (optional "--label" cfg.label ++
        ["--log-file", cfg.logFile])) := by
    rw [hargv]
    unfold clap
    rw [clapOptions_flag classify_json (d := ⟨"json", none, false⟩) (by decide) rfl,
      clapOptions_plain classify_listen]
    rfl
  have herror : ∃ e, clapOptions listenDefs ("--endpoint" :: cfg.endpoint ::
      (optional "--label" cfg.label ++ ["--log-file", cfg.logFile])) = .error e := by
    rw [clapOptions_value classify_endpoint (d := ⟨"endpoint", none, true⟩) (by decide) rfl,
      clapOptions_optional classify_label (d := ⟨"label", none, true⟩) (by decide) rfl,
      clapOptions_unknown classify_logFile (by decide)]
    split
    · exact ⟨_, rfl⟩
    · split <;> exact ⟨_, rfl⟩
  obtain ⟨e, he⟩ := herror
  rw [parseArgs_refused hfront (subcommand_of_error he)] at hargs
  cases hargs

theorem pathString_ne_empty (loc : Loc) : pathString loc ≠ "" := by
  intro heq
  have hlist := congrArg String.toList heq
  unfold pathString at hlist
  rw [String.toList_append] at hlist
  exact absurd (List.append_eq_nil_iff.mp hlist).1 (by decide)

theorem runRun_ok {layout : Layout} {inherited : List OptionDef}
    {load : String → Option TunnelConfig} {argv : List String} {cfg : Config}
    (h : runRun layout inherited load argv = .ok cfg) : cfg.logFile ≠ "" ∧ cfg.yes = false := by
  unfold runRun at h
  split at h
  · cases h
  · simp only at h
    split at h
    · cases h
    · split at h
      · cases h
      · split at h
        · cases h
        · cases h
          exact ⟨pathString_ne_empty _, rfl⟩

/-- Nothing comes of a start through `tunnel run`. -/
theorem not_understood_of_pluginRun {layout : Layout} {inherited : List OptionDef}
    {load : String → Option TunnelConfig} {environment : String → Option String} {s : Settings}
    {argv : List String} {cfg : Config} (h : pluginRun layout inherited load argv = .ok cfg) :
    ¬ Understood environment s (supervisorArgs cfg) := by
  unfold pluginRun at h
  split at h
  · obtain ⟨hlog, hyes⟩ := runRun_ok h
    exact not_understood_supervisorArgs hlog hyes
  · cases h

/-- Nor does `tunnel run` take what a detached `listen` starts it with. -/
theorem foregroundArgs_refused {layout : Layout} {inherited : List OptionDef}
    (hinherited : ∀ d ∈ inherited, d.name ≠ "endpoint" ∧ d.name ≠ "log-file")
    {load : String → Option TunnelConfig} {name logFile endpoint label : String} {yes : Bool}
    (hendpoint : endpoint ≠ "") :
    ∃ e, pluginRun layout inherited load (foregroundArgs name logFile endpoint label yes) =
      .error (.flags e) := by
  have hown : ∀ d ∈ runDefs inherited, d.name ≠ "endpoint" ∧ d.name ≠ "log-file" := by
    intro d hd
    rcases List.mem_append.mp hd with hd | hd
    · have hthree : ∀ d ∈ runDefs [], d.name ≠ "endpoint" ∧ d.name ≠ "log-file" := by decide
      exact hthree d hd
    · exact hinherited d hd
  have hendpointFlag : findLong (runDefs inherited) "endpoint" = none :=
    List.find?_eq_none.mpr fun d hd heq => (hown d hd).1 (of_decide_eq_true heq)
  have hlogFlag : findLong (runDefs inherited) "log-file" = none :=
    List.find?_eq_none.mpr fun d hd heq => (hown d hd).2 (of_decide_eq_true heq)
  have hname : findLong (runDefs inherited) "name" = some ⟨"name", none, true⟩ := rfl
  have hargv : foregroundArgs name logFile endpoint label yes = "tunnel" :: "run" :: "--name" ::
      name :: (optional "--log-file" logFile ++ "--endpoint" :: endpoint ::
        (optional "--label" label ++ yesOption yes)) := by
    have hsome : optional "--endpoint" endpoint = ["--endpoint", endpoint] := if_pos hendpoint
    simp only [foregroundArgs, hsome, List.append_assoc, List.cons_append, List.nil_append]
  rw [hargv]
  show ∃ e, runRun layout inherited load _ = .error (.flags e)
  unfold runRun
  rw [pflag_value classify_name hname rfl]
  by_cases hlog : logFile = ""
  · have hnone : optional "--log-file" logFile = [] := if_neg (not_not.mpr hlog)
    rw [hnone, List.nil_append, pflag_unknown classify_endpoint hendpointFlag]
    exact ⟨_, rfl⟩
  · have hsome : optional "--log-file" logFile = ["--log-file", logFile] := if_pos hlog
    rw [hsome, List.cons_append, pflag_unknown classify_logFile hlogFlag]
    exact ⟨_, rfl⟩

/-- **The chain holds** exactly where `tunnel listen` starts the Rust binary itself, with
nothing that starts with a dash, and without `--yes`. -/
theorem chainWorks_iff (layout : Layout) (inherited : List OptionDef)
    (hinherited : ∀ d ∈ inherited, d.name ≠ "endpoint" ∧ d.name ≠ "log-file")
    (environment : String → Option String) (entry : Entry) (s : Settings) (h : Accepts entry s) :
    ChainWorks layout inherited environment s entry ↔ entry = .listen ∧ Plain s := by
  cases entry with
  | listen =>
      constructor
      · intro hworks
        exact ⟨rfl, plain_of_understood hworks⟩
      · rintro ⟨-, hplain⟩
        exact understood_of_plain hplain
  | listenDetached =>
      constructor
      · rintro ⟨load, cfg, hrun, -⟩
        obtain ⟨e, hrefused⟩ := @foregroundArgs_refused layout inherited hinherited load s.name
          s.logFile s.endpoint s.label s.yes h.1
        rw [hrefused] at hrun
        cases hrun
      · rintro ⟨⟨⟩, -⟩
  | install =>
      constructor
      · rintro ⟨cfg, hrun, hunderstood⟩
        exact absurd hunderstood (not_understood_of_pluginRun hrun)
      · rintro ⟨⟨⟩, -⟩

def webSettings : Settings where
  name := "web"
  label := "Web"
  endpoint := "localhost:8080"
  id := ""
  logFile := ""
  project := "demo"
  session := "ci"
  yes := false

theorem chainWorks_web :
    ChainWorks (.standard ["me", "home"] (by decide)) [⟨"project", none, true⟩] (fun _ => none)
      webSettings .listen :=
  (chainWorks_iff (.standard ["me", "home"] (by decide)) [⟨"project", none, true⟩]
    (by decide) (fun _ => none) .listen webSettings (.inl (by decide))).mpr
    ⟨rfl, ⟨rfl, by decide, by decide, by decide, by decide⟩⟩

/-- In the background the same settings get as far as `tunnel run`; installed, as far as the
Rust binary. -/
theorem web_not_launched :
    Accepts .listenDetached webSettings ∧ Accepts .install webSettings ∧
      ¬ ChainWorks (.standard ["me", "home"] (by decide)) [⟨"project", none, true⟩]
        (fun _ => none) webSettings .listenDetached ∧
      ¬ ChainWorks (.standard ["me", "home"] (by decide)) [⟨"project", none, true⟩]
        (fun _ => none) webSettings .install := by
  refine ⟨⟨by decide, rfl, by decide⟩, ⟨by decide, by decide, by decide, by decide⟩, ?_, ?_⟩
  · rintro ⟨load, cfg, hrun, -⟩
    obtain ⟨e, hrefused⟩ := @foregroundArgs_refused (.standard ["me", "home"] (by decide))
      [⟨"project", none, true⟩] (by decide) load "web" "" "localhost:8080" "Web" false (by decide)
    change pluginRun _ _ load (foregroundArgs "web" "" "localhost:8080" "Web" false) = _ at hrun
    rw [hrefused] at hrun
    cases hrun
  · rintro ⟨cfg, hrun, hunderstood⟩
    exact not_understood_of_pluginRun hrun hunderstood

end DatumConnect.Plugin
