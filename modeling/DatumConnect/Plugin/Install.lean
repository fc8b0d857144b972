import DatumConnect.Lib.Prog
import DatumConnect.Plugin.Places
/-!
# Installing and uninstalling a tunnel's service

`tunnel install` and `tunnel uninstall`, each as the calls it makes.  Any call may fail, and
some get part of the way before they do; a command may be killed before any of its calls.
-/

namespace DatumConnect.Plugin

open DatumConnect.Lib
open DatumConnect.Lib.Files

structure TunnelConfig where
  name : String
  label : String := ""
  endpoint : String := ""
  project : String := ""
  session : String := ""
  org : String := ""
  apiHost : String := ""
  createdAt : String := ""
  credentialsHelperPath : String := ""
  deriving DecidableEq, Repr

inductive Contents where
  | yaml (cfg : TunnelConfig)
  | torn
  | other (text : String)
  deriving DecidableEq, Repr

abbrev Tree := FileTree Contents

def serviceName (tunnelName : String) : String := "datumctl-connect-" ++ tunnelName

/-- The unit of a tunnel's service, as one of the service managers names it. -/
def UnitFile (layout : Layout) (name : String) (loc : Loc) : Prop :=
  layout.unitDir <:+ loc ∧
    (loc.head? = some (serviceName name ++ ".service") ∨
      loc.head? = some (serviceName name ++ ".plist"))

/-- An entry stays as it is, or becomes a directory where there was nothing. -/
def KeptAt (t t' : Tree) (loc : Loc) : Prop :=
  t'.node loc = t.node loc ∨ t.node loc = none ∧ t'.node loc = some .dir

/-- What the service manager does to the files.  For the name of one entry it changes no
file but the unit's. -/
structure Services (layout : Layout) where
  install : TunnelConfig → (binPath : String) → Tree → Except IoError Unit × Tree
  stop : (tunnelName : String) → (binPath : String) → Tree → Except IoError Unit × Tree
  uninstall : (tunnelName : String) → (binPath : String) → Tree → Except IoError Unit × Tree
  install_frame : ∀ cfg binPath t loc, IsName cfg.name → ¬ UnitFile layout cfg.name loc →
    KeptAt t (install cfg binPath t).2 loc
  stop_frame : ∀ name binPath t loc, IsName name → ¬ UnitFile layout name loc →
    KeptAt t (stop name binPath t).2 loc
  uninstall_frame : ∀ name binPath t loc, IsName name → ¬ UnitFile layout name loc →
    KeptAt t (uninstall name binPath t).2 loc

/-! ## The calls -/

inductive Call where
  | validateSession (session : String)
  | ssarCheck (session : String)
  | stat (p : Loc)
  | mkdirAll (p : Loc)
  | writeFile (p : Loc) (cfg : TunnelConfig)
  | serviceInstall (cfg : TunnelConfig) (binPath : String)
  | serviceStop (tunnelName binPath : String)
  | serviceUninstall (tunnelName binPath : String)
  | remove (p : Loc)
  | removeAll (p : Loc)
  deriving DecidableEq, Repr

abbrev Reply (_ : Call) := Except IoError Unit

/-- How a call is answered: it does its work, fails with nothing done, or fails part of the
way, so many names of a path or the entries `gone` says being done. -/
inductive Answer where
  | works
  | fails (e : IoError)
  | partly (levels : Nat) (gone : Loc → Bool)

def stat (t : Tree) (p : Loc) : Except IoError Unit :=
  match t.find (pathOf p) with
  | .error e => .error e
  | .ok loc => if (t.node loc).isSome then .ok () else .error .notFound

/-- A directory in the place of the config file stays. -/
def handle {layout : Layout} (services : Services layout) (t : Tree) :
    (c : Call) → Answer → Tree × Reply c
  | _, .fails e => (t, .error e)
  | .validateSession _, .works | .ssarCheck _, .works => (t, .ok ())
  | .stat p, .works => (t, stat t p)
  | .validateSession _, .partly _ _ | .ssarCheck _, .partly _ _ | .stat _, .partly _ _
  | .remove _, .partly _ _ => (t, .error .other)
  | .mkdirAll p, .works => (Fs.createDirAll (pathOf p) t).swap
  | .mkdirAll p, .partly levels _ =>
      let made : Path := { pathOf p with names := (pathOf p).names.take levels }
      ((Fs.createDirAll made t).2, .error .other)
  | .writeFile p cfg, .works => (Fs.write (pathOf p) (.yaml cfg) t).swap
  | .writeFile p _, .partly _ _ => ((Fs.write (pathOf p) .torn t).2, .error .other)
  | .serviceInstall cfg binPath, .works => (services.install cfg binPath t).swap
  | .serviceInstall cfg binPath, .partly _ _ => ((services.install cfg binPath t).2, .error .other)
  | .serviceStop name binPath, .works => (services.stop name binPath t).swap
  | .serviceStop name binPath, .partly _ _ => ((services.stop name binPath t).2, .error .other)
  | .serviceUninstall name binPath, .works => (services.uninstall name binPath t).swap
  | .serviceUninstall name binPath, .partly _ _ =>
      ((services.uninstall name binPath t).2, .error .other)
  | .remove p, .works => (Fs.removeFile (pathOf p) t).swap
  | .removeAll p, .works => (t.removeSome p fun _ => true, .ok ())
  | .removeAll p, .partly _ gone => (t.removeSome p gone, .error .other)

/-! ## The commands -/

structure Exit where
  code : Nat
  message : String
  deriving DecidableEq, Repr

abbrev Command := Prog Call Reply

/-- What the commands read of their surroundings; `binPath` is `none` where the binary is
not found, and `home` is whether there is a home directory. -/
structure Env where
  k8sApi : String
  credentialsHelper : String
  binPath : Option String
  home : Bool
  now : String

structure InstallFlags where
  name : String
  label : String
  endpoint : String
  project : String
  session : String

section

variable (layout : Layout)

/-- `svcconfig.Exists`. -/
def isInstalled (name : String) : Command (Except IoError Bool) :=
  .call (.stat (configFilePath layout name)) fun
    | .ok () => .ret (.ok true)
    | .error .notFound => .ret (.ok false)
    | .error e => .ret (.error e)

/-- `svcconfig.Save`. -/
def save (cfg : TunnelConfig) (now : String) (path : Loc) : Command (Except IoError Unit) :=
  let cfg := if cfg.createdAt = "" then { cfg with createdAt := now } else cfg
  .call (.mkdirAll path.tail) fun
    | .error e => .ret (.error e)
    | .ok () => .call (.writeFile path cfg) .ret

/-- `svcconfig.Remove`. -/
def removeConfig (name : String) : Command (Except IoError Unit) :=
  .call (.remove (configFilePath layout name)) fun
    | .ok () | .error .notFound => .ret (.ok ())
    | .error e => .ret (.error e)

/-- The checks of the session, before anything is changed; `none` if they pass. -/
def checkSession (env : Env) (session : String) : Command (Option Exit) :=
  .call (.validateSession session) fun
    | .error _ => .ret (some ⟨78, "session validation"⟩)
    | .ok () =>
        if env.k8sApi ≠ "" then
          .call (.ssarCheck session) fun
            | .error _ => .ret (some ⟨78, "RBAC check failed"⟩)
            | .ok () => .ret none
        else .ret none

/-- From the check for a config of that name on. -/
def installConfig (env : Env) (flags : InstallFlags) : Command Exit := do
  match ← isInstalled layout flags.name with
  | .error _ => return ⟨1, "check config"⟩
  | .ok true => return ⟨64, "already installed"⟩
  | .ok false =>
      let cfg : TunnelConfig :=
        { name := flags.name, label := flags.label, endpoint := flags.endpoint
          project := flags.project, session := flags.session
          credentialsHelperPath := env.credentialsHelper }
      match ← save cfg env.now (configFilePath layout flags.name) with
      | .error _ => return ⟨1, "save config"⟩
      | .ok () =>
          match env.binPath with
          | none => return ⟨1, "resolve binary"⟩
          | some binPath =>
              match ← Prog.perform (.serviceInstall cfg binPath) with
              | .error _ =>
                  let _ ← removeConfig layout flags.name
                  return ⟨1, "install service"⟩
              | .ok () => return ⟨0, "installed"⟩

def runInstall (env : Env) (flags : InstallFlags) : Command Exit := do
  if flags.name = "" then return ⟨64, "--name is required"⟩
  if flags.endpoint = "" then return ⟨64, "--endpoint is required"⟩
  if flags.session = "" then return ⟨64, "--session is required"⟩
  if flags.project = "" then return ⟨64, "--project is required"⟩
  match ← checkSession env flags.session with
  | some exit => return exit
  | none => installConfig layout env flags

/-- `svcunit.Uninstall`: stops the service first, whatever comes of it. -/
def uninstallService (name binPath : String) : Command (Except IoError Unit) := do
  let _ ← Prog.perform (.serviceStop name binPath)
  Prog.perform (.serviceUninstall name binPath)

def runUninstall (env : Env) (name : String) : Command Exit := do
  if name = "" then return ⟨64, "--name is required"⟩
  match ← isInstalled layout name with
  | .error _ => return ⟨1, "check config"⟩
  | .ok false => return ⟨64, "not installed"⟩
  | .ok true =>
      match env.binPath with
      | none => return ⟨1, "resolve binary"⟩
      | some binPath =>
          match ← uninstallService name binPath with
          | .error _ => return ⟨1, "uninstall service"⟩
          | .ok () =>
              match ← removeConfig layout name with
              | .error _ => return ⟨1, "remove config"⟩
              | .ok () =>
                  if env.home then
                    let _ ← Prog.perform (.removeAll (serviceStateDir layout name))
                  return ⟨0, "uninstalled"⟩

/-- An install and then an uninstall of one name, each cut short where its answers end. -/
def installThenUninstall (services : Services layout) (env : Env) (flags : InstallFlags)
    (toInstall toUninstall : List Answer) (t : Tree) : Tree :=
  let installed := (Prog.exec (handle services) t toInstall (runInstall layout env flags)).1
  (Prog.exec (handle services) installed toUninstall (runUninstall layout env flags.name)).1

end

/-! ## What belongs to a tunnel -/

section

variable (layout : Layout)

/-- The files of the tunnel of that name. -/
def OfTunnel (name : String) (loc : Loc) : Prop :=
  loc = configFilePath layout name ∨ serviceStateDir layout name <:+ loc ∨
    loc = pidFilePath layout name ∨ loc = logFilePath layout name

/-- What an install or uninstall may change: the config file, the unit, and the state
directory if it is one below the services directory. -/
def Own (name : String) (loc : Loc) : Prop :=
  loc = configFilePath layout name ∨ UnitFile layout name loc ∨
    (layout.servicesDir <:+ serviceStateDir layout name ∧
      serviceStateDir layout name ≠ layout.servicesDir ∧ serviceStateDir layout name <:+ loc)

/-- Nothing of another tunnel changes, nor anything else but the tunnel's own. -/
structure Frame (name : String) (t t' : Tree) : Prop where
  others : ∀ other, IsName other → other ≠ name → ∀ loc, OfTunnel layout other loc →
    KeptAt t t' loc
  rest : ∀ loc, ¬ Own layout name loc → KeptAt t t' loc

/-- Whatever the service manager does, wherever the commands stop or fail. -/
def Contained (name : String) : Prop :=
  ∀ (services : Services layout) (env : Env) (flags : InstallFlags)
    (toInstall toUninstall : List Answer) (t : Tree), flags.name = name →
    Frame layout name t (installThenUninstall layout services env flags toInstall toUninstall t)

end

end DatumConnect.Plugin
