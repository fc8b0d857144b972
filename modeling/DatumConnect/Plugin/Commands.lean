import DatumConnect.Lib.Pool
import DatumConnect.Plugin.PidFile
import DatumConnect.Plugin.Processes
/-!
# The commands that share the pid files

`RunSupervisor`, `tunnel stop`, `tunnel ps` and `tunnel daemon start` and `stop`, each a program
of file and process operations, beside processes that come and go.
-/

namespace DatumConnect.Plugin.Commands

open DatumConnect.Lib
open DatumConnect.Lib.Pool

/-! ## Files and processes -/

inductive File where
  | daemon
  | tunnel (name : String)
  deriving DecidableEq, Repr

structure Entry where
  text : List Char
  /-- The process that was started by the command that wrote the file. -/
  recorded : Option Nat := none
  deriving DecidableEq, Repr

/-- A signal as it was sent, by a command that had read a file. -/
structure Sent where
  recorded : Option Nat
  targets : List Nat
  deriving DecidableEq, Repr

structure Host where
  machine : Machine := {}
  files : List (File × Entry) := []
  sent : List Sent := []
  /-- The running daemons that `daemon start` has reported, each with what the file recorded. -/
  reported : List (Option Nat × Proc) := []

inductive Call where
  | exists (file : File)
  | read (file : File)
  | listTunnels
  | pidAlive (n : Int)
  | findProcess (n : Int)
  | signal (entry : Entry) (handle : Handle) (signal : Nat)
  | beforeDeadline
  | remove (file : File)
  | create (file : File)
  | write (file : File) (entry : Entry)
  | now
  | start (role : Role)
  | wait (serial : Nat)
  | report (entry : Entry) (seen : Proc)
  /-- What others do: a process ends or comes up, somebody writes a file. -/
  | ends (serial : Nat)
  | arrives
  | put (file : File) (text : List Char)
  deriving DecidableEq, Repr

abbrev Call.Reply : Call → Type
  | .exists _ | .beforeDeadline | .create _ | .write _ _ => Bool
  | .read _ => Option Entry
  | .listTunnels => List String
  | .pidAlive _ => Option Proc
  | .findProcess _ => Handle
  | .signal _ _ _ => Bool
  | .now => List Char
  | .start _ => Option Proc
  | .remove _ | .wait _ | .report _ _ | .ends _ | .arrives | .put _ _ => Unit

abbrev Cmd := Prog Call Call.Reply

namespace Cmd

def perform (c : Call) : Cmd c.Reply := Prog.perform c

/-! ## The commands -/

section

variable (parseTime : List Char → Option Nat)

/-- `pidfile.Read`. -/
def readPidFile (file : File) : Cmd (Option (Entry × PidFile)) := do
  match ← perform (.read file) with
  | none => return none
  | some entry => return (PidFile.parse parseTime entry.text).map fun pf => (entry, pf)

/-- `pidfile.Write`: the file is emptied, and then written. -/
def writePidFile (file : File) (goPid : Nat) (child : Proc) (startTime : List Char)
    (binaryPath : List Char) : Cmd Bool := do
  if ← perform (.create file) then
    perform (.write file {
      text := PidFile.render goPid child.pid startTime binaryPath
      recorded := some child.serial })
  else return false

/-- `RunSupervisor`, from the start of its own process on. -/
def runSupervisor (name : String) (binaryPath : List Char) : Cmd Unit := do
  match ← perform (.start (.supervisor name)) with
  | none => return ()
  | some self =>
      match ← perform (.start (.child name)) with
      | none => return ()
      | some child =>
          if name ≠ "" then
            let startTime ← perform .now
            let _ ← writePidFile (.tunnel name) self.pid child startTime binaryPath
            perform (.wait child.serial)
            perform (.remove (.tunnel name))
          else perform (.wait child.serial)

/-- The seconds of the grace period of `tunnel stop`. -/
def awaitExit (entry : Entry) (pid : Int) (handle : Handle) : Nat → Cmd Unit
  | 0 => do
      let _ ← perform (.signal entry handle 9)
      return ()
  | n + 1 => do
      match ← perform (.pidAlive pid) with
      | none => return ()
      | some _ => awaitExit entry pid handle n

/-- `tunnel stop`, but for the service of a tunnel that has no pid file. -/
def tunnelStop (name : String) : Cmd Unit := do
  if ← perform (.exists (.tunnel name)) then
    match ← readPidFile parseTime (.tunnel name) with
    | none => return ()
    | some (entry, pf) =>
        let handle ← perform (.findProcess pf.rustPid)
        let _ ← perform (.signal entry handle 15)
        awaitExit entry pf.rustPid handle 30
        perform (.remove (.tunnel name))
  else return ()

/-- The rounds of a hundred milliseconds, and whether the last signal, if any, was sent. -/
def terminateRounds (entry : Entry) (pid : Int) (handle : Handle) : Nat → Cmd Bool
  | 0 => do
      match ← perform (.pidAlive pid) with
      | none => return true
      | some _ => perform (.signal entry handle 9)
  | n + 1 => do
      if ← perform .beforeDeadline then
        match ← perform (.pidAlive pid) with
        | none => return true
        | some _ => terminateRounds entry pid handle n
      else
        match ← perform (.pidAlive pid) with
        | none => return true
        | some _ => perform (.signal entry handle 9)

def terminateGracefully (entry : Entry) (pid : Int) : Cmd Bool := do
  let handle ← perform (.findProcess pid)
  let _ ← perform (.signal entry handle 15)
  terminateRounds entry pid handle 300

/-- `tunnel daemon stop`. -/
def daemonStop : Cmd Unit := do
  match ← readPidFile parseTime .daemon with
  | none => return ()
  | some (entry, pf) =>
      match ← perform (.pidAlive pf.rustPid) with
      | none => perform (.remove .daemon)
      | some _ =>
          if ← terminateGracefully entry pf.rustPid then perform (.remove .daemon)
          else return ()

/-- The part of `tunnel daemon start` that starts one. -/
def launchDaemon (binaryPath : List Char) : Cmd Unit := do
  match ← perform (.start .daemon) with
  | none => return ()
  | some child =>
      let startTime ← perform .now
      let _ ← writePidFile .daemon 0 child startTime binaryPath
      return ()

/-- `tunnel daemon start`. -/
def daemonStart (binaryPath : List Char) : Cmd Unit := do
  match ← readPidFile parseTime .daemon with
  | none => launchDaemon binaryPath
  | some (entry, pf) =>
      match ← perform (.pidAlive pf.rustPid) with
      | some seen => perform (.report entry seen)
      | none => launchDaemon binaryPath

/-- `ListRunningTunnels`: the tunnels that have a pid file, with their status. -/
def listRunningTunnels : List String → Cmd (List (String × Status))
  | [] => return []
  | name :: names => do
      match ← readPidFile parseTime (.tunnel name) with
      | none => listRunningTunnels names
      | some (_, pf) =>
          let go ← perform (.pidAlive pf.goPid)
          let rust ← perform (.pidAlive pf.rustPid)
          let rest ← listRunningTunnels names
          return (name, computeTunnelStatus go.isSome rust.isSome) :: rest

def removeZombies : List (String × Status) → Cmd Unit
  | [] => return ()
  | (name, status) :: rest => do
      if status = .zombie then
        perform (.remove (.tunnel name))
        removeZombies rest
      else removeZombies rest

/-- `tunnel ps`. -/
def ps (prune : Bool) : Cmd Unit := do
  let names ← perform .listTunnels
  let tunnels ← listRunningTunnels parseTime names
  if prune then removeZombies tunnels else return ()

end

end Cmd

inductive Op where
  | runSupervisor (name : String) (binaryPath : List Char)
  | tunnelStop (name : String)
  | ps (prune : Bool)
  | daemonStart (binaryPath : List Char)
  | daemonStop
  | ends (serial : Nat)
  | arrives
  | put (file : File) (text : List Char)
  deriving DecidableEq, Repr

def Op.code (parseTime : List Char → Option Nat) : Op → Cmd Unit
  | .runSupervisor name binaryPath => Cmd.runSupervisor name binaryPath
  | .tunnelStop name => Cmd.tunnelStop parseTime name
  | .ps prune => Cmd.ps parseTime prune
  | .daemonStart binaryPath => Cmd.daemonStart parseTime binaryPath
  | .daemonStop => Cmd.daemonStop parseTime
  | .ends serial => Cmd.perform (.ends serial)
  | .arrives => Cmd.perform .arrives
  | .put file text => Cmd.perform (.put file text)

/-! ## What the calls do -/

/-- How a call goes, where that is not settled by the files and processes. -/
structure Answer where
  ok : Bool := true
  pid : Nat := 0
  group : Nat := 0
  ours : Bool := true
  time : List Char := []
  deriving DecidableEq, Repr

namespace Host

variable (h : Host)

def entry (file : File) : Option Entry := h.files.lookup file

def setFile (file : File) (entry : Entry) : Host :=
  { h with files := (file, entry) :: h.files.filter fun f => f.1 ≠ file }

def removeFile (file : File) : Host := { h with files := h.files.filter fun f => f.1 ≠ file }

def started (answer : Answer) (ours : Bool) (role : Role) : Host × Option Proc :=
  if answer.ok = true ∧ h.machine.Free answer.pid then
    ({ h with machine := h.machine.spawn answer.pid answer.group ours role },
      some (h.machine.spawned answer.pid answer.group ours role))
  else (h, none)

def ended (serial : Nat) : Host := { h with machine := h.machine.ends serial }

def names : List String :=
  h.files.filterMap fun f =>
    match f.1 with
    | .daemon => none
    | .tunnel name => some name

def handle (pidfd : Bool) (h : Host) : (c : Call) → Answer → Host × c.Reply
  | .exists file, _ => (h, (h.entry file).isSome)
  | .read file, _ => (h, h.entry file)
  | .listTunnels, _ => (h, h.names)
  | .pidAlive n, _ => (h, h.machine.pidAlive n)
  | .findProcess n, _ => (h, h.machine.findProcess pidfd n)
  | .signal entry handle _, _ =>
      let targets := h.machine.targets handle
      ({ h with sent := { recorded := entry.recorded, targets } :: h.sent },
        !targets.isEmpty)
  | .beforeDeadline, answer => (h, answer.ok)
  | .remove file, _ => (h.removeFile file, ())
  | .create file, answer =>
      if answer.ok then (h.setFile file { text := [] }, true) else (h, false)
  | .write file entry, answer => if answer.ok then (h.setFile file entry, true) else (h, false)
  | .now, answer => (h, answer.time)
  | .start role, answer => h.started answer true role
  | .wait _, _ => (h, ())
  | .report entry seen, _ => ({ h with reported := (entry.recorded, seen) :: h.reported }, ())
  | .ends serial, _ => (h.ended serial, ())
  | .arrives, answer => ((h.started answer answer.ours .other).1, ())
  | .put file text, _ => (h.setFile file { text }, ())

/-! ## What a call leaves alone -/

/-- The pid file a call changes. -/
def Changes : Call → File → Prop
  | .create file', file | .write file' _, file | .remove file', file | .put file' _, file =>
      file' = file
  | _, _ => False

theorem lookup_filter_of_ne {files : List (File × Entry)} {file other : File} (hne : file ≠ other) :
    (files.filter fun f => f.1 ≠ other).lookup file = files.lookup file := by
  induction files with
  | nil => rfl
  | cons f files ih =>
      obtain ⟨name, entry⟩ := f
      by_cases hname : name = other
      · have hdrop : ((name, entry) :: files).filter (fun f => f.1 ≠ other) =
            files.filter fun f => f.1 ≠ other :=
          List.filter_cons_of_neg (by simp [hname])
        have hlookup : ((name, entry) :: files).lookup file = files.lookup file := by
          rw [List.lookup_cons]
          have hother : (file == name) = false := by
            rw [hname]
            exact beq_false_of_ne hne
          rw [hother]
        rw [hdrop, ih, hlookup]
      · have hkeep : ((name, entry) :: files).filter (fun f => f.1 ≠ other) =
            (name, entry) :: files.filter fun f => f.1 ≠ other :=
          List.filter_cons_of_pos (by simp [hname])
        rw [hkeep, List.lookup_cons, List.lookup_cons, ih]

theorem entry_setFile (h : Host) (file : File) (entry : Entry) :
    (h.setFile file entry).entry file = some entry := by
  unfold Host.entry Host.setFile
  rw [List.lookup_cons_self]

theorem entry_setFile_of_ne (h : Host) {file other : File} (entry : Entry) (hne : file ≠ other) :
    (h.setFile other entry).entry file = h.entry file := by
  unfold Host.entry Host.setFile
  rw [List.lookup_cons, beq_false_of_ne hne]
  exact lookup_filter_of_ne hne

theorem entry_removeFile_of_ne (h : Host) {file other : File} (hne : file ≠ other) :
    (h.removeFile other).entry file = h.entry file := lookup_filter_of_ne hne

theorem entry_handle {pidfd : Bool} (h : Host) {c : Call} (answer : Answer) {file : File}
    (hc : ¬Changes c file) : (h.handle pidfd c answer).1.entry file = h.entry file := by
  cases c with
  | create other | write other entry =>
      have hne : file ≠ other := fun heq => hc heq.symm
      simp only [handle]
      split
      · exact h.entry_setFile_of_ne _ hne
      · rfl
  | put other text => exact h.entry_setFile_of_ne _ fun heq => hc heq.symm
  | remove other => exact h.entry_removeFile_of_ne fun heq => hc heq.symm
  | arrives | start role =>
      simp only [handle, started]
      split <;> rfl
  | _ => rfl

/-- The processes that come up are those the call starts. -/
theorem moves_handle {pidfd : Bool} (h : Host) (c : Call) (answer : Answer) :
    Moves h.machine (h.handle pidfd c answer).1.machine fun p => h.machine.Free answer.pid ∧
      ((∃ role, c = .start role ∧ p = h.machine.spawned answer.pid answer.group true role) ∨
        c = .arrives ∧ p = h.machine.spawned answer.pid answer.group answer.ours .other) := by
  cases c with
  | ends serial => exact moves_ends _ _ _
  | create other | write other entry =>
      simp only [handle]
      split <;> exact Moves.refl _ _
  | start role =>
      change Moves _ (h.started answer true role).1.machine _
      unfold started
      split
      · rename_i hgo
        exact moves_spawn ⟨hgo.2, .inl ⟨role, rfl, rfl⟩⟩
      · exact Moves.refl _ _
  | arrives =>
      change Moves _ (h.started answer answer.ours .other).1.machine _
      unfold started
      split
      · rename_i hgo
        exact moves_spawn ⟨hgo.2, .inr ⟨rfl, rfl⟩⟩
      · exact Moves.refl _ _
  | _ => exact Moves.refl _ _

end Host

end DatumConnect.Plugin.Commands
