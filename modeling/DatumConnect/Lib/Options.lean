import DatumConnect.Lib.Text
/-!
# Command line options

Two ways to read an argument list.  `pflag` takes whatever follows an option that wants a
value for that value, and lets options and other arguments mix.  `clap` does not take an
argument that starts with a dash for a value, takes no option twice, and stops at the first
argument that is no option, the name of a subcommand.
-/

namespace DatumConnect.Lib.Options

structure OptionDef where
  name : String
  short : Option Char := none
  takesValue : Bool
  deriving DecidableEq, Repr

inductive Refused where
  | unknown (arg : String)
  | missingValue (name : String)
  | badValue (name : String)
  | repeated
  | command
  deriving DecidableEq, Repr

/-- What an argument looks like. -/
inductive Arg where
  | plain
  | dashes
  | long (name : String) (value : Option String)
  | short (cluster : List Char)
  deriving DecidableEq, Repr

def classify (arg : String) : Arg :=
  match arg.toList with
  | ['-', '-'] => .dashes
  | '-' :: '-' :: rest =>
      match Text.splitOnce '=' rest with
      | some (name, value) => .long (String.ofList name) (some (String.ofList value))
      | none => .long (String.ofList rest) none
  | '-' :: c :: rest => .short (c :: rest)
  | _ => .plain

/-- The argument would be taken for an option. -/
def Dashed (arg : String) : Prop := arg.toList.head? = some '-'

instance (arg : String) : Decidable (Dashed arg) := by
  unfold Dashed
  infer_instance

def findLong (defs : List OptionDef) (name : String) : Option OptionDef :=
  defs.find? (·.name = name)

def findShort (defs : List OptionDef) (c : Char) : Option OptionDef :=
  defs.find? (·.short = some c)

/-- The options set, in the order given, and the other arguments. -/
abbrev Read := List (String × String) × List String

def addOption (name value : String) (r : Read) : Read := ((name, value) :: r.1, r.2)

def addPlain (arg : String) (r : Read) : Read := (r.1, arg :: r.2)

/-! ## pflag -/

/-- Options of one letter each, and the one that is left wanting a value. -/
def cluster (defs : List OptionDef) :
    List Char → Except Refused (List (String × String) × Option String)
  | [] => .ok ([], none)
  | c :: more =>
      match findShort defs c with
      | none => .error (.unknown (String.singleton c))
      | some d =>
          if d.takesValue then
            match more with
            | [] => .ok ([], some d.name)
            | '=' :: value => .ok ([(d.name, String.ofList value)], none)
            | value => .ok ([(d.name, String.ofList value)], none)
          else (cluster defs more).map fun (set, wanting) => ((d.name, "true") :: set, wanting)

/-- The texts `strconv.ParseBool` takes. -/
def isBool (s : String) : Bool :=
  ["1", "t", "T", "TRUE", "true", "True", "0", "f", "F", "FALSE", "false", "False"].contains s

def pflag (defs : List OptionDef) : List String → Except Refused Read
  | [] => .ok ([], [])
  | arg :: rest =>
      match classify arg with
      | .plain => (pflag defs rest).map (addPlain arg)
      | .dashes => .ok ([], rest)
      | .long name (some value) =>
          match findLong defs name with
          | none => .error (.unknown arg)
          | some d =>
              if d.takesValue ∨ isBool value = true then
                (pflag defs rest).map (addOption name value)
              else .error (.badValue name)
      | .long name none =>
          match findLong defs name with
          | none => .error (.unknown arg)
          | some d =>
              if d.takesValue then
                match rest with
                | [] => .error (.missingValue name)
                | value :: rest => (pflag defs rest).map (addOption name value)
              else (pflag defs rest).map (addOption name "true")
      | .short letters =>
          match cluster defs letters with
          | .error e => .error e
          | .ok (set, none) => (pflag defs rest).map fun r => (set ++ r.1, r.2)
          | .ok (set, some name) =>
              match rest with
              | [] => .error (.missingValue name)
              | value :: rest =>
                  (pflag defs rest).map fun r => (set ++ (name, value) :: r.1, r.2)

/-- The value of an option: the last one given. -/
def valueOf (name : String) (set : List (String × String)) : Option String :=
  (set.reverse.find? (·.1 = name)).map Prod.snd

/-! ## clap -/

/-- The options before the first argument that is none; `--` with nothing after it is the
end.  Options of one letter are none of ours. -/
def clapOptions (defs : List OptionDef) : List String → Except Refused Read
  | [] => .ok ([], [])
  | arg :: rest =>
      match classify arg with
      | .plain => .ok ([], arg :: rest)
      | .dashes => if rest = [] then .ok ([], []) else .error (.unknown arg)
      | .short _ => .error (.unknown arg)
      | .long name (some value) =>
          match findLong defs name with
          | none => .error (.unknown arg)
          | some d =>
              if d.takesValue then (clapOptions defs rest).map (addOption name value)
              else .error (.badValue name)
      | .long name none =>
          match findLong defs name with
          | none => .error (.unknown arg)
          | some d =>
              if d.takesValue then
                match rest with
                | [] => .error (.missingValue name)
                | value :: rest =>
                    if Dashed value then .error (.missingValue name)
                    else (clapOptions defs rest).map (addOption name value)
              else (clapOptions defs rest).map (addOption name "true")

/-- No option twice. -/
def clap (defs : List OptionDef) (args : List String) : Except Refused Read :=
  match clapOptions defs args with
  | .error e => .error e
  | .ok r => if (r.1.map Prod.fst).Nodup then .ok r else .error .repeated

/-! ### An option at a time -/

section

variable {defs : List OptionDef} {arg name value : String} {rest : List String}

theorem pflag_value {d : OptionDef} (harg : classify arg = .long name none)
    (hd : findLong defs name = some d) (hvalue : d.takesValue = true) :
    pflag defs (arg :: value :: rest) = (pflag defs rest).map (addOption name value) := by
  simp [pflag, harg, hd, hvalue]

theorem pflag_unknown (harg : classify arg = .long name none) (hd : findLong defs name = none) :
    pflag defs (arg :: rest) = .error (.unknown arg) := by
  simp [pflag, harg, hd]

theorem clapOptions_flag {d : OptionDef} (harg : classify arg = .long name none)
    (hd : findLong defs name = some d) (hvalue : d.takesValue = false) :
    clapOptions defs (arg :: rest) = (clapOptions defs rest).map (addOption name "true") := by
  rw [clapOptions]
  simp [harg, hd, hvalue]

theorem clapOptions_value {d : OptionDef} (harg : classify arg = .long name none)
    (hd : findLong defs name = some d) (hvalue : d.takesValue = true) :
    clapOptions defs (arg :: value :: rest) =
      if Dashed value then .error (.missingValue name)
      else (clapOptions defs rest).map (addOption name value) := by
  rw [clapOptions]
  simp [harg, hd, hvalue]

theorem clapOptions_unknown (harg : classify arg = .long name none)
    (hd : findLong defs name = none) : clapOptions defs (arg :: rest) = .error (.unknown arg) := by
  rw [clapOptions]
  simp [harg, hd]

theorem clapOptions_plain (harg : classify arg = .plain) :
    clapOptions defs (arg :: rest) = .ok ([], arg :: rest) := by
  rw [clapOptions]
  simp [harg]

end

end DatumConnect.Lib.Options
