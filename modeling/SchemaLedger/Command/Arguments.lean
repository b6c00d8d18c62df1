import SchemaLedger.Number.Read

/-!
# Command-line options

A command takes long options, some with a value behind them or after an equals sign. The name of an
option may be cut short as long as it is clear which one is meant. A request for help ends the
reading at once, and so does an option without its value or with a value that it cannot have; what
is left over, or required and missing, is told at the end. An option whose value, behind an equals
sign, is the mark for the end of the options counts as given, but it has no value.

The main statement: a complete name is the name of that option only (`matching_of_mem`).
-/

namespace SchemaLedger.Command

/-- What an option takes. -/
inductive OptionKind where
  | flag
  | text
  | integer
  | number
  deriving DecidableEq, Repr

/-- An option of a command. -/
structure OptionSpec where
  /-- The name with its dashes. -/
  name : String
  kind : OptionKind
  required : Bool := false
  /-- What the help says about it. -/
  about : String := ""
  deriving DecidableEq, Repr

/-- The value that an option was given. -/
inductive Setting where
  | flag
  | text (s : String)
  | integer (n : Int)
  | number (x : Binary64)
  /-- The option was given without a value. -/
  | nothing
  deriving DecidableEq, Repr

/-- Why a command is not run. -/
inductive Stop where
  /-- Help was asked for. -/
  | help
  /-- The arguments are wrong. -/
  | usage
  deriving DecidableEq, Repr

/-- The options that were given, in order. -/
abbrev Settings := List (String × Setting)

/-- What one argument is. -/
inductive Argument where
  /-- An option, perhaps with its value behind an equals sign. -/
  | option (spec : OptionSpec) (value : Option String)
  /-- The short request for help with what follows its letter. -/
  | shortHelp (letters : List Char)
  /-- An option that is not known. -/
  | unknown
  /-- Something else, which can be the value of an option. -/
  | plain (s : String)
  /-- The mark behind which there are no options. -/
  | endOfOptions
  deriving DecidableEq, Repr

/-- The option that asks for help. -/
def helpOption : OptionSpec :=
  { name := "--help", kind := .flag, about := "show this help message and exit" }

/-- The options that a name can stand for: the one of that name, else those whose name it starts. -/
def matching (specs : List OptionSpec) (name : String) : List OptionSpec :=
  match specs.find? (·.name = name) with
  | some spec => [spec]
  | none => specs.filter (·.name.startsWith name)

theorem matching_of_mem {specs : List OptionSpec} {spec : OptionSpec} (h : spec ∈ specs) :
    ∃ found ∈ specs, matching specs spec.name = [found] ∧ found.name = spec.name := by
  unfold matching
  cases hf : specs.find? (·.name = spec.name) with
  | none => exact absurd (List.find?_eq_none.1 hf spec h) (by simp)
  | some found =>
    exact ⟨found, List.mem_of_find?_eq_some hf, rfl, by simpa using List.find?_some hf⟩

/-- Whether characters are digits, with a point before or among them or without one. -/
def isPlainNumber (cs : List Char) : Bool :=
  let isDigit := fun c => (Text.digitValue? c).isSome
  match cs.dropWhile isDigit with
  | [] => !cs.isEmpty
  | '.' :: fraction => !fraction.isEmpty && fraction.all isDigit
  | _ => false

/-- Whether a text is a negative number, which is a value although it starts with a dash. One line
feed behind it does not count. -/
def isNegativeNumber (cs : List Char) : Bool :=
  match cs with
  | '-' :: rest =>
    isPlainNumber (if rest.getLast? = some '\n' then rest.dropLast else rest)
  | _ => false

/-- Splits a text at its first equals sign. -/
def splitValue (s : String) : String × Option String :=
  let cs := s.toList
  let name := cs.takeWhile (· ≠ '=')
  match cs.drop name.length with
  | [] => (s, none)
  | _ :: value => (String.ofList name, some (String.ofList value))

/-- An argument that starts with a dash and is no option of the command. -/
def leftOver (s : String) : Argument :=
  if isNegativeNumber s.toList || s.toList.contains ' ' then .plain s else .unknown

/-- What an argument is; an unclear name is an error at once. -/
def classify (specs : List OptionSpec) (s : String) : Except Stop Argument :=
  match s.toList with
  | '-' :: '-' :: _ =>
    -- a complete name wins, then the part in front of an equals sign is looked at
    let whole := specs.find? (·.name = s)
    let (name, value) := splitValue s
    match whole, matching specs name with
    | some spec, _ => .ok (.option spec none)
    | none, [spec] => .ok (.option spec value)
    | none, [] => .ok (leftOver s)
    | none, _ => .error .usage
  | '-' :: 'h' :: letters => .ok (.shortHelp letters)
  | '-' :: _ :: _ => .ok (leftOver s)
  | _ => .ok (.plain s)

/-- What the arguments are. Behind the mark for it there are no options. -/
def classifyAll (specs : List OptionSpec) : List String → Except Stop (List Argument)
  | [] => .ok []
  | "--" :: rest => .ok (.endOfOptions :: rest.map .plain)
  | s :: rest => do
    let a ← classify specs s
    return a :: (← classifyAll specs rest)

/-- The setting that a text gives for an option. -/
def readSetting (kind : OptionKind) (s : String) : Except Stop Setting :=
  match kind with
  | .flag => .error .usage
  | .text => .ok (.text s)
  | .integer =>
    match Number.readInt? s with
    | some n => .ok (.integer n)
    | none => .error .usage
  | .number =>
    match Number.readFloat? s with
    | some x => .ok (.number x)
    | none => .error .usage

/-- The setting that a text behind an equals sign gives for an option. -/
def readAttached (kind : OptionKind) (s : String) : Except Stop Setting :=
  if s = "--" ∧ kind ≠ .flag then .ok .nothing else readSetting kind s

/-- Whether a short request for help stands with what follows its letter: only more such letters can
follow, with or without an equals sign. -/
def isHelp : (letters : List Char) → Bool
  | '=' :: letters => !letters.isEmpty && letters.all (· = 'h')
  | letters => letters.all (· = 'h')

/-- Collects the settings; the flag tells whether something was left over. -/
def collect : List Argument → Except Stop (Settings × Bool)
  | [] => .ok ([], false)
  | .shortHelp letters :: _ => .error (if isHelp letters then .help else .usage)
  | .option spec value :: rest =>
    match spec.kind, value with
    | .flag, none =>
      if spec = helpOption then .error .help
      else do
        let (settings, extra) ← collect rest
        return ((spec.name, .flag) :: settings, extra)
    | kind, some s => do
      let setting ← readAttached kind s
      let (settings, extra) ← collect rest
      return ((spec.name, setting) :: settings, extra)
    | kind, none =>
      match rest with
      -- the value is the next argument, unless that looks like an option
      | .plain s :: rest => do
        let setting ← readSetting kind s
        let (settings, extra) ← collect rest
        return ((spec.name, setting) :: settings, extra)
      | _ => .error .usage
  | .unknown :: rest | .plain _ :: rest | .endOfOptions :: rest => do
    let (settings, _) ← collect rest
    return (settings, true)

/-- Reads the arguments of a command with the given options. -/
def readArguments (specs : List OptionSpec) (args : List String) : Except Stop Settings := do
  let (settings, extra) ← collect (← classifyAll (helpOption :: specs) args)
  let missing := specs.any fun spec => spec.required && !settings.any (·.1 = spec.name)
  if missing || extra then .error .usage else .ok settings

namespace Settings

/-- All settings of an option. -/
def all (s : Settings) (name : String) : List Setting :=
  (s.filter (·.1 = name)).map (·.2)

/-- All texts that an option was given; nothing where it was given without one. -/
def texts (s : Settings) (name : String) : List (Option String) :=
  (s.all name).map fun
    | .text t => some t
    | _ => none

/-- The last setting of an option. -/
def last? (s : Settings) (name : String) : Option Setting := (s.all name).getLast?

/-- The text that an option was given last, or what stands in for it if it was not given; nothing if
it was given without one. -/
def textOr (s : Settings) (name default : String) : Option String :=
  match s.last? name with
  | none => some default
  | some (.text t) => some t
  | some _ => none

/-- The integer that an option was given last, or what stands in for it if it was not given; nothing
if it was given without one. -/
def integerOr (s : Settings) (name : String) (default : Int) : Option Int :=
  match s.last? name with
  | none => some default
  | some (.integer n) => some n
  | some _ => none

/-- Whether a flag was given. -/
def has (s : Settings) (name : String) : Bool := s.any fun (n, v) => n = name && v = .flag

end Settings

example : (readArguments [{ name := "--schema", kind := .text },
      { name := "--limit", kind := .integer }] ["--sch=a", "--limit", "-3", "--sch=--"]).toOption =
    some [("--schema", .text "a"), ("--limit", .integer (-3)), ("--schema", .nothing)] := by
  decide +kernel
example : (readArguments [{ name := "--pk", kind := .text, required := true }] []).toOption = none ∧
    (readArguments [{ name := "--pk", kind := .text }] ["--pk"]).toOption = none ∧
    (readArguments [{ name := "--pk", kind := .text }] ["x"]).toOption = none := by decide +kernel

end SchemaLedger.Command
