import SchemaLedger.Command.Arguments

/-!
# The help of a command

The help of a command says how to call it, what it does, and what its options are. The first line
is broken where it would grow too wide, and what is said about an option starts in one column for
all of them.
-/

namespace SchemaLedger.Command

/-- A command as its help tells of it. -/
structure Synopsis where
  /-- The name by which it is called. -/
  name : String
  about : String
  options : List OptionSpec
  deriving DecidableEq, Repr

/-- A row of blanks. -/
def blanks (n : Nat) : String := String.ofList (List.replicate n ' ')

namespace OptionSpec

/-- The word for the value of an option, in capitals. -/
def valueWord (o : OptionSpec) : String :=
  String.ofList ((o.name.toList.dropWhile (· = '-')).map fun c =>
    if c = '-' then '_' else c.toUpper)

/-- An option with the word for its value, if it takes one. -/
def withValue (o : OptionSpec) : String :=
  if o.kind = .flag then o.name else o.name ++ " " ++ o.valueWord

/-- An option in the line that says how to call a command. -/
def inCall (o : OptionSpec) : String :=
  if o = helpOption then "[-h]"
  else if o.required then o.withValue
  else "[" ++ o.withValue ++ "]"

/-- An option in the list of options. -/
def inList (o : OptionSpec) : String :=
  "  " ++ (if o = helpOption then "-h, " ++ o.name else o.withValue)

end OptionSpec

/-- The width of the help. -/
def helpWidth : Nat := 78

/-- The rightmost column in which what is said about an option may start. -/
def lastAboutColumn : Nat := 24

/-- Fills lines with words: `line` is the one being filled, and a full one goes on behind so many
blanks. -/
def fillLines (indent : Nat) (line : String) : List String → List String
  | [] => [line]
  | word :: rest =>
    if line.length + 1 + word.length ≤ helpWidth then fillLines indent (line ++ " " ++ word) rest
    else line :: fillLines indent (blanks (indent - 1) ++ " " ++ word) rest

/-- The lines about an option, with what is said about it in the given column. -/
def OptionSpec.lines (o : OptionSpec) (column : Nat) : List String :=
  if o.about = "" then [o.inList]
  else if o.inList.length + 2 ≤ column then
    [o.inList ++ blanks (column - o.inList.length) ++ o.about]
  else [o.inList, blanks column ++ o.about]

namespace Synopsis

/-- The options, with the one that asks for help. -/
def allOptions (s : Synopsis) : List OptionSpec := helpOption :: s.options

/-- The column in which what is said about an option starts. -/
def aboutColumn (s : Synopsis) : Nat :=
  min lastAboutColumn ((s.allOptions.map (·.inList.length)).foldl max 0 + 2)

/-- The lines of the help. -/
def help (s : Synopsis) : List String :=
  let call := "usage: " ++ s.name
  fillLines (call.length + 1) call (s.allOptions.map (·.inCall)) ++
    ["", s.about, "", "options:"] ++ s.allOptions.flatMap (·.lines s.aboutColumn)

end Synopsis

example : Synopsis.help ⟨"fill", "Fills a table",
      [{ name := "--row-count", kind := .integer, about := "How many rows" }]⟩ =
    ["usage: fill [-h] [--row-count ROW_COUNT]", "", "Fills a table", "", "options:",
      "  -h, --help            show this help message and exit",
      "  --row-count ROW_COUNT",
      "                        How many rows"] := by decide +kernel

end SchemaLedger.Command
