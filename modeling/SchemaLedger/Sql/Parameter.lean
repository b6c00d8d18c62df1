import SchemaLedger.Text.Word

/-!
# Statements with parameters

A statement names its parameters by a colon and a word. They are looked for in all of its text, in
quotes as well. A colon that stands behind another one or behind a word begins no parameter, and
neither does one with a backslash in front. The backslash is dropped before the statement is sent. It
stays where the word runs into another colon.
-/

namespace SchemaLedger.Sql

/-- Whether a parameter can begin right behind a character. -/
def separates (c : Char) : Bool := !(c = ':' || c = '\\' || Text.isWordChar c)

/-- The longest word at the beginning of a text that no colon follows. If the characters of words run
into a colon, the last of them is left over. -/
def parameterWord : List Char → List Char
  | [] => []
  | c :: rest =>
    if Text.isWordChar c = true ∧ rest.head? ≠ some ':' then c :: parameterWord rest else []

/-- The words that are parameters, in order, given the character in front of a text. -/
def parameterWords (before : Option Char) : List Char → List (List Char)
  | [] => []
  | c :: rest =>
    let word := parameterWord rest
    if c = ':' ∧ before.all separates = true ∧ word ≠ [] then
      word :: parameterWords (some c) rest
    else parameterWords (some c) rest

/-- The parameters that a statement names. -/
def parameters (statement : String) : List String :=
  (parameterWords none statement.toList).map String.ofList

/-- Whether a character belongs to what a backslash protects. -/
def isProtected (c : Char) : Bool := Text.isWordChar c || c = '$'

/-- The characters of a statement as they are sent. -/
def sentChars : List Char → List Char
  | '\\' :: ':' :: rest =>
    if (rest.dropWhile isProtected).head? = some ':' then '\\' :: sentChars (':' :: rest)
    else ':' :: sentChars rest
  | c :: rest => c :: sentChars rest
  | [] => []

/-- A statement as it is sent. -/
def sent (statement : String) : String := String.ofList (sentChars statement.toList)

example : parameters "f(:x, y::z) = \":a b\".\"\\:c\"" = ["x", "a"] ∧
    parameters ":ab: :c:" = ["a"] := by decide +kernel
example : sent "\"a\\:b\".\"c\\:\\:d\" :pk_0" = "\"a:b\".\"c::d\" :pk_0" ∧ sent "\\::a" = "\\::a" ∧
    sent "\\\\:a" = "\\:a" := by decide +kernel

end SchemaLedger.Sql
