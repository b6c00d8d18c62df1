/-!
# Quoting

Names and texts go into statements between quotes. Inside a quoted name a quote is written twice,
and so it is inside a literal; a literal with a backslash is written in the form that starts with
`E`, where a backslash is written twice as well, with a blank in front so that it cannot join the
word before.
-/

namespace SchemaLedger.Sql

/-- Writes every occurrence of a character twice. -/
def doubled (c : Char) (cs : List Char) : List Char :=
  cs.flatMap fun d => if d = c then [c, c] else [d]

/-- The characters of a quoted name. -/
def identChars (name : List Char) : List Char := '"' :: doubled '"' name ++ ['"']

/-- The characters of a quoted literal. -/
def literalChars (text : List Char) : List Char :=
  let escaped := doubled '\'' text
  if escaped.contains '\\' then ' ' :: 'E' :: '\'' :: doubled '\\' escaped ++ ['\'']
  else '\'' :: escaped ++ ['\'']

/-- A name as it stands in a statement. -/
def quoteIdent (name : String) : String := String.ofList (identChars name.toList)

/-- A text as it stands in a statement. -/
def quoteLiteral (text : String) : String := String.ofList (literalChars text.toList)

theorem toList_quoteIdent (name : String) :
    (quoteIdent name).toList = identChars name.toList := String.toList_ofList

theorem toList_quoteLiteral (text : String) :
    (quoteLiteral text).toList = literalChars text.toList := String.toList_ofList

/-- A table with its schema as it stands in a statement. -/
def quoteTable (schema table : String) : String := quoteIdent schema ++ "." ++ quoteIdent table

/-- Lines as one text. -/
def unlines (lines : List String) : String := "\n".intercalate lines

example : quoteIdent "od\"d" = "\"od\"\"d\"" := by decide +kernel
example : quoteLiteral "it's" = "'it''s'" ∧ quoteLiteral "a\\'" = " E'a\\\\'''" := by
  decide +kernel

end SchemaLedger.Sql
