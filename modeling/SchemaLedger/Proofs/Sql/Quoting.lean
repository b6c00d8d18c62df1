import SchemaLedger.Sql.Reading

/-!
# Quoting and reading

A quoted text is written with its quotes doubled, and a literal with a backslash in another form that
doubles the backslashes of that, so that there are three ways to read it. In each of them the reader
takes up the whole text and comes to the closing quote (`readQuoted?_doubled_append`,
`readQuoted?_doubled_doubled_append`). There it looks at one more character: a further quote would
not close the text but continue it (`readQuoted?_close_iff`). Otherwise nothing in the text and
nothing behind it matters (`quoted_read_back_iff`). So a quoted name can be told from what follows it
(`identChars_append_inj`).
-/

namespace SchemaLedger.Sql

section Quoted

variable {quote : Char} {escape : Option Char} {rest : List Char}

/-- A quote closes a text exactly if no further one follows. -/
theorem readQuoted?_close_iff (hescape : escape ≠ some quote) :
    readQuoted? quote escape (quote :: rest) = some ([], rest) ↔ rest.head? ≠ some quote := by
  refine ⟨fun hread hhead => ?_, fun hhead => readQuoted?_close hhead hescape⟩
  obtain ⟨more, rfl⟩ := List.head?_eq_some_iff.mp hhead
  -- two quotes stand for one, which is then part of the text
  rw [readQuoted?_quote hescape, Option.map_eq_some_iff] at hread
  obtain ⟨_, -, htext⟩ := hread
  exact nomatch htext

/-- Without an escape character, only the quote is written twice. Behind the text the reading goes
on. -/
theorem readQuoted?_doubled_append (text cs : List Char) :
    readQuoted? quote none (doubled quote text ++ cs) =
      (readQuoted? quote none cs).map fun (more, behind) => (text ++ more, behind) := by
  have hnone : ∀ c : Char, none ≠ some c := fun _ => nofun
  induction text with
  | nil => simp [doubled_nil]
  | cons c text ih =>
    by_cases hc : c = quote
    · subst hc
      rw [doubled_cons_self, List.cons_append, List.cons_append, readQuoted?_quote (hnone c), ih,
        Option.map_map]
      rfl
    · rw [doubled_cons_of_ne hc, List.cons_append, readQuoted?_cons hc (hnone c), ih,
        Option.map_map]
      rfl

/-- With one, it is written twice as well. -/
theorem readQuoted?_doubled_doubled_append {escape : Char} (hne : escape ≠ quote)
    (text cs : List Char) :
    readQuoted? quote (some escape) (doubled escape (doubled quote text) ++ cs) =
      (readQuoted? quote (some escape) cs).map fun (more, behind) => (text ++ more, behind) := by
  have hescape : some escape ≠ some quote := fun he => hne (Option.some.inj he)
  induction text with
  | nil => simp [doubled_nil]
  | cons c text ih =>
    by_cases hc : c = quote
    · subst hc
      rw [doubled_cons_self, doubled_cons_of_ne hne.symm, doubled_cons_of_ne hne.symm,
        List.cons_append, List.cons_append, readQuoted?_quote hescape, ih, Option.map_map]
      rfl
    · rw [doubled_cons_of_ne hc]
      by_cases hc' : c = escape
      · subst hc'
        rw [doubled_cons_self, List.cons_append, List.cons_append, readQuoted?_escape, ih,
          Option.map_map]
        rfl
      · rw [doubled_cons_of_ne hc', List.cons_append,
          readQuoted?_cons hc (fun he => hc' (Option.some.inj he).symm), ih, Option.map_map]
        rfl

theorem map_append_eq_some_iff {read : Option (List Char × List Char)} {text : List Char} :
    (read.map fun (more, behind) => (text ++ more, behind)) = some (text, rest) ↔
      read = some ([], rest) := by
  cases read <;> simp [Prod.ext_iff]

theorem readQuoted?_doubled_iff (text : List Char) :
    readQuoted? quote none (doubled quote text ++ quote :: rest) = some (text, rest) ↔
      rest.head? ≠ some quote := by
  rw [readQuoted?_doubled_append, map_append_eq_some_iff, readQuoted?_close_iff (by simp)]

theorem readQuoted?_doubled_doubled_iff {escape : Char} (hne : escape ≠ quote) (text : List Char) :
    readQuoted? quote (some escape) (doubled escape (doubled quote text) ++ quote :: rest) =
      some (text, rest) ↔ rest.head? ≠ some quote := by
  rw [readQuoted?_doubled_doubled_append hne, map_append_eq_some_iff,
    readQuoted?_close_iff (by simpa using hne)]

end Quoted

/-! ## Names -/

theorem readIdent?_identChars_iff (name rest : List Char) :
    readIdent? (identChars name ++ rest) = some (name, rest) ↔ rest.head? ≠ some '"' := by
  rw [identChars, List.append_assoc, List.cons_append, readIdent?]
  exact readQuoted?_doubled_iff name

/-- A quoted name is read back. -/
theorem readIdent?_identChars (name : List Char) {rest : List Char}
    (h : rest.head? ≠ some '"') : readIdent? (identChars name ++ rest) = some (name, rest) :=
  (readIdent?_identChars_iff name rest).mpr h

/-- A quoted name ends where the same words follow. -/
theorem identChars_append_inj {name name' words rest rest' : List Char} (hne : words ≠ [])
    (hquote : words.head? ≠ some '"')
    (h : identChars name ++ (words ++ rest) = identChars name' ++ (words ++ rest')) :
    name = name' ∧ rest = rest' := by
  have hhead : ∀ more, (words ++ more).head? ≠ some '"' := by
    cases words with
    | nil => exact absurd rfl hne
    | cons c words => exact fun _ => hquote
  have hread := congrArg readIdent? h
  rw [readIdent?_identChars name (hhead rest), readIdent?_identChars name' (hhead rest')] at hread
  obtain ⟨hname, hrest⟩ := Prod.mk.inj (Option.some.inj hread)
  exact ⟨hname, List.append_cancel_left hrest⟩

/-! ## Literals -/

/-- The form of a literal is chosen by whether there is a backslash in it. -/
theorem readLiteral?_literalChars_iff (text rest : List Char) :
    readLiteral? (literalChars text ++ rest) = some (text, rest) ↔ rest.head? ≠ some '\'' := by
  rw [literalChars_eq]
  split
  next =>
    have hchars : (' ' :: 'E' :: '\'' :: doubled '\\' (doubled '\'' text) ++ ['\''] ++ rest) =
        ' ' :: 'E' :: '\'' :: (doubled '\\' (doubled '\'' text) ++ '\'' :: rest) := by simp
    rw [hchars, readLiteral?]
    exact readQuoted?_doubled_doubled_iff (by decide) text
  next =>
    have hchars : '\'' :: doubled '\'' text ++ ['\''] ++ rest =
        '\'' :: (doubled '\'' text ++ '\'' :: rest) := by simp
    rw [hchars, readLiteral?]
    exact readQuoted?_doubled_iff text

/-- A quoted literal is read back, in whichever form it was written. -/
theorem readLiteral?_literalChars (text : List Char) {rest : List Char}
    (h : rest.head? ≠ some '\'') :
    readLiteral? (literalChars text ++ rest) = some (text, rest) :=
  (readLiteral?_literalChars_iff text rest).mpr h

/-- **Quoting is undone by reading.** Whatever text is quoted, as a name or as a literal, and
whatever follows it, the text is read back and what follows is left, unless that begins with the
same quote. -/
theorem quoted_read_back_iff (text rest : String) :
    (readIdent? (quoteIdent text ++ rest).toList = some (text.toList, rest.toList) ↔
      rest.toList.head? ≠ some '"') ∧
    (readLiteral? (quoteLiteral text ++ rest).toList = some (text.toList, rest.toList) ↔
      rest.toList.head? ≠ some '\'') := by
  rw [String.toList_append, String.toList_append, toList_quoteIdent, toList_quoteLiteral]
  exact ⟨readIdent?_identChars_iff _ _, readLiteral?_literalChars_iff _ _⟩

end SchemaLedger.Sql
