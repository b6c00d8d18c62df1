import SchemaLedger.Sql.Quote

/-!
# Reading quoted parts of a statement

The database reads a quoted name or a literal up to the quote that closes it, where a quote written
twice stands for one. In a literal that starts with `E` a backslash escapes the character behind it,
too.

What is quoted is read character by character (`readQuoted?_cons` and the lemmas before it), and a
search for a word passes by quoted names, whatever they contain (`passes_identChars`).
-/

namespace SchemaLedger.Sql

/-- Reads up to the closing quote: what was quoted, and what is behind the quote. If there is an
escape character, what follows it stands for itself. -/
def readQuoted? (quote : Char) (escape : Option Char) : List Char → Option (List Char × List Char)
  | [] => none
  | [c] => if c = quote then some ([], []) else none
  | c :: d :: rest =>
    if some c = escape then
      (readQuoted? quote escape rest).map fun (text, behind) => (d :: text, behind)
    else if c = quote then
      if d = quote then
        (readQuoted? quote escape rest).map fun (text, behind) => (quote :: text, behind)
      else some ([], d :: rest)
    else (readQuoted? quote escape (d :: rest)).map fun (text, behind) => (c :: text, behind)

/-- Reads a quoted name. -/
def readIdent? : List Char → Option (List Char × List Char)
  | '"' :: rest => readQuoted? '"' none rest
  | _ => none

/-- Reads a literal of either form, after any blanks. -/
def readLiteral? (cs : List Char) : Option (List Char × List Char) :=
  match cs.dropWhile (· = ' ') with
  | 'E' :: '\'' :: rest => readQuoted? '\'' (some '\\') rest
  | '\'' :: rest => readQuoted? '\'' none rest
  | _ => none

/-- What is behind the first place at which a word stands outside of quotes. Inside a quoted part,
`quote` is the quote that it began with. -/
def behind? (word : List Char) : (quote : Option Char) → List Char → Option (List Char)
  | _, [] => none
  | some quote, c :: rest => behind? word (if c = quote then none else some quote) rest
  | none, c :: rest =>
    if word.isPrefixOf (c :: rest) then some ((c :: rest).drop word.length)
    else behind? word (if c = '"' ∨ c = '\'' then some c else none) rest

/-! ## Names and literals -/

theorem doubled_nil (c : Char) : doubled c [] = [] := rfl

theorem doubled_cons_self (c : Char) (cs : List Char) :
    doubled c (c :: cs) = c :: c :: doubled c cs := by simp [doubled]

theorem doubled_cons_of_ne {c d : Char} (h : d ≠ c) (cs : List Char) :
    doubled c (d :: cs) = d :: doubled c cs := by simp [doubled, h]

section Quoted

variable {quote : Char} {escape : Option Char} {cs rest : List Char}

theorem readQuoted?_close (h : rest.head? ≠ some quote) (hescape : escape ≠ some quote) :
    readQuoted? quote escape (quote :: rest) = some ([], rest) := by
  cases rest with
  | nil => rw [readQuoted?, if_pos rfl]
  | cons d rest =>
    have hd : d ≠ quote := fun hd => h (congrArg some hd)
    rw [readQuoted?, if_neg hescape.symm, if_pos rfl, if_neg hd]

theorem readQuoted?_quote (hescape : escape ≠ some quote) :
    readQuoted? quote escape (quote :: quote :: rest) =
      (readQuoted? quote escape rest).map fun (text, behind) => (quote :: text, behind) := by
  rw [readQuoted?, if_neg hescape.symm, if_pos rfl, if_pos rfl]

theorem readQuoted?_escape (c d : Char) :
    readQuoted? quote (some c) (c :: d :: rest) =
      (readQuoted? quote (some c) rest).map fun (text, behind) => (d :: text, behind) := by
  rw [readQuoted?, if_pos rfl]

theorem readQuoted?_cons {c : Char} (hquote : c ≠ quote) (hescape : escape ≠ some c) :
    readQuoted? quote escape (c :: cs) =
      (readQuoted? quote escape cs).map fun (text, behind) => (c :: text, behind) := by
  cases cs with
  | nil => simp [readQuoted?, hquote]
  | cons d rest => rw [readQuoted?, if_neg hescape.symm, if_neg hquote]

end Quoted

theorem literalChars_eq (text : List Char) :
    literalChars text =
      if (doubled '\'' text).contains '\\' then
        ' ' :: 'E' :: '\'' :: doubled '\\' (doubled '\'' text) ++ ['\'']
      else '\'' :: doubled '\'' text ++ ['\''] := rfl

/-! ## Passing by quoted parts -/

/-- Whether the word stands nowhere in a text outside of quotes, not even with its beginning at the
end of the text, and no quote is left open. -/
def avoids (word : List Char) : (quote : Option Char) → List Char → Bool
  | quote, [] => quote.isNone
  | some quote, c :: rest => avoids word (if c = quote then none else some quote) rest
  | none, c :: rest =>
    !word.isPrefixOf (c :: rest) && !(c :: rest).isPrefixOf word &&
      avoids word (if c = '"' ∨ c = '\'' then some c else none) rest

theorem behind?_of_avoids {word cs : List Char} {quote : Option Char}
    (h : avoids word quote cs = true) (rest : List Char) :
    behind? word quote (cs ++ rest) = behind? word none rest := by
  induction cs generalizing quote with
  | nil =>
    cases quote with
    | none => rfl
    | some q => nomatch h
  | cons c cs ih =>
    cases quote with
    | some q => exact ih h
    | none =>
      simp only [avoids, Bool.and_eq_true, Bool.not_eq_true', ← Bool.not_eq_true,
        List.isPrefixOf_iff_prefix] at h
      obtain ⟨⟨hword, hcs⟩, hrest⟩ := h
      -- the word can only begin here if it is in the text or reaches beyond its end
      have hprefix : ¬ word <+: c :: (cs ++ rest) := fun hp =>
        (List.prefix_or_prefix_of_prefix hp (List.prefix_append (c :: cs) rest)).elim hword hcs
      rw [List.cons_append, behind?, if_neg (by rwa [List.isPrefixOf_iff_prefix])]
      exact ih hrest

/-- Where the word stands, the search ends. -/
theorem behind?_word {word : List Char} (h : word ≠ []) (rest : List Char) :
    behind? word none (word ++ rest) = some rest := by
  cases word with
  | nil => exact absurd rfl h
  | cons w word =>
    have hprefix : (w :: word).isPrefixOf (w :: (word ++ rest)) = true := by
      rw [List.isPrefixOf_iff_prefix]
      exact List.prefix_append (w :: word) rest
    rw [List.cons_append, behind?, if_pos hprefix]
    exact congrArg some (List.drop_left ..)

/-- A search for a word passes by a text: nothing in it is taken for the word. -/
def Passes (word cs : List Char) : Prop :=
  ∀ rest, behind? word none (cs ++ rest) = behind? word none rest

namespace Passes

variable {word cs ds : List Char}

theorem nil : Passes word [] := fun _ => rfl

theorem of_avoids (h : avoids word none cs = true) : Passes word cs := behind?_of_avoids h

theorem append (hcs : Passes word cs) (hds : Passes word ds) : Passes word (cs ++ ds) := by
  intro rest
  rw [List.append_assoc, hcs, hds]

theorem words (h : Passes word cs) {words : List Char} (hwords : avoids word none words = true) :
    Passes word (cs ++ words) := h.append (.of_avoids hwords)

theorem flatMap {α : Type} {f : α → List Char} {xs : List α} (h : ∀ x ∈ xs, Passes word (f x)) :
    Passes word (xs.flatMap f) := by
  induction xs with
  | nil => exact nil
  | cons x rest ih =>
    obtain ⟨hx, hrest⟩ := List.forall_mem_cons.mp h
    exact hx.append (ih hrest)

/-- A search passes by words in which neither a quote stands nor what it begins with. -/
theorem of_notMem {w : Char} (hw : w ∉ cs) (hname : '"' ∉ cs) (htext : '\'' ∉ cs) :
    Passes (w :: word) cs := by
  induction cs with
  | nil => exact nil
  | cons c cs ih =>
    rw [List.mem_cons, not_or] at hw hname htext
    intro rest
    have hprefix : ¬ (w :: word).isPrefixOf (c :: (cs ++ rest)) = true := by
      simp [List.isPrefixOf, hw.1]
    have hquote : ¬ (c = '"' ∨ c = '\'') := fun h => h.elim (hname.1 ·.symm) (htext.1 ·.symm)
    rw [List.cons_append, behind?, if_neg hprefix, if_neg hquote]
    exact ih hw.2 hname.2 htext.2 rest

end Passes

/-- Inside of quotes a search goes on to the closing quote. -/
theorem behind?_doubled {w quote : Char} (hw : w ≠ quote) (hquote : quote = '"' ∨ quote = '\'')
    (word text rest : List Char) :
    behind? (w :: word) (some quote) (doubled quote text ++ quote :: rest) =
      behind? (w :: word) none rest := by
  induction text with
  | nil => rw [doubled_nil, List.nil_append, behind?, if_pos rfl]
  | cons c text ih =>
    by_cases hc : c = quote
    · subst hc
      have hprefix : ¬ (w :: word).isPrefixOf (c :: (doubled c text ++ c :: rest)) = true := by
        simp [List.isPrefixOf, hw]
      rw [doubled_cons_self, List.cons_append, List.cons_append, behind?, if_pos rfl, behind?,
        if_neg hprefix, if_pos hquote, ih]
    · rw [doubled_cons_of_ne hc, List.cons_append, behind?, if_neg hc, ih]

/-- A search passes by a quoted name. -/
theorem passes_identChars {w : Char} (hw : w ≠ '"') (word name : List Char) :
    Passes (w :: word) (identChars name) := by
  intro rest
  have hprefix : ¬ (w :: word).isPrefixOf ('"' :: (doubled '"' name ++ '"' :: rest)) = true := by
    simp [List.isPrefixOf, hw]
  rw [identChars, List.append_assoc, List.singleton_append, List.cons_append, behind?,
    if_neg hprefix, if_pos (.inl rfl)]
  exact behind?_doubled hw (.inl rfl) word name rest

end SchemaLedger.Sql
