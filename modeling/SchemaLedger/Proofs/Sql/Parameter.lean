import SchemaLedger.Sql.Body
import SchemaLedger.Sql.Parameter

/-!
# Parameters in quoted names

Parameters are looked for in all of a statement, and quotes do not hide what stands between them. So
a quoted name brings its own parameters into a statement, whether or not there are quotes in it
(`parameters_quoteIdent`).

A statement is put together from words and names. Where two of its pieces meet at a character that
neither belongs to a parameter nor keeps one from being read, the parameters are those of the one and
of the other (`parameters_words_append`, `parameters_append_words`), and so it is in a list with
separators (`parameters_intercalate`).
-/

namespace SchemaLedger.Sql

/-! ## Pieces of a text -/

section Chars

variable {c : Char} {before : Option Char} {cs rest : List Char}

theorem separates_iff :
    separates c = true ↔ c ≠ ':' ∧ c ≠ '\\' ∧ Text.isWordChar c = false := by
  simp [separates, and_assoc]

/-- Behind a character that separates, parameters are read as at the beginning. -/
theorem parameterWords_cons (h : separates c = true) :
    parameterWords before (c :: rest) = parameterWords none rest := by
  have hcolon : c ≠ ':' := (separates_iff.mp h).1
  rw [parameterWords, if_neg fun hc => hcolon hc.1]
  cases rest with
  | nil => rfl
  | cons d rest => rw [parameterWords, parameterWords, Option.all_some, h, Option.all_none]

/-- A word ends where such a character stands. -/
theorem parameterWord_append (h : separates c = true) :
    parameterWord (cs ++ c :: rest) = parameterWord cs := by
  obtain ⟨hcolon, -, hword⟩ := separates_iff.mp h
  induction cs with
  | nil => simp [parameterWord, hword]
  | cons d cs ih =>
    have hhead : (cs ++ c :: rest).head? = some ':' ↔ cs.head? = some ':' := by
      cases cs <;> simp [hcolon]
    simp only [List.cons_append, parameterWord, ih, ne_eq, hhead]

theorem parameterWords_append (h : separates c = true) :
    parameterWords before (cs ++ c :: rest) =
      parameterWords before cs ++ parameterWords none rest := by
  induction cs generalizing before with
  | nil => exact parameterWords_cons h
  | cons d cs ih =>
    rw [List.cons_append, parameterWords, parameterWords, parameterWord_append h, ih]
    split <;> rfl

theorem parameterWord_doubled (h : separates c = true) :
    parameterWord (doubled c cs) = parameterWord cs := by
  have hword : Text.isWordChar c = false := (separates_iff.mp h).2.2
  induction cs with
  | nil => rfl
  | cons d cs ih =>
    by_cases hd : d = c
    · rw [hd, doubled_cons_self]
      simp [parameterWord, hword]
    · rw [doubled_cons_of_ne hd, parameterWord, parameterWord, head?_doubled, ih]

/-- It makes no difference how often such a character is written. -/
theorem parameterWords_doubled (h : separates c = true) :
    parameterWords before (doubled c cs) = parameterWords before cs := by
  induction cs generalizing before with
  | nil => rfl
  | cons d cs ih =>
    by_cases hd : d = c
    · rw [hd, doubled_cons_self, parameterWords_cons h, parameterWords_cons h,
        parameterWords_cons h, ih]
    · rw [doubled_cons_of_ne hd, parameterWords, parameterWords, parameterWord_doubled h, ih]

theorem parameterWords_eq_nil (h : ':' ∉ cs) : parameterWords before cs = [] := by
  induction cs generalizing before with
  | nil => rfl
  | cons c cs ih =>
    rw [List.mem_cons, not_or] at h
    rw [parameterWords, if_neg fun hc => h.1 hc.1.symm, ih h.2]

/-- A word that nothing follows is a word as a whole. -/
theorem parameterWord_eq_self (h : ∀ c ∈ cs, Text.isWordChar c = true) :
    parameterWord cs = cs := by
  induction cs with
  | nil => rfl
  | cons c cs ih =>
    obtain ⟨hc, hcs⟩ := List.forall_mem_cons.mp h
    rw [parameterWord, ih hcs, if_pos]
    exact ⟨hc, fun hhead => nomatch hcs _ (List.mem_of_head? hhead)⟩

end Chars

/-! ## Pieces of a statement -/

/-- A colon and a word are a parameter. -/
theorem parameters_word {word : String} (hne : word ≠ "")
    (h : ∀ c ∈ word.toList, Text.isWordChar c = true) : parameters (":" ++ word) = [word] := by
  have hcolon : ':' ∉ word.toList := fun hc => nomatch h _ hc
  have htext : (":" ++ word).toList = ':' :: word.toList := by simp
  rw [parameters, htext, parameterWords, parameterWord_eq_self h, parameterWords_eq_nil hcolon,
    if_pos]
  · simp
  · simpa using hne

/-- Behind words that end with a character that separates, parameters are read anew. -/
theorem parameters_append_of_last {words : String}
    (h : words.toList.getLast?.any separates = true) (rest : String) :
    parameters (words ++ rest) = parameters words ++ parameters rest := by
  obtain ⟨c, hlast, hc⟩ := (Option.any_eq_true _ _).mp h
  obtain ⟨front, hwords⟩ := List.getLast?_eq_some_iff.mp hlast
  simp only [parameters, String.toList_append, hwords, List.append_assoc, List.singleton_append,
    parameterWords_append hc, ← List.map_append]
  simp [parameterWords]

/-- And what stands in front of words that begin with one has its parameters to itself. -/
theorem parameters_append_words {words : String} (h : words.toList.head?.any separates = true)
    (front rest : String) :
    parameters (front ++ (words ++ rest)) = parameters front ++ parameters (words ++ rest) := by
  obtain ⟨c, hhead, hc⟩ := (Option.any_eq_true _ _).mp h
  obtain ⟨back, hwords⟩ := List.head?_eq_some_iff.mp hhead
  simp only [parameters, String.toList_append, hwords, List.cons_append,
    parameterWords_append hc, parameterWords_cons hc, List.map_append]

theorem parameters_append_of_head {words : String} (h : words.toList.head?.any separates = true)
    (front : String) : parameters (front ++ words) = parameters front ++ parameters words := by
  have happend := parameters_append_words h front ""
  rwa [String.append_empty] at happend

theorem parameters_eq_nil {words : String} (h : ':' ∉ words.toList) : parameters words = [] := by
  rw [parameters, parameterWords_eq_nil h, List.map_nil]

/-- Words without a colon in front of a text. -/
theorem parameters_words_append {words : String} (hlast : words.toList.getLast?.any separates = true)
    (hcolon : ':' ∉ words.toList) (rest : String) :
    parameters (words ++ rest) = parameters rest := by
  rw [parameters_append_of_last hlast, parameters_eq_nil hcolon, List.nil_append]

/-- A quoted name has the parameters of the name. -/
theorem parameters_quoteIdent (name : String) :
    parameters (quoteIdent name) = parameters name := by
  have hquote : separates '"' = true := by decide
  have hchars : identChars name.toList = [] ++ '"' :: (doubled '"' name.toList ++ '"' :: []) := rfl
  rw [parameters, toList_quoteIdent, hchars, parameterWords_append hquote,
    parameterWords_append hquote, parameterWords_doubled hquote, parameters]
  simp [parameterWords]

/-- And nothing that follows it becomes part of them. -/
theorem parameters_quoteIdent_append (name rest : String) :
    parameters (quoteIdent name ++ rest) = parameters name ++ parameters rest := by
  have hlast : (quoteIdent name).toList.getLast?.any separates = true := by
    rw [toList_quoteIdent, identChars, List.getLast?_concat]
    decide
  rw [parameters_append_of_last hlast, parameters_quoteIdent]

/-- In a list each text has its own parameters, if the separator has none and both begins and ends
with a character that separates. -/
theorem parameters_intercalate {separator : String}
    (hhead : separator.toList.head?.any separates = true)
    (hlast : separator.toList.getLast?.any separates = true) (hcolon : ':' ∉ separator.toList)
    (texts : List String) :
    parameters (separator.intercalate texts) = texts.flatMap parameters := by
  induction texts with
  | nil => rfl
  | cons text texts ih =>
    cases texts with
    | nil => simp
    | cons next rest =>
      rw [String.intercalate_cons_cons, String.append_assoc, parameters_append_words hhead,
        parameters_words_append hlast hcolon, ih]
      exact (List.flatMap_cons ..).symm

/-! The characters of words that are given one by one. -/

theorem head?_ofList_any {cs : List Char} (h : cs.head?.any separates = true) :
    (String.ofList cs).toList.head?.any separates = true := by rwa [String.toList_ofList]

theorem getLast?_ofList_any {cs : List Char} (h : cs.getLast?.any separates = true) :
    (String.ofList cs).toList.getLast?.any separates = true := by rwa [String.toList_ofList]

end SchemaLedger.Sql
