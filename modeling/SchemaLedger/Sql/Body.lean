import Mathlib.Data.List.Infix
import SchemaLedger.Sql.Reading

/-!
# Bodies of functions

A statement that creates a function holds the body of the function between two marks of two dollar
signs. The database knows no quotes inside of the body: whatever is written there, the body ends at
the next mark. So a name that is quoted for the language of the body may still end it, and what
comes behind would be read as part of the statement.

The main statements: what makes a mark in a text is a mark in one of the names and texts that are
quoted there (`marked_identChars_append`, `marked_literalChars`), and a body goes up to the last
mark of its statement exactly if no mark is written in it (`closesLast_iff`).
-/

namespace SchemaLedger.Sql

/-- What stands before a body and behind it. -/
def mark : List Char := ['$', '$']

/-- The words that open a body. -/
def opening : List Char := "AS $$".toList

/-- Whether a mark stands anywhere in a text. -/
def Marked (cs : List Char) : Prop := mark <:+: cs

instance (cs : List Char) : Decidable (Marked cs) := inferInstanceAs (Decidable (mark <:+: cs))

/-- Whether the body that a statement opens goes up to the last mark: no other one comes behind the
first. -/
def ClosesLast (statement : String) : Prop :=
  ∃ rest body behind, behind? opening none statement.toList = some rest ∧
    rest.dropInfix? mark = some (body, behind) ∧ ¬ Marked behind

/-! ## Marks in texts -/

section Marked

variable {cs ds : List Char}

theorem Marked.mem (h : Marked cs) : '$' ∈ cs := h.subset (List.mem_cons_self ..)

theorem not_marked (h : '$' ∉ cs) : ¬ Marked cs := fun hm => h hm.mem

/-- The characters of a text that is given one by one. -/
theorem notMem_toList_ofList {c : Char} (h : c ∉ cs) : c ∉ (String.ofList cs).toList := by
  rwa [String.toList_ofList]

/-- Two texts make a mark where they meet only if one ends and the other begins with a dollar
sign. -/
theorem marked_append (h : cs.getLast? ≠ some '$' ∨ ds.head? ≠ some '$') :
    Marked (cs ++ ds) ↔ Marked cs ∨ Marked ds := by
  rw [Marked, List.infix_append_iff, ← or_assoc]
  refine or_iff_left_of_imp ?_
  rintro ⟨front, back, hmark, hfront, hback⟩
  rcases front with _ | ⟨a, _ | ⟨b, front⟩⟩
  · rw [← show mark = back from hmark] at hback
    exact .inr hback.isInfix
  · obtain ⟨rfl, rfl⟩ := List.cons.inj hmark
    obtain ⟨before, rfl⟩ := hfront
    obtain ⟨behind, rfl⟩ := hback
    exact absurd h (by simp)
  · obtain ⟨rfl, rfl, rfl, -⟩ : '$' = a ∧ '$' = b ∧ front = [] ∧ back = [] := by
      simpa [mark] using hmark
    exact .inl hfront.isInfix

theorem marked_words_append (h : '$' ∉ cs) : Marked (cs ++ ds) ↔ Marked ds := by
  rw [marked_append (.inl fun hlast => h (List.mem_of_getLast? hlast))]
  exact or_iff_right (not_marked h)

theorem marked_append_words (h : '$' ∉ ds) : Marked (cs ++ ds) ↔ Marked cs := by
  rw [marked_append (.inr fun hhead => h (List.mem_of_mem_head? hhead))]
  exact or_iff_left (not_marked h)

theorem marked_cons {c : Char} (h : c ≠ '$') : Marked (c :: cs) ↔ Marked cs := by
  have hword : '$' ∉ [c] := by simpa using h.symm
  exact marked_words_append hword

theorem marked_dollar_cons : Marked ('$' :: cs) ↔ cs.head? = some '$' ∨ Marked cs := by
  have hprefix : mark <+: '$' :: cs ↔ cs.head? = some '$' := by
    cases cs with
    | nil => decide
    | cons c rest => simp [mark, eq_comm]
  rw [Marked, List.infix_cons_iff, hprefix, Marked]

theorem marked_flatMap {α : Type} {f : α → List Char} (h : ∀ x, (f x).getLast? ≠ some '$')
    (xs : List α) : Marked (xs.flatMap f) ↔ ∃ x ∈ xs, Marked (f x) := by
  induction xs with
  | nil => exact iff_of_false (not_marked List.not_mem_nil) (by simp)
  | cons x rest ih =>
    rw [List.flatMap_cons, marked_append (.inl (h x)), ih, List.exists_mem_cons_iff]

end Marked

/-! ## Marks in quoted texts -/

section Quoted

variable {quote : Char} {cs ds : List Char}

theorem head?_doubled (c : Char) (cs : List Char) : (doubled c cs).head? = cs.head? := by
  cases cs with
  | nil => rfl
  | cons d rest =>
    by_cases h : d = c
    · rw [h, doubled_cons_self]
      rfl
    · rw [doubled_cons_of_ne h]
      rfl

/-- To write a quote twice makes no mark, and hides none. -/
theorem marked_doubled (h : quote ≠ '$') (cs : List Char) :
    Marked (doubled quote cs) ↔ Marked cs := by
  induction cs with
  | nil => rfl
  | cons c rest ih =>
    by_cases hc : c = quote
    · subst hc
      rw [doubled_cons_self, marked_cons h, marked_cons h, marked_cons h, ih]
    · rw [doubled_cons_of_ne hc]
      by_cases hdollar : c = '$'
      · subst hdollar
        rw [marked_dollar_cons, marked_dollar_cons, head?_doubled, ih]
      · rw [marked_cons hdollar, marked_cons hdollar, ih]

/-- A quoted name is marked where the name is. -/
theorem marked_identChars (name : List Char) : Marked (identChars name) ↔ Marked name := by
  rw [identChars, marked_append_words (by decide), marked_cons (by decide),
    marked_doubled (by decide)]

/-- Its quotes keep it apart from what follows. -/
theorem marked_identChars_append (name : List Char) :
    Marked (identChars name ++ ds) ↔ Marked name ∨ Marked ds := by
  have hlast : (identChars name).getLast? ≠ some '$' := by
    rw [identChars, List.getLast?_concat]
    decide
  rw [marked_append (.inl hlast), marked_identChars]

theorem marked_literalChars (text : List Char) : Marked (literalChars text) ↔ Marked text := by
  have hclose : '$' ∉ ['\''] := by decide
  rw [literalChars_eq]
  split
  · rw [marked_append_words hclose, marked_cons (by decide), marked_cons (by decide),
      marked_cons (by decide), marked_doubled (by decide), marked_doubled (by decide)]
  · rw [marked_append_words hclose, marked_cons (by decide), marked_doubled (by decide)]

end Quoted

/-! ## Where a body ends -/

section Closing

variable {statement : String} {front body behind : List Char}

/-- Only at the end of a text can a mark begin that reaches beyond it. -/
theorem length_le_of_not_marked (hbody : ¬ Marked body) (hlast : body.getLast? ≠ some '$')
    {before after : List Char} (h : body ++ behind = before ++ (mark ++ after)) :
    body.length ≤ before.length := by
  rcases List.append_eq_append_iff.mp h with ⟨more, rfl, -⟩ | ⟨more, rfl, hmore⟩
  · simp
  · rcases more with _ | ⟨a, _ | ⟨b, more⟩⟩
    · simp
    · obtain ⟨rfl, -⟩ : a = '$' ∧ _ := List.cons.inj hmore.symm
      exact absurd List.getLast?_concat hlast
    · obtain ⟨rfl, rfl, -⟩ : '$' = a ∧ '$' = b ∧ after = more ++ behind := by
        simpa [mark] using hmore
      exact absurd ⟨before, more, by simp [mark]⟩ hbody

theorem dropInfix?_mark (hbody : ¬ Marked body) (hlast : body.getLast? ≠ some '$') :
    (body ++ (mark ++ behind)).dropInfix? mark = some (body, behind) := by
  rw [List.dropInfix?_eq_some_iff]
  refine ⟨⟨mark, (List.append_assoc ..).symm, beq_self_eq_true _⟩, ?_⟩
  intro before m after heq hm
  obtain rfl : m = mark := eq_of_beq hm
  rw [List.append_assoc] at heq
  exact length_le_of_not_marked hbody hlast heq

/-- A body goes up to the last mark exactly if no mark is written in it. -/
theorem closesLast_iff
    (hstatement : statement.toList = front ++ (opening ++ (body ++ (mark ++ behind))))
    (hfront : Passes opening front) (hlast : body.getLast? ≠ some '$')
    (hbehind : ¬ Marked behind) : ClosesLast statement ↔ ¬ Marked body := by
  have hrest : behind? opening none statement.toList = some (body ++ (mark ++ behind)) := by
    rw [hstatement, hfront]
    exact behind?_word (by decide) _
  constructor
  · rintro ⟨rest, before, after, hopening, hmark, hafter⟩ hbody
    obtain rfl := Option.some.inj (hrest.symm.trans hopening)
    obtain ⟨⟨m, hm, hbeq⟩, hfirst⟩ := List.dropInfix?_eq_some_iff.mp hmark
    obtain rfl : m = mark := eq_of_beq hbeq
    -- the first mark is none behind the one in the body, so the last one is still to come
    obtain ⟨p, q, rfl⟩ := hbody
    have hle : before.length ≤ p.length := hfirst p mark (q ++ (mark ++ behind)) (by simp) hbeq
    have hlength := congrArg List.length hm
    have hsuffix : mark ++ behind <:+ after := by
      have hwhole : mark ++ behind <:+ before ++ mark ++ after := hm ▸ List.suffix_append ..
      refine List.suffix_of_suffix_length_le hwhole (List.suffix_append ..) ?_
      simp only [List.length_append] at hlength ⊢
      omega
    exact hafter ((List.prefix_append mark behind).isInfix.trans hsuffix.isInfix)
  · intro hbody
    exact ⟨_, body, behind, hrest, dropInfix?_mark hbody hlast, hbehind⟩

end Closing

end SchemaLedger.Sql
