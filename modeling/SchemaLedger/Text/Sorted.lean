/-!
# Texts in order

Texts are ordered by code point, which is the order of `String` itself (`lt_iff_codePoints_lt`).
Reports list each text once and in this order, so what they list depends only on which texts there
are (`sortedDistinct_congr`).
-/

namespace SchemaLedger.Text

/-- The texts in ascending order, repetitions kept. -/
def sorted (texts : List String) : List String := texts.mergeSort fun a b => decide (a ≤ b)

/-- Each text once, at the place of its first occurrence. -/
def distinct : List String → List String
  | [] => []
  | t :: rest => t :: (distinct rest).filter (· ≠ t)

/-- Each text once, in ascending order. -/
def sortedDistinct (texts : List String) : List String := sorted (distinct texts)

/-- The numbers of the characters of a text. -/
def codePoints (t : String) : List Nat := t.toList.map Char.toNat

theorem lt_iff_codePoints_lt {s t : String} : s < t ↔ codePoints s < codePoints t := by
  have hmono : ∀ {s t : String}, s < t → codePoints s < codePoints t := fun h =>
    List.map_lt (fun _ _ h => h) (String.lt_iff.mp h)
  refine ⟨hmono, fun h => ?_⟩
  by_cases hst : s = t
  · subst hst
    exact absurd h (List.lt_irrefl _)
  · apply Decidable.byContradiction
    intro hle
    by_cases hts : t < s
    · exact List.lt_asymm h (hmono hts)
    · exact hst (String.le_antisymm hts hle)

theorem sorted_perm (texts : List String) : (sorted texts).Perm texts :=
  List.mergeSort_perm _ _

theorem mem_sorted {texts : List String} {t : String} : t ∈ sorted texts ↔ t ∈ texts :=
  (sorted_perm texts).mem_iff

theorem pairwise_sorted (texts : List String) : (sorted texts).Pairwise (· ≤ ·) := by
  have h := @List.pairwise_mergeSort String (fun a b => decide (a ≤ b))
    (fun a b c hab hbc => decide_eq_true
      (String.le_trans (of_decide_eq_true hab) (of_decide_eq_true hbc)))
    (fun a b => by simp [String.le_total]) texts
  exact h.imp of_decide_eq_true

theorem mem_distinct {texts : List String} {t : String} : t ∈ distinct texts ↔ t ∈ texts := by
  induction texts with
  | nil => simp [distinct]
  | cons u rest ih => by_cases h : t = u <;> simp [distinct, h, ih]

theorem nodup_distinct (texts : List String) : (distinct texts).Nodup := by
  induction texts with
  | nil => exact List.nodup_nil
  | cons u rest ih =>
    simp only [distinct, List.nodup_cons]
    exact ⟨by simp, ih.filter _⟩

theorem mem_sortedDistinct {texts : List String} {t : String} :
    t ∈ sortedDistinct texts ↔ t ∈ texts := mem_sorted.trans mem_distinct

theorem nodup_sortedDistinct (texts : List String) : (sortedDistinct texts).Nodup :=
  (sorted_perm _).nodup_iff.mpr (nodup_distinct texts)

theorem pairwise_sortedDistinct (texts : List String) :
    (sortedDistinct texts).Pairwise (· < ·) := by
  refine ((pairwise_sorted _).and (nodup_sortedDistinct texts)).imp fun {s t} ⟨hle, hne⟩ => ?_
  exact Decidable.byContradiction fun hlt => hne (String.le_antisymm hle hlt)

/-- Only which texts are given matters, not their order and how often each one comes. -/
theorem sortedDistinct_congr {texts others : List String} (h : ∀ t, t ∈ texts ↔ t ∈ others) :
    sortedDistinct texts = sortedDistinct others := by
  have hdistinct : (distinct texts).Perm (distinct others) := by
    rw [List.perm_ext_iff_of_nodup (nodup_distinct _) (nodup_distinct _)]
    intro t
    rw [mem_distinct, mem_distinct, h]
  exact List.Perm.eq_of_pairwise (fun _ _ _ _ => String.le_antisymm) (pairwise_sorted _)
    (pairwise_sorted _) ((sorted_perm _).trans (hdistinct.trans (sorted_perm _).symm))

end SchemaLedger.Text
