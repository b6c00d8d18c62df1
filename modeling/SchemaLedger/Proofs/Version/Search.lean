import SchemaLedger.Proofs.Ledger.MemoryHistory
import SchemaLedger.Version

/-!
# The version a number of steps back

A search for a version schema counts and filters at once: it goes from the tip to the root, asks for
the namespace of each record on its way, and stops at the record it looks for. This file says what
it finds and what it has asked for by then.

The loop is described by one lemma (`Probing.seek_apply`): what is found is an element of the list
of those records whose namespace is there, and what was asked for is a front of the chain that ends
with the record found. Since the histories of a ledger in memory are whole chains, the front that
was passed is one of the whole history, from the tip (`label_at_depth`).
-/

namespace SchemaLedger

open Attempt

/-- The namespace behind a record of a schema. -/
def namespaceOf (schema : String) (r : Record) : String := namespaceName schema r.label

namespace Probing

variable {σ : Type} {schema : String} {present : String → Bool}

/-- What a search passes on its way: nothing of the chain is left if it finds no record, and else
the record that it finds is the last one passed. -/
structure Passes (chain passed : List Record) (found : Option Record) : Prop where
  front : ∃ left, chain = passed ++ left ∧ (found = none → left = [])
  last : ∀ r, found = some r → passed.getLast? = some r

/-- Nothing is left to pass. -/
theorem Passes.nil : Passes [] [] none := by
  refine ⟨⟨[], rfl, fun _ => rfl⟩, fun r hr => ?_⟩
  cases hr

/-- The first record is the one that is found. -/
theorem Passes.here (r : Record) (rest : List Record) : Passes (r :: rest) [r] (some r) := by
  refine ⟨⟨rest, rfl, fun hr => ?_⟩, fun s hs => hs⟩
  cases hr

theorem Passes.cons {chain passed : List Record} {found : Option Record}
    (h : Passes chain passed found) (r : Record) : Passes (r :: chain) (r :: passed) found := by
  obtain ⟨⟨left, rfl, hleft⟩, hlast⟩ := h
  refine ⟨⟨left, rfl, hleft⟩, fun s hs => ?_⟩
  rw [List.getLast?_cons, hlast s hs]
  rfl

/-- A record is asked for, and the answer says how to go on. -/
theorem seek_cons (depth : Nat) (r : Record) (rest : List Record) (w : Probing σ) :
    seek schema present depth (r :: rest) w =
      let asked := { w with probed := w.probed ++ [namespaceOf schema r] }
      if present (namespaceOf schema r) then
        match depth with
        | 0 => (.ok (some r.label), asked)
        | depth + 1 => seek schema present depth rest asked
      else seek schema present depth rest asked := by
  have hprobe : probe present (namespaceName schema r.label) w =
      (.ok (present (namespaceOf schema r)),
        { w with probed := w.probed ++ [namespaceOf schema r] }) := rfl
  cases depth <;> rw [seek, bind_ok hprobe] <;> cases present (namespaceOf schema r) <;> rfl

/-- A search finds the record of its depth among those whose namespace is there, and asks for the
namespaces of the records that it passes. -/
theorem seek_apply (depth : Nat) (chain : List Record) (w : Probing σ) :
    ∃ passed, Passes chain passed (chain.filter fun r => present (namespaceOf schema r))[depth]? ∧
      seek schema present depth chain w =
        (.ok ((chain.filter fun r => present (namespaceOf schema r))[depth]?.map (·.label)),
          { w with probed := w.probed ++ passed.map (namespaceOf schema) }) := by
  induction chain generalizing depth w with
  | nil => exact ⟨[], .nil, by simp [seek]⟩
  | cons r rest ih =>
    let asked : Probing σ := { w with probed := w.probed ++ [namespaceOf schema r] }
    rw [seek_cons, List.filter_cons]
    -- a record is counted only if its namespace is there, but it is asked for either way
    cases hpresent : present (namespaceOf schema r) with
    | false =>
      obtain ⟨passed, hpassed, hseek⟩ := ih depth asked
      refine ⟨r :: passed, hpassed.cons r, ?_⟩
      simp only [Bool.false_eq_true, if_false]
      rw [hseek, List.map_cons, List.append_cons]
    | true =>
      cases depth with
      | zero => exact ⟨[r], .here r rest, rfl⟩
      | succ depth =>
        obtain ⟨passed, hpassed, hseek⟩ := ih depth asked
        refine ⟨r :: passed, hpassed.cons r, ?_⟩
        simp only [if_true]
        rw [hseek, List.map_cons, List.append_cons]
        rfl

/-- The search in a history goes backwards along the records that are read. -/
theorem label_of_history [LedgerStore σ] {s : σ} {chain : List Record}
    (h : LedgerStore.history schema s = (.ok chain, s)) (present : String → Bool) (depth : Int) :
    label present schema depth { state := s } =
      labelAt chain.reverse schema depth present { state := s } := by
  let w : Probing σ := { state := s }
  have hask : onState (LedgerStore.history schema) w = (.ok chain, w) := by
    rw [onState, within, h]
  rw [label, bind_ok hask]

/-- In memory that is the chain that the history is. -/
theorem label_apply {l : MemoryLedger} {chain : List Record}
    (h : Arranges chain (l.ofSchema schema)) (depth : Int) :
    label present schema depth { state := l } =
      labelAt chain.reverse schema depth present { state := l } :=
  label_of_history (congrArg (·, l) (MemoryLedger.history_eq h)) present depth

/-- **Versions are counted over the present namespaces.** After any calls, the records of a schema
are one chain, and a search for the version a number of steps back goes along it from the tip to the
root. It fails exactly if the number is negative, and then it asks for nothing. Else it finds the
record of that number among those whose namespace is there, or none if there are too few. It asks
for the namespaces of the records from the tip to the one that it finds, each once and in this
order, or for those of all records if it finds none. -/
theorem label_at_depth {calls : List (Moment × Call)}
    (hcalls : ∀ c ∈ calls, c.2.removesDuplicates = false) (schema : String) (depth : Int)
    (present : String → Bool) :
    let l := after (Call.runs calls) MemoryLedger.empty
    ∃ chain, Arranges chain (l.ofSchema schema) ∧
      (depth < 0 →
        label present schema depth { state := l } = (.error .negativeDepth, { state := l })) ∧
      ∀ n : Nat, depth = n →
        let found := (chain.reverse.filter fun r => present (namespaceOf schema r))[n]?
        ∃ passed, Passes chain.reverse passed found ∧
          label present schema depth { state := l } = (.ok (found.map (·.label)),
            { state := l, probed := passed.map (namespaceOf schema) }) := by
  intro l
  obtain ⟨chain, hchain⟩ := (MemoryLedger.whole_after hcalls schema).arranged
  refine ⟨chain, hchain, fun hnegative => ?_, fun n hn => ?_⟩
  · rw [label_apply hchain, labelAt, if_pos hnegative]
    rfl
  · subst hn
    have hdepth : ¬ (n : Int) < 0 := by omega
    obtain ⟨passed, hpassed, hseek⟩ := seek_apply n chain.reverse { state := l }
    refine ⟨passed, hpassed, ?_⟩
    rw [label_apply hchain, labelAt, if_neg hdepth, Int.toNat_natCast, hseek, List.nil_append]

/-- Four steps, of which the third has lost its namespace: one step back from the last there is the
second, and the first is not asked for. -/
theorem label_at_depth_of_gap :
    let step (name : String) (parent : Option String) : Call :=
      .insert { schema := "public", name, parent, done := true }
    let calls : List (Moment × Call) :=
      [(⟨0, some 0⟩, step "a" none), (⟨1, some 0⟩, step "b" (some "a")),
        (⟨2, some 0⟩, step "c" (some "b")), (⟨3, some 0⟩, step "d" (some "c"))]
    let l := after (Call.runs calls) MemoryLedger.empty
    let present := fun name => decide (name ≠ "public_c")
    (∀ c ∈ calls, c.2.removesDuplicates = false) ∧
    label present "public" 1 { state := l } =
      (.ok (some "b"), { state := l, probed := ["public_d", "public_c", "public_b"] }) ∧
    ∃ chain passed, Arranges chain (l.ofSchema "public") ∧
      Passes chain.reverse passed
        (chain.reverse.filter fun r => present (namespaceOf "public" r))[1]? ∧
      passed.map (namespaceOf "public") = ["public_d", "public_c", "public_b"] := by
  intro step calls l present
  have hcalls : ∀ c ∈ calls, c.2.removesDuplicates = false := by decide
  have hlabel : label present "public" 1 { state := l } =
      (.ok (some "b"), { state := l, probed := ["public_d", "public_c", "public_b"] }) := by
    decide +kernel
  obtain ⟨chain, hchain, -, hfound⟩ := label_at_depth hcalls "public" 1 present
  obtain ⟨passed, hpassed, happly⟩ := hfound 1 rfl
  rw [hlabel] at happly
  exact ⟨hcalls, hlabel, chain, passed, hchain, hpassed,
    (congrArg Probing.probed (Prod.mk.inj happly).2).symm⟩

end Probing

end SchemaLedger
