import Mathlib.Tactic.TFAE
import SchemaLedger.Proofs.Version.Distinct

/-!
# Schemas that share a namespace

The namespace behind a label is named by the schema, an underscore and the label. Both names may have
underscores of their own, so a schema can be named like a namespace of another one, and then a
namespace of the longer name is one of the shorter name too (`namespaceName_eq_iff`): `a_b_c` stands
for the label `c` of the schema `a_b`, and for the label `b_c` of the schema `a`.

A search asks only for the namespaces of the labels that it passes. So the versions of a schema
depend on these namespaces and on no others (`sameVersions_iff`), and what is done about the
namespaces of another schema never changes them exactly if neither schema is named like a namespace
of the other one (`namespaces_separate`).
-/

namespace SchemaLedger

open Attempt

/-! ## Names that can be read in two ways -/

theorem toList_namespaceName (schema label : String) :
    (namespaceName schema label).toList = schema.toList ++ '_' :: label.toList := by
  simp [namespaceName]

theorem namespaceName_assoc (schema label other : String) :
    namespaceName (namespaceName schema label) other =
      namespaceName schema (namespaceName label other) := by
  simp only [namespaceName, String.append_assoc]

/-- If the longer schema ends in the middle of a name, the rest of it starts the other label. -/
theorem exists_more {s t label other : String} (hne : s ≠ t) {rest : List Char}
    (ht : t.toList = s.toList ++ rest) (hlabel : '_' :: label.toList = rest ++ '_' :: other.toList) :
    ∃ more, t = namespaceName s more ∧ label = namespaceName more other := by
  cases rest with
  | nil =>
    rw [List.append_nil] at ht
    exact absurd (String.toList_inj.mp ht).symm hne
  | cons c more =>
    rw [List.cons_append, List.cons.injEq] at hlabel
    obtain ⟨rfl, hmore⟩ := hlabel
    refine ⟨String.ofList more, String.toList_inj.mp ?_, String.toList_inj.mp ?_⟩
    · rw [ht, toList_namespaceName, String.toList_ofList]
    · rw [hmore, toList_namespaceName, String.toList_ofList]

/-- A name is read in two ways exactly where one schema goes on into the label of the other. -/
theorem namespaceName_eq_iff {s t label other : String} (hne : s ≠ t) :
    namespaceName s label = namespaceName t other ↔
      (∃ more, t = namespaceName s more ∧ label = namespaceName more other) ∨
        ∃ more, s = namespaceName t more ∧ other = namespaceName more label := by
  constructor
  · intro h
    have hchars := congrArg String.toList h
    rw [toList_namespaceName, toList_namespaceName, List.append_eq_append_iff] at hchars
    rcases hchars with ⟨rest, ht, hlabel⟩ | ⟨rest, hs, hother⟩
    · exact .inl (exists_more hne ht hlabel)
    · exact .inr (exists_more hne.symm hs hother)
  · rintro (⟨more, rfl, rfl⟩ | ⟨more, rfl, rfl⟩)
    · exact (namespaceName_assoc s more other).symm
    · exact namespaceName_assoc t more label

/-! ## What a search depends on -/

namespace Probing

variable {σ : Type} {schema : String} {present present' : String → Bool}

/-- A search asks for the namespaces of the chain only. -/
theorem seek_congr {chain : List Record}
    (h : ∀ r ∈ chain, present' (namespaceOf schema r) = present (namespaceOf schema r))
    (depth : Nat) : seek (σ := σ) schema present' depth chain = seek schema present depth chain := by
  funext w
  induction chain generalizing depth w with
  | nil => rfl
  | cons r rest ih =>
    obtain ⟨hr, hrest⟩ := List.forall_mem_cons.mp h
    rw [seek_cons, seek_cons, hr]
    cases depth <;> simp only [ih hrest]

/-- Sets that agree on the namespaces of a chain cannot be told apart by a search in it. -/
theorem labelAt_congr {chain : List Record}
    (h : ∀ label ∈ chain.map (·.label),
      present' (namespaceName schema label) = present (namespaceName schema label))
    (depth : Int) : labelAt (σ := σ) chain schema depth present' =
      labelAt chain schema depth present := by
  rw [labelAt, labelAt,
    seek_congr fun r hr => h r.label (List.mem_map_of_mem hr)]

end Probing

section Versions

variable {σ : Type} [LedgerStore σ] {schema : String} {present present' : String → Bool}

/-- Whichever of two sets of namespaces is there, the version at each depth is the same. -/
def SameVersions (present present' : String → Bool) (schema : String) (s : σ) : Prop :=
  ∀ depth, (resolve present' schema depth s).1.map (·.label) =
    (resolve present schema depth s).1.map (·.label)

/-- Two sets of namespaces differ in nothing but namespaces of a schema. -/
def DifferFor (schema : String) (present present' : String → Bool) : Prop :=
  ∀ name, present' name ≠ present name → ∃ label, name = namespaceName schema label

/-- Sets that agree on all namespaces of a schema cannot be told apart by its versions. -/
theorem resolve_congr
    (h : ∀ label, present' (namespaceName schema label) = present (namespaceName schema label))
    (depth : Int) : resolve (σ := σ) present' schema depth = resolve present schema depth := by
  have hlabelAt : ∀ chain, Probing.labelAt (σ := σ) chain schema depth present' =
      Probing.labelAt chain schema depth present := fun chain =>
    Probing.labelAt_congr (fun label _ => h label) depth
  simp only [resolve, Probing.label, hlabelAt]

variable {s : σ} {chain : List Record}

/-- The version so many steps back is found among the labels whose namespace is there. -/
theorem label_resolve (h : LedgerStore.history schema s = (.ok chain, s)) (n : Nat) :
    (resolve present schema n s).1.map (·.label) =
      .ok (presentLabels schema present chain)[n]? := by
  obtain ⟨probed, hfound⟩ := resolve_apply h present n
  rw [hfound]
  rfl

/-- The versions of a history that can be read depend on the namespaces of its labels, and on all of
them. -/
theorem sameVersions_iff (h : LedgerStore.history schema s = (.ok chain, s)) :
    SameVersions present present' schema s ↔ ∀ label ∈ chain.map (·.label),
      present' (namespaceName schema label) = present (namespaceName schema label) := by
  constructor
  · intro hsame
    have hlabels : presentLabels schema present' chain = presentLabels schema present chain := by
      refine List.ext_getElem? fun n => ?_
      have hn := hsame n
      rw [label_resolve h, label_resolve h] at hn
      exact Except.ok.inj hn
    intro label hlabel
    have hmem : ∀ present, label ∈ presentLabels schema present chain ↔
        present (namespaceName schema label) = true := by
      intro present
      rw [presentLabels, List.mem_filter, List.mem_reverse, and_iff_right hlabel]
    rw [Bool.eq_iff_iff, ← hmem, ← hmem, hlabels]
  · intro hagree depth
    rw [resolve, resolve, Probing.run, Probing.run, Probing.label_of_history h,
      Probing.label_of_history h, Probing.labelAt_congr fun label hlabel => hagree label ?_]
    rwa [List.map_reverse, List.mem_reverse] at hlabel

end Versions

/-! ## Two schemas -/

/-- A schema is named like a namespace of another one. -/
def NamedBelow (s t : String) : Prop := ∃ label, t = namespaceName s label

/-- Two schemas have a namespace in common exactly if one is named like a namespace of the other. -/
theorem no_shared_namespace_iff {s t : String} (hne : s ≠ t) :
    (∀ label other, namespaceName s label ≠ namespaceName t other) ↔
      ¬ NamedBelow s t ∧ ¬ NamedBelow t s := by
  constructor
  · refine fun h => ⟨?_, ?_⟩
    · rintro ⟨more, rfl⟩
      exact h (namespaceName more "v") "v" (namespaceName_assoc s more "v").symm
    · rintro ⟨more, rfl⟩
      exact h "v" (namespaceName more "v") (namespaceName_assoc t more "v")
  · rintro ⟨hs, ht⟩ label other h
    rcases (namespaceName_eq_iff hne).mp h with ⟨more, hmore, -⟩ | ⟨more, hmore, -⟩
    · exact hs ⟨more, hmore⟩
    · exact ht ⟨more, hmore⟩

/-- A change of the namespaces of one schema does nothing to the versions of another one that shares
none of them, whatever ledger they are looked up in. -/
theorem sameVersions_of_not_shared {σ : Type} [LedgerStore σ] {s t : String}
    (hshared : ∀ label other, namespaceName s label ≠ namespaceName t other)
    {present present' : String → Bool} (hdiffer : DifferFor t present present') (state : σ) :
    SameVersions present present' s state := by
  intro depth
  rw [resolve_congr fun label => ?_]
  by_contra hlabel
  obtain ⟨other, hother⟩ := hdiffer _ hlabel
  exact hshared label other hother

/-- A schema with the label for a namespace notices when the namespace comes, whoever it is for. -/
theorem not_shared_of_sameVersions {σ : Type} [LedgerStore σ] {state : σ} {s t label other : String}
    {chain : List Record} (h : LedgerStore.history s state = (.ok chain, state))
    (hlabel : label ∈ chain.map (·.label))
    (hsame : ∀ present present', DifferFor t present present' →
      SameVersions present present' s state) : namespaceName s label ≠ namespaceName t other := by
  intro hshared
  let present' : String → Bool := fun name => decide (name = namespaceName t other)
  have hdiffer : DifferFor t (fun _ => false) present' := by
    intro name hname
    exact ⟨other, by simpa [present'] using hname⟩
  have hagree := (sameVersions_iff h).mp (hsame _ _ hdiffer) label hlabel
  rw [hshared] at hagree
  simp [present'] at hagree

/-- Every label can come into the history of a schema in memory. -/
theorem MemoryLedger.exists_label (schema label : String) : ∃ calls chain,
    let l := after (Call.runs calls) MemoryLedger.empty
    LedgerStore.history schema l = (.ok chain, l) ∧ label ∈ chain.map (·.label) := by
  let r : Record := { schema, name := label, done := true }
  let now : Moment := ⟨0, some 0⟩
  have hrun : after (Call.runs [(now, .insert r)]) MemoryLedger.empty = ⟨[r.stamped now]⟩ := rfl
  have hrows : (⟨[r.stamped now]⟩ : MemoryLedger).ofSchema schema = [r.stamped now] := by
    simp [ofSchema, Record.stamped, r]
  have hchain : Arranges [r.stamped now] [r.stamped now] :=
    ⟨.refl _, List.nodup_singleton _, rfl, trivial⟩
  refine ⟨[(now, .insert r)], [r.stamped now], ?_, ?_⟩
  · rw [hrun]
    exact congrArg (·, _) (history_eq (hrows.symm ▸ hchain))
  · exact List.mem_singleton_self label

/-- And in the table. -/
theorem Database.exists_label (schema label : String) (versions : List VersionMark) :
    ∃ (steps : List Step) (chain : List Record),
      let d : Database := after (steps.map Step.commit) ⟨some { versions }⟩
      LedgerStore.history schema d = (.ok chain, d) ∧ label ∈ chain.map (·.label) := by
  let steps : List Step :=
    [.operation ⟨0, some 0⟩ (fun _ => .ok (.map [])) (.createBaseline schema label)]
  let d : Database := after (steps.map Step.commit) ⟨some { versions }⟩
  have hlabels : d.labelsOf schema = [label] := by
    have hd : d.rows =
        [Lifecycle.baselineRecord ⟨0, some 0⟩ schema label (.map []) none] := rfl
    rw [labelsOf, hd]
    simp [Table.ofSchema, Lifecycle.baselineRecord]
    rfl
  refine ⟨steps, d.shownRows schema, history_of_tidy (Step.tidy_after steps versions) schema, ?_⟩
  rw [label_shownRows, hlabels]
  exact List.mem_singleton_self label

/-- **Namespaces of different schemas are kept apart by names alone.** In any ledger, two sets of
namespaces give a schema the same versions at all depths exactly if they agree on the namespaces of
the labels in its history. So for two schemas it is the same that they have no namespace in common;
that neither is named like a namespace of the other one; and that whatever comes or goes of the
namespaces of the one, no version of the other one changes: in any ledger at all, in every ledger
that calls make in memory, and in every table that transactions make. -/
theorem namespaces_separate {s t : String} (hne : s ≠ t) (versions : List VersionMark) :
    (∀ (σ : Type) [LedgerStore σ] (state : σ) (chain : List Record),
      LedgerStore.history s state = (.ok chain, state) → ∀ present present',
        SameVersions present present' s state ↔ ∀ label ∈ chain.map (·.label),
          present' (namespaceName s label) = present (namespaceName s label)) ∧
    List.TFAE [
      ∀ label other, namespaceName s label ≠ namespaceName t other,
      ¬ NamedBelow s t ∧ ¬ NamedBelow t s,
      ∀ (σ : Type) [LedgerStore σ] (state : σ) (present present' : String → Bool),
        DifferFor t present present' → SameVersions present present' s state,
      ∀ (calls : List (Moment × Call)) (present present' : String → Bool),
        DifferFor t present present' →
          SameVersions present present' s (after (Call.runs calls) MemoryLedger.empty),
      ∀ (steps : List Step) (present present' : String → Bool),
        DifferFor t present present' →
          SameVersions present present' s
            (after (steps.map Step.commit) ⟨some { versions }⟩ : Database)] := by
  refine ⟨fun _ _ _ _ hhistory _ _ => sameVersions_iff hhistory, ?_⟩
  tfae_have 1 ↔ 2 := no_shared_namespace_iff hne
  tfae_have 1 → 3 := fun hshared _ _ state _ _ hdiffer =>
    sameVersions_of_not_shared hshared hdiffer state
  tfae_have 3 → 4 := fun h _ => h _ _
  tfae_have 3 → 5 := fun h _ => h _ _
  tfae_have 4 → 1 := by
    intro h label other
    obtain ⟨calls, chain, hhistory, hlabel⟩ := MemoryLedger.exists_label s label
    exact not_shared_of_sameVersions hhistory hlabel (h calls)
  tfae_have 5 → 1 := by
    intro h label other
    obtain ⟨steps, chain, hhistory, hlabel⟩ := Database.exists_label s label versions
    exact not_shared_of_sameVersions hhistory hlabel (h steps)
  tfae_finish

/-- Two schemas that begin alike, up to an underscore and beyond it, are kept apart. -/
theorem namespaces_separate_of_common_beginning :
    "app_one" ≠ "app_two" ∧
    ∀ (steps : List Step) (present present' : String → Bool),
      DifferFor "app_two" present present' →
        SameVersions present present' "app_one"
          (after (steps.map Step.commit) ⟨some {}⟩ : Database) := by
  have hne : "app_one" ≠ "app_two" := by decide
  have hnamed : ¬ NamedBelow "app_one" "app_two" ∧ ¬ NamedBelow "app_two" "app_one" := by
    constructor
    all_goals
      rintro ⟨label, h⟩
      have hchars := congrArg String.toList h
      rw [toList_namespaceName] at hchars
      simp at hchars
  exact ⟨hne, ((namespaces_separate hne []).2.out 1 4).mp hnamed⟩

/-- The namespace `a_b_c` comes for the label `c` of `a_b`, and `a` has a step `b_c` without a
namespace: that step is now the latest version of `a`. -/
theorem version_changed_by_other_schema :
    ¬ ∀ s t : String, s ≠ t →
      ∀ (calls : List (Moment × Call)) (present present' : String → Bool),
        DifferFor t present present' →
          SameVersions present present' s (after (Call.runs calls) MemoryLedger.empty) := by
  intro h
  let step (second : Int) (schema name : String) : Moment × Call :=
    (⟨second, some 0⟩, .insert { schema, name, done := true })
  let present' : String → Bool := fun name => decide (name = "a_b_c")
  have hdiffer : DifferFor "a_b" (fun _ => false) present' := by
    intro name hname
    have hname : name = namespaceName "a_b" "c" := by simpa [present', namespaceName] using hname
    exact ⟨"c", hname⟩
  have hsame := h "a" "a_b" (by decide) [step 0 "a" "b_c", step 1 "a_b" "c"] _ _ hdiffer 0
  revert hsame
  decide +kernel

end SchemaLedger
