import Mathlib.Tactic.TFAE
import SchemaLedger.Proofs.Inference.FreshLabel
import SchemaLedger.Proofs.Ledger.Growth
import SchemaLedger.Proofs.Payload.Storage
import SchemaLedger.Proofs.Version.Search

/-!
# Labels that come twice

A number of steps back stands for a version, and the versions are counted by the namespaces behind
the labels of a history. So different numbers stand for different versions as long as no two steps
of a history have one label: a label that comes twice has its one namespace counted twice, and then
the version before the latest can be the latest one again.

The label of a step comes from one of three places. The payload of a migration may declare it, a
step without such a payload has its name for a label, and for an inferred step the recorder draws
one. The recorder draws until it has a label that no step of the schema has (`distinct_record`). A
start or a baseline takes the label that it is given, and the table has no constraint on labels
(`depths_not_always_differ`).

This file says exactly when depths stand for different versions: of one history, if its labels are
distinct (`nodup_labels_tfae`); along a run of transactions, if no start and no baseline that
succeeds brings a label that its schema has already (`depths_differ_tfae`).
-/

namespace SchemaLedger

open Attempt
open Database (Tidy)

/-! ## One history -/

/-- The label of the version schema `depth` steps back. -/
def NamesAt {σ : Type} [LedgerStore σ] (s : σ) (schema : String) (present : String → Bool)
    (depth : Int) (label : String) : Prop :=
  ∃ probed, (resolve present schema depth s).1 = .ok ⟨some label, probed⟩

/-- No two depths name one label, whichever namespaces are there. -/
def DepthsDiffer {σ : Type} [LedgerStore σ] (s : σ) (schema : String) : Prop :=
  ∀ present depth depth' label, NamesAt s schema present depth label →
    NamesAt s schema present depth' label → depth = depth'

/-- The version before the latest is not the latest one, whichever namespaces are there. -/
def PreviousDiffers {σ : Type} [LedgerStore σ] (s : σ) (schema : String) : Prop :=
  ∀ present label, (latestVersion present schema s).1 = .ok (some label) →
    (previousVersion present schema s).1 ≠ .ok (some label)

/-- The labels whose namespace is there, from the tip to the root. -/
def presentLabels (schema : String) (present : String → Bool) (chain : List Record) :
    List String :=
  (chain.map (·.label)).reverse.filter fun label => present (namespaceName schema label)

/-- Different labels have different namespaces. -/
theorem namespaceName_inj (schema : String) {label other : String} :
    namespaceName schema label = namespaceName schema other ↔ label = other := by
  rw [namespaceName, namespaceName, String.append_right_inj]

section History

variable {σ : Type} [LedgerStore σ] {s : σ} {schema label : String} {present : String → Bool}
  {chain : List Record}

theorem map_label_filter (schema : String) (present : String → Bool) (chain : List Record) :
    (chain.reverse.filter fun r => present (namespaceOf schema r)).map (·.label) =
      presentLabels schema present chain := by
  rw [presentLabels, ← List.map_reverse, List.filter_map]
  rfl

/-- A search in a history that can be read finds the label of its number among those that are there,
and leaves the ledger alone. -/
theorem resolve_apply (h : LedgerStore.history schema s = (.ok chain, s))
    (present : String → Bool) (n : Nat) : ∃ probed,
      resolve present schema n s = (.ok ⟨(presentLabels schema present chain)[n]?, probed⟩, s) := by
  have hdepth : ¬ (n : Int) < 0 := by omega
  obtain ⟨passed, -, hseek⟩ := Probing.seek_apply n chain.reverse { state := s }
  refine ⟨passed.map (namespaceOf schema), ?_⟩
  rw [resolve, Probing.run, Probing.label_of_history h, Probing.labelAt, if_neg hdepth,
    Int.toNat_natCast, hseek, ← List.getElem?_map, map_label_filter]
  rfl

theorem latestVersion_apply (h : LedgerStore.history schema s = (.ok chain, s)) :
    latestVersion present schema s = (.ok (presentLabels schema present chain)[0]?, s) := by
  obtain ⟨probed, hfound⟩ := resolve_apply h present 0
  exact bind_ok hfound

theorem previousVersion_apply (h : LedgerStore.history schema s = (.ok chain, s)) :
    previousVersion present schema s = (.ok (presentLabels schema present chain)[1]?, s) := by
  obtain ⟨probed, hfound⟩ := resolve_apply h present 1
  exact bind_ok hfound

theorem resolve_of_negative (h : LedgerStore.history schema s = (.ok chain, s)) {depth : Int}
    (hdepth : depth < 0) : (resolve present schema depth s).1 = .error .negativeDepth := by
  rw [resolve, Probing.run, Probing.label_of_history h, Probing.labelAt, if_pos hdepth]
  rfl

/-- A depth that is not negative names the label of its number among those that are there. -/
theorem namesAt_iff (h : LedgerStore.history schema s = (.ok chain, s)) (depth : Int) :
    NamesAt s schema present depth label ↔
      ∃ n : Nat, depth = n ∧ (presentLabels schema present chain)[n]? = some label := by
  unfold NamesAt
  by_cases hnegative : depth < 0
  · rw [resolve_of_negative h hnegative]
    constructor
    · rintro ⟨probed, hprobed⟩
      cases hprobed
    · rintro ⟨n, rfl, -⟩
      omega
  · obtain ⟨n, rfl⟩ := Int.eq_ofNat_of_zero_le (Int.not_lt.mp hnegative)
    obtain ⟨passed, hfound⟩ := resolve_apply h present n
    rw [hfound]
    constructor
    · rintro ⟨probed, hprobed⟩
      exact ⟨n, rfl, congrArg Resolution.label (Except.ok.inj hprobed)⟩
    · rintro ⟨m, hm, hget⟩
      rw [Int.ofNat_inj.mp hm, hget]
      exact ⟨_, rfl⟩

/-- The latest version and the one before it are the labels that are asked for at a depth. -/
theorem version_eq_iff {depth : Int} :
    ((resolve present schema depth >>= fun found => pure found.label) s).1 = .ok (some label) ↔
      NamesAt s schema present depth label := by
  rw [bind_pure_apply, NamesAt]
  rcases (resolve present schema depth s).1 with e | ⟨found, probed⟩
  · exact ⟨nofun, fun ⟨_, hfound⟩ => nomatch hfound⟩
  · simp [Except.map]

/-- If a history has a label twice and no namespace is there but its own, then depths zero and one
both name it. -/
theorem two_of_not_nodup (schema : String) (h : ¬ (chain.map (·.label)).Nodup) :
    ∃ present label, (presentLabels schema present chain)[0]? = some label ∧
      (presentLabels schema present chain)[1]? = some label := by
  rw [List.nodup_iff_count_le_one, not_forall] at h
  obtain ⟨label, hcount⟩ := h
  let present : String → Bool := fun name => decide (name = namespaceName schema label)
  have hown : (fun other => present (namespaceName schema other)) = (· == label) :=
    funext fun other => decide_eq_decide.mpr (namespaceName_inj schema)
  have hlabels : presentLabels schema present chain =
      List.replicate ((chain.map (·.label)).count label) label := by
    rw [presentLabels, hown, List.filter_beq, List.count_reverse]
  refine ⟨present, label, ?_⟩
  rw [hlabels, List.getElem?_replicate, List.getElem?_replicate, if_pos (by omega),
    if_pos (by omega)]
  exact ⟨rfl, rfl⟩

/-- **Depths stand for different versions exactly if labels are distinct.** For a history that can
be read it is the same that no label comes twice, that no two depths name one label whichever
namespaces are there, and that the version before the latest is never the latest one again. -/
theorem nodup_labels_tfae (h : LedgerStore.history schema s = (.ok chain, s)) :
    List.TFAE [(chain.map (·.label)).Nodup, DepthsDiffer s schema, PreviousDiffers s schema] := by
  tfae_have 1 → 2 := by
    intro hnodup present depth depth' label hdepth hdepth'
    obtain ⟨n, rfl, hn⟩ := (namesAt_iff h depth).mp hdepth
    obtain ⟨m, rfl, hm⟩ := (namesAt_iff h depth').mp hdepth'
    have hlabels : (presentLabels schema present chain).Nodup :=
      (List.nodup_reverse.mpr hnodup).filter _
    obtain ⟨hlt, -⟩ := List.getElem?_eq_some_iff.mp hn
    rw [(List.getElem?_inj hlt hlabels).mp (hn.trans hm.symm)]
  tfae_have 2 → 3 := by
    intro hdiffer present label hlatest hprevious
    have hsame : (0 : Int) = 1 :=
      hdiffer present 0 1 label (version_eq_iff.mp hlatest) (version_eq_iff.mp hprevious)
    omega
  tfae_have 3 → 1 := by
    intro hprevious
    by_contra hrepeats
    obtain ⟨present, label, hfirst, hsecond⟩ := two_of_not_nodup schema hrepeats
    refine hprevious present label (version_eq_iff.mpr ?_) (version_eq_iff.mpr ?_)
    · exact (namesAt_iff h 0).mpr ⟨0, rfl, hfirst⟩
    · exact (namesAt_iff h 1).mpr ⟨1, rfl, hsecond⟩
  tfae_finish

end History

/-! ## The labels in the table -/

/-- The labels of a schema's rows, of the documents as they are kept. -/
def Database.labelsOf (d : Database) (schema : String) : List String :=
  (Table.ofSchema d.rows schema).map (·.asJson.label)

/-- No label of a schema comes twice. -/
def DistinctLabels (d : Database) : Prop := ∀ schema, (d.labelsOf schema).Nodup

/-- A row is given out with its label. -/
theorem Database.label_shownRows (d : Database) (schema : String) :
    (d.shownRows schema).map (·.label) = d.labelsOf schema := by
  rw [shownRows, List.map_map]
  rfl

theorem labelsOf_tfae {d : Database} (h : Tidy d) (schema : String) :
    List.TFAE [(d.labelsOf schema).Nodup, DepthsDiffer d schema, PreviousDiffers d schema] := by
  rw [← d.label_shownRows]
  exact nodup_labels_tfae (Database.history_of_tidy h schema)

theorem distinctLabels_tfae {d : Database} (h : Tidy d) :
    List.TFAE [DistinctLabels d, ∀ schema, DepthsDiffer d schema,
      ∀ schema, PreviousDiffers d schema] := by
  tfae_have 1 ↔ 2 := forall_congr' fun schema => (labelsOf_tfae h schema).out 0 1
  tfae_have 1 ↔ 3 := forall_congr' fun schema => (labelsOf_tfae h schema).out 0 2
  tfae_finish

theorem nodup_labelsOf_concat {rows : Table} (r : Record)
    (hrows : (rows.map (·.asJson.label)).Nodup) (hr : r.asJson.label ∉ rows.map (·.asJson.label)) :
    ((rows ++ [r]).map (·.asJson.label)).Nodup := by
  rw [List.map_append, List.map_singleton, ← List.concat_eq_append, List.nodup_concat]
  exact ⟨hr, hrows⟩

theorem nodup_labels_concat {old : List Record} (r : Record)
    (hold : (old.map (·.label)).Nodup) :
    ((old ++ [r]).map (·.label)).Nodup ↔ r.label ∉ old.map (·.label) := by
  rw [List.map_append, List.map_singleton, ← List.concat_eq_append, List.nodup_concat]
  exact and_iff_left hold

/-! ## Operations of the tool -/

namespace Lifecycle

/-- The payload of a start was read from a document. -/
def Operation.Accepted : Operation → Prop
  | start _ _ p => ∃ document, Payload.validate document = .ok p
  | complete .. | rollback .. | createBaseline .. => True

/-- The label that an operation adds to its schema. -/
def Operation.label? : Operation → Option String
  | start _ name p => some (p.versionSchema.getD name)
  | createBaseline _ name => some name
  | complete .. | rollback .. => none

/-- The label of a start is a text, if there is one, and so the database keeps it. -/
theorem label_startRecord (now : Moment) (schema name : String) (p : Payload)
    (parent : Option String) :
    (startRecord now schema name p parent).asJson.label = p.versionSchema.getD name := by
  have hkeys : (p.toLedger.map (Json.keyText ·.1)).Nodup := by
    rw [p.toLedger_eq]
    cases p.versionSchema <;> simp [Json.keyText]
  have hkept : (startRecord now schema name p parent).asJson.label =
      (startRecord now schema name p parent).label := by
    refine Record.label_asJson (fun e he => ?_) hkeys fun v hv => ?_
    · obtain ⟨field, hfield, -⟩ := p.keys_toLedger e he
      exact ⟨field, hfield⟩
    · have hdeclared : p.toLedger.field? "version_schema" = some v := hv
      rw [p.field?_versionSchema_toLedger] at hdeclared
      obtain ⟨label, -, rfl⟩ := Option.map_eq_some_iff.mp hdeclared
      rfl
  rw [hkept]
  exact Payload.label_of_toLedger rfl

theorem label_baselineRecord (now : Moment) (schema name : String) (present : Value)
    (parent : Option String) : (baselineRecord now schema name present parent).label = name := rfl

/-- Distinct labels stay distinct exactly if the one that is added is new, since no label of a
record that is there changes. -/
theorem Operation.Changes.nodup_iff {now : Moment} {snapshot : String → Except Failure Value}
    {old new : List Record} {o : Operation} (h : o.Changes now snapshot old new)
    (hold : (old.map (·.label)).Nodup) :
    (new.map (·.label)).Nodup ↔ ∀ label, o.label? = some label → label ∉ old.map (·.label) := by
  cases o with
  | start schema name p =>
    rw [show new = old ++ [_] from h, nodup_labels_concat _ hold, label_startRecord]
    simp [Operation.label?]
  | complete schema name =>
    obtain ⟨front, r, back, v, -, rfl, -, -, rfl⟩ := h
    -- a label is read off the payload and the name, which a completion leaves alone
    rw [List.map_append, List.map_cons] at hold ⊢
    exact ⟨fun _ => nofun, fun _ => hold⟩
  | rollback schema name =>
    obtain ⟨r, -, -, rfl⟩ := h
    rw [List.map_append] at hold
    exact ⟨fun _ => nofun, fun _ => (List.nodup_append.mp hold).1⟩
  | createBaseline schema name =>
    obtain ⟨v, -, rfl⟩ := h
    rw [nodup_labels_concat _ hold, label_baselineRecord]
    simp [Operation.label?]

/-- Only the labels of its own schema can lose their distinctness by an operation. -/
theorem Operation.distinct_iff {now : Moment} {snapshot : String → Except Failure Value}
    {o : Operation} {d d' : Database} (hd : DistinctLabels d)
    (hown : o.Changes now snapshot (d.shownRows o.schema) (d'.shownRows o.schema))
    (hother : ∀ other ≠ o.schema, d'.shownRows other = d.shownRows other) :
    DistinctLabels d' ↔ ∀ label, o.label? = some label → label ∉ d.labelsOf o.schema := by
  have hlabels := hown.nodup_iff (by rw [d.label_shownRows]; exact hd o.schema)
  rw [d.label_shownRows, d'.label_shownRows] at hlabels
  rw [← hlabels]
  refine ⟨fun h => h o.schema, fun h schema => ?_⟩
  by_cases hschema : schema = o.schema
  · rw [hschema]
    exact h
  · rw [← d'.label_shownRows, hother schema hschema, d.label_shownRows]
    exact hd schema

end Lifecycle

/-! ## Inferred steps -/

namespace Database

theorem label_of_read {row r : Record} (h : read row = .ok r) : r.label = row.asJson.label := by
  obtain ⟨v, -, rfl⟩ := read_eq_ok h
  rfl

/-- Every label of the rows is among those that are given out as in use. -/
theorem distinct_versionLabels (schema : String) :
    Ensures DistinctLabels (LedgerStore.versionLabels (σ := Database) schema)
      fun taken d => DistinctLabels d ∧ ∀ label ∈ d.labelsOf schema, label ∈ taken := by
  rintro ⟨_ | t⟩ taken d' h hx
  · nomatch hx
  obtain ⟨records, d'', hrecords, hpure⟩ := bind_eq_ok.mp hx
  obtain ⟨htaken, rfl⟩ := Prod.mk.inj hpure
  obtain ⟨hread, rfl⟩ := Prod.mk.inj hrecords
  refine ⟨h, fun label hlabel => ?_⟩
  rw [← Except.ok.inj htaken, Text.mem_sortedDistinct,
    map_eq_of_mapM (fun _ _ => label_of_read) hread]
  exact ((List.mergeSort_perm _ _).map _).mem_iff.mpr hlabel

/-- A row with a new label may join. -/
theorem distinct_insert (now : Moment) {record : Record} {schema label : String}
    (hschema : record.schema = schema) (hlabel : record.asJson.label = label) :
    Ensures (fun d => DistinctLabels d ∧ label ∉ d.labelsOf schema) (insert now record)
      fun _ => DistinctLabels := by
  subst hschema hlabel
  rintro ⟨_ | t⟩ r d' ⟨h, hnew⟩ hx
  · rw [insert_without_tables] at hx
    nomatch hx
  obtain ⟨-, -, -, rfl⟩ := insert_eq_ok hx
  intro schema
  show ((Table.ofSchema (t.migrations ++ [record.stamped now]) schema).map (·.asJson.label)).Nodup
  by_cases hschema : record.schema = schema
  · subst hschema
    have hown : (record.stamped now).schema = record.schema := rfl
    rw [Table.ofSchema_concat hown]
    exact nodup_labelsOf_concat (record.stamped now) (h record.schema) hnew
  · rw [Table.ofSchema_concat_of_ne (r := record.stamped now) hschema]
    exact h schema

theorem keeps_distinct_deleteRows (refused : Constraint → Failure) (gone : Record → Bool) :
    Keeps DistinctLabels (change refused (Table.deleteRows · gone)) := by
  refine keeps_change_deleteRows
    (P := fun rows => ∀ schema, ((Table.ofSchema rows schema).map (·.asJson.label)).Nodup)
    (fun rows gone kept hkept h schema => ?_) refused gone
  obtain ⟨-, rfl⟩ := Table.deleteRows_eq_ok.mp hkept
  rw [Table.ofSchema, filter_schema_comm]
  exact (h schema).sublist (List.filter_sublist.map _)

theorem keeps_distinct_deleteInferredDuplicates (schema : String) (createdAt : Moment)
    (statement : String) :
    Keeps DistinctLabels (deleteInferredDuplicates schema createdAt statement) :=
  keeps_bind (keeps_ask _) fun _ => keeps_bind (keeps_distinct_deleteRows _ _) fun _ =>
    keeps_pure _

end Database

namespace Recorder

theorem not_mem_of_drawFresh {taken labels : List String} {label : String}
    (h : (drawFresh taken labels).2.2 = some label) : label ∉ taken := by
  by_cases hall : ∀ x ∈ labels, x ∈ taken
  · rw [drawFresh_exhausted hall] at h
    nomatch h
  · push Not at hall
    obtain ⟨passed, first, left, rfl, hpassed, hfree⟩ := exists_first_without hall
    rw [drawFresh_first hpassed hfree] at h
    rwa [← Option.some.inj h]

/-- A label that is drawn is not in use. -/
theorem drawLabel_eq_ok {σ : Type} {taken : List String} {d d' : Desk σ} {label : String}
    (h : drawLabel taken d = (.ok label, d')) : label ∉ taken ∧ d'.ledger = d.ledger := by
  obtain ⟨hanswer, rfl⟩ := Prod.mk.inj h
  have hfound : (drawFresh taken d.labels).2.2 = some label := by
    split at hanswer
    next found hfound => rw [hfound, Except.ok.inj hanswer]
    next => nomatch hanswer
  exact ⟨not_mem_of_drawFresh hfound, rfl⟩

theorem distinct_freshLabel (schema : String) :
    Ensures (fun d : Desk Database => DistinctLabels d.ledger) (freshLabel schema)
      fun label d => DistinctLabels d.ledger ∧ label ∉ d.ledger.labelsOf schema := by
  refine ensures_bind (ensures_onLedger (Database.distinct_versionLabels schema)) fun taken => ?_
  rintro d label d' ⟨h, htaken⟩ hx
  obtain ⟨hnew, hledger⟩ := drawLabel_eq_ok hx
  rw [hledger]
  exact ⟨h, fun hlabel => hnew (htaken label hlabel)⟩

/-- **An inferred step brings a label of its own.** -/
theorem distinct_record (s : Surroundings) (e : DdlEvent) (schema : String) :
    Ensures (fun d : Desk Database => DistinctLabels d.ledger) (record s e schema)
      fun _ d => DistinctLabels d.ledger := by
  have hlatest : Keeps DistinctLabels (LedgerStore.latest (σ := Database) schema) :=
    Database.keeps_ask _
  refine ensures_bind (ensures_nameStep (Q := fun _ => DistinctLabels)
    (Database.keeps_distinct_deleteInferredDuplicates _ _ _).ensures hlatest.ensures
    fun _ => Database.keeps_ask _) fun n => ?_
  refine ensures_bind (distinct_freshLabel schema) fun label => ?_
  -- no row joins between the draw of the label and the step that has it
  refine ensures_bind (keeps_readSnapshot (P := fun d => DistinctLabels d ∧
    label ∉ d.labelsOf schema) s schema).ensures fun snapshot => ?_
  exact (ensures_onLedger (Database.distinct_insert s.now rfl rfl)).imp (fun _ h => h)
    fun _ _ h => h

theorem distinct_onEvent (s : Surroundings) (e : DdlEvent) :
    Ensures (fun d : Desk Database => DistinctLabels d.ledger) (onEvent s e)
      fun _ d => DistinctLabels d.ledger :=
  onEvent_ensures_of_record (distinct_record s e)

end Recorder

/-! ## Runs of transactions -/

namespace Step

/-- A start or a baseline succeeds with a label that its schema has already. -/
def RepeatsLabel (d : Database) : Step → Prop
  | operation now snapshot o => ∃ answer label, (atomically (o.run now snapshot) d).1 = .ok answer ∧
      o.label? = some label ∧ label ∈ d.labelsOf o.schema
  | event .. => False

/-- No transaction of a run repeats a label that it finds. -/
def RunKeepsLabels : List Step → Database → Prop
  | [], _ => True
  | step :: rest, d => ¬ step.RepeatsLabel d ∧ RunKeepsLabels rest (step.commit d).2

variable {d : Database}

/-- A transaction keeps labels distinct exactly if it does not repeat one. -/
theorem distinct_commit_iff (step : Step) (h : Tidy d) (hd : DistinctLabels d) :
    DistinctLabels (step.commit d).2 ↔ ¬ step.RepeatsLabel d := by
  cases step with
  | operation now snapshot o =>
    have hcommit : (operation now snapshot o).commit d = atomically (o.run now snapshot) d := rfl
    rw [hcommit, RepeatsLabel]
    cases hx : atomically (o.run now snapshot) d with
    | mk answer d' =>
      cases answer with
      | ok answer =>
        obtain ⟨hchanges, hother⟩ := Lifecycle.Operation.changes_run h (atomically_eq_ok.mp hx)
        simp [Lifecycle.Operation.distinct_iff hd hchanges hother]
      | error e =>
        rw [eq_of_atomically_eq_error hx]
        simp [hd]
  | event s labels e =>
    have hkeeps : Keeps DistinctLabels (commit (σ := Database) (event s labels e)) :=
      keeps_atomically (ensures_event (Recorder.distinct_onEvent s e) labels)
    exact ⟨fun _ => id, fun _ => hkeeps d hd⟩

/-- Labels are distinct up to the first transaction that repeats one, so the repetition shows. -/
theorem runKeepsLabels_iff {steps : List Step} (h : Tidy d) (hd : DistinctLabels d) :
    RunKeepsLabels steps d ↔ ∀ m ∈ trace (steps.map commit) d, DistinctLabels m.2 := by
  induction steps generalizing d with
  | nil => exact ⟨fun _ _ hm => (nomatch hm), fun _ => trivial⟩
  | cons step rest ih =>
    rw [List.map_cons, trace, List.forall_mem_cons, RunKeepsLabels,
      step.distinct_commit_iff h hd]
    -- the rest is judged only where the first transaction was a good one
    refine and_congr_right fun hnew => ?_
    exact ih (step.tidy_commit d h) ((step.distinct_commit_iff h hd).mpr hnew)

end Step

/-- **Depths stand for different versions as long as no label is brought in twice.** For any
transactions on an empty table, in any order and whether or not they succeed, these are the same:
no start and no baseline succeeds with a label that its schema has already; after every transaction
the labels of each schema are distinct; after every transaction no two depths name one label,
whichever namespaces are there; after every transaction the version before the latest is never the
latest one again. -/
theorem depths_differ_tfae (steps : List Step) (versions : List VersionMark) :
    let d : Database := ⟨some { versions }⟩
    let moments := trace (steps.map Step.commit) d
    List.TFAE [
      Step.RunKeepsLabels steps d,
      ∀ m ∈ moments, DistinctLabels m.2,
      ∀ m ∈ moments, ∀ schema, DepthsDiffer m.2 schema,
      ∀ m ∈ moments, ∀ schema, PreviousDiffers m.2 schema] := by
  intro d moments
  have h : Tidy d := ⟨⟨_, rfl, Intact.nil⟩, Ordered.nil⟩
  have hd : DistinctLabels d := fun _ => List.nodup_nil
  have htidy : ∀ m ∈ moments, Tidy m.2 := by
    refine keeps_trace (fun x hx => ?_) h
    obtain ⟨step, -, rfl⟩ := List.mem_map.mp hx
    exact step.tidy_commit
  have hmoment := fun m hm => distinctLabels_tfae (htidy m hm)
  tfae_have 1 ↔ 2 := Step.runKeepsLabels_iff h hd
  tfae_have 2 ↔ 3 := forall₂_congr fun m hm => (hmoment m hm).out 0 1
  tfae_have 2 ↔ 4 := forall₂_congr fun m hm => (hmoment m hm).out 0 2
  tfae_finish

open Lifecycle (Operation Task) in
/-- A migration is completed, and another one is started whose payload declares the label of the
first. Its namespace is counted twice, and the version before the latest is the latest again. -/
theorem depths_not_always_differ :
    ¬ ∀ (tasks : List Task) (versions : List VersionMark) (schema : String),
      (∀ task ∈ tasks, task.operation.Accepted) →
        DepthsDiffer (after (tasks.map Task.commit) ⟨some { versions }⟩ : Database) schema := by
  intro h
  let task (second : Int) (o : Operation) : Task :=
    ⟨⟨second, some 0⟩, fun _ => .ok (.map []), o⟩
  let tasks : List Task :=
    [task 0 (.start "public" "a" { versionSchema := some "v1" }), task 1 (.complete "public" "a"),
      task 2 (.start "public" "b" { versionSchema := some "v1" })]
  let d : Database := after (tasks.map Task.commit) ⟨some {}⟩
  have hpayload : Payload.validate (.map [(.text "version_schema", .text "v1")]) =
      .ok { versionSchema := some "v1" } := by decide
  have haccepted : ∀ t ∈ tasks, t.operation.Accepted := by
    simp only [tasks, List.forall_mem_cons]
    exact ⟨⟨_, hpayload⟩, trivial, ⟨_, hpayload⟩, nofun⟩
  have hd : Tidy d := Task.tidy_after tasks ⟨⟨_, rfl, Intact.nil⟩, Ordered.nil⟩
  have hlabels : d.labelsOf "public" = ["v1", "v1"] := by decide
  have hnodup := ((labelsOf_tfae hd "public").out 1 0).mp (h tasks [] "public" haccepted)
  rw [hlabels] at hnodup
  exact absurd hnodup (by decide)

end SchemaLedger
