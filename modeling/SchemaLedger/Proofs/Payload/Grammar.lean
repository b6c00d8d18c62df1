import SchemaLedger.Payload

/-!
# The grammar of payloads

Reading a payload takes its parts one by one, the two texts, the operations and the keys, and then
looks at what was read (`Payload.validate_eq_ok_iff`). For each part one lemma says which documents
it accepts and what it makes of them.

A mapping that has the fields of a payload describes it (`Payload.Describes`), and is read as that
payload. The converse fails for binary data alone, which is read as the text that it encodes. So a
document without binary data is accepted exactly if it is a mapping with no other keys than the
three fields, whose fields are of their kinds, whose operations have one kind each, and whose label
has a character that is not blank (`Payload.accepted_iff`).
-/

namespace SchemaLedger

namespace Mapping

variable {P : Scalar → Prop}

theorem forall_keys_put {m : Mapping} {key : Scalar} (v : Value) (hkey : P key)
    (h : ∀ e ∈ m, P e.1) : ∀ e ∈ m.put key v, P e.1 := by
  induction m with
  | nil => simpa [put] using hkey
  | cons e rest ih =>
    obtain ⟨k, w⟩ := e
    obtain ⟨hk, hrest⟩ := List.forall_mem_cons.mp h
    rw [put]
    split
    next => exact List.forall_mem_cons.mpr ⟨hk, hrest⟩
    next => exact List.forall_mem_cons.mpr ⟨hk, ih hrest⟩

/-- The keys of a mapping are among those that it was made from. -/
theorem forall_keys_ofEntries {entries : List (Scalar × Value)} (h : ∀ e ∈ entries, P e.1) :
    ∀ e ∈ ofEntries entries, P e.1 :=
  List.foldlRecOn entries _ (motive := fun m : Mapping => ∀ e ∈ m, P e.1) nofun
    fun _ hm e he => forall_keys_put e.2 (h e he) hm

end Mapping

namespace Payload

/-! ## The parts of a payload -/

/-- Only binary data stands for a text without being one. -/
theorem textOf_eq_ok_iff {k : Scalar} {s : String} (h : isBinary k = false) :
    textOf k = .ok s ↔ k = .text s := by
  cases k <;> simp_all [isBinary, textOf]

/-- A field is a text if nothing or null is there, or a scalar that stands for a text. -/
theorem readText_eq_ok_iff {m : Mapping} {field : String} {text : Option String} :
    readText m field = .ok text ↔
      (m.field? field = none ∨ m.field? field = some .null) ∧ text = none ∨
        ∃ k s, m.field? field = some (.scalar k) ∧ textOf k = .ok s ∧ text = some s := by
  unfold readText
  split
  next h => simp [h, eq_comm]
  next h => simp [h, textOf, eq_comm]
  next k hnull h =>
    have hk : k ≠ .null := fun hk => hnull hk
    cases htext : textOf k <;> simp [h, hk, htext, eq_comm]
  next v _ hscalar h =>
    have hv : ∀ k, v ≠ .scalar k := hscalar
    simp [h, hv]

/-- A mapping whose keys stand for texts. -/
def TextKeyed (v : Value) : Prop := ∃ m, v = .map m ∧ ∀ e ∈ m, ∃ s, textOf e.1 = .ok s

theorem operationFaults_eq_nil_iff {i : Nat} {v : Value} :
    operationFaults i v = [] ↔ TextKeyed v := by
  cases v with
  | map m =>
    simp only [operationFaults, List.filterMap_eq_nil_iff, TextKeyed, Value.map.injEq,
      exists_eq_left']
    refine forall₂_congr fun e _ => ?_
    cases textOf e.1 <;> simp
  | scalar s => simp [operationFaults, TextKeyed]
  | list xs => simp [operationFaults, TextKeyed]

theorem flatMap_operationFaults_eq_nil_iff {items : List Value} :
    (items.zipIdx.flatMap fun (v, i) => operationFaults i v) = [] ↔
      ∀ item ∈ items, TextKeyed item := by
  simp only [List.flatMap_eq_nil_iff, operationFaults_eq_nil_iff]
  -- the numbers of the items do not matter
  rw [← List.forall_mem_map (f := Prod.fst) (l := items.zipIdx), List.zipIdx_map_fst]

/-- The operations are a list of mappings whose keys stand for texts, or are left out. -/
theorem readOperations_eq_ok_iff {m : Mapping} {operations : List Mapping} :
    readOperations m = .ok operations ↔
      m.field? "operations" = none ∧ operations = [] ∨
        ∃ items, m.field? "operations" = some (.list items) ∧ (∀ item ∈ items, TextKeyed item) ∧
          operations = items.map entriesOf := by
  unfold readOperations
  split
  next h => simp [h, eq_comm]
  next items h =>
    split
    next hnil =>
      have hitems := flatMap_operationFaults_eq_nil_iff.mp hnil
      simp only [h, Except.ok.injEq, reduceCtorEq, false_and, false_or, Option.some.injEq,
        Value.list.injEq, exists_eq_left']
      exact ⟨fun hread => ⟨hitems, hread.symm⟩, fun hread => hread.2.symm⟩
    next hfault =>
      have hitems : ¬ ∀ item ∈ items, TextKeyed item :=
        mt flatMap_operationFaults_eq_nil_iff.mpr hfault
      simp [h, hitems]
  next v hlist h =>
    have hv : ∀ items, v ≠ .list items := hlist
    simp [h, hv]

theorem readFields_eq_ok_iff {m : Mapping} {p : Payload} :
    readFields m = .ok p ↔
      readText m "name" = .ok p.name ∧ readText m "version_schema" = .ok p.versionSchema ∧
        readOperations m = .ok p.operations ∧ keyFaults m = [] := by
  obtain ⟨name, label, operations⟩ := p
  unfold readFields
  split
  next hname hlabel hoperations hkeys => simp [hname, hlabel, hoperations, hkeys]
  next hfault =>
    refine ⟨nofun, fun ⟨hname, hlabel, hoperations, hkeys⟩ => ?_⟩
    exact (hfault name label operations hname hlabel hoperations hkeys).elim

/-- Keys that stand for texts are read as texts. -/
theorem TextKeyed.text_of_mem {v : Value} (h : TextKeyed v) :
    ∀ e ∈ entriesOf v, ∃ s, e.1 = .text s := by
  obtain ⟨m, rfl, hkeys⟩ := h
  rw [entriesOf, withTextKeys]
  split
  next =>
    refine Mapping.forall_keys_ofEntries (P := fun k => ∃ s, k = .text s) ?_
    refine List.forall_mem_map.mpr fun e he => ?_
    obtain ⟨s, hs⟩ := hkeys e he
    exact ⟨s, by rw [textKey, hs]⟩
  next hany =>
    intro e he
    obtain ⟨s, hs⟩ := hkeys e he
    have hbinary : isBinary e.1 = false :=
      Bool.eq_false_iff.mpr fun h => hany (List.any_eq_true.mpr ⟨e, he, h⟩)
    exact ⟨s, (textOf_eq_ok_iff hbinary).mp hs⟩

/-- A payload whose fields are all right has nothing wrong with it exactly if each operation has one
kind, and the label, if there is one, is more than blanks. -/
theorem contentFault?_eq_none_iff {p : Payload} :
    contentFault? p = none ↔
      (∀ o ∈ p.operations, ∃ e, o = [e]) ∧
        ∀ label, p.versionSchema = some label → ∃ c ∈ label.toList, Text.isBlank c = false := by
  have hkinds : unclearOperation? p.operations = none ↔ ∀ o ∈ p.operations, ∃ e, o = [e] := by
    simp [unclearOperation?, List.findIdx?_eq_none_iff, List.length_eq_one_iff]
  have hblank : ∀ label, Text.allBlank label = false ↔
      ∃ c ∈ label.toList, Text.isBlank c = false := fun label => by
    simp [Text.allBlank]
  unfold contentFault?
  rw [← hkinds]
  cases hunclear : unclearOperation? p.operations with
  | some index => simp
  | none =>
    cases hlabel : p.versionSchema with
    | none => simp
    | some label => simp [← hblank]

/-- All that reading a payload asks for. -/
theorem validate_eq_ok_iff {v : Value} {p : Payload} :
    validate v = .ok p ↔ ∃ m, v = .map m ∧
      (readText m "name" = .ok p.name ∧ readText m "version_schema" = .ok p.versionSchema ∧
        readOperations m = .ok p.operations ∧ keyFaults m = []) ∧
      (∀ o ∈ p.operations, ∃ e, o = [e]) ∧
      ∀ label, p.versionSchema = some label → ∃ c ∈ label.toList, Text.isBlank c = false := by
  simp only [← readFields_eq_ok_iff, ← contentFault?_eq_none_iff]
  cases v with
  | map m =>
    simp only [validate, Value.map.injEq, exists_eq_left']
    cases readFields m with
    | error details => simp
    | ok q =>
      dsimp only
      by_cases hq : q = p
      · subst hq
        cases contentFault? q <;> simp
      · cases contentFault? q <;> simp [hq]
  | scalar s => simp [validate]
  | list xs => simp [validate]

theorem kinds_of_readOperations {m : Mapping} {operations : List Mapping}
    (h : readOperations m = .ok operations) (hkinds : ∀ o ∈ operations, ∃ e, o = [e]) :
    ∀ o ∈ operations, ∃ kind content, o = [(.text kind, content)] := by
  obtain ⟨-, rfl⟩ | ⟨items, -, hkeyed, rfl⟩ := readOperations_eq_ok_iff.mp h
  · exact nofun
  · rw [List.forall_mem_map] at hkinds ⊢
    intro item hitem
    obtain ⟨⟨k, content⟩, he⟩ := hkinds item hitem
    obtain ⟨kind, rfl : k = _⟩ := (hkeyed item hitem).text_of_mem (k, content) (by simp [he])
    exact ⟨kind, content, he⟩

/-! ## What a mapping describes -/

/-- The text of a field that may be left out or null. -/
def TextAt (m : Mapping) (field : String) (text : Option String) : Prop :=
  (m.field? field = none ∨ m.field? field = some .null) ∧ text = none ∨
    ∃ s, m.field? field = some (.text s) ∧ text = some s

/-- A mapping has the fields of a payload, and no others. -/
structure Describes (m : Mapping) (p : Payload) : Prop where
  keys : ∀ e ∈ m, ∃ field, e.1 = .text field ∧ field ∈ ["name", "version_schema", "operations"]
  name : TextAt m "name" p.name
  versionSchema : TextAt m "version_schema" p.versionSchema
  operations : m.field? "operations" = none ∧ p.operations = [] ∨
    m.field? "operations" = some (.list (p.operations.map .map))
  kinds : ∀ o ∈ p.operations, ∃ kind content, o = [(.text kind, content)]
  label : ∀ label, p.versionSchema = some label → ∃ c ∈ label.toList, Text.isBlank c = false

theorem TextAt.readText {m : Mapping} {field : String} {text : Option String}
    (h : TextAt m field text) : readText m field = .ok text :=
  readText_eq_ok_iff.mpr (h.imp_right fun ⟨s, hfield, htext⟩ => ⟨.text s, s, hfield, rfl, htext⟩)

theorem map_entriesOf {items : List Value} (h : ∀ item ∈ items, item = .map (entriesOf item)) :
    (items.map entriesOf).map .map = items := by
  rw [List.map_map]
  exact (List.map_congr_left fun item hitem => (h item hitem).symm).trans (List.map_id _)

theorem textKeyed_operation (kind : String) (content : Value) :
    TextKeyed (.map [(.text kind, content)]) := ⟨_, rfl, by simp [textOf]⟩

/-- What is described is what is read. -/
theorem Describes.validate {m : Mapping} {p : Payload} (h : Describes m p) :
    validate (.map m) = .ok p := by
  have hkeys : keyFaults m = [] := by
    refine List.filterMap_eq_nil_iff.mpr fun e he => ?_
    obtain ⟨field, hk, hfield⟩ := h.keys e he
    rw [hk]
    exact if_pos hfield
  have hoperations : readOperations m = .ok p.operations := by
    refine readOperations_eq_ok_iff.mpr (h.operations.imp_right fun hlist => ⟨_, hlist, ?_, ?_⟩)
    · simp only [List.forall_mem_map]
      intro o ho
      obtain ⟨kind, content, rfl⟩ := h.kinds o ho
      exact textKeyed_operation kind content
    · have hentries : ∀ o ∈ p.operations, entriesOf (.map o) = o := fun o ho => by
        obtain ⟨kind, content, rfl⟩ := h.kinds o ho
        rfl
      rw [List.map_map]
      exact ((List.map_congr_left hentries).trans (List.map_id _)).symm
  refine validate_eq_ok_iff.mpr ⟨m, rfl, ⟨h.name.readText, h.versionSchema.readText, hoperations,
    hkeys⟩, fun o ho => ?_, h.label⟩
  obtain ⟨kind, content, rfl⟩ := h.kinds o ho
  exact ⟨_, rfl⟩

end Payload

/-! ## Documents without binary data -/

/-- Nothing in a document is binary data, neither a value nor a key. -/
inductive Value.BinaryFree : Value → Prop
  | scalar {s : Scalar} (h : Payload.isBinary s = false) : BinaryFree (.scalar s)
  | list {items : List Value} (h : ∀ item ∈ items, BinaryFree item) : BinaryFree (.list items)
  | map {m : Mapping} (hkeys : ∀ e ∈ m, Payload.isBinary e.1 = false)
      (hvalues : ∀ e ∈ m, BinaryFree e.2) : BinaryFree (.map m)

namespace Value

@[simp] theorem binaryFree_scalar {s : Scalar} :
    (Value.scalar s).BinaryFree ↔ Payload.isBinary s = false := ⟨fun | .scalar h => h, .scalar⟩

@[simp] theorem binaryFree_list {items : List Value} :
    (Value.list items).BinaryFree ↔ ∀ item ∈ items, item.BinaryFree :=
  ⟨fun | .list h => h, .list⟩

@[simp] theorem binaryFree_map {m : Mapping} :
    (Value.map m).BinaryFree ↔
      (∀ e ∈ m, Payload.isBinary e.1 = false) ∧ ∀ e ∈ m, e.2.BinaryFree :=
  ⟨fun | .map hkeys hvalues => ⟨hkeys, hvalues⟩, fun h => .map h.1 h.2⟩

end Value

namespace Payload

theorem binaryFree_field {m : Mapping} {field : String} {v : Value}
    (h : (Value.map m).BinaryFree) (hv : m.field? field = some v) : v.BinaryFree := by
  obtain ⟨e, he, rfl⟩ := Option.map_eq_some_iff.mp hv
  exact (Value.binaryFree_map.mp h).2 e (List.mem_of_find?_eq_some he)

theorem textAt_of_readText {m : Mapping} {field : String} {text : Option String}
    (hfree : (Value.map m).BinaryFree) (h : readText m field = .ok text) :
    TextAt m field text := by
  refine (readText_eq_ok_iff.mp h).imp_right fun ⟨k, s, hfield, hk, htext⟩ => ?_
  have hbinary := Value.binaryFree_scalar.mp (binaryFree_field hfree hfield)
  exact ⟨s, by rw [hfield, (textOf_eq_ok_iff hbinary).mp hk], htext⟩

theorem exists_field_of_keyFault? {m : Mapping} {k : Scalar} (hbinary : isBinary k = false)
    (h : keyFault? m k = none) :
    ∃ field, k = .text field ∧ field ∈ ["name", "version_schema", "operations"] := by
  cases k with
  | text s =>
    refine ⟨s, rfl, Decidable.of_not_not fun hs => ?_⟩
    have hfault : keyFault? m (.text s) = some ⟨[.field s], .extraField⟩ := if_neg hs
    rw [hfault] at h
    nomatch h
  | bytes content => nomatch hbinary
  | _ => nomatch h

/-- Without binary data, operations are as they are read. -/
theorem TextKeyed.eq_map_entriesOf {v : Value} (hfree : v.BinaryFree) (h : TextKeyed v) :
    v = .map (entriesOf v) := by
  obtain ⟨m, rfl, -⟩ := h
  have hbinary := (Value.binaryFree_map.mp hfree).1
  have hany : m.any (isBinary ·.1) = false :=
    List.any_eq_false.mpr fun e he => by simp [hbinary e he]
  rw [entriesOf, withTextKeys, hany]
  rfl

theorem operationsAt_of_readOperations {m : Mapping} {operations : List Mapping}
    (hfree : (Value.map m).BinaryFree) (h : readOperations m = .ok operations) :
    m.field? "operations" = none ∧ operations = [] ∨
      m.field? "operations" = some (.list (operations.map .map)) := by
  refine (readOperations_eq_ok_iff.mp h).imp_right fun ⟨items, hfield, hkeyed, hread⟩ => ?_
  have hitems := Value.binaryFree_list.mp (binaryFree_field hfree hfield)
  rw [hfield, hread, map_entriesOf]
  exact fun item hitem => (hkeyed item hitem).eq_map_entriesOf (hitems item hitem)

/-- Without binary data, what is read is what is described. -/
theorem Describes.of_validate {m : Mapping} {p : Payload} (hfree : (Value.map m).BinaryFree)
    (h : Payload.validate (.map m) = .ok p) : Describes m p := by
  obtain ⟨_, ⟨⟩, ⟨hname, hlabel, hoperations, hkeys⟩, hkinds, hblank⟩ := validate_eq_ok_iff.mp h
  have hbinary := (Value.binaryFree_map.mp hfree).1
  have hkeys : ∀ e ∈ m, keyFault? m e.1 = none := List.filterMap_eq_nil_iff.mp hkeys
  exact
    { keys := fun e he => exists_field_of_keyFault? (hbinary e he) (hkeys e he)
      name := textAt_of_readText hfree hname
      versionSchema := textAt_of_readText hfree hlabel
      operations := operationsAt_of_readOperations hfree hoperations
      kinds := kinds_of_readOperations hoperations hkinds
      label := hblank }

/-! ## The grammar -/

/-- The grammar of payloads, field by field. -/
structure Grammatical (m : Mapping) : Prop where
  /-- There is no other key, and no key that is not a text. -/
  keys : ∀ e ∈ m, ∃ field, e.1 = .text field ∧ field ∈ ["name", "version_schema", "operations"]
  name : ∀ v, m.field? "name" = some v → v = .null ∨ ∃ s, v = .text s
  versionSchema : ∀ v, m.field? "version_schema" = some v → v = .null ∨ ∃ label, v = .text label
  operations : ∀ v, m.field? "operations" = some v →
    ∃ items, v = .list items ∧ ∀ item ∈ items, ∃ kind content, item = .map [(.text kind, content)]
  label : ∀ label, m.field? "version_schema" = some (.text label) →
    ∃ c ∈ label.toList, Text.isBlank c = false

theorem exists_textAt_iff {m : Mapping} {field : String} :
    (∃ text, TextAt m field text) ↔
      ∀ v, m.field? field = some v → v = .null ∨ ∃ s, v = .text s := by
  constructor
  · intro ⟨text, htext⟩ v hv
    rcases htext with ⟨hnone | hnull, -⟩ | ⟨s, hs, -⟩
    · rw [hnone] at hv
      nomatch hv
    · rw [hnull] at hv
      exact .inl (Option.some.inj hv).symm
    · rw [hs] at hv
      exact .inr ⟨s, (Option.some.inj hv).symm⟩
  · intro h
    cases hfield : m.field? field with
    | none => exact ⟨none, .inl ⟨.inl hfield, rfl⟩⟩
    | some v =>
      obtain rfl | ⟨s, rfl⟩ := h v hfield
      · exact ⟨none, .inl ⟨.inr hfield, rfl⟩⟩
      · exact ⟨some s, .inr ⟨s, hfield, rfl⟩⟩

theorem TextAt.eq_some_iff {m : Mapping} {field s : String} {text : Option String}
    (h : TextAt m field text) : text = some s ↔ m.field? field = some (.text s) := by
  obtain ⟨hnone | hnull, rfl⟩ | ⟨t, ht, rfl⟩ := h
  · simp [hnone]
  · simp [hnull]
  · simp [ht]

theorem exists_operations {m : Mapping}
    (h : ∀ v, m.field? "operations" = some v → ∃ items, v = .list items ∧
      ∀ item ∈ items, ∃ kind content, item = .map [(.text kind, content)]) :
    ∃ operations : List Mapping,
      (m.field? "operations" = none ∧ operations = [] ∨
        m.field? "operations" = some (.list (operations.map .map))) ∧
      ∀ o ∈ operations, ∃ kind content, o = [(.text kind, content)] := by
  cases hfield : m.field? "operations" with
  | none => exact ⟨[], .inl ⟨rfl, rfl⟩, nofun⟩
  | some v =>
    obtain ⟨items, rfl, hitems⟩ := h v hfield
    refine ⟨items.map entriesOf, .inr ?_, List.forall_mem_map.mpr fun item hitem => ?_⟩
    · rw [map_entriesOf fun item hitem => ?_]
      obtain ⟨kind, content, rfl⟩ := hitems item hitem
      rfl
    · obtain ⟨kind, content, rfl⟩ := hitems item hitem
      exact ⟨kind, content, rfl⟩

/-- Describing a payload is a matter of grammar. -/
theorem exists_describes_iff {m : Mapping} : (∃ p, Describes m p) ↔ Grammatical m := by
  constructor
  · intro ⟨p, h⟩
    refine ⟨h.keys, exists_textAt_iff.mp ⟨_, h.name⟩, exists_textAt_iff.mp ⟨_, h.versionSchema⟩,
      fun v hv => ?_, fun label hlabel => h.label label (h.versionSchema.eq_some_iff.mpr hlabel)⟩
    obtain ⟨hnone, -⟩ | hlist := h.operations
    · rw [hnone] at hv
      nomatch hv
    · rw [hlist] at hv
      refine ⟨_, (Option.some.inj hv).symm, List.forall_mem_map.mpr fun o ho => ?_⟩
      obtain ⟨kind, content, rfl⟩ := h.kinds o ho
      exact ⟨kind, content, rfl⟩
  · intro h
    obtain ⟨name, hname⟩ := exists_textAt_iff.mpr h.name
    obtain ⟨label, hlabel⟩ := exists_textAt_iff.mpr h.versionSchema
    obtain ⟨operations, hoperations, hkinds⟩ := exists_operations h.operations
    exact ⟨⟨name, label, operations⟩, h.keys, hname, hlabel, hoperations, hkinds,
      fun l hl => h.label l (hlabel.eq_some_iff.mp hl)⟩

/-- **The grammar of payloads.** A document without binary data is accepted exactly if it is a
mapping of the grammar. -/
theorem accepted_iff {v : Value} (h : v.BinaryFree) :
    (∃ p, validate v = .ok p) ↔ ∃ m, v = .map m ∧ Grammatical m := by
  constructor
  · intro ⟨p, hp⟩
    obtain ⟨m, rfl, -⟩ := validate_eq_ok_iff.mp hp
    exact ⟨m, rfl, exists_describes_iff.mp ⟨p, .of_validate h hp⟩⟩
  · intro ⟨m, hv, hm⟩
    obtain ⟨p, hp⟩ := exists_describes_iff.mpr hm
    exact ⟨p, hv ▸ hp.validate⟩

/-- Null and numbers may stand inside an operation, but beside its kind nothing may. -/
theorem accepted_iff_of_columns :
    let columns : Value := .map [(.int 1, .null), (.text "at", .scalar (.date ⟨2020, 1, 2⟩))]
    let document (operation : Mapping) : Value :=
      .map [(.text "name", .null), (.text "version_schema", .text "\u2003v1"),
        (.text "operations", .list [.map operation])]
    let one := document [(.text "add", columns)]
    let two := document [(.text "add", columns), (.text "sql", .null)]
    one.BinaryFree ∧ two.BinaryFree ∧ (∃ m, one = .map m ∧ Grammatical m) ∧
      ¬ ∃ m, two = .map m ∧ Grammatical m := by
  intro columns document one two
  have hone : one.BinaryFree := by simp [one, document, columns, isBinary]
  have htwo : two.BinaryFree := by simp [two, document, columns, isBinary]
  refine ⟨hone, htwo, (accepted_iff hone).mp ⟨_, rfl⟩, fun h => ?_⟩
  obtain ⟨p, hp⟩ := (accepted_iff htwo).mpr h
  nomatch hp

end Payload

end SchemaLedger
