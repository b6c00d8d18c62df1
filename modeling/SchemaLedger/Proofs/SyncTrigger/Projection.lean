import Mathlib.Data.List.Induction
import SchemaLedger.SyncTrigger.Projection

/-!
# What a projection makes of a row

A sync trigger has two views of a row. The logical columns are read once, before anything is
assigned, and what a step sees of them never changes. The row itself is seen as assigned so far: the
first step sees it as it came, and every later one with the column set to the value before.

Both views together give the steps their values, one after another (`Yields`), and a projection that
goes through sets the column to the last of them and clears the mark (`projectRow_eq_ok`). What was
assigned before the last value leaves nothing behind (`Mapping.put_put`), and no other entry is
touched (`Mapping.get?_put_text_of_ne`). So a projected row is told entry by entry
(`steps_fill_column`).
-/

namespace SchemaLedger

namespace Scalar

/-- Only a text is the same key as a text. -/
theorem eq_text_of_sameKey {a : Scalar} {s : String} (h : a.sameKey (.text s) = true) :
    a = .text s := by
  cases a with
  | text t => rw [eq_of_beq ((sameKey_text t s).symm.trans h)]
  | _ => simp [sameKey, integer?] at h

theorem sameKey_text_of_ne {a : Scalar} {s : String} (h : a ≠ .text s) :
    (Scalar.text s).sameKey a = false := by
  cases a with
  | text t =>
    rw [sameKey_text]
    exact beq_false_of_ne fun hst => h (congrArg _ hst.symm)
  | _ => simp [sameKey, integer?]

end Scalar

namespace Mapping

/-- An entry is left alone by an assignment to a field that it is not the entry of. -/
theorem get?_put_text_of_ne {m : Mapping} {name : String} {key : Scalar} {v : Value}
    (hne : key ≠ .text name) : get? (put m (.text name) v) key = get? m key := by
  have hkey : (Scalar.text name).sameKey key = false := Scalar.sameKey_text_of_ne hne
  refine get?_put_of_not_same hkey fun e _ he => ?_
  rw [Scalar.eq_text_of_sameKey he]
  exact hkey

theorem field?_put_of_ne {m : Mapping} {name other : String} {v : Value} (hne : name ≠ other) :
    field? (put m (.text name) v) other = field? m other :=
  get?_put_text_of_ne fun h => hne (Scalar.text.inj h).symm

/-- Of two assignments to one key the second one counts. -/
theorem put_put (m : Mapping) (key : Scalar) (v w : Value) :
    put (put m key v) key w = put m key w := by
  induction m with
  | nil => rw [put, put, put, if_pos (Scalar.sameKey_self key)]
  | cons e rest ih =>
    obtain ⟨k, u⟩ := e
    by_cases h : k.sameKey key = true
    · rw [put, if_pos h, put, if_pos h, put, if_pos h]
    · rw [put, if_neg h, put, if_neg h, put, if_neg h, ih]

/-- An assignment to a field adds its key and no other. -/
theorem mem_keys_put_text (m : Mapping) (name : String) (v : Value) (key : Scalar) :
    key ∈ (put m (.text name) v).map (·.1) ↔ key ∈ m.map (·.1) ∨ key = .text name := by
  induction m with
  | nil => simp [put]
  | cons e rest ih =>
    obtain ⟨k, u⟩ := e
    by_cases h : k.sameKey (.text name) = true
    · obtain rfl := Scalar.eq_text_of_sameKey h
      rw [put, if_pos h, List.map_cons, List.map_cons, List.mem_cons]
      tauto
    · rw [put, if_neg h, List.map_cons, List.map_cons, List.mem_cons, List.mem_cons, ih, or_assoc]

/-- An entry under a new key is added at the end. -/
theorem put_of_forall_not_same {m : Mapping} {key : Scalar} (v : Value)
    (h : ∀ e ∈ m, e.1.sameKey key = false) : put m key v = m ++ [(key, v)] := by
  induction m with
  | nil => rfl
  | cons e rest ih =>
    obtain ⟨hkey, hrest⟩ := List.forall_mem_cons.mp h
    rw [put, if_neg (by simp [hkey]), ih hrest, List.cons_append]

/-- Fields of different names are all there, in their order. -/
theorem ofFields_of_nodup {fields : List (String × Value)} (h : (fields.map (·.1)).Nodup) :
    ofFields fields = fields.map fun f => (.text f.1, f.2) := by
  induction fields using List.reverseRecOn with
  | nil => rfl
  | append_singleton fields f ih =>
    rw [List.map_append, List.nodup_append] at h
    obtain ⟨hfields, -, hnew⟩ := h
    have hput : ofFields (fields ++ [f]) = put (ofFields fields) (.text f.1) f.2 := by
      rw [ofFields, List.map_append, ofEntries, List.foldl_append]
      rfl
    rw [hput, ih hfields, put_of_forall_not_same, List.map_append]
    · rfl
    · rw [List.forall_mem_map]
      intro g hg
      rw [Scalar.sameKey_text]
      exact beq_false_of_ne (hnew g.1 (List.mem_map_of_mem hg) f.1 (List.mem_singleton_self _))

end Mapping

namespace SyncTrigger

/-! ## The values of the steps -/

/-- The row as a step sees it, given the value before if there was one. -/
def seen (c : Config) (row : Mapping) : Option Value → Mapping
  | none => row
  | some v => row.put (.text c.physicalColumn) v

/-- Steps yield values one after another. All of them are given the logical columns of the row as it
came, and each the row with the value before. -/
inductive Yields (c : Config) (row : Mapping) :
    (before : Option Value) → List Step → List Value → Prop where
  | nil {before : Option Value} : Yields c row before [] []
  | cons {before : Option Value} {step : Step} {rest : List Step} {v : Value}
      {values : List Value} (hstep : step (bindings c row) (seen c row before) = .ok v)
      (hrest : Yields c row (some v) rest values) :
      Yields c row before (step :: rest) (v :: values)

/-- A step fails, and those before it have yielded their values. -/
def FailsWith (c : Config) (row : Mapping) (before : Option Value) (steps : List Step)
    (f : Failure) : Prop :=
  ∃ front step back values, steps = front ++ step :: back ∧ Yields c row before front values ∧
    step (bindings c row) (seen c row (values.getLast?.or before)) = .error f

section Steps

variable {c : Config} {row : Mapping} {before : Option Value} {steps : List Step}

theorem put_seen (before : Option Value) (v : Value) :
    (seen c row before).put (.text c.physicalColumn) v = seen c row (some v) := by
  cases before with
  | none => rfl
  | some w => exact Mapping.put_put row _ w v

theorem getLast?_cons_or (v : Value) (values : List Value) (before : Option Value) :
    (v :: values).getLast?.or before = values.getLast?.or (some v) := by
  rw [List.getLast?_cons]
  cases values.getLast? <;> rfl

theorem Yields.ne_nil {values : List Value} (h : Yields c row before steps values)
    (hsteps : steps ≠ []) : values ≠ [] := by
  cases h with
  | nil => exact absurd rfl hsteps
  | cons _ _ => exact List.cons_ne_nil _ _

/-- The assignments go through exactly if the steps yield values, and leave the last of these. -/
theorem assignSteps_eq_ok {assigned : Mapping} :
    assignSteps c (bindings c row) (seen c row before) steps = .ok assigned ↔
      ∃ values, Yields c row before steps values ∧
        assigned = seen c row (values.getLast?.or before) := by
  induction steps generalizing before with
  | nil =>
    constructor
    · intro h
      exact ⟨[], .nil, (Except.ok.inj h).symm⟩
    · rintro ⟨values, hvalues, rfl⟩
      cases hvalues
      rfl
  | cons step rest ih =>
    rw [assignSteps]
    constructor
    · intro h
      split at h
      next => nomatch h
      next v hv =>
        rw [put_seen] at h
        obtain ⟨values, hvalues, hassigned⟩ := ih.mp h
        exact ⟨v :: values, .cons hv hvalues, by rw [hassigned, getLast?_cons_or]⟩
    · rintro ⟨values, hvalues, rfl⟩
      cases hvalues with
      | @cons _ _ _ v values hv hrest =>
        rw [hv]
        dsimp only
        rw [put_seen]
        exact ih.mpr ⟨values, hrest, by rw [getLast?_cons_or]⟩

/-- They fail exactly if a step fails, and with its failure. -/
theorem assignSteps_eq_error {f : Failure} :
    assignSteps c (bindings c row) (seen c row before) steps = .error f ↔
      FailsWith c row before steps f := by
  induction steps generalizing before with
  | nil =>
    refine iff_of_false nofun ?_
    rintro ⟨front, step, back, values, hsteps, -⟩
    simp at hsteps
  | cons step rest ih =>
    rw [assignSteps]
    constructor
    · intro h
      split at h
      next e he =>
        obtain rfl := Except.error.inj h
        exact ⟨[], step, rest, [], rfl, .nil, he⟩
      next v hv =>
        rw [put_seen] at h
        obtain ⟨front, step', back, values, rfl, hvalues, hfails⟩ := ih.mp h
        refine ⟨step :: front, step', back, v :: values, rfl, .cons hv hvalues, ?_⟩
        rwa [getLast?_cons_or]
    · rintro ⟨front, step', back, values, hsteps, hvalues, hfails⟩
      cases hvalues with
      | nil =>
        obtain ⟨rfl, rfl⟩ := List.cons.inj hsteps
        rw [show step (bindings c row) (seen c row before) = .error f from hfails]
      | @cons _ _ front v values hv hrest =>
        obtain ⟨rfl, rfl⟩ := List.cons.inj hsteps
        rw [hv]
        dsimp only
        rw [put_seen]
        rw [getLast?_cons_or] at hfails
        exact ih.mpr ⟨front, step', back, values, rfl, hrest, hfails⟩

/-- Steps that never fail yield values. -/
theorem exists_yields (c : Config) (row : Mapping) (before : Option Value)
    (hsteps : ∀ step ∈ steps, ∀ bound row, ∃ v, step bound row = .ok v) :
    ∃ values, Yields c row before steps values := by
  induction steps generalizing before with
  | nil => exact ⟨[], .nil⟩
  | cons step rest ih =>
    obtain ⟨hstep, hrest⟩ := List.forall_mem_cons.mp hsteps
    obtain ⟨v, hv⟩ := hstep (bindings c row) (seen c row before)
    obtain ⟨values, hvalues⟩ := ih (some v) hrest
    exact ⟨v :: values, .cons hv hvalues⟩

end Steps

/-! ## The projected row -/

section Projected

variable {c : Config} {row projected : Mapping} {steps : List Step} {searchPath : String}

theorem projectRow_of_fires (hfires : c.firesFor searchPath = true) (hsteps : steps ≠ []) :
    projectRow c row searchPath steps =
      match assignSteps c (bindings c row) row steps with
      | .error e => .error (.failed e)
      | .ok assigned => .ok (clearMark c assigned) := by
  rw [projectRow, if_neg (by simpa using hsteps), hfires]
  rfl

/-- Where the trigger fires, a row is projected exactly if the steps yield values. -/
theorem projectRow_eq_ok (hfires : c.firesFor searchPath = true) (hsteps : steps ≠ []) :
    projectRow c row searchPath steps = .ok projected ↔
      ∃ values, Yields c row none steps values ∧
        projected = clearMark c (seen c row values.getLast?) := by
  rw [projectRow_of_fires hfires hsteps]
  constructor
  · intro h
    split at h
    next => nomatch h
    next assigned hassigned =>
      have hseen : assignSteps c (bindings c row) (seen c row none) steps = .ok assigned :=
        hassigned
      obtain ⟨values, hvalues, rfl⟩ := assignSteps_eq_ok.mp hseen
      rw [Option.or_none] at h
      exact ⟨values, hvalues, (Except.ok.inj h).symm⟩
  · rintro ⟨values, hvalues, rfl⟩
    have hseen : assignSteps c (bindings c row) (seen c row none) steps =
        .ok (seen c row values.getLast?) :=
      assignSteps_eq_ok.mpr ⟨values, hvalues, by rw [Option.or_none]⟩
    rw [show assignSteps c (bindings c row) row steps = _ from hseen]

/-- And it is not projected exactly if a step fails. -/
theorem projectRow_eq_failed (hfires : c.firesFor searchPath = true) (hsteps : steps ≠ [])
    {f : Failure} :
    projectRow c row searchPath steps = .error (.failed f) ↔ FailsWith c row none steps f := by
  rw [projectRow_of_fires hfires hsteps, ← assignSteps_eq_error, seen]
  split
  next e he =>
    rw [he]
    simp
  next assigned hassigned =>
    rw [hassigned]
    simp

/-- A trigger that fires projects a row if its steps never fail. -/
theorem exists_projectRow (hfires : c.firesFor searchPath = true) (hne : steps ≠ [])
    (hsteps : ∀ step ∈ steps, ∀ bound row, ∃ v, step bound row = .ok v) (row : Mapping) :
    ∃ projected, projectRow c row searchPath steps = .ok projected := by
  obtain ⟨values, hvalues⟩ := exists_yields c row none hsteps
  exact ⟨_, (projectRow_eq_ok hfires hne).mpr ⟨values, hvalues, rfl⟩⟩

theorem get?_clearMark_seen_of_ne {before : Option Value} {key : Scalar}
    (hcolumn : key ≠ .text c.physicalColumn) (hmark : key ≠ .text c.needsBackfillColumn) :
    (clearMark c (seen c row before)).get? key = row.get? key := by
  rw [clearMark, Mapping.get?_put_text_of_ne hmark]
  cases before with
  | none => rfl
  | some v => exact Mapping.get?_put_text_of_ne hcolumn

/-- A projection leaves all columns alone but the one that is filled and the mark. -/
theorem field?_projectRow_of_ne {name : String} (hcolumn : c.physicalColumn ≠ name)
    (hmark : c.needsBackfillColumn ≠ name)
    (h : projectRow c row searchPath steps = .ok projected) :
    Mapping.field? projected name = Mapping.field? row name := by
  have hsteps : steps ≠ [] := by
    rintro rfl
    nomatch h
  cases hfires : c.firesFor searchPath with
  | false =>
    rw [projectRow_of_not_fires hsteps hfires] at h
    rw [Except.ok.inj h]
  | true =>
    obtain ⟨values, -, rfl⟩ := (projectRow_eq_ok hfires hsteps).mp h
    exact get?_clearMark_seen_of_ne (fun hname => hcolumn (Scalar.text.inj hname).symm)
      fun hname => hmark (Scalar.text.inj hname).symm

/-- The logical columns as they are given to the steps: each one has the value of the column behind
it, or null if the row lacks that. -/
theorem bindings_eq (hnames : (c.columns.map (·.1)).Nodup) (row : Mapping) :
    bindings c row = c.columns.map fun column =>
      (.text column.1, (Mapping.field? row column.2.name).getD .null) := by
  rw [bindings, Mapping.ofFields_of_nodup, List.map_map]
  · rfl
  · rwa [List.map_map]

end Projected

/-- **Every step sees the columns as they came and the row as assigned so far.** A trigger that does
not fire leaves a row alone. Where it fires, the steps are given the logical columns of the row as
it came, and each of them the row with the value of the step before it. The projection fails with a
step that fails. If none does, the projected row has the last value in the column that is filled,
unless that is the mark, which is cleared in the end. All other entries are as they were. -/
theorem steps_fill_column (c : Config) {steps : List Step} (hsteps : steps ≠ []) (row : Mapping)
    (searchPath : String) :
    ((c.columns.map (·.1)).Nodup → bindings c row = c.columns.map fun column =>
      (.text column.1, (Mapping.field? row column.2.name).getD .null)) ∧
    (c.firesFor searchPath = false → projectRow c row searchPath steps = .ok row) ∧
    (c.firesFor searchPath = true →
      (∀ f, projectRow c row searchPath steps = .error (.failed f) ↔
        FailsWith c row none steps f) ∧
      ∀ values, Yields c row none steps values → ∃ projected,
        projectRow c row searchPath steps = .ok projected ∧
        (∀ key, key ∈ projected.map (·.1) ↔ key ∈ row.map (·.1) ∨
          key = .text c.physicalColumn ∨ key = .text c.needsBackfillColumn) ∧
        (∀ key, key ≠ .text c.physicalColumn → key ≠ .text c.needsBackfillColumn →
          projected.get? key = row.get? key) ∧
        Mapping.field? projected c.needsBackfillColumn = some (.bool false) ∧
        (c.physicalColumn ≠ c.needsBackfillColumn → ∃ last, values.getLast? = some last ∧
          Mapping.field? projected c.physicalColumn = some last)) := by
  refine ⟨fun hnames => bindings_eq hnames row, projectRow_of_not_fires hsteps, fun hfires =>
    ⟨fun f => projectRow_eq_failed hfires hsteps, fun values hvalues => ?_⟩⟩
  obtain ⟨last, hlast⟩ : ∃ last, values.getLast? = some last :=
    ⟨_, List.getLast?_eq_some_getLast (hvalues.ne_nil hsteps)⟩
  have hprojected : projectRow c row searchPath steps =
      .ok (clearMark c (row.put (.text c.physicalColumn) last)) :=
    (projectRow_eq_ok hfires hsteps).mpr ⟨values, hvalues, by rw [hlast, seen]⟩
  refine ⟨_, hprojected, fun key => ?_, fun key hcolumn hmark => ?_, ?_, fun hne => ?_⟩
  · rw [clearMark, Mapping.mem_keys_put_text, Mapping.mem_keys_put_text, or_assoc]
  · show (clearMark c (seen c row (some last))).get? key = row.get? key
    exact get?_clearMark_seen_of_ne hcolumn hmark
  · exact projectRow_mark hfires hprojected
  · refine ⟨last, hlast, ?_⟩
    rw [clearMark, Mapping.field?_put_of_ne hne.symm]
    exact Mapping.get?_put_self _ _ _

/-- The column that is filled is also read as a logical column, another logical column is missing in
the row, and the second step reads what the first one assigned. -/
theorem steps_fill_column_of_own_source :
    let c : Config :=
      { name := "fill", tableName := "reviews", physicalColumn := "review"
        columns := [("text", ⟨"review", "text"⟩), ("stars", ⟨"new_stars", "int"⟩)]
        latestSchema := "public_v2" }
    let steps := [(Expr.concat [.binding "text", .const (.text "!"), .binding "stars"]).eval,
      (Expr.concat [.new "review", .binding "text"]).eval]
    let row := Mapping.ofFields [("id", .int 1), ("review", .text "good")]
    let bound := Mapping.ofFields [("text", .text "good"), ("stars", .null)]
    let projected := Mapping.ofFields [("id", .int 1), ("review", .text "good!good"),
      (needsBackfillColumn, .bool false)]
    steps ≠ [] ∧ (c.columns.map (·.1)).Nodup ∧ c.firesFor "public_v1" = true ∧
    Yields c row none steps [.text "good!", .text "good!good"] ∧ bindings c row = bound ∧
    projectRow c row "public_v1" steps = .ok projected ∧
    Mapping.field? projected "id" = Mapping.field? row "id" ∧
    projectRow c row "public_v2" steps = .ok row := by
  intro c steps row bound projected
  have hsteps : steps ≠ [] := List.cons_ne_nil _ _
  have hnames : (c.columns.map (·.1)).Nodup := by decide
  have hfires : c.firesFor "public_v1" = true := by decide
  have hvalues : Yields c row none steps [.text "good!", .text "good!good"] :=
    .cons (by decide +kernel) (.cons (by decide +kernel) .nil)
  have hprojected : projectRow c row "public_v1" steps = .ok projected := by decide +kernel
  obtain ⟨hbound, -, hprojects⟩ := steps_fill_column c hsteps row "public_v1"
  obtain ⟨-, hprojects⟩ := hprojects hfires
  obtain ⟨projected', hprojected', -, hothers, -⟩ := hprojects _ hvalues
  obtain rfl : projected = projected' := Except.ok.inj (hprojected.symm.trans hprojected')
  refine ⟨hsteps, hnames, hfires, hvalues, ?_, hprojected, ?_, ?_⟩
  · exact (hbound hnames).trans (by decide +kernel)
  · exact hothers (.text "id") (by decide) (by decide)
  · exact (steps_fill_column c hsteps row "public_v2").2.1 (by decide)

end SyncTrigger

end SchemaLedger
