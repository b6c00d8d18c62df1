import Mathlib.Data.List.Chain
import SchemaLedger.Proofs.Inference.Attribution
import SchemaLedger.Proofs.Time.Stamp
import SchemaLedger.Text.Sorted

/-!
# The names of inferred steps

An inferred step is named by a base, which is the name of the latest step that was made on purpose,
and the stamp of the clock reading. Bases are any texts, and they come and go with the steps that
have these names, so one base may well be another one with a stamp behind it. That the names differ
all the same rests on the stamps alone: all of them have the same length, so two equal names have
equal stamps (`Naming.wall_eq_of_name_eq`).

The recorder comes to a name half way through a report (`Recorder.nameStep`), and may fail behind
it. The names that are looked at are all that a run comes to (`Deed.namings`), whether the step is
recorded then or not. Each is made of what the clock showed (`Deed.now_of_naming`), and a step that
is recorded has the name that its report came to (`Deed.exists_naming_of_recorded`). So what holds
of all names of a run holds of the steps that it records (`Deed.names_steps_sublist`).
-/

namespace SchemaLedger

open Attempt

namespace Recorder

namespace Naming

/-- The beginning of the name. -/
def baseName (n : Naming) : String := (n.base.map (·.name)).getD initialName

/-! ## Two names -/

variable {a b : Naming}

theorem toList_name (n : Naming) :
    n.name.toList = n.baseName.toList ++ ['_'] ++ n.now.stamp.toList := by
  simp [name, baseName, nextName]

theorem append_lt_append_iff (front : List Char) {s t : List Char} :
    front ++ s < front ++ t ↔ s < t := by
  induction front with
  | nil => rfl
  | cons c front ih => simp [ih]

/-- Names with one base have the order of the clock readings. -/
theorem name_lt_iff (ha : a.now.HasFourDigitYear) (hb : b.now.HasFourDigitYear)
    (hbase : a.baseName = b.baseName) : a.name < b.name ↔ a.now.wall < b.now.wall := by
  rw [← Moment.stamp_lt_iff ha hb, String.lt_iff, String.lt_iff, toList_name, toList_name, hbase,
    append_lt_append_iff]

/-- Equal names have been given at one clock reading, whatever their bases. -/
theorem wall_eq_of_name_eq (ha : a.now.HasFourDigitYear) (hb : b.now.HasFourDigitYear)
    (h : a.name = b.name) : a.now.wall = b.now.wall := by
  have hchars := congrArg String.toList h
  rw [toList_name, toList_name] at hchars
  have hlength : a.now.stamp.toList.length = b.now.stamp.toList.length := by
    rw [Moment.length_stamp ha, Moment.length_stamp hb]
  -- the bases may have any lengths, so the names are compared from the back
  have hstamp : a.now.stamp = b.now.stamp :=
    String.toList_inj.mp (List.append_inj' hchars hlength).2
  exact Moment.wall_eq_of_stamp_eq ha hb hstamp

end Naming

/-! ## From a report to a name -/

section Store

variable {σ : Type} [LedgerStore σ] {s : Surroundings} {e : DdlEvent} {d d' : Desk σ}

/-- What a report comes to, up to the name of its step; nothing if the statement is ignored. -/
def naming (s : Surroundings) (e : DdlEvent) : Action (Desk σ) (Option Naming) :=
  unlessIgnored s e (nameStep s e)

/-- A report that ends with a step has come to a name, and has gone on with it. -/
theorem exists_naming_of_onEvent {r : Record} (h : onEvent s e d = (.ok (some r), d')) :
    ∃ n schema d₁, naming s e d = (.ok (some n), d₁) ∧
      recordNamed s e schema n d₁ = (.ok r, d') := by
  obtain ⟨hsuppressed, schema, hschema, d₀, hactive, hrecord⟩ := unlessIgnored_eq_some.mp h
  obtain ⟨n, d₁, hname, hrest⟩ := bind_eq_ok.mp hrecord
  exact ⟨n, schema, d₁,
    unlessIgnored_eq_some.mpr ⟨hsuppressed, schema, hschema, d₀, hactive, hname⟩, hrest⟩

/-- A name is made of the clock reading of its report. -/
theorem ensures_now_nameStep (s : Surroundings) (e : DdlEvent) (schema : String) :
    Ensures (fun _ => True) (nameStep s e schema) fun n (_ : Desk σ) => n.now = s.now := by
  have hclock : Ensures (fun _ => True) (readClock s) fun now (_ : Desk σ) => now = s.now :=
    ensures_bind_of_forall fun _ => ensures_pure fun _ _ => rfl
  refine ensures_bind_of_forall fun _ => ensures_bind_of_forall fun latest => ?_
  refine ensures_bind hclock fun now => ?_
  refine ensures_bind (Q := fun _ _ => now = s.now) (fun _ _ _ h _ => h) fun base => ?_
  exact ensures_pure fun _ h => h

theorem now_of_naming {n : Naming} (h : naming s e d = (.ok (some n), d')) : n.now = s.now := by
  obtain ⟨-, schema, -, d₁, -, hname⟩ := unlessIgnored_eq_some.mp h
  exact ensures_now_nameStep s e schema d₁ n d' trivial hname

end Store

theorem ensures_name_insert (now : Moment) (record : Record) :
    Ensures (fun _ => True) (LedgerStore.insert now record) fun r (_ : MemoryLedger) =>
      r.name = record.name := by
  rintro l r l' - h
  obtain ⟨-, rfl, -⟩ := MemoryLedger.insert_eq_ok h
  rfl

/-- The step that is recorded in the end has the name that was found. -/
theorem ensures_name_recordNamed (s : Surroundings) (e : DdlEvent) (schema : String) (n : Naming) :
    Ensures (fun _ => True) (recordNamed s e schema n) fun r (_ : Desk MemoryLedger) =>
      r.name = n.name := by
  refine ensures_bind_of_forall fun label => ensures_bind_of_forall fun snapshot => ?_
  exact ensures_onLedger (ensures_name_insert s.now _)

end Recorder

/-! ## Along a run -/

namespace Deed

open Recorder (Naming)

/-- What a deed comes to on a ledger: the name of a step if it is a report, and if it comes so far. -/
def naming (l : MemoryLedger) : Deed → Option Naming
  | call .. => none
  | report s labels e => (Recorder.naming s e { ledger := l, labels }).1.toOption.join

/-- All names that a run of deeds comes to, in order. -/
def namings : List Deed → MemoryLedger → List Naming
  | [], _ => []
  | deed :: rest, l => (deed.naming l).toList ++ namings rest (deed.act l).2

/-- The step that a deed on a ledger records, if there is one. -/
def step (l : MemoryLedger) : Deed → Option Record
  | call .. => none
  | report s labels e => (Recorder.onEvent s e { ledger := l, labels }).1.toOption.join

/-- All steps that a run of deeds records, in order. They need not all stay: a later report of the
same statement takes an earlier one away. -/
def steps : List Deed → MemoryLedger → List Record
  | [], _ => []
  | deed :: rest, l => (deed.step l).toList ++ steps rest (deed.act l).2

variable {s : Surroundings} {labels : List String} {e : DdlEvent} {l : MemoryLedger}

theorem naming_report {n : Naming} : (report s labels e).naming l = some n ↔
    (Recorder.naming s e { ledger := l, labels }).1 = .ok (some n) := by
  show (Recorder.naming s e { ledger := l, labels }).1.toOption.join = some n ↔ _
  rcases (Recorder.naming s e { ledger := l, labels }).1 with _ | _ | m <;> simp [Except.toOption]

/-- A name is made of what the clock showed. -/
theorem now_of_naming {n : Naming} (h : (report s labels e).naming l = some n) :
    n.now = s.now :=
  Recorder.now_of_naming (Prod.ext (naming_report.mp h) rfl)

theorem act_of_step {deed : Deed} {r : Record} (h : deed.step l = some r) :
    (deed.act l).1 = .ok (.record? (some r)) := by
  cases deed with
  | call now c => nomatch h
  | report s labels e =>
    rw [step] at h
    show ((Recorder.onEvent s e { ledger := l, labels }).1.map Answer.record? : Except _ _) = _
    rcases hevent : (Recorder.onEvent s e { ledger := l, labels }).1 with f | answer
    · rw [hevent] at h
      nomatch h
    · rw [hevent] at h
      obtain rfl : answer = some r := h
      rfl

/-- A step that a report records has the name that the report comes to. -/
theorem exists_naming_of_recorded {r : Record}
    (h : ((report s labels e).act l).1 = .ok (.record? (some r))) :
    ∃ n, (report s labels e).naming l = some n ∧ r.name = n.name := by
  rcases hevent : Recorder.onEvent s e { ledger := l, labels } with ⟨answer, d⟩
  simp only [act, hevent] at h
  obtain rfl : answer = .ok (some r) := by
    rcases answer with f | answer
    · nomatch h
    · rw [Answer.record?.inj (Except.ok.inj h)]
  obtain ⟨n, schema, d', hnaming, hr⟩ := Recorder.exists_naming_of_onEvent hevent
  exact ⟨n, naming_report.mpr (by rw [hnaming]),
    Recorder.ensures_name_recordNamed s e schema n _ _ _ trivial hr⟩

theorem names_step_sublist (deed : Deed) (l : MemoryLedger) :
    ((deed.step l).toList.map (·.name)).Sublist ((deed.naming l).toList.map (·.name)) := by
  rcases hstep : deed.step l with _ | r
  · exact List.nil_sublist _
  · cases deed with
    | call now c => nomatch hstep
    | report s labels e =>
      obtain ⟨n, hn, hname⟩ := exists_naming_of_recorded (act_of_step hstep)
      rw [hn]
      simp [hname]

/-- The steps that a run records have names that the run comes to, in the same order. -/
theorem names_steps_sublist (deeds : List Deed) (l : MemoryLedger) :
    ((steps deeds l).map (·.name)).Sublist ((namings deeds l).map (·.name)) := by
  induction deeds generalizing l with
  | nil => exact List.nil_sublist _
  | cons deed rest ih =>
    rw [steps, namings, List.map_append, List.map_append]
    exact (names_step_sublist deed l).append (ih _)

/-- Readings that become later tell the names apart. -/
theorem nodup_names {names : List Naming}
    (hutc : ∀ n ∈ names, n.now.offset = some 0 ∧ n.now.HasFourDigitYear)
    (hclock : names.IsChain fun m n => m.now.compare? n.now = some .lt) :
    (names.map (·.name)).Nodup := by
  have hwalls : (names.map (·.now.wall)).Pairwise (· < ·) := by
    rw [← List.isChain_iff_pairwise, List.isChain_map]
    exact hclock.imp_of_mem_imp fun m n hm hn =>
      (Moment.compare?_eq_lt_iff (hutc m hm).1 (hutc n hn).1).mp
  refine List.pairwise_map.mpr ((List.pairwise_map.mp hwalls).imp_of_mem ?_)
  intro m n hm hn hlt hname
  exact hlt.ne (Naming.wall_eq_of_name_eq (hutc m hm).2 (hutc n hn).2 hname)

/-- So the steps that a run records, also those that do not stay, all have different names. -/
theorem nodup_names_steps (deeds : List Deed) (l : MemoryLedger)
    (hutc : ∀ n ∈ namings deeds l, n.now.offset = some 0 ∧ n.now.HasFourDigitYear)
    (hclock : (namings deeds l).IsChain fun m n => m.now.compare? n.now = some .lt) :
    ((steps deeds l).map (·.name)).Nodup :=
  (nodup_names hutc hclock).sublist (names_steps_sublist deeds l)

/-- **The names of inferred steps do not collide.** Let calls and reports come to a ledger in
memory in any order. If the readings that names are made of are in UTC and in years of four digits,
and each is later than the one before, then no two of the names are equal, whatever their bases.
And names with one base are ordered, by code points, as their readings are. -/
theorem step_names_distinct (deeds : List Deed) (l : MemoryLedger)
    (hutc : ∀ n ∈ namings deeds l, n.now.offset = some 0 ∧ n.now.HasFourDigitYear)
    (hclock : (namings deeds l).IsChain fun m n => m.now.compare? n.now = some .lt) :
    ((namings deeds l).map (·.name)).Nodup ∧
    ∀ m ∈ namings deeds l, ∀ n ∈ namings deeds l, m.baseName = n.baseName →
      (Text.codePoints m.name < Text.codePoints n.name ↔
        m.now.compare? n.now = some .lt) := by
  refine ⟨nodup_names hutc hclock, fun m hm n hn hbase => ?_⟩
  rw [Moment.compare?_eq_lt_iff (hutc m hm).1 (hutc n hn).1, ← Text.lt_iff_codePoints_lt]
  exact Naming.name_lt_iff (hutc m hm).2 (hutc n hn).2 hbase

/-- Two steps of different schemas are inferred before any other step of theirs, and one after the
step `01_create`. -/
theorem step_names_distinct_of_two_schemas :
    let second (n : Int) : Moment := .ofUnixMicros (1767225600000000 + n * 1000000)
    let told (n : Int) (schema label : String) : Deed :=
      .report ⟨false, second n, fun _ => .ok (.map [])⟩ [label]
        { phase := .commandEnd, tag := "CREATE TABLE", statement := "create table a (id int)"
          timestamp := second n, objects := [⟨"table", some schema, "a"⟩] }
    let made : Deed :=
      .call (second 2) (.insertAtTip { schema := "public", name := "01_create", done := true })
    let deeds := [told 0 "public" "sql_1", told 1 "billing" "sql_2", made, told 3 "public" "sql_3"]
    (∀ n ∈ namings deeds .empty, n.now.offset = some 0 ∧ n.now.HasFourDigitYear) ∧
      ((namings deeds .empty).IsChain fun m n => m.now.compare? n.now = some .lt) ∧
      (namings deeds .empty).map (·.name) = ["00000_initial_20260101000000000000",
        "00000_initial_20260101000001000000", "01_create_20260101000003000000"] ∧
      ((namings deeds .empty).map (·.name)).Nodup := by
  intro second told made deeds
  have hutc : ∀ n ∈ namings deeds .empty, n.now.offset = some 0 ∧ n.now.HasFourDigitYear := by
    decide +kernel
  have hclock : (namings deeds .empty).IsChain fun m n => m.now.compare? n.now = some .lt := by
    decide +kernel
  exact ⟨hutc, hclock, by decide +kernel, (step_names_distinct deeds .empty hutc hclock).1⟩

end Deed

end SchemaLedger
