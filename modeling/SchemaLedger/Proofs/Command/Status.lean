import Mathlib.Data.List.DropRight
import SchemaLedger.Command.History
import SchemaLedger.Proofs.Version.Distinct

/-!
# The end of a history on the screen

The command that shows a history is told how many records to show, and shows the last ones. What it
shows comes from four questions, and on every table that transactions make all of them are answered
(`readStatus_of_tidy`): the history is there from the root to the tip, the migration in progress is
the one record of the history that is not done, and the versions are found along the history.

The end is cut off by counting from the back, and there a limit of zero counts nothing off: the
whole history is shown instead of none of it (`lastOf_eq`). With every other limit that is not
negative, the end that is shown is the one that was asked for (`status_shows_end`).
-/

namespace SchemaLedger

open Attempt
open Database (Tidy)

/-- What the database tells of the migration in progress is the record of the history that is not
done. -/
theorem Database.active_of_tidy {d : Database} (h : Tidy d) (schema : String) :
    LedgerStore.active schema d = (.ok ((d.shownRows schema).find? (!·.done)), d) := by
  obtain ⟨⟨t, rfl, -⟩, hordered⟩ := h
  have hfound : ∀ r, (Table.ofSchema t.migrations schema).find? (!·.done) = some r → Legible r :=
    fun r hr => hordered.legible r (List.mem_filter.mp (List.mem_of_find?_eq_some hr)).1
  show active schema ⟨some t⟩ = _
  rw [active, ask_apply, readOption_of_legible hfound, shownRows_mk, List.find?_map]
  rfl

/-- At most one record of a history is not done. -/
theorem Database.countP_shownRows_le_one {d : Database} (h : Tidy d) (schema : String) :
    (d.shownRows schema).countP (!·.done) ≤ 1 := by
  obtain ⟨⟨t, rfl, hi⟩, -⟩ := h
  rw [shownRows_mk, List.countP_map]
  exact (hi schema).oneActive

/-- The history runs from the root to the tip. -/
theorem Database.arranges_shownRows {d : Database} (h : Tidy d) (schema : String) :
    Arranges (d.shownRows schema) (d.shownRows schema) := by
  obtain ⟨⟨t, rfl, hi⟩, hordered⟩ := h
  exact (hordered.arranges hi schema).map (fun _ => rfl) fun _ => rfl

namespace Command

/-- The records that a limit asks for: the last ones, as many as the limit says or as there are. -/
def requestedEnd (limit : Int) (history : List Record) : List Record :=
  history.rtake limit.toNat

/-- The lines about a whole history: how long it is and what is active, and the latest two of its
versions that are present. -/
def summary (schema : String) (present : String → Bool) (history : List Record) : List String :=
  let activeName := shown ((history.find? (!·.done)).map (·.name))
  let versions := presentLabels schema present history
  [s!"[status] schema={schema} migrations={history.length} active={activeName}",
    s!"[status] latest_version={shown versions[0]?}",
    s!"[status] previous_version={shown versions[1]?}"]

variable {limit : Int}

theorem length_requestedEnd (history : List Record) :
    (requestedEnd limit history).length = min limit.toNat history.length := by
  rw [requestedEnd, List.rtake, List.length_drop]
  omega

/-- A limit of zero shows everything, and any other one what it asks for. -/
theorem lastOf_eq (h0 : 0 ≤ limit) (history : List Record) :
    lastOf limit history = if limit = 0 then history else requestedEnd limit history := by
  unfold lastOf
  by_cases hzero : limit = 0
  · simp [hzero]
  · rw [if_pos (by omega), if_neg hzero]
    rfl

/-- All that the command asks for is answered. -/
theorem readStatus_of_tidy {d : Database} (h : Tidy d) (present : String → Bool) (schema : String)
    (limit : Int) :
    readStatus present schema limit d =
      (.ok ((lastOf limit (d.shownRows schema)).map recordLine ++
        summary schema present (d.shownRows schema)), d) := by
  have hhistory := Database.history_of_tidy h schema
  rw [readStatus, bind_ok hhistory, bind_ok (Database.active_of_tidy h schema),
    bind_ok (latestVersion_apply hhistory),
    bind_ok (previousVersion_apply hhistory)]
  rfl

/-- What was read is printed as it is. -/
theorem ledgerStatus_of_tidy {d : Database} (h : Tidy d) {present : String → Bool}
    {schema : String} {lines : List String}
    (hlines : readStatus present schema limit d = (.ok lines, d)) {args : List String} {s : Settings}
    (hargs : readArguments statusSynopsis.options args = .ok s)
    (hschema : s.textOr "--schema" "public" = some schema)
    (hlimit : s.integerOr "--limit" 20 = some limit) (env : Environment) :
    ledgerStatus env present args d = .success lines := by
  obtain ⟨⟨t, rfl, -⟩, -⟩ := h
  simp only [ledgerStatus, hargs, hschema, hlimit, hlines]
  rfl

/-- The lines that were asked for are those that are shown, unless they are cut off by a limit of
zero. -/
theorem shown_eq_requested_iff (limit : Int) (history : List Record) (rest : List String) :
    (if limit = 0 then history else requestedEnd limit history).map recordLine ++ rest =
      (requestedEnd limit history).map recordLine ++ rest ↔ limit ≠ 0 ∨ history = [] := by
  by_cases hzero : limit = 0
  · subst hzero
    constructor
    · intro h
      have hlength := congrArg List.length (List.append_cancel_right h)
      rw [if_pos rfl, List.length_map, List.length_map, length_requestedEnd] at hlength
      simp_all
    · rintro (hne | rfl)
      · exact absurd rfl hne
      · rfl
  · simp [hzero]

/-- **The end of the history is shown that was asked for, unless none of it was.** On every table
that transactions make, and for every limit that is not negative, the history of a schema is read
from the root to the tip, and the command prints a line for each of its records up to the tip, then
how long it is, the one record of it that is not done, and its latest two versions. The records that
it prints are those that the limit asks for exactly if the limit is not zero or there are none; with
a limit of zero it prints them all. -/
theorem status_shows_end (h0 : 0 ≤ limit) (steps : List Step) (versions : List VersionMark)
    (present : String → Bool) (schema : String) :
    let d : Database := after (steps.map Step.commit) ⟨some { versions }⟩
    ∃ history lines, LedgerStore.history schema d = (.ok history, d) ∧
      Arranges history history ∧ history.countP (!·.done) ≤ 1 ∧
      readStatus present schema limit d = (.ok lines, d) ∧
      lines = (if limit = 0 then history else requestedEnd limit history).map recordLine ++
        summary schema present history ∧
      (lines = (requestedEnd limit history).map recordLine ++ summary schema present history ↔
        limit ≠ 0 ∨ history = []) ∧
      ∀ env args s, readArguments statusSynopsis.options args = .ok s →
        s.textOr "--schema" "public" = some schema → s.integerOr "--limit" 20 = some limit →
          ledgerStatus env present args d = .success lines := by
  intro d
  have h : Tidy d := Step.tidy_after steps versions
  have hlines := readStatus_of_tidy h present schema limit
  rw [lastOf_eq h0] at hlines
  exact ⟨d.shownRows schema, _, Database.history_of_tidy h schema,
    Database.arranges_shownRows h schema, Database.countP_shownRows_le_one h schema, hlines, rfl,
    shown_eq_requested_iff limit _ _, fun env _ _ hargs hschema hlimit =>
      ledgerStatus_of_tidy h hlines hargs hschema hlimit env⟩

/-- Of two baselines the second one is shown if one record is asked for. -/
theorem status_shows_end_of_two_baselines :
    let baseline (second : Int) (name : String) : Step :=
      .operation ⟨second, some 0⟩ (fun _ => .ok (.map [])) (.createBaseline "public" name)
    let steps := [baseline 0 "a", baseline 1 "b"]
    let d : Database := after (steps.map Step.commit) ⟨some { versions := [] }⟩
    (0 : Int) ≤ 1 ∧ ledgerStatus [] (fun name => name = "public_a") ["--limit", "1"] d =
      .success ["[migration] name=b type=baseline status=done version_schema=b parent=a",
        "[status] schema=public migrations=2 active=None", "[status] latest_version=a",
        "[status] previous_version=None"] := by
  intro baseline steps d
  have h0 : (0 : Int) ≤ 1 := by decide
  obtain ⟨history, lines, hhistory, -, -, -, hlines, -, hreport⟩ :=
    status_shows_end h0 steps [] (fun name => name = "public_a") "public"
  have hrows : history = d.shownRows "public" := by
    rw [Database.history_of_tidy (Step.tidy_after steps [])] at hhistory
    exact (Except.ok.inj (Prod.mk.inj hhistory).1).symm
  rw [hrows] at hlines
  have hargs : readArguments statusSynopsis.options ["--limit", "1"] =
      .ok [("--limit", .integer 1)] := by decide +kernel
  refine ⟨h0, ?_⟩
  rw [hreport [] _ _ hargs rfl rfl, hlines]
  decide +kernel

/-- Both baselines are shown if no record is asked for. -/
theorem all_shown_for_limit_zero :
    ¬ ∀ (steps : List Step) (versions : List VersionMark) (present : String → Bool)
      (schema : String) (env : Environment) (args : List String) (s : Settings) (limit : Int),
      let d : Database := after (steps.map Step.commit) ⟨some { versions }⟩
      readArguments statusSynopsis.options args = .ok s →
      s.textOr "--schema" "public" = some schema → s.integerOr "--limit" 20 = some limit →
      0 ≤ limit → ∃ history, LedgerStore.history schema d = (.ok history, d) ∧
        ledgerStatus env present args d = .success
          ((requestedEnd limit history).map recordLine ++ summary schema present history) := by
  intro h
  let baseline (second : Int) (name : String) : Step :=
    .operation ⟨second, some 0⟩ (fun _ => .ok (.map [])) (.createBaseline "public" name)
  let steps := [baseline 0 "a", baseline 1 "b"]
  let d : Database := after (steps.map Step.commit) ⟨some { versions := [] }⟩
  have hd : Tidy d := Step.tidy_after steps []
  have hargs : readArguments statusSynopsis.options ["--limit", "0"] =
      .ok [("--limit", .integer 0)] := by decide +kernel
  obtain ⟨history, hhistory, hreport⟩ := h steps [] (fun _ => false) "public" [] _ _ 0 hargs rfl rfl
    (Int.le_refl 0)
  have hrows : d.shownRows "public" = history := by
    rw [Database.history_of_tidy hd] at hhistory
    exact Except.ok.inj (Prod.mk.inj hhistory).1
  have hlines := ledgerStatus_of_tidy hd (readStatus_of_tidy hd (fun _ => false) "public" 0)
    hargs rfl rfl []
  rw [hreport, lastOf_eq (Int.le_refl 0), hrows] at hlines
  have hempty : history = [] := by
    simpa using (shown_eq_requested_iff 0 history _).mp (congrArg Report.lines hlines).symm
  rw [hempty] at hrows
  exact absurd (congrArg List.length hrows) (by decide +kernel)

end Command

end SchemaLedger
