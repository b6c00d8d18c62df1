import SchemaLedger.Proofs.Run
import SchemaLedger.SyncTrigger.Installation

/-!
# What an installation leaves behind

While a trigger is installed, two settings of the transaction differ from what they were: the search
path is pinned to the schema of the table, and the flag keeps the two statements out of the history.
The flag is cleared however the block ends, unless the transaction is unusable then. The search path
is not: it is put back behind the block, and an error that leaves the block passes by this.

This file follows both settings through an installation in which any statement may fail. There are
few ways in which it can end (`place_cases`), and what it leaves is read off them:

- the search path stays pinned if anything fails after it was pinned, also where the transaction
  can still be used (`search_path_restored_iff`);
- a configuration is rejected before anything is asked of the transaction. If it is accepted and no
  statement fails, just two statements are executed, both with the search path pinned and the flag
  set, and the search path is put back (`statements_in_schema`).
-/

namespace SchemaLedger

open Attempt

namespace Transaction

variable {σ α : Type} [Transaction σ] {body : Attempt Fault σ α} {s s' : σ}

/-! ## What a block leaves of the settings -/

theorem keeps_settings_execute (statement : String) (S : Settings) :
    Keeps (fun s : σ => settings s = S) (execute statement) :=
  fun s hs => (settings_execute statement s).trans hs

/-- Whether another setting is set or the statement for that fails, a setting keeps its value. -/
theorem keeps_get?_assign {name other : String} (hne : name ≠ other) (value : String)
    (v : Option String) : Keeps (fun s : σ => (settings s).get? other = v) (assign name value) := by
  intro s hs
  rcases h : assign name value s with ⟨f | _, s'⟩
  · rw [settings_of_failed_assign h, hs]
  · rw [settings_of_assign h, Settings.get?_put_of_ne hne, hs]

/-- The end of a block: it leaves alone a transaction that an error has made unusable. Otherwise the
flag is cleared, unless that fails. -/
theorem leave_cases {outcome answer : Except Fault α} (h : leave outcome s = (answer, s')) :
    (∃ f, answer = .error f ∧ f.abortsTransaction = true ∧ s' = s) ∨
      (∃ f, answer = .error f ∧ setFlag "" s = (.error f, s')) ∨
      (answer = outcome ∧ setFlag "" s = (.ok (), s')) := by
  have hclears : ∀ next : Attempt Fault σ α, (∀ t, next t = (outcome, t)) →
      (setFlag "" >>= fun _ => next) s = (answer, s') →
      (∃ f, answer = .error f ∧ setFlag "" s = (.error f, s')) ∨
        (answer = outcome ∧ setFlag "" s = (.ok (), s')) := by
    intro next hnext h
    rcases bind_cases h with ⟨f, hset, hanswer⟩ | ⟨_, t, hset, h⟩
    · exact .inl ⟨f, hanswer, hset⟩
    · obtain ⟨rfl, rfl⟩ := Prod.mk.inj ((hnext t).symm.trans h)
      exact .inr ⟨rfl, hset⟩
  cases outcome with
  | ok a => exact .inr (hclears (pure a) (fun _ => rfl) h)
  | error f =>
    rw [leave] at h
    cases hf : f.abortsTransaction with
    | true =>
      rw [hf] at h
      obtain ⟨rfl, rfl⟩ := Prod.mk.inj h
      exact .inl ⟨f, rfl, hf, rfl⟩
    | false =>
      rw [hf] at h
      exact .inr (hclears (fail f) (fun _ => rfl) h)

/-- How a block goes: either the flag could not be set, or the block is left with what its body
ended with. -/
theorem suppressing_cases {answer : Except Fault α} (h : suppressing body s = (answer, s')) :
    (∃ f, answer = .error f ∧ setFlag "TRUE" s = (.error f, s')) ∨
      ∃ t, setFlag "TRUE" s = (.ok (), t) ∧ leave (body t).1 (body t).2 = (answer, s') := by
  rcases bind_cases h with ⟨f, hset, hanswer⟩ | ⟨_, t, hset, h⟩
  · exact .inl ⟨f, hanswer, hset⟩
  · rw [bind_ok (settle_apply body t)] at h
    exact .inr ⟨t, hset, h⟩

/-- A block keeps what its body keeps of a setting other than the flag. -/
theorem keeps_get?_suppressing {name : String} {v : Option String}
    (hne : Sql.suppressSetting ≠ name) (hbody : Keeps (fun s => (settings s).get? name = v) body) :
    Keeps (fun s => (settings s).get? name = v) (suppressing body) := by
  have hflag : ∀ value, Keeps (fun s : σ => (settings s).get? name = v) (setFlag value) :=
    fun value => keeps_get?_assign hne value v
  refine keeps_bind (hflag "TRUE") fun _ => keeps_bind (keeps_settle hbody) fun outcome s hs => ?_
  have hset := hflag "" s hs
  rcases hleave : leave outcome s with ⟨answer, s'⟩
  rcases leave_cases hleave with ⟨f, -, -, rfl⟩ | ⟨f, -, h⟩ | ⟨-, h⟩
  · exact hs
  · rwa [h] at hset
  · rwa [h] at hset

theorem get?_flag_of_setFlag {value : String} (h : setFlag value s = (.ok (), s')) :
    (settings s').get? Sql.suppressSetting = some value := by
  rw [settings_of_assign h, Settings.get?_put_self]

/-- Where a block returns, the flag is cleared. -/
theorem get?_flag_of_suppressing {a : α} (h : suppressing body s = (.ok a, s')) :
    (settings s').get? Sql.suppressSetting = some "" := by
  rcases suppressing_cases h with ⟨f, hf, -⟩ | ⟨t, -, hleave⟩
  · nomatch hf
  · rcases leave_cases hleave with ⟨f, hf, -⟩ | ⟨f, hf, -⟩ | ⟨-, hset⟩
    · nomatch hf
    · nomatch hf
    · exact get?_flag_of_setFlag hset

/-- A transaction that can still be used is left without the flag, unless the statement that clears
it has failed. -/
theorem isSuppressed_of_suppressing {answer : Except Fault α} (hs : isSuppressed s = false)
    (h : suppressing body s = (answer, s'))
    (husable : ∀ f, answer = .error f → f.abortsTransaction = false) :
    isSuppressed s' = false ∨ ∃ t f, answer = .error f ∧ setFlag "" t = (.error f, s') := by
  rcases suppressing_cases h with ⟨f, -, hset⟩ | ⟨t, -, hleave⟩
  · left
    rw [isSuppressed, settings_of_failed_assign hset]
    exact hs
  · rcases leave_cases hleave with ⟨f, hanswer, haborts, -⟩ | ⟨f, hanswer, hset⟩ | ⟨-, hset⟩
    · rw [husable f hanswer] at haborts
      nomatch haborts
    · exact .inr ⟨_, f, hanswer, hset⟩
    · left
      rw [isSuppressed, get?_flag_of_setFlag hset]
      rfl

end Transaction

namespace SyncTrigger

open Transaction (settings setting setFlag isSuppressed suppressing keeps_settings_execute
  keeps_get?_assign)

section Place

variable {σ : Type} [Transaction σ] {s s' : σ} {schema function trigger : String}

/-! ## The search path -/

theorem flag_ne_searchPath : Sql.suppressSetting ≠ searchPathSetting := by decide

theorem pin_eq_ok {previous : Option String} (h : pin schema s = (.ok previous, s')) :
    previous = (settings s).get? searchPathSetting ∧
      settings s' = (settings s).put searchPathSetting (Sql.quoteIdent schema) := by
  obtain ⟨v, t, hread, h⟩ := bind_eq_ok.mp h
  obtain ⟨_, u, hassign, h⟩ := bind_eq_ok.mp h
  obtain ⟨hv, rfl⟩ := Prod.mk.inj h
  obtain rfl := Except.ok.inj hv
  have ht : settings t = settings s := by
    rw [← Transaction.settings_setting searchPathSetting s, hread]
  exact ⟨Transaction.eq_get?_of_setting hread, by rw [Transaction.settings_of_assign hassign, ht]⟩

theorem pin_eq_error {f : Fault} (h : pin schema s = (.error f, s')) :
    settings s' = settings s := by
  have hread := Transaction.settings_setting searchPathSetting s
  rcases bind_cases h with ⟨e, hx, -⟩ | ⟨v, t, hx, h⟩
  · rwa [hx] at hread
  · rw [hx] at hread
    rcases bind_cases h with ⟨e, hassign, -⟩ | ⟨_, u, -, h⟩
    · exact (Transaction.settings_of_failed_assign hassign).trans hread
    · nomatch h

theorem keeps_settings_create (S : Settings) :
    Keeps (fun s : σ => settings s = S) (create function trigger) :=
  keeps_bind (keeps_settings_execute function S) fun _ => keeps_settings_execute trigger S

/-- The ways in which the two statements are created in a schema, or are not. -/
theorem place_cases {answer : Except Fault Unit}
    (h : place schema function trigger s = (answer, s')) :
    (∃ f, answer = .error f ∧ pin schema s = (.error f, s')) ∨
      ∃ previous t, pin schema s = (.ok previous, t) ∧
        ((∃ f, answer = .error f ∧ suppressing (create function trigger) t = (.error f, s')) ∨
          ∃ u, suppressing (create function trigger) t = (.ok (), u) ∧
            Transaction.assign searchPathSetting (previous.getD "") u = (answer, s')) := by
  rcases bind_cases h with ⟨f, hpin, hanswer⟩ | ⟨previous, t, hpin, h⟩
  · exact .inl ⟨f, hanswer, hpin⟩
  · refine .inr ⟨previous, t, hpin, ?_⟩
    rcases bind_cases h with ⟨f, hblock, hanswer⟩ | ⟨_, u, hblock, h⟩
    · exact .inl ⟨f, hanswer, hblock⟩
    · exact .inr ⟨u, hblock, h⟩

/-- Both statements are executed with the search path pinned, and the block leaves it so. -/
theorem searchPath_of_block {previous : Option String} {answer : Except Fault Unit} {t : σ}
    (hpin : pin schema s = (.ok previous, t))
    (hblock : suppressing (create function trigger) t = (answer, s')) :
    (settings s').get? searchPathSetting = some (Sql.quoteIdent schema) := by
  have hpinned : (settings t).get? searchPathSetting = some (Sql.quoteIdent schema) := by
    rw [(pin_eq_ok hpin).2, Settings.get?_put_self]
  have hcreate : Keeps (fun s : σ =>
      (settings s).get? searchPathSetting = some (Sql.quoteIdent schema))
      (create function trigger) := by
    intro u hu
    rw [keeps_settings_create (settings u) u rfl]
    exact hu
  have hleft := Transaction.keeps_get?_suppressing flag_ne_searchPath hcreate t hpinned
  rwa [hblock] at hleft

/-- The search path is put back where nothing fails. After a failure it is still pinned if it was
pinned before. -/
theorem searchPath_of_place {answer : Except Fault Unit} {initial : String}
    (hinitial : (settings s).get? searchPathSetting = some initial)
    (h : place schema function trigger s = (answer, s')) :
    (answer = .ok () → (settings s').get? searchPathSetting = some initial) ∧
      ∀ f, answer = .error f → (settings s').get? searchPathSetting =
        if (pin schema s).1.isOk then some (Sql.quoteIdent schema) else some initial := by
  rcases place_cases h with ⟨f, rfl, hpin⟩ | ⟨previous, t, hpin, hrest⟩
  · refine ⟨nofun, fun g hg => ?_⟩
    rw [pin_eq_error hpin, hpin]
    exact hinitial
  · rcases hrest with ⟨f, rfl, hblock⟩ | ⟨u, hblock, hassign⟩
    · refine ⟨nofun, fun g hg => ?_⟩
      rw [hpin]
      exact searchPath_of_block hpin hblock
    · cases answer with
      | ok _ =>
        refine ⟨fun _ => ?_, nofun⟩
        rw [Transaction.settings_of_assign hassign, Settings.get?_put_self, (pin_eq_ok hpin).1,
          hinitial]
        rfl
      | error f =>
        refine ⟨nofun, fun g hg => ?_⟩
        rw [Transaction.settings_of_failed_assign hassign, hpin]
        exact searchPath_of_block hpin hblock

/-! ## The flag -/

/-- To put the search path back keeps the flag cleared, and so does the attempt. -/
theorem get?_flag_behind_block {t u : σ} {v : String} {answer : Except Fault Unit}
    (hblock : suppressing (create function trigger) t = (.ok (), u))
    (hassign : Transaction.assign searchPathSetting v u = (answer, s')) :
    (settings s').get? Sql.suppressSetting = some "" := by
  have hkept := keeps_get?_assign flag_ne_searchPath.symm v (some "") u
    (Transaction.get?_flag_of_suppressing hblock)
  rwa [hassign] at hkept

theorem get?_flag_of_place (h : place schema function trigger s = (.ok (), s')) :
    (settings s').get? Sql.suppressSetting = some "" := by
  obtain ⟨previous, t, -, h⟩ := bind_eq_ok.mp h
  obtain ⟨_, u, hblock, hassign⟩ := bind_eq_ok.mp h
  exact get?_flag_behind_block hblock hassign

/-- A transaction that can still be used is left without the flag, unless the statement that clears
it has failed. -/
theorem isSuppressed_of_place {answer : Except Fault Unit} (hs : isSuppressed s = false)
    (h : place schema function trigger s = (answer, s'))
    (husable : ∀ f, answer = .error f → f.abortsTransaction = false) :
    isSuppressed s' = false ∨ ∃ t f, answer = .error f ∧ setFlag "" t = (.error f, s') := by
  rcases place_cases h with ⟨f, -, hpin⟩ | ⟨previous, t, hpin, hrest⟩
  · left
    rw [isSuppressed, pin_eq_error hpin]
    exact hs
  · have ht : isSuppressed t = false := by
      rw [isSuppressed, (pin_eq_ok hpin).2, Settings.get?_put_of_ne flag_ne_searchPath.symm]
      exact hs
    rcases hrest with ⟨f, rfl, hblock⟩ | ⟨u, hblock, hassign⟩
    · exact Transaction.isSuppressed_of_suppressing ht hblock husable
    · left
      rw [isSuppressed, get?_flag_behind_block hblock hassign]
      rfl

end Place

/-! ## Whole installations -/

theorem installIn_of_accepted {σ : Type} [Transaction σ] {c : Config} {function : String}
    (hc : c.functionText = .ok function) :
    (installIn c : Attempt InstallError σ Unit) =
      (place c.schemaName function (Sql.unlines c.triggerLines)).widen .fault := by
  rw [installIn, hc, Config.triggerText_ok (Config.functionText_ok hc).1]

/-- **The search path is put back exactly if the installation goes through or has not pinned it.**
Any statement of the installation may fail. If one fails after the search path was pinned to the
schema of the table, it stays so, whether or not the transaction can still be used then. The flag is
cleared if the installation goes through. Where it fails and the transaction can still be used, the
flag is not left set either, unless the statement that clears it is the one that failed. -/
theorem search_path_restored_iff {σ : Type} [Transaction σ] {c : Config} {function : String}
    (hc : c.functionText = .ok function) {s s' : σ} {initial : String}
    (hinitial : (settings s).get? searchPathSetting = some initial)
    {answer : Except InstallError Unit} (h : installIn c s = (answer, s')) :
    ((settings s').get? searchPathSetting = some initial ↔
      answer = .ok () ∨ (pin c.schemaName s).1.isOk = false ∨
        Sql.quoteIdent c.schemaName = initial) ∧
    ((settings s').get? searchPathSetting ≠ some initial →
      (settings s').get? searchPathSetting = some (Sql.quoteIdent c.schemaName)) ∧
    (answer = .ok () → (settings s').get? Sql.suppressSetting = some "") ∧
    (isSuppressed s = false →
      (∀ f, answer = .error (.fault f) → f.abortsTransaction = false) →
      isSuppressed s' = false ∨
        ∃ t f, answer = .error (.fault f) ∧ setFlag "" t = (.error f, s')) := by
  rw [installIn_of_accepted hc, widen_apply] at h
  rcases hplace : place c.schemaName function (Sql.unlines c.triggerLines) s with ⟨outcome, u⟩
  rw [hplace] at h
  obtain ⟨rfl, rfl⟩ := Prod.mk.inj h
  obtain ⟨hreturned, hraised⟩ := searchPath_of_place hinitial hplace
  cases outcome with
  | ok _ =>
    have hback := hreturned rfl
    have hcleared := get?_flag_of_place hplace
    refine ⟨iff_of_true hback (.inl rfl), fun hne => absurd hback hne, fun _ => hcleared, ?_⟩
    intro _ _
    left
    rw [isSuppressed, hcleared]
    rfl
  | error f =>
    have hleft := hraised f rfl
    refine ⟨?_, ?_, nofun, fun hflag husable => ?_⟩
    · rw [hleft]
      cases (pin c.schemaName s).1.isOk <;> simp [Except.mapError]
    · rw [hleft]
      cases (pin c.schemaName s).1.isOk <;> simp
    · have hf : f.abortsTransaction = false := husable f rfl
      have hclear := isSuppressed_of_place hflag hplace fun g hg => Except.error.inj hg ▸ hf
      refine hclear.imp_right fun ⟨t, g, hg, hset⟩ => ⟨t, g, ?_, hset⟩
      rw [hg]
      rfl

/-- An error that is no refusal of the database leaves the search path pinned, though the
transaction can still be used. -/
theorem search_path_stuck_after_error :
    ¬ ∀ (c : Config) (function initial : String) (s : Session), c.functionText = .ok function →
      (settings s).get? searchPathSetting = some initial → isSuppressed s = false →
      (∀ f, (install c s).1 = .error (.fault f) → f.abortsTransaction = false) →
      (settings (install c s).2).get? searchPathSetting = some initial ∧
        isSuppressed (install c s).2 = false := by
  intro h
  let c : Config :=
    { name := "triggerName", tableName := "reviews", schemaName := "app"
      physicalColumn := "_pgroll_new_review", latestSchema := "public_01_migration_name"
      columns := [("product", ⟨"product", "text"⟩)], expressions := ["product || 'is good'"] }
  let s : Session :=
    { settings := [(searchPathSetting, "\"$user\", public")], failing := some (1, .unexpected) }
  have hc : c.functionText = .ok (Sql.unlines c.functionLines) := by
    rw [Config.functionText, show c.defect? = none by decide +kernel]
  have hfails : (install c s).1 = .error (.fault ⟨.unexpected, []⟩) := by decide +kernel
  have husable : ∀ f, (install c s).1 = .error (.fault f) → f.abortsTransaction = false := by
    intro f hf
    obtain rfl := InstallError.fault.inj (Except.error.inj (hfails.symm.trans hf))
    rfl
  obtain ⟨hback, -⟩ := h c _ "\"$user\", public" s hc (by decide) (by decide) husable
  revert hback
  decide +kernel

/-- Two installations that are interrupted, while the search path is pinned and while the function
is created. Only the second one leaves the search path pinned. -/
theorem search_path_restored_iff_of_interruption :
    let c : Config :=
      { name := "fill", tableName := "reviews", schemaName := "app", physicalColumn := "review"
        latestSchema := "public_v2", expressions := ["upper(review)"] }
    let before (plan : List (Option Fault)) : PlannedSession :=
      { session := { settings := [(searchPathSetting, "public")] }, plan }
    let early := before [none, some { failure := .interrupted }]
    let late := before [none, none, none, some { failure := .interrupted }]
    c.defect? = none ∧
    (settings early).get? searchPathSetting = some "public" ∧ isSuppressed early = false ∧
    (settings late).get? searchPathSetting = some "public" ∧ isSuppressed late = false ∧
    (settings (installIn c early).2).get? searchPathSetting = some "public" ∧
    (settings (installIn c late).2).get? searchPathSetting = some "\"app\"" ∧
    isSuppressed (installIn c late).2 = false := by
  intro c before early late
  have hdefect : c.defect? = none := by decide +kernel
  have hc : c.functionText = .ok (Sql.unlines c.functionLines) := by
    rw [Config.functionText, hdefect]
  have hpath : ∀ plan, (settings (before plan)).get? searchPathSetting = some "public" :=
    fun _ => rfl
  have hflag : ∀ plan, isSuppressed (before plan) = false := fun _ => rfl
  obtain ⟨hearly, -⟩ := search_path_restored_iff hc (hpath _) (rfl : installIn c early = _)
  obtain ⟨-, hpinned, -⟩ := search_path_restored_iff hc (hpath _) (rfl : installIn c late = _)
  have hstuck : (settings (installIn c late).2).get? searchPathSetting ≠ some "public" := by
    decide +kernel
  refine ⟨hdefect, hpath _, hflag _, hpath _, hflag _, ?_, ?_, by decide +kernel⟩
  · exact hearly.mpr (.inr (.inl (by decide)))
  · exact (hpinned hstuck).trans (by decide)

/-! ## Installations without a failure -/

section Session

open Session (execute_of_ready)

variable {s : Session}

/-- The settings under which the two statements are executed. -/
def settingsInside (schema : String) (S : Settings) : Settings :=
  (S.put searchPathSetting (Sql.quoteIdent schema)).put Sql.suppressSetting "TRUE"

/-- What is done in a session when two statements are created in a schema. -/
def placing (schema function trigger : String) (S : Settings) : List Entry :=
  [.read searchPathSetting (S.get? searchPathSetting),
    .assigned searchPathSetting (Sql.quoteIdent schema),
    .assigned Sql.suppressSetting "TRUE",
    .executed function (settingsInside schema S),
    .executed trigger (settingsInside schema S),
    .assigned Sql.suppressSetting "",
    .assigned searchPathSetting ((S.get? searchPathSetting).getD "")]

/-- The session after two statements were created in a schema. -/
def placed (schema function trigger : String) (s : Session) : Session :=
  { s with
    settings := ((settingsInside schema s.settings).put Sql.suppressSetting "").put
      searchPathSetting ((s.settings.get? searchPathSetting).getD "")
    tried := s.tried + 2
    journal := s.journal ++ placing schema function trigger s.settings }

theorem create_of_ready (function trigger : String)
    (h : ∀ n f, s.failing = some (n, f) → n ≤ s.tried ∨ s.tried + 2 < n) :
    create function trigger s =
      (.ok (), { s with
        tried := s.tried + 2
        journal := s.journal ++
          [.executed function s.settings, .executed trigger s.settings] }) := by
  have hfirst : ∀ f, s.failing ≠ some (s.tried + 1, f) := fun f hf => by
    rcases h _ f hf with h | h <;> omega
  have hsecond : ∀ f, s.failing ≠ some (s.tried + 1 + 1, f) := fun f hf => by
    rcases h _ f hf with h | h <;> omega
  have hfunction := execute_of_ready function hfirst
  rw [create, bind_ok (show Transaction.execute function s = _ from hfunction)]
  refine (execute_of_ready trigger hsecond).trans ?_
  simp [Session.noting]

theorem place_of_ready (schema function trigger : String)
    (h : ∀ n f, s.failing = some (n, f) → n ≤ s.tried ∨ s.tried + 2 < n) :
    place schema function trigger s = (.ok (), placed schema function trigger s) := by
  let pinned := (pin schema s).2
  let inside := (Session.setFlag "TRUE" pinned).2
  let created : Session := { inside with
    tried := s.tried + 2
    journal := inside.journal ++
      [.executed function inside.settings, .executed trigger inside.settings] }
  have hpin : pin schema s = (.ok (s.settings.get? searchPathSetting), pinned) := rfl
  have hcreate : create function trigger inside = (.ok (), created) :=
    create_of_ready function trigger h
  have hblock : suppressing (create function trigger) pinned =
      (.ok (), created.afterBlock none) := by
    rw [Transaction.suppressing_session, Session.suppressing, hcreate]
  have hjournal : created.journal ++ [.assigned Sql.suppressSetting ""] ++
      [.assigned searchPathSetting ((s.settings.get? searchPathSetting).getD "")] =
      s.journal ++ placing schema function trigger s.settings := by
    have hinside : inside.journal =
        s.journal ++ [.read searchPathSetting (s.settings.get? searchPathSetting)] ++
          [.assigned searchPathSetting (Sql.quoteIdent schema)] ++
          [.assigned Sql.suppressSetting "TRUE"] := rfl
    simp only [created, hinside, List.append_assoc]
    rfl
  rw [place, bind_ok hpin, bind_ok hblock, placed, ← hjournal]
  rfl

/-- **A trigger is installed by two statements in the schema of its table, or by none.** Either the
configuration is rejected and the session is left as it is. Or there are a function and a trigger,
and if no statement fails, these two are all that is executed, both with the search path pinned to
the schema and the flag set. In the end the search path is what it was. -/
theorem statements_in_schema (c : Config) (s : Session) :
    (∃ d, c.defect? = some d ∧ c.functionText = .error (c.lacks d) ∧
      install c s = (.error (.rejected (c.lacks d)), s)) ∨
    ∃ function trigger, c.functionText = .ok function ∧ c.triggerText = .ok trigger ∧
      ((∀ n f, s.failing = some (n, f) → n ≤ s.tried ∨ s.tried + 2 < n) →
        ∃ s', install c s = (.ok (), s') ∧
          s'.journal = s.journal ++ placing c.schemaName function trigger s.settings ∧
          (settingsInside c.schemaName s.settings).get? searchPathSetting =
            some (Sql.quoteIdent c.schemaName) ∧
          (settingsInside c.schemaName s.settings).get? Sql.suppressSetting = some "TRUE" ∧
          ∀ initial, s.settings.get? searchPathSetting = some initial →
            s'.settings.get? searchPathSetting = some initial) := by
  cases hdefect : c.defect? with
  | some d =>
    refine .inl ⟨d, rfl, ?_, install_of_defect hdefect⟩
    rw [Config.functionText, hdefect]
  | none =>
    have hfunction : c.functionText = .ok (Sql.unlines c.functionLines) := by
      rw [Config.functionText, hdefect]
    refine .inr ⟨_, _, hfunction, Config.triggerText_ok hdefect, fun hready => ?_⟩
    refine ⟨placed c.schemaName _ _ s, ?_, rfl, ?_, ?_, fun initial hinitial => ?_⟩
    · rw [install, installIn_of_accepted hfunction, widen_apply, place_of_ready _ _ _ hready]
      rfl
    · rw [settingsInside, Settings.get?_put_of_ne flag_ne_searchPath, Settings.get?_put_self]
    · rw [settingsInside, Settings.get?_put_self]
    · rw [placed, Settings.get?_put_self, hinitial]
      rfl

/-- A session in which one defining statement was tried before, and the second one after the
installation will fail. -/
theorem statements_in_schema_before_failure :
    let c : Config :=
      { name := "fill", tableName := "reviews", schemaName := "app", physicalColumn := "review"
        latestSchema := "public_v2", expressions := ["upper(review)"] }
    let s : Session :=
      { settings := [(searchPathSetting, "public")], tried := 1, failing := some (5, .database) }
    c.defect? = none ∧ (∀ n f, s.failing = some (n, f) → n ≤ s.tried ∨ s.tried + 2 < n) ∧
    ∃ function trigger s', c.functionText = .ok function ∧ c.triggerText = .ok trigger ∧
      install c s = (.ok (), s') ∧ s'.journal = placing "app" function trigger s.settings ∧
      s'.settings.get? searchPathSetting = some "public" := by
  intro c s
  have hdefect : c.defect? = none := by decide +kernel
  have hready : ∀ n f, s.failing = some (n, f) → n ≤ s.tried ∨ s.tried + 2 < n := by
    intro n f hf
    obtain ⟨rfl, -⟩ := Prod.mk.inj (Option.some.inj hf)
    decide
  refine ⟨hdefect, hready, ?_⟩
  rcases statements_in_schema c s with
    ⟨d, hd, -⟩ | ⟨function, trigger, hfunction, htrigger, hplaces⟩
  · rw [hdefect] at hd
    nomatch hd
  · obtain ⟨s', hinstall, hjournal, -, -, hpath⟩ := hplaces hready
    exact ⟨function, trigger, s', hfunction, htrigger, hinstall, hjournal, hpath "public" rfl⟩

end Session

end SyncTrigger

end SchemaLedger
