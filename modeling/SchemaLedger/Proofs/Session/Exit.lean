import SchemaLedger.Proofs.Run
import SchemaLedger.Session.Transaction

/-!
# Errors on their way out of a block

A statement that fails leaves the transaction unusable until it is rolled back. So a block that is
left by such an error must not execute anything more: the statement that clears the flag would fail
as well, and its failure would hide the error.

A block cannot ask the transaction for its state. It goes by the error, which may have been told on
in other words several times, each time with the error before as its cause. How far away the refusal
of the database is then (`Fault.refusalDepth?`) grows by one with each telling
(`Fault.refusalDepth?_foldl_toldAs`), but a block looks no further than to the direct cause
(`Fault.abortsTransaction_iff`). What it does with an error is one equation for any kind of
transaction (`Transaction.suppressing_of_raised`), and in a session the statement that clears the
flag always leaves a trace (`Transaction.snd_setFlag_ne`). Hence an error leaves a block with
nothing more done exactly if the refusal is at most one telling away
(`Transaction.nothing_more_done_iff`).
-/

namespace SchemaLedger

open Attempt

namespace Fault

/-- How many causes away the nearest refusal of the database is, if there is one at all. -/
def refusalDepth? (f : Fault) : Option Nat :=
  (f.failure :: f.causes).findIdx? Failure.fromDatabase

/-- The fault told on as another failure, which it is the cause of. -/
def toldAs (f : Fault) (failure : Failure) : Fault := ⟨failure, f.failure :: f.causes⟩

theorem refusalDepth?_eq (f : Fault) :
    f.refusalDepth? =
      if f.failure.fromDatabase then some 0
      else (f.causes.findIdx? Failure.fromDatabase).map (· + 1) :=
  List.findIdx?_cons

/-- A block looks for a refusal in the error itself and in its direct cause. -/
theorem abortsTransaction_iff (f : Fault) :
    f.abortsTransaction = true ↔ ∃ depth ≤ 1, f.refusalDepth? = some depth := by
  rw [abortsTransaction, refusalDepth?_eq]
  cases f.failure.fromDatabase with
  | true => simp
  | false =>
    cases f.causes with
    | nil => simp
    | cons cause rest =>
      rw [List.head?_cons, Option.map_some, Option.getD_some, List.findIdx?_cons]
      cases cause.fromDatabase with
      | true => simp
      | false =>
        -- any other refusal is at least two causes away
        refine iff_of_false (by simp) ?_
        rintro ⟨depth, hle, hdepth⟩
        obtain ⟨n, hn, rfl⟩ := Option.map_eq_some_iff.mp hdepth
        obtain ⟨m, -, rfl⟩ := Option.map_eq_some_iff.mp hn
        omega

/-- A telling in words that are not those of the database moves its refusal on by one. -/
theorem refusalDepth?_toldAs (f : Fault) {failure : Failure} (h : failure.fromDatabase = false) :
    (f.toldAs failure).refusalDepth? = f.refusalDepth?.map (· + 1) := by
  rw [refusalDepth?_eq, toldAs, h]
  rfl

/-- So do any number of tellings, each by one. -/
theorem refusalDepth?_foldl_toldAs {failures : List Failure} (f : Fault)
    (h : ∀ failure ∈ failures, failure.fromDatabase = false) :
    (failures.foldl toldAs f).refusalDepth? = f.refusalDepth?.map (· + failures.length) := by
  induction failures generalizing f with
  | nil => exact (Option.map_id' ..).symm
  | cons failure rest ih =>
    obtain ⟨hfailure, hrest⟩ := List.forall_mem_cons.mp h
    rw [List.foldl_cons, ih _ hrest, refusalDepth?_toldAs f hfailure, Option.map_map,
      List.length_cons]
    congr 1
    funext depth
    show depth + 1 + rest.length = depth + (rest.length + 1)
    omega

end Fault

namespace Transaction

/-- What a block does with an error of its body: it leaves with it at once, or clears the flag
first. -/
theorem suppressing_of_raised {σ α : Type} [Transaction σ] {body : Attempt Fault σ α} {s t u : σ}
    {f : Fault} (hopened : setFlag "TRUE" s = (.ok (), t)) (hraised : body t = (.error f, u)) :
    suppressing body s =
      if f.abortsTransaction then (.error f, u) else (setFlag "" >>= fun _ => fail f) u := by
  rw [suppressing, bind_ok hopened, bind_ok (settle_apply body t), hraised]
  show leave (.error f) u = _
  rw [leave]
  cases f.abortsTransaction <;> rfl

/-- In a session the statement that sets or clears the flag leaves a trace, whether it goes through
or fails: in the journal or in the plan. -/
theorem snd_setFlag_ne (value : String) (s : PlannedSession) : (setFlag value s).2 ≠ s := by
  intro h
  have hset : setFlag value s = PlannedSession.attempt (Session.setFlag value) s := rfl
  rw [hset, PlannedSession.attempt] at h
  split at h
  next f hplanned =>
    -- what was planned first is gone from the plan
    have hplan : s.plan.tail = s.plan := congrArg PlannedSession.plan h
    cases hs : s.plan with
    | nil =>
      rw [hs] at hplanned
      nomatch hplanned
    | cons first rest =>
      rw [hs] at hplan
      exact absurd hplan (List.cons_ne_self first rest).symm
  next =>
    have hjournal : s.session.journal ++ [Entry.assigned Sql.suppressSetting value] =
        s.session.journal := congrArg (·.session.journal) h
    simp at hjournal

/-- **An error passes by exactly if a refusal of the database is at most one telling away.** A body
that raises an error leaves its block with nothing more done in the session and with this same error
exactly if the database's refusal is the error itself or its direct cause. Whether there is no
refusal among the causes or one further away, the block then makes the statement that clears the
flag. If that goes through, the error follows; if it fails, its own failure takes the place of the
error. -/
theorem nothing_more_done_iff {α : Type} {body : Attempt Fault PlannedSession α}
    {s t u : PlannedSession} {f : Fault} (hopened : setFlag "TRUE" s = (.ok (), t))
    (hraised : body t = (.error f, u)) :
    (suppressing body s = (.error f, u) ↔ ∃ depth ≤ 1, f.refusalDepth? = some depth) ∧
    ((∀ depth, f.refusalDepth? = some depth → 1 < depth) →
      (∀ v, setFlag "" u = (.ok (), v) → suppressing body s = (.error f, v)) ∧
      ∀ g v, setFlag "" u = (.error g, v) → suppressing body s = (.error g, v)) := by
  rw [suppressing_of_raised hopened hraised]
  constructor
  · rw [← Fault.abortsTransaction_iff]
    cases f.abortsTransaction with
    | true => exact iff_of_true rfl rfl
    | false =>
      refine iff_of_false (fun h => ?_) Bool.false_ne_true
      have hleft : ((setFlag "" >>= fun _ => fail f : Attempt Fault PlannedSession α) u).2 = u :=
        congrArg Prod.snd h
      have hcleared : ((setFlag "" >>= fun _ => fail f : Attempt Fault PlannedSession α) u).2 =
          (setFlag "" u).2 := by
        rw [bind_apply]
        rcases setFlag "" u with ⟨_ | _, v⟩ <;> rfl
      exact snd_setFlag_ne "" u (hcleared.symm.trans hleft)
  · intro hfar
    have husable : ¬ f.abortsTransaction = true := by
      rw [Fault.abortsTransaction_iff]
      rintro ⟨depth, hle, hdepth⟩
      exact absurd (hfar depth hdepth) (Nat.not_lt.mpr hle)
    rw [if_neg husable]
    exact ⟨fun v hv => bind_ok hv, fun g v hg => bind_error hg⟩

/-- A refused statement whose failure is told on in other words twice: the block executes a further
statement. -/
theorem flag_cleared_after_two_tellings :
    ¬ ∀ (body : Attempt Fault Session Unit) (s u : Session) (f : Fault),
      body (Session.setFlag "TRUE" s).2 = (.error f, u) →
      (∃ failure ∈ f.failure :: f.causes, failure.fromDatabase = true) →
      Session.suppressing body s = (.error f, u) := by
  intro h
  let refused : Fault := { failure := .constraint .onlyOneActive }
  let violation : Failure := .ledger (.integrity .activeMigration "public" (some "x") none)
  let f := [violation, .ledger (.notFound "public" (some "x"))].foldl Fault.toldAs refused
  have hpasses := h (fail f) {} _ f rfl ⟨.constraint .onlyOneActive, by decide, rfl⟩
  revert hpasses
  decide

/-- A statement is refused, and no statement goes through any more. Told on once, its failure leaves
the block. Told on twice, it is hidden by that of the statement that clears the flag. -/
theorem nothing_more_done_iff_of_tellings :
    let refused : Fault := { failure := .constraint .onlyOneActive }
    let words : List Failure := [.ledger (.integrity .activeMigration "public" (some "x") none),
      .ledger (.notFound "public" (some "x"))]
    let body (n : Nat) : Attempt Fault PlannedSession Unit :=
      (execute "insert").widen ((words.take n).foldl Fault.toldAs ·)
    let s : PlannedSession := { plan := [none, some refused, some { failure := .database }] }
    (∃ t u f, setFlag "TRUE" s = (.ok (), t) ∧ body 1 t = (.error f, u) ∧
      f.refusalDepth? = some 1 ∧ suppressing (body 1) s = (.error f, u)) ∧
    ∃ t u f, setFlag "TRUE" s = (.ok (), t) ∧ body 2 t = (.error f, u) ∧
      f.refusalDepth? = some 2 ∧ suppressing (body 2) s ≠ (.error f, u) ∧
      (suppressing (body 2) s).1 = .error { failure := .database } := by
  intro refused words body s
  let t : PlannedSession := (setFlag "TRUE" s).2
  let told (n : Nat) : Fault := (words.take n).foldl Fault.toldAs refused
  have hopened : setFlag "TRUE" s = (.ok (), t) := rfl
  have honce : body 1 t = (.error (told 1), (body 1 t).2) := rfl
  have htwice : body 2 t = (.error (told 2), (body 2 t).2) := rfl
  constructor
  · obtain ⟨hpasses, -⟩ := nothing_more_done_iff hopened honce
    exact ⟨_, _, _, rfl, rfl, rfl, hpasses.mpr ⟨1, Nat.le_refl 1, rfl⟩⟩
  · obtain ⟨hpasses, hclears⟩ := nothing_more_done_iff hopened htwice
    refine ⟨_, _, _, rfl, rfl, rfl, fun h => ?_, ?_⟩
    · obtain ⟨depth, hle, hdepth⟩ := hpasses.mp h
      obtain rfl : 2 = depth := Option.some.inj hdepth
      omega
    · obtain ⟨-, hhidden⟩ := hclears fun depth hdepth => by
        obtain rfl : 2 = depth := Option.some.inj hdepth
        omega
      rw [hhidden _ _ rfl]

end Transaction

end SchemaLedger
