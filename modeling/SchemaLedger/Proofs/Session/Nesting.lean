import Mathlib.Data.List.Basic
import SchemaLedger.Session.Suppression

/-!
# Blocks inside blocks

Statements are kept out of the history by one flag of the session, which all open blocks share. A
block sets it when it is opened and clears it when it ends, whether or not there is a block around
it. This file follows the flag through programs of any shape.

The tree of a program is gone through once: the points that a run passes (`Program.courseAll`)
follow each other by a few steps (`Point.Next`, `Program.leads_courseAll`), of which only two touch
the flag. A block that is opened sets it, and a block that ends clears it, unless by an error that
leaves the transaction unusable. All else is said of one step and carried along the steps:

- the flag tells which of the two came last (`Point.Leads.suppressed_eq`). So it does not nest:
  statements are kept out wherever a block is open in just those runs in which no block ends inside
  another one and clears the flag (`suppression_nests_iff`);
- it does not stay behind: where no error makes the transaction unusable, statements are not kept
  out where no block is open, and what leaves a block is the error that was raised inside it
  (`nothing_stays_suppressed`).
-/

namespace SchemaLedger

open Attempt

/-- What happens in the course of a program. -/
inductive Happening where
  /-- Nothing so far. -/
  | began
  /-- The flag was asked for. -/
  | checked
  /-- A statement was executed. -/
  | executed (statement : String)
  /-- An error was raised, by the program or by a statement that failed. -/
  | raised (f : Fault)
  /-- An error was handled. -/
  | handled (f : Fault)
  /-- A block was opened. -/
  | opened
  /-- A block ended, and the error left it if there is one. -/
  | closed (error : Option Fault)
  deriving DecidableEq, Repr

/-- What becomes of the flag, if anything. -/
def Happening.flag? : Happening → Option Bool
  | opened => some true
  | closed none => some false
  | closed (some f) => if f.abortsTransaction then none else some false
  | _ => none

/-- Whether a block was opened or ended. -/
def Happening.atBlock : Happening → Bool
  | opened | closed _ => true
  | _ => false

/-- Whether an error was raised that leaves the transaction unusable. -/
def Happening.breaks : Happening → Bool
  | raised f => f.abortsTransaction
  | _ => false

/-- A point in the course of a program: what has just happened, how many blocks are open now, and
the session as it is now. -/
structure Point where
  happening : Happening
  openBlocks : Nat
  session : Session
  deriving DecidableEq, Repr

/-- What became of the flag last on the way through some points, if anything. -/
def lastFlag? (points : List Point) : Option Bool :=
  points.reverse.findSome? (·.happening.flag?)

/-- The error of an outcome. -/
def errorOf? {α : Type} : Except Fault α → Option Fault
  | .ok _ => none
  | .error f => some f

namespace Program

mutual

/-- The points that a program passes if `n` blocks are open when it starts. -/
def course : Program → (n : Nat) → Session → List Point
  | check, n, s => [⟨.checked, n, (run check s).2⟩]
  | execute statement, n, s =>
    match run (execute statement) s with
    | (.ok _, s') => [⟨.executed statement, n, s'⟩]
    | (.error f, s') => [⟨.raised f, n, s'⟩]
  | raise f, n, s => [⟨.raised f, n, (run (raise f) s).2⟩]
  | block body, n, s =>
    let inside := (Session.setFlag "TRUE" s).2
    let outcome := run (block body) s
    ⟨.opened, n + 1, inside⟩ ::
      (courseAll body (n + 1) inside ++ [⟨.closed (errorOf? outcome.1), n, outcome.2⟩])
  | handle body, n, s =>
    courseAll body n s ++
      match (runAll body s).1 with
      | .ok _ => []
      | .error f => [⟨.handled f, n, (run (handle body) s).2⟩]
termination_by structural p => p

/-- The points that programs pass one after the other, until one of them fails. -/
def courseAll : List Program → (n : Nat) → Session → List Point
  | [], _, _ => []
  | p :: rest, n, s =>
    course p n s ++
      match run p s with
      | (.ok _, s') => courseAll rest n s'
      | (.error _, _) => []
termination_by structural ps => ps

end

end Program

/-! ## The flag -/

namespace Session

/-- Whether the session keeps statements out. -/
def isSuppressed (s : Session) : Bool := isSet (s.settings.get? Sql.suppressSetting)

theorem suppressed_fst (s : Session) : (suppressed s).1 = .ok s.isSuppressed := rfl

theorem isSuppressed_congr {s t : Session} (h : t.settings = s.settings) :
    t.isSuppressed = s.isSuppressed := by
  rw [isSuppressed, isSuppressed, h]

theorem isSuppressed_setFlag (value : String) (s : Session) :
    (setFlag value s).2.isSuppressed = isSet (some value) :=
  congrArg isSet (Settings.get?_put_self s.settings Sql.suppressSetting value)

/-- What becomes of the flag at the end of a block. -/
theorem isSuppressed_afterBlock (s : Session) (error : Option Fault) :
    (s.afterBlock error).isSuppressed =
      (Happening.closed error).flag?.getD s.isSuppressed := by
  cases error with
  | none => exact isSuppressed_setFlag "" s
  | some f =>
    rw [afterBlock, Happening.flag?]
    cases f.abortsTransaction with
    | true => rfl
    | false => exact isSuppressed_setFlag "" s

/-- What leaves a block is what its body ended with. -/
theorem suppressing_apply {α : Type} (body : Attempt Fault Session α) (s : Session) :
    suppressing body s = ((body (setFlag "TRUE" s).2).1,
      (body (setFlag "TRUE" s).2).2.afterBlock (errorOf? (body (setFlag "TRUE" s).2).1)) := by
  rw [suppressing]
  rcases body (setFlag "TRUE" s).2 with ⟨_ | a, s'⟩ <;> rfl

end Session

/-! ## From point to point -/

namespace Point

/-- An error is on its way at a point: it was just raised, or just left a block. -/
def Throws (p : Point) (f : Fault) : Prop :=
  p.happening = .raised f ∨ p.happening = .closed (some f)

/-- A point that may come next. A block ends with an error only if the error is on its way. -/
inductive Next (p q : Point) : Prop where
  | opened (hopened : q.happening = .opened) (hopen : q.openBlocks = p.openBlocks + 1)
      (hsession : q.session = (Session.setFlag "TRUE" p.session).2)
  | closed (error : Option Fault) (hclosed : q.happening = .closed error)
      (hopen : p.openBlocks = q.openBlocks + 1) (hsession : q.session = p.session.afterBlock error)
      (herror : ∀ f, error = some f → p.Throws f)
  | other (hblock : q.happening.atBlock = false) (hopen : q.openBlocks = p.openBlocks)
      (hsettings : q.session.settings = p.session.settings)

/-- From one point through others to the last of them, each the next one. -/
inductive Leads (p : Point) : List Point → Point → Prop where
  | start : Leads p [] p
  | next {points : List Point} {q r : Point} (hq : Leads p points q) (hr : q.Next r) :
      Leads p (points ++ [r]) r

namespace Leads

variable {p q r : Point} {points more front back : List Point}

theorem single (h : p.Next q) : Leads p [q] q := .next .start h

theorem trans (h : Leads p points q) (hmore : Leads q more r) : Leads p (points ++ more) r := by
  induction hmore with
  | start => rwa [List.append_nil]
  | next _ hr ih =>
    rw [← List.append_assoc]
    exact .next ih hr

/-- The way to a point in between, and the step that it comes with. -/
theorem upTo (h : Leads p points q) (hpoints : points = front ++ r :: back) :
    ∃ before, Leads p front before ∧ before.Next r := by
  induction h generalizing back with
  | start => exact absurd hpoints (by simp)
  | @next points q' r' hq hr ih =>
    rcases List.eq_nil_or_concat' back with rfl | ⟨back', z, rfl⟩
    · obtain ⟨rfl, hlast⟩ := List.append_inj' hpoints rfl
      rw [← (List.cons.inj hlast).1]
      exact ⟨q', hq, hr⟩
    · have hsplit : points ++ [r'] = (front ++ r :: back') ++ [z] := by simpa using hpoints
      exact ih (List.append_inj' hsplit rfl).1

end Leads

end Point

namespace Program

open Point (Leads)

/-- Where a course ends: as many blocks are open as at its start, the session is the one that the
run leaves, and an error of the run is on its way. -/
structure Ends (q : Point) (n : Nat) (outcome : Except Fault Unit × Session) : Prop where
  openBlocks : q.openBlocks = n
  session : q.session = outcome.2
  throws : ∀ f, outcome.1 = .error f → q.Throws f

mutual

/-- The points of a course come one after the other. -/
theorem leads_course : ∀ (prog : Program) (p : Point),
    ∃ q, Leads p (course prog p.openBlocks p.session) q ∧
      Ends q p.openBlocks (run prog p.session)
  | .check, p => by
    refine ⟨_, .single (.other rfl rfl rfl), rfl, rfl, nofun⟩
  | .execute statement, p => by
    have hsettings := Session.settings_execute statement p.session
    rw [course, run]
    split
    next s' h =>
      rw [h] at hsettings ⊢
      exact ⟨_, .single (.other rfl rfl hsettings), rfl, rfl, nofun⟩
    next f s' h =>
      rw [h] at hsettings ⊢
      refine ⟨_, .single (.other rfl rfl hsettings), rfl, rfl, fun g hg => .inl ?_⟩
      rw [Except.error.inj hg]
  | .raise f, p => by
    refine ⟨_, .single (.other rfl rfl rfl), rfl, rfl, fun g hg => .inl ?_⟩
    exact congrArg _ (Except.error.inj hg)
  | .block body, p => by
    -- the body starts where the block is opened, and the block ends where its body does
    let inside : Point := ⟨.opened, p.openBlocks + 1, (Session.setFlag "TRUE" p.session).2⟩
    obtain ⟨q, hq, hends⟩ := leads_courseAll body inside
    have hrun : run (.block body) p.session = ((runAll body inside.session).1,
        q.session.afterBlock (errorOf? (runAll body inside.session).1)) := by
      rw [run, Session.suppressing_apply, hends.session]
    have hclosed : q.Next ⟨.closed (errorOf? (runAll body inside.session).1), p.openBlocks,
        q.session.afterBlock (errorOf? (runAll body inside.session).1)⟩ := by
      refine .closed _ rfl hends.openBlocks rfl fun f hf => hends.throws f ?_
      cases houtcome : (runAll body inside.session).1 with
      | ok _ =>
        rw [houtcome] at hf
        nomatch hf
      | error g =>
        rw [houtcome] at hf
        rw [Option.some.inj hf]
    rw [course, hrun]
    refine ⟨_, (Leads.single (.opened rfl rfl rfl)).trans (hq.trans (.single hclosed)), rfl, rfl,
      ?_⟩
    intro f hf
    refine .inr ?_
    show Happening.closed (errorOf? (runAll body inside.session).1) = _
    rw [show (runAll body inside.session).1 = .error f from hf]
    rfl
  | .handle body, p => by
    obtain ⟨q, hq, hends⟩ := leads_courseAll body p
    rw [course, run, Session.handling]
    rcases hrun : runAll body p.session with ⟨f | ⟨⟩, s'⟩
    · rw [hrun] at hends
      refine ⟨_, hq.trans (.single (.other rfl hends.openBlocks.symm ?_)), rfl, rfl, nofun⟩
      rw [hends.session]
      rfl
    · rw [hrun] at hends
      exact ⟨q, hq.trans .start, hends.openBlocks, hends.session, nofun⟩

/-- So do those of programs one after the other. -/
theorem leads_courseAll : ∀ (progs : List Program) (p : Point),
    ∃ q, Leads p (courseAll progs p.openBlocks p.session) q ∧
      Ends q p.openBlocks (runAll progs p.session)
  | [], p => ⟨p, .start, rfl, rfl, nofun⟩
  | prog :: rest, p => by
    obtain ⟨q, hq, hends⟩ := leads_course prog p
    rw [courseAll, runAll]
    rcases hrun : run prog p.session with ⟨f | ⟨⟩, s'⟩
    · rw [hrun] at hends
      rw [bind_error hrun]
      exact ⟨q, hq.trans .start, hends⟩
    · rw [hrun] at hends
      rw [bind_ok hrun]
      obtain ⟨r, hr, hrends⟩ := leads_courseAll rest q
      rw [hends.openBlocks, hends.session] at hr hrends
      exact ⟨r, hq.trans hr, hrends⟩

end

/-- Every point of a run is led to from its start. -/
theorem leads_of_courseAll {progs : List Program} {s : Session} {front back : List Point}
    {pt : Point} (h : courseAll progs 0 s = front ++ pt :: back) :
    ∃ before, Leads ⟨.began, 0, s⟩ front before ∧ before.Next pt := by
  obtain ⟨q, hq, -⟩ := leads_courseAll progs ⟨.began, 0, s⟩
  exact hq.upTo h

theorem leads_of_mem_courseAll {progs : List Program} {s : Session} {pt : Point}
    (h : pt ∈ courseAll progs 0 s) :
    ∃ front, Leads ⟨.began, 0, s⟩ (front ++ [pt]) pt ∧
      ∀ t ∈ front ++ [pt], t ∈ courseAll progs 0 s := by
  obtain ⟨front, back, hcourse⟩ := List.append_of_mem h
  obtain ⟨before, hbefore, hnext⟩ := leads_of_courseAll hcourse
  refine ⟨front, .next hbefore hnext, fun t ht => ?_⟩
  rw [hcourse, List.append_cons]
  exact List.mem_append_left _ ht

end Program

/-! ## What holds along the way -/

theorem lastFlag?_concat (points : List Point) (q : Point) :
    lastFlag? (points ++ [q]) = q.happening.flag?.or (lastFlag? points) := by
  rw [lastFlag?, List.reverse_concat, List.findSome?_cons]
  cases q.happening.flag? <;> rfl

theorem Happening.flag?_of_not_atBlock {h : Happening} (hblock : h.atBlock = false) :
    h.flag? = none := by
  cases h with
  | opened | closed => nomatch hblock
  | _ => rfl

namespace Point.Leads

variable {p q : Point} {points : List Point}

/-- The flag is what became of it last. -/
theorem isSuppressed_eq (h : Leads p points q) :
    q.session.isSuppressed = (lastFlag? points).getD p.session.isSuppressed := by
  induction h with
  | start => rfl
  | next _ hr ih =>
    rw [lastFlag?_concat]
    cases hr with
    | opened hopened _ hsession =>
      rw [hopened, hsession]
      exact Session.isSuppressed_setFlag "TRUE" _
    | closed error hclosed _ hsession _ =>
      rw [hclosed, hsession, Session.isSuppressed_afterBlock, ih]
      cases (Happening.closed error).flag? <;> rfl
    | other hblock _ hsettings =>
      rw [Happening.flag?_of_not_atBlock hblock, Session.isSuppressed_congr hsettings, ih]
      rfl

/-- Where a block is open, something has become of the flag. -/
theorem lastFlag?_isSome (h : Leads p points q) (hp : p.openBlocks = 0) (hq : 0 < q.openBlocks) :
    (lastFlag? points).isSome = true := by
  induction h with
  | start => omega
  | next _ hr ih =>
    rw [lastFlag?_concat, Option.isSome_or, Bool.or_eq_true]
    cases hr with
    | opened hopened _ _ => exact .inl (by rw [hopened]; rfl)
    | closed _ _ hopen _ _ => exact .inr (ih (by omega))
    | other _ hopen _ => exact .inr (ih (by omega))

/-- If no block that ends inside another one clears the flag, then the flag is set wherever a block
is open. -/
theorem isSuppressed_of_open (h : Leads p points q) (hp : p.openBlocks = 0)
    (hnest : ∀ r ∈ points, 0 < r.openBlocks → r.happening.flag? ≠ some false)
    (hq : 0 < q.openBlocks) : q.session.isSuppressed = true := by
  induction h with
  | start => omega
  | @next points q r _ hr ih =>
    have hrest : ∀ t ∈ points, 0 < t.openBlocks → t.happening.flag? ≠ some false :=
      fun t ht => hnest t (List.mem_append_left _ ht)
    have hlast : r.happening.flag? ≠ some false := hnest r (by simp) hq
    cases hr with
    | opened _ _ hsession =>
      rw [hsession]
      exact Session.isSuppressed_setFlag "TRUE" _
    | closed error hclosed hopen hsession _ =>
      -- a block around this one is still open, so the flag was set, and it is not cleared here
      have hinside : q.session.isSuppressed = true := ih hrest (by omega)
      rw [hclosed] at hlast
      rw [hsession, Session.isSuppressed_afterBlock, hinside]
      rcases hflag : (Happening.closed error).flag? with _ | _ | _
      · rfl
      · exact absurd hflag hlast
      · rfl
    | other _ hopen hsettings =>
      rw [Session.isSuppressed_congr hsettings]
      exact ih hrest (by omega)

/-- An error that is on its way was raised, and since then it has only left blocks. -/
theorem exists_raised (h : Leads p points q) (hp : ∀ f, ¬ p.Throws f) {f : Fault}
    (hq : q.Throws f) : ∃ before r ends, points = before ++ r :: ends ∧ r.happening = .raised f ∧
      (∀ t ∈ ends, t.happening = .closed (some f)) ∧
      r.openBlocks = q.openBlocks + ends.length := by
  induction h with
  | start => exact absurd hq (hp f)
  | @next points q r _ hr ih =>
    -- an error that left a block here was on its way one step before
    rcases hq with hraised | hleft
    · exact ⟨points, r, [], rfl, hraised, List.forall_mem_nil _, rfl⟩
    · cases hr with
      | opened hopened _ _ =>
        rw [hopened] at hleft
        nomatch hleft
      | closed error hclosed hopen _ herror =>
        have herr : error = some f := Happening.closed.inj (hclosed.symm.trans hleft)
        obtain ⟨before, u, ends, rfl, hu, hends, hdepth⟩ := ih (herror f herr)
        refine ⟨before, u, ends ++ [r], List.append_assoc .., hu, ?_, ?_⟩
        · exact List.forall_mem_append.mpr ⟨hends, List.forall_mem_singleton.mpr hleft⟩
        · rw [List.length_append, List.length_singleton]
          omega
      | other hblock _ _ =>
        rw [hleft] at hblock
        nomatch hblock

/-- As long as no error breaks the transaction, none that does is on its way, and the flag is clear
where no block is open. -/
theorem isSuppressed_of_none_open (h : Leads p points q)
    (hclear : p.session.isSuppressed = false) (hthrows : ∀ f, ¬ p.Throws f)
    (husable : ∀ r ∈ points, r.happening.breaks = false) :
    (q.openBlocks = 0 → q.session.isSuppressed = false) ∧
      ∀ f, q.Throws f → f.abortsTransaction = false := by
  induction h with
  | start => exact ⟨fun _ => hclear, fun f hf => absurd hf (hthrows f)⟩
  | @next points q r _ hr ih =>
    obtain ⟨hflag, hsafe⟩ := ih fun t ht => husable t (List.mem_append_left _ ht)
    have hraised : ∀ f, r.happening = .raised f → f.abortsTransaction = false := by
      intro f hf
      have hlast : r.happening.breaks = false := husable r (by simp)
      rwa [hf] at hlast
    cases hr with
    | opened hopened hopen _ =>
      refine ⟨fun hzero => by omega, fun f hf => hf.elim (hraised f) fun hleft => ?_⟩
      rw [hopened] at hleft
      nomatch hleft
    | closed error hclosed _ hsession herror =>
      -- the error that ends the block was on its way, so it is none for which the flag is kept
      have hleft : ∀ f, error = some f → f.abortsTransaction = false := fun f hf =>
        hsafe f (herror f hf)
      refine ⟨fun _ => ?_, fun f hf => hf.elim (hraised f) fun hf => hleft f ?_⟩
      · rw [hsession, Session.isSuppressed_afterBlock]
        cases error with
        | none => rfl
        | some f =>
          rw [Happening.flag?, hleft f rfl]
          rfl
      · exact Happening.closed.inj (hclosed.symm.trans hf)
    | other hblock hopen hsettings =>
      refine ⟨fun hzero => ?_, fun f hf => hf.elim (hraised f) fun hleft => ?_⟩
      · rw [Session.isSuppressed_congr hsettings]
        exact hflag (by omega)
      · rw [hleft] at hblock
        nomatch hblock

end Point.Leads

open Program

/-- **The flag does not nest.** Wherever a block is open in a run of programs, the flag is what
became of it last, which may be the end of a block inside. Hence statements are kept out at all of
these points exactly if no block ends inside another one and clears the flag: each one that does
end inside another ends by an error that leaves the transaction unusable. -/
theorem suppression_nests_iff (progs : List Program) (s : Session) :
    (∀ front pt back, courseAll progs 0 s = front ++ pt :: back → 0 < pt.openBlocks →
      ∃ b, lastFlag? (front ++ [pt]) = some b ∧ (Session.suppressed pt.session).1 = .ok b) ∧
    ((∀ pt ∈ courseAll progs 0 s, 0 < pt.openBlocks →
        (Session.suppressed pt.session).1 = .ok true) ↔
      ∀ pt ∈ courseAll progs 0 s, 0 < pt.openBlocks → pt.happening.flag? ≠ some false) := by
  refine ⟨fun front pt back hcourse hopen => ?_, fun h pt hpt hopen hflag => ?_,
    fun h pt hpt hopen => ?_⟩
  · obtain ⟨before, hbefore, hnext⟩ := leads_of_courseAll hcourse
    have hpt : Point.Leads ⟨.began, 0, s⟩ (front ++ [pt]) pt := .next hbefore hnext
    obtain ⟨b, hb⟩ := Option.isSome_iff_exists.mp (hpt.lastFlag?_isSome rfl hopen)
    refine ⟨b, hb, ?_⟩
    rw [Session.suppressed_fst, hpt.isSuppressed_eq, hb]
    rfl
  · obtain ⟨front, hlead, -⟩ := leads_of_mem_courseAll hpt
    have hset := h pt hpt hopen
    rw [Session.suppressed_fst, hlead.isSuppressed_eq, lastFlag?_concat, hflag] at hset
    nomatch hset
  · obtain ⟨front, hlead, hpoints⟩ := leads_of_mem_courseAll hpt
    have hset := hlead.isSuppressed_of_open rfl (fun t ht => h t (hpoints t ht)) hopen
    rw [Session.suppressed_fst, hset]

/-- An empty block inside another one clears the flag, and what comes after it in the outer block is
not kept out, although no statement fails. -/
theorem suppression_lost_after_inner_block :
    ¬ ∀ (progs : List Program) (s : Session), s.failing = none → ∀ pt ∈ courseAll progs 0 s,
      0 < pt.openBlocks → (Session.suppressed pt.session).1 = .ok true := by
  intro h
  have hnests := h [.block [.block [], .check]] {} rfl
  revert hnests
  decide

/-- **Nothing stays suppressed.** If statements are not kept out at first and no error that is
raised in the course of the programs leaves the transaction unusable, then they are not kept out
wherever no block is open, nor at the end. And an error that leaves a block was raised inside it,
and has only left blocks since. -/
theorem nothing_stays_suppressed {progs : List Program} {s : Session}
    (hclear : (Session.suppressed s).1 = .ok false)
    (husable : ∀ pt ∈ courseAll progs 0 s, pt.happening.breaks = false) :
    (∀ pt ∈ courseAll progs 0 s, pt.openBlocks = 0 →
      (Session.suppressed pt.session).1 = .ok false) ∧
    (Session.suppressed (runAll progs s).2).1 = .ok false ∧
    ∀ front pt back f, courseAll progs 0 s = front ++ pt :: back →
      pt.happening = .closed (some f) → ∃ before r ends, front = before ++ r :: ends ∧
        r.happening = .raised f ∧ (∀ t ∈ ends, t.happening = .closed (some f)) ∧
        r.openBlocks = pt.openBlocks + ends.length + 1 := by
  have hstart : ∀ f, ¬ Point.Throws ⟨.began, 0, s⟩ f := fun f hf => hf.elim nofun nofun
  have hclear : s.isSuppressed = false := Except.ok.inj hclear
  refine ⟨fun pt hpt hopen => ?_, ?_, fun front pt back f hcourse hpt => ?_⟩
  · obtain ⟨front, hlead, hpoints⟩ := leads_of_mem_courseAll hpt
    have hsafe := hlead.isSuppressed_of_none_open hclear hstart fun t ht => husable t (hpoints t ht)
    rw [Session.suppressed_fst, hsafe.1 hopen]
  · obtain ⟨q, hq, hends⟩ := leads_courseAll progs ⟨.began, 0, s⟩
    have hsafe := hq.isSuppressed_of_none_open hclear hstart husable
    rw [← hends.session, Session.suppressed_fst, hsafe.1 hends.openBlocks]
  · obtain ⟨before, hbefore, hnext⟩ := leads_of_courseAll hcourse
    cases hnext with
    | opened hopened _ _ =>
      rw [hopened] at hpt
      nomatch hpt
    | closed error hclosed hopen _ herror =>
      have herr : error = some f := Happening.closed.inj (hclosed.symm.trans hpt)
      obtain ⟨front', r, ends, rfl, hr, hends, hdepth⟩ :=
        hbefore.exists_raised hstart (herror f herr)
      exact ⟨front', r, ends, rfl, hr, hends, by omega⟩
    | other hblock _ _ =>
      rw [hpt] at hblock
      nomatch hblock

/-- An interruption leaves an inner block and is handled in the outer one; then an error leaves a
block that a refusal of the database caused, but not directly. -/
theorem nothing_stays_suppressed_of_interruption :
    let refused : Fault := ⟨.ledger (.notFound "public" (some "x")), [.invalidRequest, .database]⟩
    let inner : Program := .block [.execute "create table t ()", .raise { failure := .interrupted }]
    let progs : List Program := [.block [.handle [inner], .check], .check, .block [.raise refused]]
    let flags := (courseAll progs 0 {}).map fun pt => (pt.openBlocks, pt.happening.flag?)
    (Session.suppressed {}).1 = .ok false ∧
    (∀ pt ∈ courseAll progs 0 {}, pt.happening.breaks = false) ∧
    flags = [(1, some true), (2, some true), (2, none), (2, none), (1, some false), (1, none),
      (1, none), (0, some false), (0, none), (1, some true), (1, none), (0, some false)] ∧
    (runAll progs {}).1 = .error refused ∧
    (∀ pt ∈ courseAll progs 0 {}, pt.openBlocks = 0 →
      (Session.suppressed pt.session).1 = .ok false) ∧
    (Session.suppressed (runAll progs {}).2).1 = .ok false := by
  intro refused inner progs flags
  have husable : ∀ pt ∈ courseAll progs 0 {}, pt.happening.breaks = false := by decide
  obtain ⟨hclear, hend, -⟩ := nothing_stays_suppressed rfl husable
  exact ⟨rfl, husable, by decide, by decide, hclear, hend⟩

end SchemaLedger
