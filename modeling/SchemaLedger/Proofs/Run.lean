import Mathlib.Data.List.Forall2
import SchemaLedger.Action

/-!
# Runs of operations

A run makes one operation after another on the same state. It goes on after a failure, with
whatever state the failed operation left. This file says what a run leaves behind (`after`) and
what was answered on the way (`trace`), and gives the one induction that the invariants of the
project go through: what every operation of a run keeps holds at its end (`keeps_after`).

Transactions need less: since a failed one changes nothing, only what it ensures on success has to
be looked at (`keeps_atomically`). There a later step may rest on what an earlier one found
(`ensures_bind`).

An operation that is no transaction may fail after its first change. What it then leaves is told
from its steps: questions change nothing, and if what follows a change cannot fail, or fails only
where it has changed nothing itself (`AtomicOn`), a failure leaves what that change left
(`eq_of_bind_eq_error`).

Two runs on different states are compared step by step (`forall₂_trace`). In a run that loses a
property there is a step that loses it (`exists_lost`).
-/

namespace SchemaLedger.Attempt

variable {ε σ τ α β γ : Type}

/-- The state that a run of operations leaves behind. -/
def after : List (Attempt ε σ α) → σ → σ
  | [], s => s
  | x :: rest, s => after rest (x s).2

/-- What the operations of a run answered, each with the state that it left behind. -/
def trace : List (Attempt ε σ α) → σ → List (Except ε α × σ)
  | [], _ => []
  | x :: rest, s => x s :: trace rest (x s).2

/-- The states that a run passes, from the one in which it starts. -/
def states : List (Attempt ε σ α) → σ → List σ
  | [], s => [s]
  | x :: rest, s => s :: states rest (x s).2

theorem mem_states (xs : List (Attempt ε σ α)) (s : σ) : s ∈ states xs s := by
  cases xs with
  | nil => exact List.mem_singleton.mpr rfl
  | cons x rest => exact List.mem_cons_self

/-- An operation keeps a property of the state, whether it answers or fails. -/
def Keeps (P : σ → Prop) (x : Attempt ε σ α) : Prop := ∀ s, P s → P (x s).2

theorem keeps_pure {P : σ → Prop} (a : α) : Keeps P (pure a : Attempt ε σ α) := fun _ hs => hs

/-- A question leaves the state alone. -/
theorem keeps_query {P : σ → Prop} (f : σ → Except ε α) : Keeps P (query f) := fun _ hs => hs

theorem keeps_lift {P : σ → Prop} (x : Except ε α) : Keeps P (lift x) := fun _ hs => hs

/-- Two steps in a row keep what both of them keep. -/
theorem keeps_bind {P : σ → Prop} {x : Attempt ε σ α} {f : α → Attempt ε σ β} (hx : Keeps P x)
    (hf : ∀ a, Keeps P (f a)) : Keeps P (x >>= f) := by
  intro s hs
  have ht := hx s hs
  rw [bind_apply]
  split
  next a t h =>
    rw [h] at ht
    exact hf a t ht
  next e t h =>
    rw [h] at ht
    exact ht

/-- To wait for the outcome of an action keeps what the action keeps. -/
theorem keeps_settle {ε' : Type} {P : σ → Prop} {x : Attempt ε σ α} (hx : Keeps P x) :
    Keeps P (settle x : Attempt ε' σ (Except ε α)) := hx

/-- What every operation of a run keeps still holds at the end of the run. -/
theorem keeps_after {P : σ → Prop} {xs : List (Attempt ε σ α)} (hxs : ∀ x ∈ xs, Keeps P x)
    {s : σ} (hs : P s) : P (after xs s) := by
  induction xs generalizing s with
  | nil => exact hs
  | cons x rest ih =>
    have hx : P (x s).2 := hxs x (List.mem_cons_self ..) s hs
    exact ih (fun y hy => hxs y (List.mem_cons_of_mem _ hy)) hx

/-- And it holds after every operation on the way. -/
theorem keeps_trace {P : σ → Prop} {xs : List (Attempt ε σ α)} (hxs : ∀ x ∈ xs, Keeps P x)
    {s : σ} (hs : P s) : ∀ m ∈ trace xs s, P m.2 := by
  induction xs generalizing s with
  | nil => exact nofun
  | cons x rest ih =>
    obtain ⟨hx, hrest⟩ := List.forall_mem_cons.mp hxs
    exact List.forall_mem_cons.mpr ⟨hx s hs, ih hrest (hx s hs)⟩

/-- If something holds at the start of a run and not at its end, there is a step before which it
holds and after which it does not. -/
theorem exists_lost {P : σ → Prop} {f : β → Attempt ε σ α} {ms : List β} {s : σ} (hs : P s)
    (hend : ¬ P (after (ms.map f) s)) :
    ∃ front m back, ms = front ++ m :: back ∧ P (after (front.map f) s) ∧
      ¬ P (f m (after (front.map f) s)).2 := by
  induction ms generalizing s with
  | nil => exact absurd hs hend
  | cons m rest ih =>
    by_cases hm : P (f m s).2
    · obtain ⟨front, m', back, rfl, hbefore, hafter⟩ := ih hm hend
      exact ⟨m :: front, m', back, rfl, hbefore, hafter⟩
    · exact ⟨[], m, rest, rfl, hs, hm⟩

/-- A run of steps that leave the state alone is answered step by step from where it starts. -/
theorem forall_mem_trace_of_still {P : Except ε α → Prop} {xs : List (Attempt ε σ α)} {s : σ}
    (h : ∀ x ∈ xs, P (x s).1 ∧ (x s).2 = s) : ∀ m ∈ trace xs s, P m.1 := by
  induction xs with
  | nil => exact nofun
  | cons x rest ih =>
    obtain ⟨⟨hanswer, hstill⟩, hrest⟩ := List.forall_mem_cons.mp h
    rw [trace, hstill]
    exact List.forall_mem_cons.mpr ⟨hanswer, ih hrest⟩

/-- It does not matter where steps in a row are cut in two. -/
theorem bind_bind (x : Attempt ε σ α) (f : α → Attempt ε σ β) (g : β → Attempt ε σ γ) :
    (x >>= f) >>= g = x >>= fun a => f a >>= g := by
  funext s
  rw [bind_apply, bind_apply, bind_apply]
  rcases x s with ⟨_ | a, t⟩ <;> rfl

/-- An answer that is only put in another form. -/
theorem bind_pure_apply (x : Attempt ε σ α) (f : α → β) (s : σ) :
    (x >>= fun a => pure (f a)) s = ((x s).1.map f, (x s).2) := by
  rw [bind_apply]
  rcases x s with ⟨_ | a, t⟩ <;> rfl

theorem bind_pure_eq_error {x : Attempt ε σ α} {f : α → β} {s s' : σ} {e : ε} :
    (x >>= fun a => pure (f a)) s = (.error e, s') ↔ x s = (.error e, s') := by
  rw [bind_pure_apply]
  rcases x s with ⟨_ | a, t⟩ <;> simp [Except.map]

/-! ## What success ensures -/

/-- Two steps in a row succeed exactly if both do, the second one where the first one ended. -/
theorem bind_eq_ok {x : Attempt ε σ α} {f : α → Attempt ε σ β} {s s' : σ} {b : β} :
    (x >>= f) s = (.ok b, s') ↔ ∃ a t, x s = (.ok a, t) ∧ f a t = (.ok b, s') := by
  rw [bind_apply]
  constructor
  · intro h
    split at h
    next a t hx => exact ⟨a, t, hx, h⟩
    next => simp at h
  · rintro ⟨a, t, hx, hf⟩
    rw [hx]
    exact hf

/-- Two steps in a row end with a failure of the first one, or with the second one. -/
theorem bind_cases {x : Attempt ε σ α} {f : α → Attempt ε σ β} {s s' : σ} {answer : Except ε β}
    (h : (x >>= f) s = (answer, s')) :
    (∃ e, x s = (.error e, s') ∧ answer = .error e) ∨
      ∃ a t, x s = (.ok a, t) ∧ f a t = (answer, s') := by
  rw [bind_apply] at h
  split at h
  next a t hx => exact .inr ⟨a, t, hx, h⟩
  next e t hx =>
    obtain ⟨rfl, rfl⟩ := Prod.mk.inj h
    exact .inl ⟨e, hx, rfl⟩

/-- If the operation succeeds in a state with `P`, its answer and the state after it satisfy `Q`. -/
def Ensures (P : σ → Prop) (x : Attempt ε σ α) (Q : α → σ → Prop) : Prop :=
  ∀ s a s', P s → x s = (.ok a, s') → Q a s'

theorem Keeps.ensures {P : σ → Prop} {x : Attempt ε σ α} (h : Keeps P x) :
    Ensures P x fun _ => P := by
  intro s a s' hs hx
  have hs' := h s hs
  rwa [hx] at hs'

/-- Less may be assumed of an operation's outcome than it ensures, and more of its start. -/
theorem Ensures.imp {P P' : σ → Prop} {Q Q' : α → σ → Prop} {x : Attempt ε σ α}
    (h : Ensures P x Q) (hP : ∀ s, P' s → P s) (hQ : ∀ a s, Q a s → Q' a s) :
    Ensures P' x Q' := fun s a s' hs hx => hQ a s' (h s a s' (hP s hs) hx)

/-- What is ensured by itself is ensured together. -/
theorem Ensures.and {P P' : σ → Prop} {Q Q' : α → σ → Prop} {x : Attempt ε σ α}
    (h : Ensures P x Q) (h' : Ensures P' x Q') :
    Ensures (fun s => P s ∧ P' s) x fun a s => Q a s ∧ Q' a s :=
  fun s a s' hs hx => ⟨h s a s' hs.1 hx, h' s a s' hs.2 hx⟩

theorem ensures_pure {P : σ → Prop} {Q : α → σ → Prop} {a : α} (h : ∀ s, P s → Q a s) :
    Ensures P (pure a : Attempt ε σ α) Q := by
  intro s b s' hs hx
  rw [pure_apply, Prod.mk.injEq, Except.ok.injEq] at hx
  obtain ⟨rfl, rfl⟩ := hx
  exact h s hs

/-- The second step starts from what the first one ensures. -/
theorem ensures_bind {P : σ → Prop} {Q : α → σ → Prop} {R : β → σ → Prop} {x : Attempt ε σ α}
    {f : α → Attempt ε σ β} (hx : Ensures P x Q) (hf : ∀ a, Ensures (Q a) (f a) R) :
    Ensures P (x >>= f) R := by
  intro s b s' hs h
  obtain ⟨a, t, hat, hbs⟩ := bind_eq_ok.mp h
  exact hf a t b s' (hx s a t hs hat) hbs

/-- What the last step ensures from anywhere is ensured by all of them. -/
theorem ensures_bind_of_forall {Q : β → σ → Prop} {x : Attempt ε σ α} {f : α → Attempt ε σ β}
    (hf : ∀ a, Ensures (fun _ => True) (f a) Q) : Ensures (fun _ => True) (x >>= f) Q :=
  ensures_bind (fun _ _ _ _ _ => trivial) hf

/-- A transaction succeeds exactly if its operation does. -/
theorem atomically_eq_ok {x : Attempt ε σ α} {s s' : σ} {a : α} :
    atomically x s = (.ok a, s') ↔ x s = (.ok a, s') := by
  rw [atomically]
  rcases x s with ⟨_ | b, t⟩ <;> simp

/-- A transaction that fails changes nothing. -/
theorem eq_of_atomically_eq_error {x : Attempt ε σ α} {s s' : σ} {e : ε}
    (h : atomically x s = (.error e, s')) : s' = s := by
  rw [atomically] at h
  split at h
  next => simp at h
  next => exact (Prod.mk.inj h).2.symm

/-- A transaction keeps what its operation ensures when it succeeds. -/
theorem keeps_atomically {P : σ → Prop} {x : Attempt ε σ α} (hx : Ensures P x fun _ => P) :
    Keeps P (atomically x) := by
  intro s hs
  cases h : x s with
  | mk answer s' =>
    cases answer with
    | ok a =>
      rw [atomically_ok h]
      exact hx s a s' hs h
    | error e =>
      rw [atomically_error (by rw [h])]
      exact hs

/-! ## What a failure leaves -/

/-- Where the operation fails, a part of the state is as it was before. -/
def AtomicOn (part : σ → τ) (x : Attempt ε σ α) : Prop :=
  ∀ s e s', x s = (.error e, s') → part s' = part s

theorem atomicOn_of_keeps {part : σ → τ} {x : Attempt ε σ α}
    (h : ∀ t, Keeps (fun s => part s = t) x) : AtomicOn part x := by
  intro s e s' hx
  have hpart := h (part s) s rfl
  rwa [hx] at hpart

/-- A change that cannot be refused does not fail. -/
theorem atomicOn_modify {part : σ → τ} (f : σ → σ) :
    AtomicOn part (modify f : Attempt ε σ Unit) := by
  intro s e s' h
  rw [modify_apply] at h
  nomatch h

/-- If what follows the first step is atomic, a failure leaves what the first step left. -/
theorem eq_of_bind_eq_error {part : σ → τ} {x : Attempt ε σ α} {f : α → Attempt ε σ β}
    (hf : ∀ a, AtomicOn part (f a)) {s s' : σ} {e : ε} (h : (x >>= f) s = (.error e, s')) :
    part s' = part (x s).2 := by
  rw [bind_apply] at h
  split at h
  next a t hx =>
    rw [hx]
    exact hf a t e s' h
  next e' t hx =>
    obtain ⟨-, rfl⟩ := Prod.mk.inj h
    rw [hx]

/-- Questions may come before an atomic operation. -/
theorem atomicOn_bind {part : σ → τ} {x : Attempt ε σ α} {f : α → Attempt ε σ β}
    (hx : ∀ t, Keeps (fun s => part s = t) x) (hf : ∀ a, AtomicOn part (f a)) :
    AtomicOn part (x >>= f) := by
  intro s e s' h
  rw [eq_of_bind_eq_error hf h]
  exact hx (part s) s rfl

/-- Its answer may be put in another form. -/
theorem AtomicOn.answer {part : σ → τ} {x : Attempt ε σ α} (h : AtomicOn part x) (f : α → β) :
    AtomicOn part (x >>= fun a => pure (f a)) := by
  intro s e s' hx
  exact h s e s' (bind_pure_eq_error.mp hx)

/-! ## Two runs side by side -/

/-- The third list takes the elements of the first two in turns, each list in its order. -/
inductive Interleaves : List α → List α → List α → Prop where
  | nil : Interleaves [] [] []
  | left (x : α) {xs ys zs : List α} : Interleaves xs ys zs → Interleaves (x :: xs) ys (x :: zs)
  | right (y : α) {xs ys zs : List α} : Interleaves xs ys zs → Interleaves xs (y :: ys) (y :: zs)

theorem interleaves_nil_left {ys zs : List α} : Interleaves [] ys zs ↔ zs = ys := by
  constructor
  · intro h
    induction ys generalizing zs with
    | nil =>
      cases h
      rfl
    | cons y ys ih =>
      cases h with
      | right _ h => rw [ih h]
  · rintro rfl
    induction zs with
    | nil => exact .nil
    | cons y ys ih => exact .right y ih

theorem interleaves_nil_right {xs zs : List α} : Interleaves xs [] zs ↔ zs = xs := by
  constructor
  · intro h
    induction xs generalizing zs with
    | nil =>
      cases h
      rfl
    | cons x xs ih =>
      cases h with
      | left _ h => rw [ih h]
  · rintro rfl
    induction zs with
    | nil => exact .nil
    | cons x xs ih => exact .left x ih

theorem Interleaves.symm {xs ys zs : List α} (h : Interleaves xs ys zs) :
    Interleaves ys xs zs := by
  induction h with
  | nil => exact .nil
  | left x _ ih => exact .right x ih
  | right y _ ih => exact .left y ih

/-- What holds of all of the one list and of nothing in the other tells the two apart again. -/
theorem Interleaves.filter_eq_left {xs ys zs : List α} (h : Interleaves xs ys zs)
    {p : α → Bool} (hxs : ∀ x ∈ xs, p x = true) (hys : ∀ y ∈ ys, p y = false) :
    zs.filter p = xs := by
  induction h with
  | nil => rfl
  | left x _ ih =>
    obtain ⟨hx, hrest⟩ := List.forall_mem_cons.mp hxs
    rw [List.filter_cons_of_pos hx, ih hrest hys]
  | right y _ ih =>
    obtain ⟨hy, hrest⟩ := List.forall_mem_cons.mp hys
    rw [List.filter_cons_of_neg (by simp [hy]), ih hxs hrest]

/-- One step can come before, between and after two others. -/
theorem interleaves_pair_single {a b c : α} {zs : List α} :
    Interleaves [a, b] [c] zs ↔ zs = [c, a, b] ∨ zs = [a, c, b] ∨ zs = [a, b, c] := by
  constructor
  · intro h
    cases h with
    | right _ h => exact .inl (by rw [interleaves_nil_right.mp h])
    | left _ h =>
      cases h with
      | right _ h => exact .inr (.inl (by rw [interleaves_nil_right.mp h]))
      | left _ h => exact .inr (.inr (by rw [interleaves_nil_left.mp h]))
  · rintro (rfl | rfl | rfl)
    · exact .right c (.left a (.left b .nil))
    · exact .left a (.right c (.left b .nil))
    · exact .left a (.left b (.right c .nil))

end SchemaLedger.Attempt
