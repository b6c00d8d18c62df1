import SchemaLedger.Json.Stored
import SchemaLedger.Ledger.Error

/-!
# Kept documents read as mappings

A resulting schema need not be a mapping to be read as one: a list of pairs will do, where a text of
two characters or a mapping of two keys counts as a pair, and so will whatever counts as nothing.
The database keeps another document than it was given, but what could be read as a mapping still can
(`exists_readMapping_kept`). That rests on two things: as no two keys of a mapping become one, a
mapping has as many entries as before (`length_keptMapping`), and what counts as nothing still does.
-/

namespace SchemaLedger

namespace Json

section Length

variable {key name : String} {v : Value} {entries placed : List (String × Value)}

theorem not_mem_keys_place : name ∉ (place key v placed).map (·.1) ↔
    key ≠ name ∧ name ∉ placed.map (·.1) := by
  rw [← field?_ofTexts_eq_none, ← field?_ofTexts_eq_none, field?_place]
  split <;> simp [*]

theorem length_place (hkey : key ∉ placed.map (·.1)) :
    (place key v placed).length = placed.length + 1 := by
  induction placed with
  | nil => rfl
  | cons e rest ih =>
    obtain ⟨k, w⟩ := e
    obtain ⟨hk, hrest⟩ : key ≠ k ∧ key ∉ rest.map (·.1) := by simpa using hkey
    rw [place, if_neg hk]
    split
    · rfl
    · rw [List.length_cons, ih hrest, List.length_cons]

/-- Of entries with different keys none is lost. -/
theorem length_arranged (hkeys : (entries.map (·.1)).Nodup) :
    (arranged entries).length = entries.length := by
  have hfold : ∀ placed : List (String × Value), (∀ e ∈ entries, e.1 ∉ placed.map (·.1)) →
      (entries.foldl (fun placed e => place e.1 e.2 placed) placed).length =
        placed.length + entries.length := by
    induction entries with
    | nil => exact fun _ _ => rfl
    | cons e rest ih =>
      obtain ⟨hk, hrest⟩ := List.nodup_cons.mp hkeys
      intro placed hplaced
      obtain ⟨hfirst, hothers⟩ := List.forall_mem_cons.mp hplaced
      rw [List.foldl_cons, ih hrest, length_place hfirst, List.length_cons]
      · omega
      · intro e' he'
        refine not_mem_keys_place.mpr ⟨fun h => hk ?_, hothers e' he'⟩
        exact List.mem_map.mpr ⟨e', he', h.symm⟩
  have h := hfold [] (by simp)
  rwa [List.length_nil, Nat.zero_add] at h

theorem length_keptMapping {m : Mapping} (hkeys : (m.map (keyText ·.1)).Nodup) :
    (keptMapping m).length = m.length := by
  have hentries : ((keptEntries m).map (·.1)).Nodup := by
    rwa [keptEntries_eq, List.map_map]
  rw [keptMapping, ofTexts, List.length_map, length_arranged hentries, keptEntries_eq,
    List.length_map]

end Length

end Json

/-- Questions find something for all elements of a list exactly if they do so for each one. -/
theorem exists_mapM_eq_ok {α β ε : Type} {f : α → Except ε β} {xs : List α} :
    (∃ ys, xs.mapM f = .ok ys) ↔ ∀ x ∈ xs, ∃ y, f x = .ok y := by
  induction xs with
  | nil => exact ⟨fun _ => List.forall_mem_nil _, fun _ => ⟨[], rfl⟩⟩
  | cons x rest ih =>
    rw [List.forall_mem_cons, ← ih, List.mapM_cons]
    cases hx : f x with
    | error e => exact ⟨fun ⟨_, h⟩ => (nomatch h), fun ⟨⟨_, h⟩, _⟩ => (nomatch h)⟩
    | ok y =>
      cases hrest : rest.mapM f with
      | error e => exact ⟨fun ⟨_, h⟩ => (nomatch h), fun ⟨_, _, h⟩ => (nomatch h)⟩
      | ok ys => exact ⟨fun _ => ⟨⟨y, rfl⟩, ys, rfl⟩, fun _ => ⟨y :: ys, rfl⟩⟩

namespace Value

/-- A mapping that stands for an entry has two keys. -/
theorem exists_asEntry_map {m : Mapping} : (∃ e, asEntry (.map m) = .ok e) ↔ m.length = 2 := by
  rcases m with _ | ⟨⟨k, v⟩, _ | ⟨⟨l, w⟩, _ | ⟨e, rest⟩⟩⟩
  · simp [asEntry, parts?]
  · simp [asEntry, parts?]
  · exact ⟨fun _ => rfl, fun _ => ⟨_, rfl⟩⟩
  · simp [asEntry, parts?]

theorem asMapping_list (xs : List Value) :
    asMapping (.list xs) = (xs.mapM asEntry).map Mapping.ofEntries := by
  show (xs.mapM asEntry >>= fun es => pure (Mapping.ofEntries es)) = _
  cases xs.mapM asEntry <;> rfl

theorem exists_readMapping_iff {v : Value} :
    (∃ m, readMapping v = .ok m) ↔ ∃ m, v.orEmpty.asMapping = .ok m := by
  rw [readMapping]
  cases v.orEmpty.asMapping <;> simp

theorem exists_readMapping_list {xs : List Value} :
    (∃ m, readMapping (.list xs) = .ok m) ↔ ∀ x ∈ xs, ∃ e, x.asEntry = .ok e := by
  rw [← exists_mapM_eq_ok, exists_readMapping_iff]
  cases xs with
  | nil => exact iff_of_true ⟨[], rfl⟩ ⟨[], rfl⟩
  | cons x rest =>
    have hitself : (Value.list (x :: rest)).orEmpty = .list (x :: rest) := rfl
    rw [hitself, asMapping_list]
    cases (x :: rest).mapM asEntry <;> simp [Except.map]

end Value

namespace Json

theorem keptItems_eq (xs : List Value) : keptItems xs = xs.map kept := by
  induction xs with
  | nil => rfl
  | cons x rest ih => rw [keptItems, ih, List.map_cons]

theorem storable_of_mem {xs : List Value} (h : itemsStorable xs = true) :
    ∀ x ∈ xs, storable x = true := by
  induction xs with
  | nil => exact List.forall_mem_nil _
  | cons x rest ih =>
    rw [itemsStorable, Bool.and_eq_true] at h
    exact List.forall_mem_cons.mpr ⟨h.1, ih h.2⟩

/-- What stands for an entry still does as it is kept. -/
theorem exists_asEntry_kept {v : Value} (hstorable : storable v = true)
    (h : ∃ e, v.asEntry = .ok e) : ∃ e, (kept v).asEntry = .ok e := by
  cases v with
  | scalar s =>
    cases s with
    | text s => exact h
    | bytes _ => nomatch hstorable
    | _ =>
      obtain ⟨_, h⟩ := h
      nomatch h
  | list xs =>
    obtain ⟨e, h⟩ := h
    unfold Value.asEntry at h
    split at h
    next => nomatch h
    next k w hparts =>
      obtain rfl : xs = [.scalar k, w] := Option.some.inj hparts
      exact ⟨(keptScalar k, kept w), rfl⟩
    next => nomatch h
    next => nomatch h
  | map m =>
    simp only [storable, Bool.and_eq_true, decide_eq_true_eq] at hstorable
    rw [kept_map, Value.exists_asEntry_map, length_keptMapping hstorable.1.2]
    exact Value.exists_asEntry_map.mp h

theorem exists_of_isZero {x : Binary64} (h : x.isZero = true) :
    ∃ negative e, x = .finite negative 0 e := by
  cases x with
  | finite negative m e =>
    obtain rfl : m = 0 := of_decide_eq_true h
    exact ⟨negative, e, rfl⟩
  | _ => nomatch h

/-- A document that is read as a mapping can still be read as one as it is kept. -/
theorem exists_readMapping_kept {v : Value} (hstorable : storable v = true)
    (h : ∃ m, readMapping v = .ok m) : ∃ m, readMapping (kept v) = .ok m := by
  cases v with
  | scalar s =>
    cases s with
    | float x =>
      -- only zero counts as nothing, and it stays zero
      cases hzero : x.isZero with
      | true =>
        obtain ⟨negative, e, rfl⟩ := exists_of_isZero hzero
        exact ⟨.map [], rfl⟩
      | false =>
        obtain ⟨m, hread⟩ := h
        have hsomething : (Value.scalar (.float x)).orEmpty = .scalar (.float x) := by
          rw [Value.orEmpty, if_pos]
          show (!x.isZero) = true
          rw [hzero]
          rfl
        rw [readMapping, hsomething] at hread
        nomatch hread
    | bytes _ | date _ | moment _ => nomatch hstorable
    | _ => exact h
  | list xs =>
    rw [Value.exists_readMapping_list] at h
    rw [kept, Value.exists_readMapping_list, keptItems_eq, List.forall_mem_map]
    exact fun x hx => exists_asEntry_kept (storable_of_mem hstorable x hx) (h x hx)
  | map m =>
    rw [kept_map]
    cases keptMapping m <;> exact ⟨_, rfl⟩

end Json

end SchemaLedger
