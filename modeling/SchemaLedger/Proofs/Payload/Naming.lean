import SchemaLedger.PayloadFile
import SchemaLedger.Proofs.Payload.Grammar

/-!
# The name of a loaded payload

A file that is loaded holds a mapping (`PayloadFile.load_eq_ok_iff`), and its payload is meant to
have the name that the mapping declares, or else that of the file. The name of the file comes in
only where the mapping has no name at all. A name that is null is one, and is the only thing besides
a text that a name may be, so it is with such a name, and with no other, that the payload has none
(`PayloadFile.loaded_name_iff`).
-/

namespace SchemaLedger.PayloadFile

open Payload (textOf)

/-- The content of a file as it is read in the format that the suffix of the file tells. -/
inductive Holds (file text : String) (v : Value) : Prop
  | yaml {d : Yaml.Document} (hformat : format? file = some .yaml) (hread : Yaml.read text = .ok d)
      (hvalue : d.value? = some v)
  | json (hformat : format? file = some .json) (hread : Json.read text = .ok v)

/-- The text that a mapping declares as its name. -/
def declaredName? (m : Mapping) : Option String :=
  match m.field? "name" with
  | some (.scalar k) => (textOf k).toOption
  | _ => none

/-! ## Answers that may be errors -/

section Except

variable {ε ε' α β : Type} {x : Except ε α} {a : α}

theorem mapError_eq_ok_iff {g : ε → ε'} : x.mapError g = .ok a ↔ x = .ok a := by
  cases x with
  | error e => exact ⟨nofun, nofun⟩
  | ok b =>
    exact ⟨fun h => congrArg Except.ok (Except.ok.inj h),
      fun h => congrArg Except.ok (Except.ok.inj h)⟩

theorem bind_eq_ok_iff {f : α → Except ε β} {b : β} :
    (x >>= f) = .ok b ↔ ∃ a, x = .ok a ∧ f a = .ok b := by
  cases x with
  | error e => exact ⟨nofun, fun ⟨_, h, _⟩ => nomatch h⟩
  | ok a => exact ⟨fun h => ⟨a, rfl, h⟩, fun ⟨_, ha, h⟩ => Except.ok.inj ha ▸ h⟩

theorem eq_ok_of_toOption (h : x.toOption = some a) : x = .ok a := by
  cases x with
  | error e => nomatch h
  | ok b => exact congrArg Except.ok (Option.some.inj h)

end Except

variable {file : String} {p : Payload}

/-! ## What is loaded -/

theorem ofGraph_eq_ok_iff {d : Yaml.Document} :
    ofGraph file d = .ok p ↔ ∃ v, d.value? = some v ∧ ofDocument file v = .ok p := by
  unfold ofGraph
  cases d.value? <;> simp

/-- A payload is loaded from a file that is there and holds a document that makes one. -/
theorem load_eq_ok_iff {content : Option String} :
    load file content = .ok p ↔
      ∃ text v, content = some text ∧ Holds file text v ∧ ofDocument file v = .ok p := by
  unfold load
  cases hformat : format? file with
  | none =>
    refine ⟨nofun, fun ⟨text, v, _, hholds, _⟩ => ?_⟩
    cases hholds <;> simp_all
  | some format =>
    cases content with
    | none => exact ⟨nofun, nofun⟩
    | some text =>
      cases format with
      | yaml =>
        show ((Yaml.read text).mapError .yaml >>= ofGraph file) = .ok p ↔ _
        simp only [bind_eq_ok_iff, mapError_eq_ok_iff]
        constructor
        · intro ⟨d, hread, hd⟩
          obtain ⟨v, hvalue, hv⟩ := ofGraph_eq_ok_iff.mp hd
          exact ⟨text, v, rfl, .yaml hformat hread hvalue, hv⟩
        · intro ⟨_, v, htext, hholds, hv⟩
          cases htext
          cases hholds with
          | yaml _ hread hvalue => exact ⟨_, hread, ofGraph_eq_ok_iff.mpr ⟨v, hvalue, hv⟩⟩
          | json hjson _ => rw [hformat] at hjson; nomatch hjson
      | json =>
        show ((Json.read text).mapError .json >>= ofDocument file) = .ok p ↔ _
        simp only [bind_eq_ok_iff, mapError_eq_ok_iff]
        constructor
        · intro ⟨v, hread, hv⟩
          exact ⟨text, v, rfl, .json hformat hread, hv⟩
        · intro ⟨_, v, htext, hholds, hv⟩
          cases htext
          cases hholds with
          | yaml hyaml _ _ => rw [hformat] at hyaml; nomatch hyaml
          | json _ hread => exact ⟨v, hread, hv⟩

theorem ofDocument_eq_ok_iff {v : Value} :
    ofDocument file v = .ok p ↔
      ∃ m, v = .map m ∧ Payload.validate (.map (named m (stem file))) = .ok p := by
  cases v with
  | map m =>
    simp only [ofDocument, mapError_eq_ok_iff, Value.map.injEq, exists_eq_left']
  | scalar s => simp [ofDocument]
  | list xs => simp [ofDocument]

/-! ## Its name -/

/-- Where a name is there it stays, and else the name of the file is put there. -/
theorem field?_name_named (m : Mapping) (name : String) :
    (named m name).field? "name" = some ((m.field? "name").getD (.text name)) := by
  cases hname : m.field? "name" with
  | none => exact named_of_missing hname
  | some v =>
    unfold named
    rw [hname]
    exact hname

/-- The name of a payload that the mapping of a file makes. -/
theorem name_of_ofDocument {m : Mapping} (h : ofDocument file (.map m) = .ok p) :
    p.name = if m.field? "name" = some .null then none
      else some ((declaredName? m).getD (stem file)) := by
  obtain ⟨_, ⟨⟩, hvalid⟩ := ofDocument_eq_ok_iff.mp h
  obtain ⟨_, ⟨⟩, ⟨hname, -⟩, -⟩ := Payload.validate_eq_ok_iff.mp hvalid
  rw [Payload.readText_eq_ok_iff, field?_name_named] at hname
  simp only [Option.some.injEq, reduceCtorEq, false_or] at hname
  unfold declaredName?
  cases hfield : m.field? "name" with
  | none =>
    rw [hfield] at hname
    obtain ⟨hnull, -⟩ | ⟨k, s, hk, hs, hp⟩ := hname
    · nomatch hnull
    · cases hk
      cases hs
      exact hp
  | some v =>
    rw [hfield] at hname
    obtain ⟨hnull, hp⟩ | ⟨k, s, hk, hs, hp⟩ := hname
    · obtain rfl : v = .null := hnull
      rw [if_pos rfl]
      exact hp
    · obtain rfl : v = .scalar k := hk
      have hnotnull : some (Value.scalar k) ≠ some .null := fun hnull => by
        cases hnull
        nomatch hs
      rw [if_neg hnotnull, hp]
      simp only [hs]
      rfl

/-- **A name that is null is all that leaves a loaded payload without a name.** The payload that the
mapping of a file makes has the name that the mapping declares, or else that of the file, exactly if
the mapping does not declare null; and only so it has a name at all. Every payload that is loaded
from a file is made by the mapping that the file holds. -/
theorem loaded_name_iff (file : String) (p : Payload) :
    (∀ m : Mapping, ofDocument file (.map m) = .ok p →
      (p.name = some ((declaredName? m).getD (stem file)) ↔ m.field? "name" ≠ some .null) ∧
      ((∃ name, p.name = some name) ↔ m.field? "name" ≠ some .null)) ∧
    ∀ content, load file content = .ok p →
      ∃ text m, content = some text ∧ Holds file text (.map m) ∧
        ofDocument file (.map m) = .ok p := by
  refine ⟨fun m h => ?_, fun content h => ?_⟩
  · rw [name_of_ofDocument h]
    split <;> simp_all
  · obtain ⟨text, v, hcontent, hholds, hv⟩ := load_eq_ok_iff.mp h
    obtain ⟨m, rfl, -⟩ := ofDocument_eq_ok_iff.mp hv
    exact ⟨text, m, hcontent, hholds, hv⟩

/-- One file has an empty name, and one has none. -/
theorem loaded_name_iff_of_files :
    let empty := load "01_create.yaml" (some "name:\noperations: []\n")
    let missing := load "01_create.json" (some "\x7b\"operations\": []\x7d")
    empty = .ok {} ∧ missing = .ok { name := some "01_create" } ∧
      (∃ m : Mapping, ofDocument "01_create.yaml" (.map m) = .ok {} ∧
        m.field? "name" = some .null) ∧
      ∃ m : Mapping, ofDocument "01_create.json" (.map m) = .ok { name := some "01_create" } ∧
        m.field? "name" ≠ some .null := by
  intro empty missing
  have hempty : empty = .ok {} := eq_ok_of_toOption (by decide +kernel)
  have hmissing : missing = .ok { name := some "01_create" } :=
    eq_ok_of_toOption (by decide +kernel)
  refine ⟨hempty, hmissing, ?_, ?_⟩
  · obtain ⟨-, m, -, -, hm⟩ := (loaded_name_iff _ _).2 _ hempty
    have hname := ((loaded_name_iff _ _).1 m hm).2
    refine ⟨m, hm, Decidable.not_not.mp fun hnotnull => ?_⟩
    obtain ⟨name, hnone⟩ := hname.mpr hnotnull
    nomatch hnone
  · obtain ⟨-, m, -, -, hm⟩ := (loaded_name_iff _ _).2 _ hmissing
    exact ⟨m, hm, ((loaded_name_iff _ _).1 m hm).2.mp ⟨_, rfl⟩⟩

/-- A file with an empty name gives a payload without one. -/
theorem nameless_of_empty_name :
    ¬ ∀ file content p, load file content = .ok p → ∃ name, p.name = some name := by
  intro h
  have hload : load "01_create.yaml" (some "name:\noperations: []\n") = .ok {} :=
    eq_ok_of_toOption (by decide +kernel)
  obtain ⟨name, hname⟩ := h _ _ _ hload
  nomatch hname

end SchemaLedger.PayloadFile
