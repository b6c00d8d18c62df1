import SchemaLedger.Number.Read
import SchemaLedger.Number.Shortest
import SchemaLedger.Value.Display

/-!
# Documents as the database keeps them

A document goes into the database as JSON, and the database keeps what the text means rather than
the text. Keys become texts, and the entries of a mapping are put in order, short keys before long
ones. Numbers become decimal ones: zero loses its sign, and a number whose text has no point comes
back as an integer. A look-up by a text finds what it found before, as it is kept
(`field?_keptMapping`).

Not every document goes in (`storable`). Dates, times and binary data have no JSON form, and numbers
that are not finite are no decimals. Two keys of one mapping with the same text, such as `1` and
`"1"`, are left out as well; of these the database would keep the last.
-/

namespace SchemaLedger.Json

/-! ## Keys -/

/-- The text that stands for a key. -/
def keyText : Scalar → String
  | .null => "null"
  | .bool b => if b then "true" else "false"
  | .int n => toString n
  | .float (.finite negative m e) => Binary64.text (.finite negative m e)
  | .float x => x.plainText
  | .text s => s
  | s => s.display

/-- The order of keys: by the number of their bytes, then by their characters. -/
def keyBefore (a b : String) : Bool :=
  a.utf8ByteSize < b.utf8ByteSize || (a.utf8ByteSize = b.utf8ByteSize && decide (a ≤ b))

/-- Puts an entry where its key belongs, in place of an entry with that key. -/
def place (key : String) (v : Value) : List (String × Value) → List (String × Value)
  | [] => [(key, v)]
  | (k, w) :: rest =>
    if key = k then (key, v) :: rest
    else if keyBefore key k then (key, v) :: (k, w) :: rest
    else (k, w) :: place key v rest

/-- Entries in the order of their keys; of several with one key the last one stays. -/
def arranged (entries : List (String × Value)) : List (String × Value) :=
  entries.foldl (fun placed e => place e.1 e.2 placed) []

/-- The mapping with text keys. -/
def ofTexts (entries : List (String × Value)) : Mapping := entries.map fun e => (.text e.1, e.2)

/-! ## What is kept -/

/-- A number as a decimal one. -/
def keptNumber : Binary64 → Scalar
  | .finite negative m e =>
    if m = 0 then .float (.zero false)
    else
      let digits := Binary64.plainDigits m e
      if '.' ∈ digits then .float (.finite negative m e)
      else
        let n : Int := Number.ofDigits 10 digits
        .int (if negative then -n else n)
  | x => .float x

/-- A scalar as it is kept. -/
def keptScalar : Scalar → Scalar
  | .float x => keptNumber x
  | s => s

mutual

/-- A document as it is kept. -/
def kept : Value → Value
  | .scalar s => .scalar (keptScalar s)
  | .list xs => .list (keptItems xs)
  | .map m => .map (ofTexts (arranged (keptEntries m)))
termination_by structural v => v

/-- The items of a list. -/
def keptItems : List Value → List Value
  | [] => []
  | x :: xs => kept x :: keptItems xs
termination_by structural xs => xs

/-- The entries of a mapping, in the order in which they were added. -/
def keptEntries : List (Scalar × Value) → List (String × Value)
  | [] => []
  | e :: rest => keptEntry e :: keptEntries rest
termination_by structural xs => xs

/-- One entry of a mapping. -/
def keptEntry : Scalar × Value → String × Value
  | (k, v) => (keyText k, kept v)
termination_by structural e => e

end

/-- A mapping as it is kept. -/
def keptMapping (m : Mapping) : Mapping := ofTexts (arranged (keptEntries m))

theorem kept_map (m : Mapping) : kept (.map m) = .map (keptMapping m) := rfl

@[simp] theorem kept_text (s : String) : kept (.text s) = .text s := rfl

section Lookup

variable {key name : String} {v : Value} {entries placed : List (String × Value)}

theorem field?_ofTexts_cons : (ofTexts ((key, v) :: entries)).field? name =
    if key = name then some v else (ofTexts entries).field? name := by
  by_cases h : key = name <;> simp [ofTexts, Mapping.field?, Mapping.get?, h]

theorem field?_ofTexts_eq_none : (ofTexts entries).field? name = none ↔
    name ∉ entries.map (·.1) := by
  induction entries with
  | nil => simp [ofTexts]
  | cons e rest ih =>
    rw [field?_ofTexts_cons, List.map_cons, List.mem_cons]
    by_cases h : e.1 = name
    · simp [h]
    · simp [h, ih, Ne.symm h]

/-- What is placed is found, and nothing else is lost. -/
theorem field?_place : (ofTexts (place key v placed)).field? name =
    if key = name then some v else (ofTexts placed).field? name := by
  induction placed with
  | nil => exact field?_ofTexts_cons
  | cons e rest ih =>
    obtain ⟨k, w⟩ := e
    rw [place]
    split
    next h =>
      rw [field?_ofTexts_cons, field?_ofTexts_cons, h]
      split <;> rfl
    next h =>
      split
      · rw [field?_ofTexts_cons]
      · rw [field?_ofTexts_cons, field?_ofTexts_cons, ih]
        by_cases hk : k = name
        · simp [hk, hk ▸ h]
        · simp [hk]

/-- Entries with different keys are found as before. -/
theorem field?_arranged (hkeys : (entries.map (·.1)).Nodup) :
    (ofTexts (arranged entries)).field? name = (ofTexts entries).field? name := by
  have hfold : ∀ placed,
      (ofTexts (entries.foldl (fun placed e => place e.1 e.2 placed) placed)).field? name =
        ((ofTexts entries).field? name).or ((ofTexts placed).field? name) := by
    induction entries with
    | nil => exact fun _ => rfl
    | cons e rest ih =>
      obtain ⟨k, w⟩ := e
      obtain ⟨hk, hrest⟩ := List.nodup_cons.mp hkeys
      intro placed
      rw [List.foldl_cons, ih hrest, field?_place, field?_ofTexts_cons]
      by_cases hname : k = name
      · -- no later entry has the key
        rw [field?_ofTexts_eq_none.mpr (hname ▸ hk)]
        simp [hname]
      · simp [hname]
  rw [arranged, hfold]
  exact Option.or_none

theorem keptEntries_eq (m : Mapping) :
    keptEntries m = m.map fun e => (keyText e.1, kept e.2) := by
  induction m with
  | nil => rfl
  | cons e rest ih =>
    obtain ⟨k, v⟩ := e
    rw [keptEntries, ih]
    rfl

/-- In a mapping with texts as keys, none of them twice, a look-up finds what it found before. -/
theorem field?_keptMapping {m : Mapping} (htexts : ∀ e ∈ m, ∃ s, e.1 = .text s)
    (hkeys : (m.map (keyText ·.1)).Nodup) :
    (keptMapping m).field? name = (m.field? name).map kept := by
  have hentries : ((keptEntries m).map (·.1)).Nodup := by
    rwa [keptEntries_eq, List.map_map]
  rw [keptMapping, field?_arranged hentries, keptEntries_eq]
  clear hkeys hentries
  induction m with
  | nil => rfl
  | cons e rest ih =>
    obtain ⟨⟨s, hs⟩, hrest⟩ := List.forall_mem_cons.mp htexts
    obtain ⟨k, v⟩ := e
    obtain rfl : k = .text s := hs
    rw [List.map_cons, field?_ofTexts_cons, ih hrest]
    by_cases h : s = name <;> simp [keyText, Mapping.field?, Mapping.get?, h]

end Lookup

/-! ## What can be kept -/

/-- Whether a scalar can be a key. -/
def keyStorable : Scalar → Bool
  | .bytes _ | .date _ | .moment _ => false
  | _ => true

/-- Whether a scalar can be stored. -/
def scalarStorable : Scalar → Bool
  | .float (.finite ..) => true
  | .float _ | .bytes _ | .date _ | .moment _ => false
  | _ => true

mutual

/-- Whether a document can be stored. -/
def storable : Value → Bool
  | .scalar s => scalarStorable s
  | .list xs => itemsStorable xs
  | .map m => m.all (keyStorable ·.1) && (m.map (keyText ·.1)).Nodup && entriesStorable m
termination_by structural v => v

/-- Whether all items of a list can be stored. -/
def itemsStorable : List Value → Bool
  | [] => true
  | x :: xs => storable x && itemsStorable xs
termination_by structural xs => xs

/-- Whether all values of a mapping can be stored. -/
def entriesStorable : List (Scalar × Value) → Bool
  | [] => true
  | e :: rest => entryStorable e && entriesStorable rest
termination_by structural xs => xs

/-- Whether the value of an entry can be stored. -/
def entryStorable : Scalar × Value → Bool
  | (_, v) => storable v
termination_by structural e => e

end

example : kept (.map [(.text "bb", .int 1), (.text "a", .scalar (.float (.ofDecimal false 1 23)))])
    = .map [(.text "a", .int 100000000000000000000000), (.text "bb", .int 1)] := by decide +kernel
example :
    let half : Value := .scalar (.float (.ofDecimal false 5 (-1)))
    kept (.list [.scalar (.float (.ofDecimal true 0 0)), half]) =
      .list [.scalar (.float (.ofDecimal false 0 0)), half] := by decide +kernel
example : storable (.map [(.int 1, .null), (.text "1", .null)]) = false ∧
    storable (.list [.scalar (.date ⟨2026, 1, 1⟩)]) = false := by decide +kernel

end SchemaLedger.Json
