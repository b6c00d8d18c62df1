import SchemaLedger.Number.Binary64
import SchemaLedger.Time.Moment

/-!
# Document values

Migration payloads, schema snapshots and table rows are documents: scalars, lists, and mappings
from scalars to documents. A mapping keeps its entries in the order in which they were added and
has at most one entry for a key. Keys are equal as the numbers they stand for, so `1`, `1.0` and
`true` are one key.

The main statements: what was put under a key is found there (`Mapping.get?_put_self`), and nothing
else changes (`Mapping.get?_put_of_not_same`).
-/

namespace SchemaLedger

/-- A value without parts. -/
inductive Scalar where
  | null
  | bool (b : Bool)
  | int (n : Int)
  | float (x : Binary64)
  | text (s : String)
  /-- Binary data. -/
  | bytes (content : List UInt8)
  | date (d : CivilDate)
  | moment (t : Moment)
  deriving DecidableEq, Repr, Inhabited

/-- A document. -/
inductive Value where
  | scalar (s : Scalar)
  | list (items : List Value)
  | map (entries : List (Scalar × Value))
  deriving Repr, Inhabited

/-- The entries of a mapping, in the order in which they were added. -/
abbrev Mapping := List (Scalar × Value)

namespace Value

/-- The missing value. -/
@[match_pattern] abbrev null : Value := .scalar .null

/-- A truth value. -/
@[match_pattern] abbrev bool (b : Bool) : Value := .scalar (.bool b)

/-- An integer. -/
@[match_pattern] abbrev int (n : Int) : Value := .scalar (.int n)

/-- A text. -/
@[match_pattern] abbrev text (s : String) : Value := .scalar (.text s)

mutual

/-- Decides whether two documents are the same. -/
def decEq : (a b : Value) → Decidable (a = b)
  | .scalar s, .scalar t => decidable_of_iff (s = t) (by simp)
  | .list xs, .list ys => @decidable_of_iff _ (xs = ys) (by simp) (decEqItems xs ys)
  | .map xs, .map ys => @decidable_of_iff _ (xs = ys) (by simp) (decEqEntries xs ys)
  | .scalar _, .list _ | .scalar _, .map _ | .list _, .scalar _ | .list _, .map _
  | .map _, .scalar _ | .map _, .list _ => .isFalse nofun
termination_by structural a => a

/-- Decides whether two lists of documents are the same. -/
def decEqItems : (xs ys : List Value) → Decidable (xs = ys)
  | [], [] => .isTrue rfl
  | x :: xs, y :: ys =>
    match decEq x y, decEqItems xs ys with
    | .isTrue h, .isTrue h' => .isTrue (by rw [h, h'])
    | .isFalse h, _ => .isFalse (by simp [h])
    | _, .isFalse h => .isFalse (by simp [h])
  | [], _ :: _ | _ :: _, [] => .isFalse nofun
termination_by structural xs => xs

/-- Decides whether two lists of entries are the same. -/
def decEqEntries : (xs ys : List (Scalar × Value)) → Decidable (xs = ys)
  | [], [] => .isTrue rfl
  | x :: xs, y :: ys =>
    match decEqEntry x y, decEqEntries xs ys with
    | .isTrue h, .isTrue h' => .isTrue (by rw [h, h'])
    | .isFalse h, _ => .isFalse (by simp [h])
    | _, .isFalse h => .isFalse (by simp [h])
  | [], _ :: _ | _ :: _, [] => .isFalse nofun
termination_by structural xs => xs

/-- Decides whether two entries are the same. -/
def decEqEntry : (x y : Scalar × Value) → Decidable (x = y)
  | (k, v), (l, w) =>
    match decEq v w with
    | .isTrue h => decidable_of_iff (k = l) (by simp [h])
    | .isFalse h => .isFalse (by simp [h])
termination_by structural x => x

end

instance : DecidableEq Value := decEq

end Value

namespace Scalar

/-- The integer that a truth value or an integer stands for. -/
def integer? : Scalar → Option Int
  | .bool b => some (if b then 1 else 0)
  | .int n => some n
  | _ => none

/-- Whether two scalars are one key. -/
def sameKey (a b : Scalar) : Bool :=
  match a, b with
  | .float x, .float y => x.sameNumber y
  | .float x, b => (b.integer?.map x.equalsInt).getD false
  | a, .float y => (a.integer?.map y.equalsInt).getD false
  | .moment s, .moment t => s.same t
  | a, b =>
    match a.integer?, b.integer? with
    | some m, some n => m == n
    | none, none => decide (a = b)
    | _, _ => false

@[simp] theorem sameKey_text (s t : String) : sameKey (.text s) (.text t) = (s == t) := by
  by_cases h : s = t <;> simp [sameKey, integer?, h]

theorem sameKey_self (a : Scalar) : a.sameKey a = true := by
  cases a with
  | moment t => simp [sameKey, Moment.same_self]
  | float x => simp [sameKey, Binary64.sameNumber]
  | _ => simp [sameKey, integer?]

/-- Whether a scalar counts as something: not null, not false, not zero and not empty. -/
def isSomething : Scalar → Bool
  | .null => false
  | .bool b => b
  | .int n => n != 0
  | .float x => !x.isZero
  | .text s => s != ""
  | .bytes content => !content.isEmpty
  | .date _ | .moment _ => true

end Scalar

namespace Mapping

/-- The entry of a key. -/
def get? (m : Mapping) (key : Scalar) : Option Value :=
  (m.find? fun e => e.1.sameKey key).map (·.2)

/-- The entry of a text key. -/
def field? (m : Mapping) (name : String) : Option Value := m.get? (.text name)

/-- Sets the entry of a key: in its place if the key is there, else at the end. -/
def put : Mapping → Scalar → Value → Mapping
  | [], key, v => [(key, v)]
  | (k, w) :: rest, key, v => if k.sameKey key then (k, v) :: rest else (k, w) :: put rest key v

/-- The mapping that results from adding entries one after another. -/
def ofEntries (entries : List (Scalar × Value)) : Mapping :=
  entries.foldl (fun m e => m.put e.1 e.2) []

/-- The mapping with the given text fields. -/
def ofFields (fields : List (String × Value)) : Mapping :=
  ofEntries (fields.map fun f => (.text f.1, f.2))

@[simp] theorem get?_nil (key : Scalar) : get? [] key = none := rfl

@[simp] theorem field?_nil (name : String) : field? [] name = none := rfl

theorem get?_put_self (m : Mapping) (key : Scalar) (v : Value) :
    (m.put key v).get? key = some v := by
  induction m with
  | nil => simp [put, get?, Scalar.sameKey_self]
  | cons e rest ih =>
    obtain ⟨k, w⟩ := e
    by_cases h : k.sameKey key
    · simp [put, get?, h]
    · simpa [put, get?, h] using ih

/-- Putting under a key leaves a look-up alone that no key with the put key's matches reaches. -/
theorem get?_put_of_not_same {m : Mapping} {key other : Scalar} {v : Value}
    (hkey : key.sameKey other = false)
    (hm : ∀ e ∈ m, e.1.sameKey key = true → e.1.sameKey other = false) :
    (m.put key v).get? other = m.get? other := by
  induction m with
  | nil => simp [put, get?, hkey]
  | cons e rest ih =>
    obtain ⟨k, w⟩ := e
    have ih := ih fun e he => hm e (List.mem_cons_of_mem _ he)
    by_cases h : k.sameKey key
    · simp [put, get?, h, hm (k, w) (by simp) h]
    · by_cases h' : k.sameKey other
      · simp [put, get?, h, h']
      · simpa [put, get?, h, h'] using ih

end Mapping

namespace Value

/-- Whether a document counts as something: a scalar that does, or a list or mapping with parts. -/
def isSomething : Value → Bool
  | .scalar s => s.isSomething
  | .list xs => !xs.isEmpty
  | .map m => !m.isEmpty

/-- The document, or an empty mapping if it counts as nothing. -/
def orEmpty (v : Value) : Value := if v.isSomething then v else .map []

/-- Why a document cannot be read as a mapping. -/
inductive NotMapping where
  /-- It has no parts to go through, one of them has none, or a key is a list or mapping. -/
  | noEntries
  /-- An entry does not have exactly two parts. -/
  | notPair
  deriving DecidableEq, Repr

/-- What a document is gone through by: the items of a list, the characters of a text, the bytes of
binary data as numbers, or the keys of a mapping. -/
def parts? : Value → Option (List Value)
  | .list xs => some xs
  | .text s => some (s.toList.map fun c => .text (String.singleton c))
  | .scalar (.bytes content) => some (content.map fun b => .int b.toNat)
  | .map m => some (m.map fun e => .scalar e.1)
  | .scalar _ => none

/-- One entry of a list read as a key with its value. -/
def asEntry (v : Value) : Except NotMapping (Scalar × Value) :=
  match v.parts? with
  | none => .error .noEntries
  | some [.scalar k, w] => .ok (k, w)
  | some [_, _] => .error .noEntries
  | some _ => .error .notPair

/-- A document read as a mapping: a mapping is one, and so is what has pairs as its parts. -/
def asMapping : Value → Except NotMapping Mapping
  | .map m => .ok m
  | v => do
    let items ← (match v.parts? with
      | some xs => .ok xs
      | none => .error .noEntries)
    return Mapping.ofEntries (← items.mapM asEntry)

@[simp] theorem asMapping_map (m : Mapping) : asMapping (.map m) = .ok m := rfl

example : asMapping (.list [.list [.text "k", .int 1], .list [.text "k", .int 2]]) =
    .ok [(.text "k", .int 2)] := by cbv
example : asMapping (.text "ab") = .error .notPair ∧ asMapping (.int 5) = .error .noEntries ∧
    asMapping (.list [.text "ab"]) = .ok [(.text "a", .text "b")] := by cbv
example : asMapping (.scalar (.bytes [])) = .ok [] ∧
    asMapping (.scalar (.bytes [97])) = .error .noEntries ∧
    asMapping (.list [.scalar (.bytes [97, 98])]) = .ok [(.int 97, .int 98)] := by cbv

end Value

end SchemaLedger
