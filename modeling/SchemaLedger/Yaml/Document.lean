import SchemaLedger.Yaml.Scalar

/-!
# YAML documents

The graph of nodes of a text becomes a document in rounds. The first one reads what stands at the
outermost node; every other one reads the parts of the lists and mappings that the round before
came upon, in their order. So of several faults in a document the one told is the one closest to
the root.

Mappings include the entries of the mappings that they merge. Entries of a mapping itself win over
merged ones, which come first; of several merged mappings the first one wins.

A list or mapping may be a part of itself. Such a document has no end, but it has upper levels.
-/

namespace SchemaLedger.Yaml

/-- What stands at a node. -/
inductive Part where
  | scalar (s : Scalar)
  | list (items : List NodeId)
  /-- The entries of a mapping, each key once. -/
  | map (entries : List (Scalar × NodeId))
  | set (members : List Scalar)
  | pairs (entries : List (NodeId × NodeId))
  /-- Parts that were not read yet. -/
  | open
  deriving DecidableEq, Repr

/-- A document: what stands at each node, and the number of the outermost one. -/
structure Document where
  parts : Array Part
  root : NodeId
  deriving DecidableEq, Repr

/-- A document in the course of being read. -/
structure Draft where
  /-- The nodes; a mapping whose merges were resolved has the merged entries among its own. -/
  nodes : Array Node
  /-- What stands at each node, as far as it was read. -/
  parts : Array (Option Part)
  /-- The nodes whose parts are to be read in the next round, the last one first. -/
  found : List NodeId := []

/-- A step of the reading. -/
abbrev Reading := StateT Draft (Except ReadError)

namespace Reading

/-- A fault in the document. -/
def broken (e : ReadError) : Reading α := throw e

/-- The node of a number. -/
def node (id : NodeId) : Reading Node := do
  match (← get).nodes[id]? with
  | some n => return n
  | none => broken .malformed

/-- The tag of a node. -/
def tag (id : NodeId) : Reading Tag := return (← node id).tag

/-- Changes the node of a number. -/
def change (id : NodeId) (f : Node → Node) : Reading Unit :=
  modify fun d => { d with nodes := d.nodes.modify id f }

/-- Sets what stands at a node. -/
def put (id : NodeId) (p : Part) : Reading Unit :=
  modify fun d => { d with parts := d.parts.set! id (some p) }

/-- The entries of a node that is a mapping. -/
def entries (id : NodeId) : Reading (List (NodeId × NodeId)) := do
  match (← node id).shape with
  | .mapping es => return es
  | _ => broken .malformed

/-! ## Merges -/

/-- Takes the first merge out of a mapping; tells what is merged. -/
def takeMerge? (id : NodeId) : Reading (Option NodeId) := do
  let es ← entries id
  match ← es.findM? fun e => return (← tag e.1) = .merge with
  | none => return none
  | some merge =>
    change id fun n => { n with shape := .mapping (es.erase merge) }
    return some merge.2

/-- The key of a default value counts as a text in a mapping. -/
def nameDefaults (id : NodeId) : Reading Unit := do
  (← entries id).forM fun e => do
    if (← tag e.1) = .default then change e.1 ({ · with tag := .text })

mutual

/-- Resolves the merges of a mapping; the result are its entries. -/
def resolve : (limit : Nat) → NodeId → Reading (List (NodeId × NodeId))
  | 0, _ => broken .malformed
  | limit + 1, id => do
    let merged ← takeMerges limit id
    nameDefaults id
    let es := merged ++ (← entries id)
    change id fun n => { n with shape := .mapping es }
    return es

/-- Takes all merges out of a mapping; the result are the entries that they add. -/
def takeMerges : (limit : Nat) → NodeId → Reading (List (NodeId × NodeId))
  | 0, _ => broken .malformed
  | limit + 1, id => do
    match ← takeMerge? id with
    | none => return []
    | some source =>
      let added ← included limit source
      return added ++ (← takeMerges limit id)

/-- The entries that a mapping, or a list of mappings, adds to a mapping that merges it. What is
added later wins, so the first mapping of a list comes last. -/
def included : (limit : Nat) → NodeId → Reading (List (NodeId × NodeId))
  | 0, _ => broken .malformed
  | limit + 1, id => do
    match (← node id).shape with
    | .scalar _ => broken .malformed
    | .mapping _ => resolve limit id
    | .sequence items => return (← items.mapM (resolve limit)).reverse.flatten

end

/-- How deep the resolution of merges goes at most: every merge is taken out once, and three steps
lead from one to the next. -/
def mergeLimit (nodes : Array Node) : Nat :=
  let count := fun n : Node =>
    match n.shape with
    | .mapping es => es.length
    | _ => 0
  3 * (nodes.foldl (fun total n => total + count n) 0 + 1)

/-! ## Rounds -/

/-- The text of a scalar; a mapping with a default value stands for it. -/
def scalarText : (limit : Nat) → NodeId → Reading String
  | 0, _ => broken .endless
  | limit + 1, id => do
    match (← node id).shape with
    | .scalar s => return s
    | .sequence _ => broken .malformed
    | .mapping es =>
      match ← es.findM? fun e => return (← tag e.1) = .default with
      | some (_, v) => scalarText limit v
      | none => broken .malformed

/-- Reads what stands at a node, unless that was done before. The parts of a list or mapping are
left to the next round. -/
def start (id : NodeId) : Reading Unit := do
  if ((← get).parts[id]?.join).isNone then
    let n ← node id
    match n.tag with
    | .sequence | .mapping | .set | .pairs =>
      put id .open
      modify fun d => { d with found := id :: d.found }
    | tag =>
      if tag ∈ [.merge, .default, .other] then broken .malformed
      let s ← scalarText ((← get).nodes.size + 1) id
      -- a time has to be written in the node itself
      match tag, n.shape with
      | .timestamp, .mapping _ => broken .timeInParts
      | _, _ => put id (.scalar (← readScalar tag s))

/-- Reads a key, which must be a scalar. -/
def key (id : NodeId) : Reading Scalar := do
  start id
  match (← get).parts[id]?.join with
  | some (.scalar s) => return s
  | _ => broken .malformed

/-- Reads the one entry of a mapping in a list of pairs. -/
def pair (id : NodeId) : Reading (NodeId × NodeId) := do
  match ← entries id with
  | [(k, v)] =>
    start k
    start v
    return (k, v)
  | _ => broken .malformed

/-- Each key once, at the place of its first entry and with the value of its last one. -/
def withoutRepeats (entries : List (Scalar × NodeId)) : List (Scalar × NodeId) :=
  let keys := (Mapping.ofEntries (entries.map fun e => (e.1, .null))).map (·.1)
  let latest := entries.reverse
  keys.filterMap fun k => (latest.find? (·.1.sameKey k)).map fun e => (k, e.2)

/-- Reads the entries of a mapping. -/
def mapping (id : NodeId) : Reading (List (Scalar × NodeId)) := do
  -- a node of another kind has no merges to resolve
  let _ ← entries id
  let es ← (← resolve (mergeLimit (← get).nodes) id).mapM fun (k, v) => do
    let k ← key k
    start v
    return (k, v)
  return withoutRepeats es

/-- Reads the parts of a node. -/
def parts (id : NodeId) : Reading Unit := do
  let n ← node id
  match n.tag, n.shape with
  | .sequence, .sequence items =>
    items.forM start
    put id (.list items)
  | .pairs, .sequence items => put id (.pairs (← items.mapM pair))
  | .mapping, _ => put id (.map (← mapping id))
  | .set, _ => put id (.set ((← mapping id).map (·.1)))
  | _, _ => broken .malformed

/-- Reads the parts of the nodes that were found, round by round. -/
def rounds : (limit : Nat) → Reading Unit
  | 0 => return
  | limit + 1 => do
    let found := (← get).found.reverse
    if !found.isEmpty then
      modify ({ · with found := [] })
      found.forM parts
      rounds limit

end Reading

namespace Document

/-- The document of a graph of nodes. A node is found in one round at most. -/
def ofGraph (g : Graph) : Except ReadError Document := do
  let reading := do
    Reading.start g.root
    Reading.rounds (g.nodes.size + 1)
  let (_, d) ← reading.run { nodes := g.nodes, parts := .replicate g.nodes.size none }
  return ⟨d.parts.map (·.getD .open), g.root⟩

/-- The document that is null. -/
def null : Document := ⟨#[.scalar .null], 0⟩

/-- What stands at a node, unless it goes down so many levels or more. -/
def valueAt? (d : Document) : (depth : Nat) → NodeId → Option Value
  | 0, _ => none
  | depth + 1, id =>
    match d.parts[id]?.getD .open with
    | .scalar s => some (.scalar s)
    | .list items => do return .list (← items.mapM (valueAt? d depth))
    | .map es => do
      return .map (← es.mapM fun e => return (e.1, ← valueAt? d depth e.2))
    | .set members => some (.list (members.map .scalar))
    | .pairs es => do
      let pairs ← es.mapM fun e => return [← valueAt? d depth e.1, ← valueAt? d depth e.2]
      return .list (pairs.map .list)
    | .open => some (.list [])

/-- The value of a document; one that is a part of itself has none. -/
def value? (d : Document) : Option Value := d.valueAt? (d.parts.size + 1) d.root

/-- What stands at a node down to some level; lists and mappings below it are shown empty. -/
def upperAt (d : Document) : (depth : Nat) → NodeId → Value
  | 0, id =>
    match d.parts[id]?.getD .open with
    | .scalar s => .scalar s
    | .map _ => .map []
    | _ => .list []
  | depth + 1, id =>
    match d.parts[id]?.getD .open with
    | .scalar s => .scalar s
    | .list items => .list (items.map (upperAt d depth))
    | .map es => .map (es.map fun e => (e.1, upperAt d depth e.2))
    | .set members => .list (members.map .scalar)
    | .pairs es => .list (es.map fun e => .list [upperAt d depth e.1, upperAt d depth e.2])
    | .open => .list []

/-- The upper levels of a document. -/
def upper (d : Document) (depth : Nat) : Value := d.upperAt depth d.root

/-- The document with an entry in its outermost mapping, unless there is one for that key. -/
def withDefault (d : Document) (k : Scalar) (v : Scalar) : Document :=
  let extend : Part → Part
    | .map es => .map (if es.any (·.1.sameKey k) then es else es ++ [(k, d.parts.size)])
    | p => p
  { d with parts := (d.parts.modify d.root extend).push (.scalar v) }

end Document

/-- Reads the document of a text; a text without one is null. -/
def read (text : String) : Except ReadError Document := do
  match ← Graph.ofTokens (tokens text) with
  | none => return .null
  | some g => Document.ofGraph g

end SchemaLedger.Yaml
