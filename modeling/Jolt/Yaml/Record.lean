import Jolt.Text.Base64
import Jolt.Text.Quoted
import Jolt.Yaml.Node

/-!
# Records from documents

A `Shape` says what a document is to hold: texts, truth values, integers, and records of them with known fields. Reading a
document by a shape fills a value and names everything that does not fit, in the order of the document.

The key `<<` merges other mappings into a record: their fields count where the record does not have them itself, and of
several mappings the first that has a field gives it.
-/

namespace Jolt.Yaml

/-- What a node is to hold, and where it goes in a value of type `σ`. -/
inductive Shape (σ : Type) where
  | text (put : Text → σ → σ)
  /-- A truth value, which may be absent. -/
  | truth (put : Option Bool → σ → σ)
  /-- An integer of 64 bits. -/
  | integer (put : Int → σ → σ)
  | record (type : String) (fields : List (String × Shape σ))

/-! ## Complaints -/

/-- A complaint about a line. -/
def complaint (line : Nat) (message : Text) : Text :=
  utf8 "line " ++ Text.ofNat line ++ utf8 ": " ++ message

/-- A value as a complaint shows it: a long one is cut. -/
def shortened (t : Text) : Text :=
  utf8 " \x60" ++ (if 10 < t.length then t.take 7 ++ utf8 "..." else t) ++ utf8 "\x60"

/-- The text of a node, empty for one that is no scalar. A reference has its name for a text. -/
def Node.text : Node → Text
  | scalar _ _ t => t
  | reference _ name _ => name
  | _ => []

/-- The complaint that a node does not fit. -/
def misfit (node : Node) (type : String) : Text :=
  let shown := if node.tag = Kind.sequence.tag ∨ node.tag = Kind.mapping.tag then node.text else shortened node.text
  complaint node.line (utf8 "cannot unmarshal " ++ node.tag ++ shown ++ utf8 " into " ++ utf8 type)

/-- Whether two keys are the same, and so one too many. -/
def sameKey : Node → Node → Bool
  | .scalar _ _ a, .scalar _ _ b => a = b
  | .sequence _ _ _, .sequence _ _ _ => true
  | .mapping _ _ _, .mapping _ _ _ => true
  | .reference _ a _, .reference _ b _ => a = b
  | _, _ => false

/-- The complaints about keys that stand more than once. -/
def repeatedKeys : List Node → List Text
  | [] => []
  | k :: rest =>
    ((rest.filter (sameKey k)).map fun later =>
      complaint later.line (utf8 "mapping key " ++ later.text.quoted ++ utf8 " already defined at line "
        ++ Text.ofNat k.line)) ++ repeatedKeys rest

/-! ## Scalars -/

/-- What a scalar stands for, with the text of a binary one decoded. -/
def meaningOfScalar (tag text : Text) : Except Problem Meaning :=
  if tag = Kind.binary.tag then
    match text.ofBase64? with
    | some t => .ok (.string t)
    | none => .error (.general (utf8 "!!binary value contains invalid base64 data"))
  else meaning tag text

/-- The text of a scalar as it is taken into a record: what is written, or what is decoded. -/
def textOfScalar (tag text : Text) : Meaning → Option Text
  | .null => none
  | .string t => some (if tag = Kind.binary.tag then t else text)
  | _ => some text

/-- The words for a truth value that are texts elsewhere. -/
def truthWords : List (String × Bool) :=
  [("y", true), ("Y", true), ("yes", true), ("Yes", true), ("YES", true), ("on", true), ("On", true), ("ON", true),
    ("n", false), ("N", false), ("no", false), ("No", false), ("NO", false), ("off", false), ("Off", false),
    ("OFF", false)]

/-- The truth value of a meaning. -/
def truth? : Meaning → Option Bool
  | .bool b => some b
  | .string t => (truthWords.find? (utf8 ·.1 = t)).map (·.2)
  | _ => none

/-- The integer of a meaning, in the range of 64 bits. A number loses its fraction; what is out of range below counts as the
least integer. -/
def integer? : Meaning → Option Int
  | .int n => if n < Nat.pow 2 63 then some n else none
  | .float x =>
    match x with
    | .nan => none
    | .infinite negative => if negative then some (-(Nat.pow 2 63)) else none
    | .finite negative m =>
      let whole : Nat := m.units / Number.unitsPerOne
      if negative then some (if whole ≤ Nat.pow 2 63 then -(whole : Int) else -(Nat.pow 2 63))
      else if whole < Nat.pow 2 63 then some whole
      else if m.units = Nat.pow 2 63 * Number.unitsPerOne then some (-(Nat.pow 2 63))
      else none
  | _ => none

/-! ## Filling a record -/

/-- The state of reading a document by a shape. -/
structure Filling (σ : Type) where
  value : σ
  complaints : List Text
  /-- The names that a mapping which is being merged does not give any more. -/
  given : Option (List Text)
  /-- The places of the references that are being followed. -/
  followed : List Mark
  /-- How many nodes have been read. -/
  nodes : Nat
  /-- How many of them have been read through references. -/
  distant : Nat

/-- Reads nodes by shapes. -/
abbrev Filler (σ : Type) := StateT (Filling σ) (Except Problem)

namespace Filling

variable {σ : Type}

/-- The start of reading a document. -/
def start (value : σ) : Filling σ :=
  ⟨value, [], none, [], 1, 0⟩

/-- Whether so many of the nodes were read through references that the document must be meant to explode: all but one in a
hundred, and fewer of them the more nodes there are. -/
def isExplosion (nodes distant : Nat) : Bool :=
  decide (100 < distant) && decide (1000 < nodes) &&
    (if nodes ≤ 400000 then decide (99 * nodes < 100 * distant)
    else if nodes < 4000000 then
      decide ((99 * 3600000 - 89 * (nodes - 400000)) * nodes < 100 * 3600000 * distant)
    else decide (nodes < 10 * distant))

/-- Counts a node. -/
def count : Filler σ Unit := do
  let f ← get
  let distant := if f.followed.isEmpty then f.distant else f.distant + 1
  if isExplosion (f.nodes + 1) distant then throw (.general (utf8 "document contains excessive aliasing"))
  else set { f with nodes := f.nodes + 1, distant := distant }

/-- Adds complaints. -/
def complain (complaints : List Text) : Filler σ Unit :=
  modify fun f => { f with complaints := f.complaints ++ complaints }

/-- Changes the value. -/
def put (change : σ → σ) : Filler σ Unit :=
  modify fun f => { f with value := change f.value }

/-- Reads a node, or the one that it refers to. A reference may not be met again while it is followed. -/
def visit {α : Type} (nodes : List (Nat × Node)) (node : Node) (read : Node → Filler σ α) : Filler σ α := do
  count
  match node with
  | .reference place name number => do
    if (← get).followed.contains place then
      throw (.general (utf8 "anchor '" ++ name ++ utf8 "' value contains itself"))
    else do
      modify fun f => { f with followed := place :: f.followed }
      count
      let result ← read ((nodes.find? (·.1 = number)).elim default (·.2))
      modify fun f => { f with followed := f.followed.drop 1 }
      return result
  | node => read node

/-- Complains that a node does not fit, or that it repeats keys. -/
def complainAbout (node : Node) (type : String) : Filler σ Unit :=
  let repeated := match node with
    | .mapping _ _ entries => repeatedKeys (entries.map (·.1))
    | _ => []
  complain (if repeated.isEmpty then [misfit node type] else repeated)

/-- Reads a text, which any scalar is that stands for something. -/
def readText (nodes : List (Nat × Node)) (node : Node) : Filler σ (Option Text) :=
  visit nodes node fun
    | .scalar _ tag text => do return textOfScalar tag text (← meaningOfScalar tag text)
    | node => do
      complainAbout node "string"
      return none

/-- The name of a key, if that is a string. -/
def readName (nodes : List (Nat × Node)) (node : Node) : Filler σ (Option Text) :=
  visit nodes node fun
    | .scalar _ tag text => do
      match ← meaningOfScalar tag text with
      | .string t => return some t
      | _ => return none
    | _ => return none

/-- Whether a key merges other mappings. -/
def isMerge : Node → Bool
  | .scalar _ tag text => tag = Kind.merge.tag && text = utf8 "<<"
  | _ => false

/-- What has been met among the entries of a mapping. -/
structure Pass where
  given : Option (List Text)
  /-- The names of the fields that have been set. -/
  done : List Text
  /-- The value of the key that merges other mappings. -/
  merge : Option Node

/-- The complaint about a key. -/
def complainOfField (key : Node) (name : Text) (what : String) (type : String) : Filler σ Unit :=
  complain [complaint key.line (utf8 "field " ++ name ++ utf8 what ++ utf8 type)]

/-- Reads an entry of a record whose fields `readField` reads. -/
def readEntry (nodes : List (Nat × Node)) (type : String) (fields : List (String × Shape σ))
    (readField : Shape σ → Node → Filler σ Unit) (p : Pass) : Node × Node → Filler σ Pass
  | (key, value) => do
    if isMerge key then return { p with merge := some value }
    else match ← readText nodes key with
      | none => return p
      | some name =>
        if p.given.any (·.contains name) then return p
        else
          let p := { p with given := p.given.map (name :: ·) }
          match fields.find? (utf8 ·.1 = name) with
          | none => do
            complainOfField key name " not found in type " type
            return p
          | some (_, shape) =>
            if p.done.contains name then do
              complainOfField key name " already set in type " type
              return p
            else do
              readField shape value
              return { p with done := name :: p.done }

/-- The mappings that a value merges. -/
def merged (nodes : List (Nat × Node)) : Node → Option (List Node)
  | .mapping line tag entries => some [.mapping line tag entries]
  | .reference place name number =>
    match nodes.find? (·.1 = number) with
    | some (_, .mapping _ _ _) => some [.reference place name number]
    | _ => none
  | _ => none

/-- Merges mappings into a record that `readMerged` reads. A value that is no mapping is a problem when it is met. -/
def mergeAll (nodes : List (Nat × Node)) (readMerged : Node → Filler σ Unit) (value : Node) : Filler σ Unit :=
  let items := match value with
    | .sequence _ _ items => items
    | node => [node]
  items.forM fun item =>
    match merged nodes item with
    | some maps => maps.forM readMerged
    | none => throw (.general (utf8 "map merge requires map or sequence of maps as the value"))

/-- Merges mappings into a record that has entries of its own, after those have been read. -/
def merge (nodes : List (Nat × Node)) (entries : List (Node × Node)) (readMerged : Node → Filler σ Unit)
    (value : Node) : Filler σ Unit := do
  match (← get).given with
  | some _ => mergeAll nodes readMerged value
  | none => do
    let names ← entries.mapM fun (key, _) => readName nodes key
    modify fun f => { f with given := some (names.filterMap id) }
    mergeAll nodes readMerged value
    modify fun f => { f with given := none }

/-- Reads a node by a shape, in at most `n` steps. -/
def fill (nodes : List (Nat × Node)) : Nat → Shape σ → Node → Filler σ Unit
  | 0, _, _ => return ()
  | n + 1, shape, node =>
    match shape with
    | .text f => do
      if let some t ← readText nodes node then put (f t)
    | .truth f =>
      visit nodes node fun
        | .scalar line tag text => do
          match ← meaningOfScalar tag text with
          | .null => put (f none)
          | m => match truth? m with
            | some b => put (f (some b))
            | none => complainAbout (.scalar line tag text) "bool"
        | node => complainAbout node (if node.tag = Kind.null.tag then "*bool" else "bool")
    | .integer f =>
      visit nodes node fun
        | .scalar line tag text => do
          match ← meaningOfScalar tag text with
          | .null => return ()
          | m => match integer? m with
            | some i => put (f i)
            | none => complainAbout (.scalar line tag text) "int64"
        | node => complainAbout node "int64"
    | .record type fields =>
      visit nodes node fun
        | .scalar line tag text => do
          match ← meaningOfScalar tag text with
          | .null => return ()
          | _ => complainAbout (.scalar line tag text) type
        | .mapping line tag entries =>
          if (repeatedKeys (entries.map (·.1))).isEmpty then do
            let given := (← get).given
            modify fun f => { f with given := none }
            let p ← entries.foldlM (readEntry nodes type fields (fill nodes n)) ⟨given, [], none⟩
            modify fun f => { f with given := p.given }
            match p.merge with
            | some value => merge nodes entries (fill nodes n (.record type fields)) value
            | none => return ()
          else complainAbout (.mapping line tag entries) type
        | node => complainAbout node type

end Filling

/-- Fills a value from a document by a shape, or says what is wrong with the document. -/
def Root.fill {σ : Type} (root : Root) (shape : Shape σ) (value : σ) : Except Text σ :=
  match (Filling.fill root.nodes root.bound shape root.node).run (Filling.start value) with
  | .error p => .error p.text
  | .ok ((), f) =>
    if f.complaints.isEmpty then .ok f.value
    else .error (utf8 "yaml: unmarshal errors:" ++ f.complaints.flatMap (utf8 "\n  " ++ ·))

end Jolt.Yaml
