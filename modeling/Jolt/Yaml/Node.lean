import Jolt.Yaml.Tag
import Jolt.Yaml.Token

/-!
# YAML nodes

Tokens are put together to the tree of the first document of a stream. Every node knows the line it starts on, counted
from one, and its tag. A node that has a name is noted under a number when it is complete, and a reference holds the number
of the node that last got its name; so a node can refer to itself. What follows the first document is not looked at.
-/

namespace Jolt.Yaml

/-- A node of a document. -/
inductive Node where
  | scalar (line : Nat) (tag : Text) (text : Text)
  | sequence (line : Nat) (tag : Text) (items : List Node)
  | mapping (line : Nat) (tag : Text) (entries : List (Node × Node))
  /-- The place of a reference, which no other one has, its name, and the number of its node. -/
  | reference (place : Mark) (name : Text) (number : Nat)

namespace Node

instance : Inhabited Node := ⟨.scalar 0 [] []⟩

/-- The line a node starts on. -/
def line : Node → Nat
  | scalar n _ _ | sequence n _ _ | mapping n _ _ => n
  | reference m _ _ => m.line + 1

/-- The tag of a node. -/
def tag : Node → Text
  | scalar _ t _ | sequence _ t _ | mapping _ t _ => t
  | reference _ _ _ => []

/-- The node where nothing is written. -/
def empty (m : Mark) : Node :=
  .scalar (m.line + 1) Kind.null.tag []

end Node

/-- What stands before a node: where that starts, its tag and its name. -/
structure Properties where
  mark : Mark
  tag : Option Text
  anchor : Option Text

namespace Properties

/-- Whether nothing stands before a node. -/
def isEmpty (p : Properties) : Bool :=
  p.tag.isNone && p.anchor.isNone

/-- The tag of a node that has `own` without one. A lone exclamation mark is none. -/
def tagOr (p : Properties) (own : Text) : Text :=
  match p.tag with
  | some t => if t = utf8 "!" then own else shortTag t
  | none => own

/-- The scalar behind the properties. -/
def scalar (p : Properties) (text : Text) (plain : Bool) : Node :=
  .scalar (p.mark.line + 1) (p.tagOr (tagOfText plain text)) text

/-- The sequence behind the properties. -/
def sequence (p : Properties) (items : List Node) : Node :=
  .sequence (p.mark.line + 1) (p.tagOr Kind.sequence.tag) items

/-- The mapping behind the properties. -/
def mapping (p : Properties) (entries : List (Node × Node)) : Node :=
  .mapping (p.mark.line + 1) (p.tagOr Kind.mapping.tag) entries

end Properties

/-- The state of reading nodes. -/
structure Reading where
  stream : Stream
  /-- What handles stand for. -/
  handles : List (Text × Text)
  /-- The numbers of the nodes that have names, the last one first. -/
  names : List (Text × Nat)
  /-- The complete nodes that have names. -/
  nodes : List (Nat × Node)

/-- Reads a value off the tokens. -/
abbrev Reader := StateT Reading (Except Problem)

namespace Reading

/-- The next token. -/
def peek : Reader Token := do
  let r ← get
  let (token, stream) ← r.stream.peek
  set { r with stream := stream }
  return token

/-- Goes behind the next token. -/
def skip : Reader Unit :=
  modify fun r => { r with stream := r.stream.take }

/-- Whether the next token is one of these; a flat token has no parts. -/
def isNext (signs : List Sign) : Reader Bool := do
  return signs.contains (← peek).sign

/-- What a tag stands for. -/
def expand (start place : Mark) (t : WrittenTag) : Reader Text := do
  if t.handle.isEmpty then return t.suffix
  else match (← get).handles.find? (·.1 = t.handle) with
    | some (_, stem) => return stem ++ t.suffix
    | none => throw (.ofTokens start place "found undefined tag handle")

/-- Reads what stands before a node. -/
def readProperties : Reader Properties := do
  let token ← peek
  match token.sign with
  | .anchor name => do
    skip
    let second ← peek
    match second.sign with
    | .tag t => do
      skip
      let _ ← peek
      return ⟨token.mark, some (← expand token.mark second.mark t), some name⟩
    | _ => return ⟨token.mark, none, some name⟩
  | .tag t => do
    skip
    let second ← peek
    match second.sign with
    | .anchor name => do
      skip
      let _ ← peek
      return ⟨token.mark, some (← expand token.mark token.mark t), some name⟩
    | _ => return ⟨token.mark, some (← expand token.mark token.mark t), none⟩
  | _ => return ⟨token.mark, none, none⟩

/-- Gives a name to the node that is read next, and gives the number of that node. -/
def declare (name : Text) : Reader Nat := do
  let r ← get
  set { r with names := (name, r.names.length) :: r.names }
  return r.names.length

/-- Notes a complete node. -/
def note (number : Option Nat) (node : Node) : Reader Unit :=
  match number with
  | some n => modify fun r => { r with nodes := (n, node) :: r.nodes }
  | none => return ()

/-- A reference to the node that has a name. -/
def referenceTo (place : Mark) (name : Text) : Reader Node := do
  match (← get).names.find? (·.1 = name) with
  | some (_, number) => return .reference place name number
  | none => throw (.general (utf8 "unknown anchor '" ++ name ++ utf8 "' referenced"))

/-- The complaint about a token that starts no node. -/
def noContent (start : Mark) (token : Token) : Problem :=
  .ofTokens start token.mark "did not find expected node content"

mutual

/-- Reads a node, in at most `n` steps. A block collection can stand only where `block` holds, a sequence without
indentation of its own only where `indentless` holds. -/
def readNode (n : Nat) (block indentless : Bool) : Reader Node := do
  let token ← peek
  match n with
  | 0 => throw (noContent token.mark token)
  | n + 1 =>
    match token.sign with
    | .reference name => do
      skip
      referenceTo token.mark name
    | _ => do
      let p ← readProperties
      let number ← p.anchor.mapM declare
      let node ← readContent n block indentless p
      note number node
      return node

/-- Reads a node behind its properties. Where only properties are written the node is empty. -/
def readContent (n : Nat) (block indentless : Bool) (p : Properties) : Reader Node := do
  let token ← peek
  match n with
  | 0 => throw (noContent p.mark token)
  | n + 1 =>
    match token.sign, block, indentless with
    | .scalar text plain, _, _ => do
      skip
      return p.scalar text plain
    | .flowSequenceStart, _, _ => do
      skip
      return p.sequence (← readFlowItems n token.mark true)
    | .flowMappingStart, _, _ => do
      skip
      return p.mapping (← readFlowEntries n token.mark true)
    | .blockSequenceStart, true, _ => do
      skip
      return p.sequence (← readBlockItems n token.mark)
    | .blockMappingStart, true, _ => do
      skip
      return p.mapping (← readBlockEntries n token.mark)
    | .blockEntry, _, true => return p.sequence (← readIndentlessItems n)
    | _, _, _ => if p.isEmpty then throw (noContent p.mark token) else return p.scalar [] true

/-- Reads the entries of a block sequence. -/
def readBlockItems (n : Nat) (start : Mark) : Reader (List Node) := do
  let token ← peek
  match n with
  | 0 => throw (.ofTokens start token.mark "did not find expected '-' indicator")
  | n + 1 =>
    match token.sign with
    | .blockEnd => do
      skip
      return []
    | .blockEntry => do
      skip
      let item ←
        if ← isNext [.blockEntry, .blockEnd] then pure (Node.empty token.mark)
        else readNode n true false
      return item :: (← readBlockItems n start)
    | _ => throw (.ofTokens start token.mark "did not find expected '-' indicator")

/-- Reads the entries of a sequence that is indented like the mapping it is in. -/
def readIndentlessItems (n : Nat) : Reader (List Node) := do
  let token ← peek
  match n with
  | 0 => return []
  | n + 1 =>
    if token.sign = .blockEntry then do
      skip
      let item ←
        if ← isNext [.blockEntry, .key, .value, .blockEnd] then pure (Node.empty token.mark)
        else readNode n true false
      return item :: (← readIndentlessItems n)
    else return []

/-- Reads the keys and values of a block mapping. -/
def readBlockEntries (n : Nat) (start : Mark) : Reader (List (Node × Node)) := do
  let token ← peek
  match n with
  | 0 => throw (.ofTokens start token.mark "did not find expected key")
  | n + 1 =>
    match token.sign with
    | .blockEnd => do
      skip
      return []
    | .key => do
      skip
      let key ←
        if ← isNext [.key, .value, .blockEnd] then pure (Node.empty token.mark)
        else readNode n true true
      let value ← readBlockValue n
      return (key, value) :: (← readBlockEntries n start)
    | _ => throw (.ofTokens start token.mark "did not find expected key")

/-- Reads the value of a block mapping entry, if there is one. -/
def readBlockValue (n : Nat) : Reader Node := do
  let token ← peek
  match n with
  | 0 => return Node.empty token.mark
  | n + 1 =>
    if token.sign = .value then do
      skip
      if ← isNext [.key, .value, .blockEnd] then return Node.empty token.mark
      else readNode n true true
    else return Node.empty token.mark

/-- Reads the items of a bracketed sequence. -/
def readFlowItems (n : Nat) (start : Mark) (first : Bool) : Reader (List Node) := do
  let token ← peek
  match n with
  | 0 => throw (.ofTokens start token.mark "did not find expected ',' or ']'")
  | n + 1 =>
    if token.sign = .flowSequenceEnd then do
      skip
      return []
    else if !first && token.sign ≠ .flowEntry then
      throw (.ofTokens start token.mark "did not find expected ',' or ']'")
    else do
      if !first then skip
      let token ← peek
      if token.sign = .flowSequenceEnd then do
        skip
        return []
      else if token.sign = .key then do
        skip
        let entry ← readFlowPair n
        return .mapping (token.mark.line + 1) Kind.mapping.tag [entry] :: (← readFlowItems n start false)
      else do
        let item ← readNode n false false
        return item :: (← readFlowItems n start false)

/-- Reads a key and its value among the items of a bracketed sequence. A key that is missing takes the token in its place
with it. -/
def readFlowPair (n : Nat) : Reader (Node × Node) := do
  let token ← peek
  match n with
  | 0 => return (Node.empty token.mark, Node.empty token.mark)
  | n + 1 => do
    let key ←
      if ← isNext [.value, .flowEntry, .flowSequenceEnd] then do
        skip
        pure (Node.empty token.mark)
      else readNode n false false
    let value ← readFlowValue n .flowSequenceEnd
    let _ ← peek
    return (key, value)

/-- Reads the keys and values of a bracketed mapping. -/
def readFlowEntries (n : Nat) (start : Mark) (first : Bool) : Reader (List (Node × Node)) := do
  let token ← peek
  match n with
  | 0 => throw (.ofTokens start token.mark "did not find expected ',' or '\x7d'")
  | n + 1 =>
    if token.sign = .flowMappingEnd then do
      skip
      return []
    else if !first && token.sign ≠ .flowEntry then
      throw (.ofTokens start token.mark "did not find expected ',' or '\x7d'")
    else do
      if !first then skip
      let token ← peek
      if token.sign = .flowMappingEnd then do
        skip
        return []
      else if token.sign = .key then do
        skip
        let following ← peek
        let key ←
          if ← isNext [.value, .flowEntry, .flowMappingEnd] then pure (Node.empty following.mark)
          else readNode n false false
        let value ← readFlowValue n .flowMappingEnd
        return (key, value) :: (← readFlowEntries n start false)
      else do
        let key ← readNode n false false
        let following ← peek
        return (key, Node.empty following.mark) :: (← readFlowEntries n start false)

/-- Reads a value in brackets that `close` closes, if there is one. -/
def readFlowValue (n : Nat) (close : Sign) : Reader Node := do
  let token ← peek
  match n with
  | 0 => return Node.empty token.mark
  | n + 1 =>
    if token.sign = .value then do
      skip
      let following ← peek
      if ← isNext [.flowEntry, close] then return Node.empty following.mark
      else readNode n false false
    else return Node.empty token.mark

end

/-! ## Documents -/

/-- What handles stand for by themselves. -/
def standardHandles : List (Text × Text) :=
  [(utf8 "!", utf8 "!"), (utf8 "!!", standardStem)]

/-- Takes note of one directive; `versioned` says whether a version was given before. -/
def addDirective (versioned : Bool) (place : Mark) : Directive → Reader Bool
  | .version major minor =>
    if versioned then throw (.ofTokens place place "found duplicate %YAML directive")
    else if major ≠ 1 ∨ minor ≠ 1 then throw (.ofTokens place place "found incompatible YAML document")
    else return true
  | .tag handle stem => do
    let r ← get
    if r.handles.any (·.1 = handle) then throw (.ofTokens place place "found duplicate %TAG directive")
    else
      set { r with handles := r.handles ++ [(handle, stem)] }
      return versioned

/-- Reads the directives before a document, at most `n` of them. -/
def readDirectives : Nat → Bool → Reader Unit
  | 0, _ => return ()
  | n + 1, versioned => do
    let token ← peek
    match token.sign with
    | .directive d => do
      let versioned ← addDirective versioned token.mark d
      skip
      readDirectives n versioned
    | _ => modify fun r =>
      { r with handles := r.handles ++ standardHandles.filter fun h => !(r.handles.any (·.1 = h.1)) }

/-- Reads the node of a document in at most `n` steps. An explicit document may be empty. -/
def readRoot (n : Nat) (explicit : Bool) : Reader Node := do
  let token ← peek
  match explicit, token.sign with
  | true, .directive _ | true, .documentStart | true, .documentEnd | true, .streamEnd => return Node.empty token.mark
  | _, _ => readNode n true false

/-- Reads the first document of a stream in at most `n` steps; there may be none. The token behind it is looked at. -/
def readDocument (n : Nat) : Reader (Option Node) := do
  let _ ← peek
  skip
  let token ← peek
  match token.sign with
  | .streamEnd => return none
  | .directive _ | .documentStart => do
    readDirectives n false
    let token ← peek
    if token.sign ≠ .documentStart then
      throw (.ofTokens token.mark token.mark "did not find expected <document start>")
    skip
    let node ← readRoot n true
    let _ ← peek
    return some node
  | _ => do
    readDirectives n false
    let node ← readRoot n false
    let _ ← peek
    return some node

end Reading

/-- A document: its tree, and the nodes in it that have names. -/
structure Root where
  node : Node
  nodes : List (Nat × Node)
  /-- More than the depth of the tree, also through references. -/
  bound : Nat

/-- The first document of a stream; a stream may hold none. -/
def document (t : Text) : Except Problem (Option Root) := do
  let source := Source.ofText t
  let n := 16 * source.characters.length + 16
  let (node, r) ← (Reading.readDocument n).run ⟨.start source, [], [], []⟩
  .ok (node.map fun node => ⟨node, r.nodes, n * n⟩)

end Jolt.Yaml
