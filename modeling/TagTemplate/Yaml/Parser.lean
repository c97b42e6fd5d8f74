import TagTemplate.Yaml.Lexer
import TagTemplate.Yaml.Node

/-!
# Reading nodes

A document is read into a tree of nodes, one token at a time: a token is only read when the node
before it is complete. Nodes that are left out are empty scalars. An alias stands for the node that
has its anchor; the entries of a mapping that a merge key refers to are put in front. Reading takes
a step budget that grows with the text, so that it suffices for every document.
-/

namespace TagTemplate.Yaml

/-- A document that is being read: its tokens, the handles of its tags, the nodes with anchors, and
the anchors whose nodes are not complete yet. -/
structure Reader where
  lexer : Lexer
  handles : List (String × String) := []
  anchors : List (String × Node) := []
  unfinished : List String := []

abbrev Read := StateT Reader (Except DocumentFault)

namespace Read

def fail {α : Type} : Read α := fun _ => .error .malformed

def peek : Read Token := fun r => do
  let (t, lexer) ← r.lexer.peek
  return (t, { r with lexer })

def take : Read Token := fun r => do
  let (t, lexer) ← r.lexer.peek
  return (t, { r with lexer := lexer.take })

def takeIf (t : Token) : Read Bool := do
  if (← peek) = t then
    let _ ← take
    return true
  else return false

/-- The next token is this one: takes it. -/
def expect (t : Token) : Read Unit := do
  if !(← takeIf t) then fail

end Read

def emptyNode : Node := .scalar .null []

structure Properties where
  anchor : Option String := none
  tag : Option String := none

def tagName (name : TagName) : Read String := fun r =>
  match name.handle with
  | none => .ok (name.suffix, r)
  | some handle =>
    match r.handles.lookup handle with
    | some start => .ok (start ++ name.suffix, r)
    | none => .error .malformed

def readProperties : Read Properties := do
  match ← Read.peek with
  | .anchor anchor => do
    let _ ← Read.take
    match ← Read.peek with
    | .tag name => do
      let _ ← Read.take
      return ⟨some anchor, some (← tagName name)⟩
    | _ => return ⟨some anchor, none⟩
  | .tag name => do
    let _ ← Read.take
    match ← Read.peek with
    | .anchor anchor => do
      let _ ← Read.take
      return ⟨some anchor, some (← tagName name)⟩
    | _ => return ⟨none, some (← tagName name)⟩
  | _ => return {}

def nonSpecific : String := "!"

def Properties.scalarTag (p : Properties) (plain : Bool) (text : List Char) : Tag :=
  match p.tag with
  | none => if plain then .ofPlain text else .str
  | some name => if name = nonSpecific then .ofPlain text else .ofName name

def Properties.collectionTag (p : Properties) (usual : Tag) : Tag :=
  match p.tag with
  | none => usual
  | some name => if name = nonSpecific then usual else .ofName name

def Properties.check (p : Properties) : Read Unit := fun r =>
  match p.anchor with
  | none => .ok ((), r)
  | some name =>
    if (r.anchors.lookup name).isSome || r.unfinished.contains name then .error .malformed
    else .ok ((), { r with unfinished := name :: r.unfinished })

def Properties.keep (p : Properties) (node : Node) : Read Node := fun r =>
  match p.anchor with
  | none => .ok (node, r)
  | some name => .ok (node, { r with anchors := (name, node) :: r.anchors })

def aliased (name : String) : Read Node := fun r =>
  match r.anchors.lookup name with
  | some node => .ok (node, r)
  | none => .error .malformed

def mergedEntries? : Node → Option (List (Node × Node))
  | .mapping _ entries => some entries
  | .sequence _ items => do
    let merged ← items.mapM fun item =>
      match item with
      | .mapping _ entries => some entries
      | _ => none
    return merged.reverse.flatten
  | .scalar .. => none

def plainKey : Node → Node
  | .scalar .value text => .scalar .str text
  | key => key

/-- What merge keys refer to, followed by the other entries. What cannot be merged leaves an entry
that has no value. -/
def mergeEntries (entries : List (Node × Node)) : List (Node × Node) :=
  let merges := (entries.filter fun e => e.1.tag = .merge).map fun e =>
    (mergedEntries? e.2).getD [(.scalar .unknown [], emptyNode)]
  let others := entries.filter fun e => e.1.tag ≠ .merge
  merges.flatten ++ others.map fun e => (plainKey e.1, e.2)

/-- Where a node stands: whether it may be a block, and whether its items may stand in the column of
the block around it. -/
structure Position where
  block : Bool := false
  indentless : Bool := false

def Position.inBlock : Position := ⟨true, false⟩

def Position.inEntry : Position := ⟨true, true⟩

mutual

def readNode : Nat → Position → Read Node
  | 0, _ => Read.fail
  | fuel + 1, position => do
    match ← Read.peek with
    | .alias name => do
      let _ ← Read.take
      aliased name
    | _ => do
      let p ← readProperties
      let t ← Read.peek
      match t with
      | .scalar plain text => do
        let _ ← Read.take
        p.check
        p.keep (.scalar (p.scalarTag plain text) text)
      | .flowSequenceStart => do
        p.check
        let _ ← Read.take
        p.keep (.sequence (p.collectionTag .seq) (← readFlowItems fuel true))
      | .flowMappingStart => do
        p.check
        let _ ← Read.take
        p.keep (.mapping (p.collectionTag .map) (mergeEntries (← readFlowEntries fuel true)))
      | _ =>
        if t = .blockEntry && position.indentless then do
          p.check
          p.keep (.sequence (p.collectionTag .seq) (← readIndentlessItems fuel))
        else if t = .blockSequenceStart && position.block then do
          p.check
          let _ ← Read.take
          p.keep (.sequence (p.collectionTag .seq) (← readBlockItems fuel))
        else if t = .blockMappingStart && position.block then do
          p.check
          let _ ← Read.take
          p.keep (.mapping (p.collectionTag .map) (mergeEntries (← readBlockEntries fuel)))
        else if p.anchor.isSome || p.tag.isSome then do
          p.check
          p.keep (.scalar (p.scalarTag true []) [])
        else Read.fail

/-- Reads a node, unless it is left out: then one of the given tokens follows. -/
def readOptional : Nat → Position → List Token → Read Node
  | 0, _, _ => Read.fail
  | fuel + 1, position, enders => do
    if enders.contains (← Read.peek) then return emptyNode else readNode fuel position

def readBlockItems : Nat → Read (List Node)
  | 0 => Read.fail
  | fuel + 1 => do
    if ← Read.takeIf .blockEntry then
      let item ← readOptional fuel .inBlock [.blockEntry, .blockEnd]
      return item :: (← readBlockItems fuel)
    else
      Read.expect .blockEnd
      return []

def readIndentlessItems : Nat → Read (List Node)
  | 0 => Read.fail
  | fuel + 1 => do
    if ← Read.takeIf .blockEntry then
      let item ← readOptional fuel .inBlock [.blockEntry, .key, .value, .blockEnd]
      return item :: (← readIndentlessItems fuel)
    else return []

def readBlockEntries : Nat → Read (List (Node × Node))
  | 0 => Read.fail
  | fuel + 1 => do
    let enders := [Token.key, .value, .blockEnd]
    if ← Read.takeIf .key then
      let key ← readOptional fuel .inEntry enders
      let value ←
        if ← Read.takeIf .value then readOptional fuel .inEntry enders else pure emptyNode
      return (key, value) :: (← readBlockEntries fuel)
    else
      Read.expect .blockEnd
      return []

/-- Reads the items between brackets. An item may be a single entry of a mapping. -/
def readFlowItems : Nat → Bool → Read (List Node)
  | 0, _ => Read.fail
  | fuel + 1, first => do
    if ← Read.takeIf .flowSequenceEnd then return []
    if !first then Read.expect .flowEntry
    if ← Read.takeIf .flowSequenceEnd then return []
    let enders := [Token.flowEntry, .flowSequenceEnd]
    let item ←
      if ← Read.takeIf .key then do
        let key ← readOptional fuel {} (.value :: enders)
        let value ← if ← Read.takeIf .value then readOptional fuel {} enders else pure emptyNode
        pure (.mapping .map (mergeEntries [(key, value)]))
      else readNode fuel {}
    return item :: (← readFlowItems fuel false)

/-- Reads the entries between braces. A key may stand alone. -/
def readFlowEntries : Nat → Bool → Read (List (Node × Node))
  | 0, _ => Read.fail
  | fuel + 1, first => do
    if ← Read.takeIf .flowMappingEnd then return []
    if !first then Read.expect .flowEntry
    if ← Read.takeIf .flowMappingEnd then return []
    let enders := [Token.flowEntry, .flowMappingEnd]
    if ← Read.takeIf .key then
      let key ← readOptional fuel {} (.value :: enders)
      let value ← if ← Read.takeIf .value then readOptional fuel {} enders else pure emptyNode
      return (key, value) :: (← readFlowEntries fuel false)
    else
      let key ← readNode fuel {}
      return (key, emptyNode) :: (← readFlowEntries fuel false)

end

def standardHandles : List (String × String) := [("!", "!"), ("!!", standardStart)]

/-- What the directives of a document say: whether there was a version, and the handles. -/
structure Prologue where
  hasVersion : Bool := false
  handles : List (String × String) := []

def Prologue.add (p : Prologue) : Directive → Read Prologue
  | .version major _ =>
    if p.hasVersion || major ≠ 1 then Read.fail else return { p with hasVersion := true }
  | .tag handle start =>
    if (p.handles.lookup handle).isSome then Read.fail
    else return { p with handles := (handle, start) :: p.handles }
  | .other => return p

def readPrologue : Nat → Prologue → Read Prologue
  | 0, _ => Read.fail
  | fuel + 1, p => do
    match ← Read.peek with
    | .directive d => do
      let _ ← Read.take
      readPrologue fuel (← p.add d)
    | _ => return p

def setHandles (handles : List (String × String)) : Read Unit := fun r =>
  .ok ((), { r with handles := handles ++ standardHandles })

def skipDocumentEnds : Nat → Read Unit
  | 0 => Read.fail
  | fuel + 1 => do if ← Read.takeIf .documentEnd then skipDocumentEnds fuel

/-- Reads the begin of a document and its node. After a mark the node may be left out. -/
def readDocument (fuel : Nat) : Read Node := do
  let isMarked ← match ← Read.peek with
    | .directive _ | .documentStart => pure true
    | _ => pure false
  if isMarked then
    setHandles (← readPrologue fuel {}).handles
    Read.expect .documentStart
    match ← Read.peek with
    | .directive _ | .documentStart | .documentEnd | .streamEnd => return emptyNode
    | _ => readNode fuel .inBlock
  else
    setHandles []
    readNode fuel .inBlock

/-- Reads the only document of a text. There need not be any. -/
def readStream (fuel : Nat) : Read (Option Node) := do
  if (← Read.peek) = .streamEnd then return none
  let node ← readDocument fuel
  skipDocumentEnds fuel
  if (← Read.peek) = .streamEnd then return some node else Read.fail

def Node.read (cs : List Char) : Except DocumentFault (Option Node) :=
  let fuel := 8 * (cs.length + 2)
  (readStream fuel |>.run { lexer := { cursor := .start cs } }).map (·.1)

end TagTemplate.Yaml
