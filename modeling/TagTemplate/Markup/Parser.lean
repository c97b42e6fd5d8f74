import TagTemplate.Markup.Lexer
import TagTemplate.Markup.Node

/-!
# Building the tree

Opening and closing tags have to nest. A tag is built when it is complete: a dotted name stands for
nested tags, the innermost of which takes the attributes and what is enclosed; a value that holds a
tag is compiled as markup.
-/

namespace TagTemplate.Markup

/-- What a tag name says: an extension, the names of the outer tags, and the name of the tag. -/
structure TagPath where
  extension : Option String
  outer : List String
  name : String
  deriving DecidableEq, Repr

/-- Reads a tag name. Every part between colons and dots has to be non-empty, and there is at most
one colon. -/
def TagPath.ofName? (name : String) : Option TagPath :=
  let cs := name.toList
  let (extension, path) := match cs.dropWhile (· != ':') with
    | [] => (none, cs)
    | _ :: path => (some (cs.takeWhile (· != ':')), path)
  let segments := Text.pieces '.' path
  if extension = some [] || path.contains ':' || segments.any List.isEmpty then none
  else
    match segments.getLast? with
    | none => none
    | some last =>
      some ⟨extension.map String.ofList, segments.dropLast.map String.ofList, String.ofList last⟩

def nest (outer : List String) (leaf : Tag) : Tag :=
  match outer with
  | [] => leaf
  | name :: names => ⟨name, none, [], [.tag (nest names leaf)], false⟩

/-- The tag of a path. The extension belongs to the outermost name. -/
def TagPath.build (path : TagPath) (attributes : List (String × AttributeValue))
    (children : List Node) (selfClosing : Bool) : Tag :=
  let leaf : Tag := ⟨path.name, none, attributes, children, selfClosing⟩
  { nest path.outer leaf with extension := path.extension }

def compileAttributes (compile : RawAttribute → Except Failure AttributeValue) :
    List RawAttribute → Except Failure (List (String × AttributeValue))
  | [] => .ok []
  | a :: as =>
    match compile a with
    | .error failure => .error failure
    | .ok value =>
      match compileAttributes compile as with
      | .error failure => .error failure
      | .ok values => .ok ((a.name, value) :: values)

/-- The node of a complete tag. Of several values for one attribute the last counts. -/
def Opening.build (compile : RawAttribute → Except Failure AttributeValue) (tag : Opening)
    (children : List Node) : Except Failure Node :=
  match TagPath.ofName? tag.name with
  | none => .error ⟨.invalidName, tag.offset, tag.source⟩
  | some path =>
    match compileAttributes compile tag.attributes with
    | .error failure => .error failure
    | .ok pairs => .ok (.tag (path.build (OrderedMap.ofPairs pairs) children tag.selfClosing))

structure OpenTag where
  tag : Opening
  before : List Node

/-- Builds the nodes of the remaining tokens inside the open tags, innermost first. The nodes since
the innermost one are given last one first. -/
def assemble (compile : RawAttribute → Except Failure AttributeValue) :
    List OpenTag → List Node → List Token → Except Failure (List Node)
  | [], nodes, [] => .ok nodes.reverse
  | frame :: _, _, [] => .error ⟨.unclosed, frame.tag.offset, frame.tag.source⟩
  | frames, nodes, .text value _ :: ts => assemble compile frames (.text value :: nodes) ts
  | frames, nodes, .opening tag :: ts =>
    if tag.selfClosing then
      match tag.build compile [] with
      | .error failure => .error failure
      | .ok node => assemble compile frames (node :: nodes) ts
    else assemble compile (⟨tag, nodes⟩ :: frames) [] ts
  | [], _, .closing _ source offset :: _ => .error ⟨.strayClosing, offset, source⟩
  | frame :: frames, nodes, .closing name source offset :: ts =>
    if frame.tag.name = name then
      match frame.tag.build compile nodes.reverse with
      | .error failure => .error failure
      | .ok node => assemble compile frames (node :: frame.before) ts
    else .error ⟨.mismatchedClosing frame.tag.name, offset, source⟩

def holdsTag (cs : List Char) : Bool :=
  match cs with
  | [] => false
  | c :: r => openMark.isPrefixOf (c :: r) || holdsTag r

/-- The nodes of a window. An attribute value is a window of its own, which its quotation mark
follows; being part of the text it is shorter than it. -/
def parseWindow (beyond : Option Char) (offset : Nat) (cs : List Char) :
    Except Failure (List Node) :=
  match lex beyond offset cs with
  | .error failure => .error failure
  | .ok tokens =>
    assemble (fun a =>
      if holdsTag a.value then
        if _h : a.value.length < cs.length then
          match parseWindow (some a.quote) a.offset a.value with
          | .error failure => .error failure
          | .ok nodes => .ok (.markup nodes)
        else .ok (.markup [])
      else .ok (.literal (String.ofList a.value))) [] [] tokens
termination_by cs.length

def compile (text : String) (template : Option String) : Except CompileError (List Node) :=
  match parseWindow none 0 text.toList with
  | .ok nodes => .ok nodes
  | .error failure => .error (failure.locate text.toList template)

end TagTemplate.Markup
