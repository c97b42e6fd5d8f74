import TagTemplate.Yaml.Block
import TagTemplate.Yaml.Plain
import TagTemplate.Yaml.Quoted
import TagTemplate.Text.Integer

/-!
# Tokens of documents

The begin and the end of every block and of every pair of brackets, the marks between entries, keys
and values, and the scalars. Nodes may have properties: an anchor to refer to them by, and a tag.
Directives stand before a document.
-/

namespace TagTemplate.Yaml

inductive Directive where
  | version (major minor : Nat)
  | tag (handle start : String)
  | other
  deriving DecidableEq, Repr

/-- A tag as it is written: a handle that stands for the begin of its name, and the rest. -/
structure TagName where
  handle : Option String
  suffix : String
  deriving DecidableEq, Repr

/-- A token of a document. -/
inductive Token where
  | streamEnd
  | directive (d : Directive)
  | documentStart
  | documentEnd
  | blockSequenceStart
  | blockMappingStart
  | blockEnd
  | flowSequenceStart
  | flowSequenceEnd
  | flowMappingStart
  | flowMappingEnd
  | blockEntry
  | flowEntry
  | key
  | value
  | alias (name : String)
  | anchor (name : String)
  | tag (name : TagName)
  | scalar (plain : Bool) (text : List Char)
  deriving DecidableEq, Repr

def isNameChar (c : Char) : Bool := c.isAlphanum || c == '-' || c == '_'

def isTagChar (c : Char) : Bool := c.isAlphanum || "-;/?:@&=+$,_.!~*'()[]".contains c

def endsAnchor (c : Char) : Bool :=
  isSpace c || isBreak c || "?:,]\x7d%@".contains c || c == '\x60'

def readName (k : Cursor) : Except DocumentFault (String × Cursor) :=
  let (name, k) := k.span isNameChar
  if name.isEmpty then .error .malformed else .ok (String.ofList name, k)

def readAnchor (k : Cursor) : Except DocumentFault (String × Cursor) := do
  let (name, k) ← readName k.next
  if meets endsAnchor k.rest then return (name, k) else .error .malformed

def readTagBytes : Nat → Cursor → Except DocumentFault (List UInt8 × Cursor)
  | 0, k => .ok ([], k)
  | fuel + 1, k =>
    match k.rest with
    | '%' :: a :: b :: _ =>
      if isHexDigit a && isHexDigit b then do
        let (bytes, k) ← readTagBytes fuel (k.advance 3)
        return ((16 * hexValue a + hexValue b).toUInt8 :: bytes, k)
      else .error .malformed
    | '%' :: _ => .error .malformed
    | _ => .ok ([], k)

def readTagText : Nat → Cursor → Except DocumentFault (List Char × Cursor)
  | 0, k => .ok ([], k)
  | fuel + 1, k =>
    match k.rest with
    | '%' :: _ => do
      let (bytes, k) ← readTagBytes k.steps k
      let some decoded := String.fromUTF8? ⟨bytes.toArray⟩ | .error .malformed
      let (rest, k) ← readTagText fuel k
      return (decoded.toList ++ rest, k)
    | c :: _ =>
      if isTagChar c then do
        let (rest, k) ← readTagText fuel k.next
        return (c :: rest, k)
      else .ok ([], k)
    | [] => .ok ([], k)

/-- The name of a tag or the begin of one. At least one character has to be there. -/
def readTagStart (k : Cursor) : Except DocumentFault (String × Cursor) := do
  let (text, after) ← readTagText k.steps k
  if after.index = k.index then .error .malformed else return (String.ofList text, after)

/-- A handle: an exclamation mark, or a name between two of them. -/
def readHandle (k : Cursor) : Except DocumentFault (String × Cursor) :=
  if k.rest.head? ≠ some '!' then .error .malformed
  else
    let (name, k) := k.next.span isNameChar
    match k.rest.head? with
    | some '!' => .ok ("!" ++ String.ofList name ++ "!", k.next)
    | some ' ' => if name.isEmpty then .ok ("!", k) else .error .malformed
    | _ => .error .malformed

def hasHandle (cs : List Char) : Bool :=
  (cs.takeWhile fun c => c != ' ' && !isBreak c).contains '!'

def readTag (k : Cursor) : Except DocumentFault (TagName × Cursor) := do
  let (name, k) ← match k.next.rest with
    | '<' :: _ => do
      let (suffix, k) ← readTagStart (k.advance 2)
      if k.rest.head? = some '>' then pure (⟨none, suffix⟩, k.next) else .error .malformed
    | cs =>
      if atBlank cs then pure (⟨none, "!"⟩, k.next)
      else do
        let (handle, k) ← if hasHandle cs then readHandle k else pure ("!", k.next)
        let (suffix, k) ← readTagStart k
        pure (⟨some handle, suffix⟩, k)
  if atSpace k.rest then return (name, k) else .error .malformed

def readVersionPart (k : Cursor) : Except DocumentFault (Nat × Cursor) :=
  let (digits, k) := k.span Char.isDigit
  if digits.isEmpty then .error .malformed
  else
    match Text.readNatural? digits with
    | some n => .ok (n, k)
    | none => .error .notValue

def readDirectiveBody (name : String) (k : Cursor) : Except DocumentFault (Directive × Cursor) :=
  match name with
  | "YAML" => do
    let (major, k) ← readVersionPart k.skipSpaces
    if k.rest.head? ≠ some '.' then .error .malformed
    let (minor, k) ← readVersionPart k.next
    if atSpace k.rest then return (.version major minor, k) else .error .malformed
  | "TAG" => do
    let (handle, k) ← readHandle k.skipSpaces
    if k.rest.head? ≠ some ' ' then .error .malformed
    let (start, k) ← readTagStart k.skipSpaces
    if atSpace k.rest then return (.tag handle start, k) else .error .malformed
  | _ => .ok (.other, k.skip fun c => !isBreak c)

def readDirective (k : Cursor) : Except DocumentFault (Directive × Cursor) := do
  let (name, k) ← readName k.next
  if !atSpace k.rest then .error .malformed
  let (directive, k) ← readDirectiveBody name k
  return (directive, ← k.restOfLine)

end TagTemplate.Yaml
