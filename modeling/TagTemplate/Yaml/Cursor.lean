import TagTemplate.Fault

/-!
# Places in a document

A document is read from the front. What matters about a place is how many characters are before it,
in which line and column it is, and the rest of the text: nesting is expressed by columns, and a key
has to fit on one line and into a number of characters.
-/

namespace TagTemplate.Yaml

/-- A place in a document. The length of the whole document bounds the steps that can be taken. -/
structure Cursor where
  index : Nat := 0
  line : Nat := 0
  column : Nat := 0
  size : Nat
  rest : List Char
  deriving DecidableEq, Repr

def Cursor.start (cs : List Char) : Cursor := { size := cs.length, rest := cs }

def isBreak (c : Char) : Bool := c == '\n' || c == '\x85' || c == '\u2028' || c == '\u2029'

def isSpace (c : Char) : Bool := c == ' ' || c == '\t'

def byteOrderMark : Char := '\ufeff'

def meets (p : Char → Bool) : List Char → Bool
  | [] => true
  | c :: _ => p c

def atLineEnd (cs : List Char) : Bool := meets isBreak cs

def atSpace (cs : List Char) : Bool := meets (fun c => c == ' ' || isBreak c) cs

def atBlank (cs : List Char) : Bool := meets (fun c => isSpace c || isBreak c) cs

namespace Cursor

def steps (k : Cursor) : Nat := k.size + 1

def next (k : Cursor) : Cursor :=
  match k.rest with
  | [] => k
  | c :: cs =>
    if isBreak c then ⟨k.index + 1, k.line + 1, 0, k.size, cs⟩
    else ⟨k.index + 1, k.line, if c = byteOrderMark then k.column else k.column + 1, k.size, cs⟩

def advance (k : Cursor) : Nat → Cursor
  | 0 => k
  | n + 1 => k.next.advance n

def span (k : Cursor) (p : Char → Bool) : List Char × Cursor :=
  let run := k.rest.takeWhile p
  (run, k.advance run.length)

def skip (k : Cursor) (p : Char → Bool) : Cursor := (k.span p).2

def skipSpaces (k : Cursor) : Cursor := k.skip (· == ' ')

def skipComment (k : Cursor) : Cursor :=
  if k.rest.head? == some '#' then k.skip fun c => !isBreak c else k

/-- The line break that is here, as it counts in a text, and the place after it. All but the
separators of lines and paragraphs count as line feeds. -/
def lineBreak? (k : Cursor) : Option (Char × Cursor) :=
  match k.rest with
  | [] => none
  | c :: _ =>
    if isBreak c then some (if c = '\u2028' || c = '\u2029' then c else '\n', k.next) else none

def skipBreak (k : Cursor) : Cursor := (k.lineBreak?.map (·.2)).getD k

/-- The rest of a line holds nothing but spaces and a comment: the place after it. -/
def restOfLine (k : Cursor) : Except DocumentFault Cursor :=
  let k := k.skipSpaces.skipComment
  if atLineEnd k.rest then .ok k.skipBreak else .error .malformed

def atMark (k : Cursor) : Bool :=
  match k.rest with
  | '-' :: '-' :: '-' :: cs => atBlank cs
  | '.' :: '.' :: '.' :: cs => atBlank cs
  | _ => false

end Cursor

/-- Line breaks inside a text: a single line feed is a space, more of them stand for all but the
first, and another kind of break stands for itself. -/
def folded (first : Char) (others : List Char) : List Char :=
  if first ≠ '\n' then first :: others
  else if others.isEmpty then [' ']
  else others

end TagTemplate.Yaml
