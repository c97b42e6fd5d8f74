import TagTemplate.Console
import TagTemplate.Console.Emoji

/-!
# Console markup

How reports appear where nothing is coloured and no line is too long: a tag leaves no trace in the
text, but one that closes nothing is an error. Names of emoji are replaced by the emoji, and tabs by
blanks.
-/

namespace TagTemplate.Console

/-- A part of a report: text, or a tag. -/
inductive Piece where
  | text (cs : List Char)
  | tag (name : List Char)
  deriving DecidableEq, Repr

def startsTag (c : Char) : Bool := c.isLower || c == '#' || c == '/' || c == '@'

def inTag (c : Char) : Bool := c ≠ '[' && c ≠ ']'

/-- The tag with the given text between its brackets. What follows an equals sign is no part of the
name. -/
def Piece.ofTag (inner : List Char) : Piece := .tag (inner.takeWhile (· != '='))

def Piece.ofText (cs : List Char) : List Piece := if cs.isEmpty then [] else [.text cs]

/-- What a tag and the text before it, last character first, stand for. Of the backslashes right
before the tag two stand for one; a single one that is left makes text of the tag. -/
def piecesBefore (before inner : List Char) : List Piece :=
  let slashes := (before.takeWhile (· == '\\')).length
  Piece.ofText (before.drop slashes).reverse ++
    Piece.ofText (List.replicate (slashes / 2) '\\') ++
    [if slashes % 2 = 1 then .text ('[' :: inner ++ [']']) else .ofTag inner]

/-- The pieces of a report; `before` is the text since the last tag, last character first. -/
def pieces (before : List Char) (cs : List Char) : List Piece :=
  match cs with
  | [] => Piece.ofText before.reverse
  | '[' :: rest =>
    let inner := rest.takeWhile inTag
    match h : rest.dropWhile inTag with
    | ']' :: after =>
      have : after.length < rest.length := by
        have := Text.length_dropWhile_le inTag rest
        simp only [h, List.length_cons] at this
        omega
      if inner.head?.any startsTag then piecesBefore before inner ++ pieces [] after
      else pieces ('[' :: before) rest
    | _ => pieces ('[' :: before) rest
  | c :: rest => pieces (c :: before) rest
termination_by cs.length

def dropEscapes : List Char → List Char
  | '\\' :: '[' :: cs => '[' :: dropEscapes cs
  | c :: cs => c :: dropEscapes cs
  | [] => []

/-- The characters that move the cursor of a terminal: none of them is shown. -/
def isCursorControl (c : Char) : Bool :=
  c == '\x07' || c == '\x08' || c == '\x0b' || c == '\x0c' || c == '\r'

def shownText (cs : List Char) : List Char :=
  (replaceEmoji (dropEscapes cs)).filter fun c => !isCursorControl c

/-- What has been shown so far, and the names of the open tags, innermost first. -/
structure Progress where
  shown : List Char := []
  stack : List (List Char) := []

def normalName (cs : List Char) : List Char := Text.lower (Text.trim cs)

def Progress.close (p : Progress) (name : List Char) : Except MarkupFault Progress :=
  let name := normalName name
  let found := if name.isEmpty then p.stack.head? else p.stack.find? (· == name)
  match found with
  | none => .error .unbalanced
  | some innermost => .ok { p with stack := p.stack.erase innermost }

def Progress.add (p : Progress) : Piece → Except MarkupFault Progress
  | .text cs => .ok { p with shown := p.shown ++ shownText cs }
  | .tag ('/' :: name) => p.close name
  | .tag name => .ok { p with stack := normalName name :: p.stack }

def tabSize : Nat := 8

/-- The text with blanks for tabs: each one reaches to the next tab stop of its line. `column` is
the number of characters of the line so far. -/
def expandTabs (column : Nat) : List Char → List Char
  | [] => []
  | '\t' :: cs =>
    let width := tabSize - column % tabSize
    List.replicate width ' ' ++ expandTabs (column + width) cs
  | '\n' :: cs => '\n' :: expandTabs 0 cs
  | c :: cs => c :: expandTabs (column + 1) cs

/-- How a report is shown. Tags that are still open at the end are closed there. -/
def render (report : String) : Except MarkupFault String := do
  let p ← (pieces [] report.toList).foldlM Progress.add {}
  return String.ofList (expandTabs 0 p.shown)

end TagTemplate.Console
