import TagTemplate.Text.Position
import TagTemplate.Text.Quoted

/-!
# What can be wrong with a template

A failure names the fault, the offset it is reported at and the piece of text that is shown. Placed
in its text it becomes a compile error with a line and a column.
-/

namespace TagTemplate.Markup

open TagTemplate.Text (Position position quoted)

/-- What is wrong with a tag. -/
inductive Fault where
  | invalidName
  | malformed
  | unquotedValue
  | unterminatedValue
  | invalidClosingName
  | malformedClosing
  | strayClosing
  | mismatchedClosing (expected : String)
  | unclosed
  deriving DecidableEq, Repr

def Fault.text : Fault → String
  | .invalidName => "Invalid tag name"
  | .malformed => "Malformed tag"
  | .unquotedValue => "Attribute value must be quoted"
  | .unterminatedValue => "Unterminated attribute value"
  | .invalidClosingName => "Invalid closing tag"
  | .malformedClosing => "Malformed closing tag"
  | .strayClosing => "Closing tag without opening tag"
  | .mismatchedClosing expected => "Mismatched closing tag, expected </pop:" ++ expected ++ ">"
  | .unclosed => "Unclosed tag"

/-- A fault with the offset it is reported at and the text that is shown for it. -/
structure Failure where
  fault : Fault
  offset : Nat
  fragment : String
  deriving DecidableEq, Repr

/-- A failure placed in the template it occurred in. -/
structure CompileError where
  fault : Fault
  fragment : String
  position : Position
  template : Option String
  deriving DecidableEq, Repr

def Failure.locate (f : Failure) (text : List Char) (template : Option String) : CompileError :=
  ⟨f.fault, f.fragment, position text f.offset, template⟩

/-- What a report of a fault in a template consists of. The place is a line and a column, each of
which may be unknown. -/
structure Report where
  reason : String
  fragment : String
  line : Option Int
  column : Option Int
  template : Option String
  deriving DecidableEq, Repr

def numberOrNone : Option Int → String
  | some n => toString n
  | none => "None"

def anonymous : String := "<string>"

def templateLabel : Option String → String
  | none | some "" => anonymous
  | some name => name

/-- The template and, if the line is known, the place in it; the reason; the fragment in quotes. -/
def Report.message (r : Report) : String :=
  let label := templateLabel r.template
  let place := match r.line with
    | none => label
    | some line => label ++ ":" ++ toString line ++ ":" ++ numberOrNone r.column
  place ++ ": " ++ r.reason ++ ": " ++ quoted r.fragment

def CompileError.report (e : CompileError) : Report :=
  { reason := e.fault.text
    fragment := e.fragment
    line := some e.position.line
    column := some e.position.column
    template := e.template }

def CompileError.message (e : CompileError) : String := e.report.message

end TagTemplate.Markup
