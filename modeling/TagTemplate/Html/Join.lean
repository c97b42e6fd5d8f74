import TagTemplate.Html.Elements
import TagTemplate.OrderedMap
import TagTemplate.Text.Blank
import TagTemplate.Text.Case

/-!
# Joining the parts of a repetition

The attribute `break` says what comes between the parts: a void element, an element around each
part, or literal text. The attribute `last` replaces what comes before the last part. Empty parts
are left out.
-/

namespace TagTemplate

abbrev Options := OrderedMap String

namespace Html

inductive Break where
  | around (element : String)
  | between (separator : String)
  deriving DecidableEq, Repr

/-- Reads a `break`: the name of an element, in any case and with blanks around it, or literal
text. -/
def Break.ofText (s : String) : Break :=
  let name := String.ofList (Text.lower (Text.trim s.toList))
  if name ∈ voidElements then .between ("<" ++ name ++ " />")
  else if name ∈ elements then .around name
  else .between s

def separateAfter (separator final text : String) : List String → String
  | [] => text
  | [last] => text ++ final ++ last
  | part :: next :: parts =>
    separateAfter separator final (text ++ separator ++ part) (next :: parts)

def separate (separator final : String) : List String → String
  | [] => ""
  | part :: parts => separateAfter separator final part parts

def join (parts : List String) (options : Options) : String :=
  let parts := parts.filter (· ≠ "")
  match (options.lookup "break").map Break.ofText with
  | none => String.join parts
  | some (.around name) => String.join (parts.map fun part => element name part none)
  | some (.between separator) =>
    separate separator ((options.lookup "last").getD separator) parts

theorem join_of_no_options (parts : List String) : join parts [] = String.join parts := by
  have hfilter : String.join (parts.filter (· ≠ "")) = String.join parts := by
    induction parts with
    | nil => rfl
    | cons part parts ih =>
      by_cases hp : part = ""
      · simpa [hp] using ih
      · simpa [hp] using ih
  exact hfilter

end Html

end TagTemplate
