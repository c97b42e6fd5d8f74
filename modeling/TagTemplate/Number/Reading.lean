import TagTemplate.Number.Binary64
import TagTemplate.Text.Integer

/-!
# Floating-point numbers written in text

A sign, then decimal digits of any script with an optional point and an optional exponent, single
underscores allowed between digits; or a name for infinity or for no number.
-/

namespace TagTemplate.Binary64

open TagTemplate.Text

def numeralRun (cs : List Char) : List Char × List Char :=
  cs.span fun c => (digitValue? c).isSome || c == '_'

def digitsOrNone? (cs : List Char) : Option (List Nat) :=
  if cs.isEmpty then some [] else integerDigits? cs

def readExponent? : List Char → Option Int
  | [] => some 0
  | 'e' :: '-' :: cs | 'E' :: '-' :: cs => (integerDigits? cs).map fun ds => -(ofDigits ds : Int)
  | 'e' :: '+' :: cs | 'E' :: '+' :: cs => (integerDigits? cs).map fun ds => (ofDigits ds : Int)
  | 'e' :: cs | 'E' :: cs => (integerDigits? cs).map fun ds => (ofDigits ds : Int)
  | _ => none

def readUnsigned? (negative : Bool) (cs : List Char) : Option Binary64 :=
  let name := String.ofList (cs.map Char.toLower)
  if name = "inf" || name = "infinity" then some (.infinity negative)
  else if name = "nan" then some .nan
  else do
    let (whole, rest) := numeralRun cs
    let (fraction, rest) := match rest with
      | '.' :: rest => numeralRun rest
      | rest => ([], rest)
    let ds ← digitsOrNone? whole
    let fs ← digitsOrNone? fraction
    let e ← readExponent? rest
    if ds.isEmpty && fs.isEmpty then none
    else some (ofDecimal negative (ofDigits (ds ++ fs)) (e - fs.length))

def read? (s : String) : Option Binary64 :=
  match trim s.toList with
  | '-' :: cs => readUnsigned? true cs
  | '+' :: cs => readUnsigned? false cs
  | cs => readUnsigned? false cs

end TagTemplate.Binary64
