import TagTemplate.Number.Arithmetic
import TagTemplate.Number.Reading
import TagTemplate.Yaml.Timestamp

/-!
# Values of scalars

What a scalar stands for is read from its text by its tag. Numbers may have underscores among their
digits. A text that has the form of a number need not be one: digits may be missing, or there may be
too many of them.
-/

namespace TagTemplate.Yaml

inductive Scalar where
  | null
  | bool (b : Bool)
  | number (n : Number)
  | string (s : String)
  | timestamp (t : Timestamp)
  deriving DecidableEq, Repr

def readDigits (base : Nat) (cs : List Char) : Except DocumentFault Nat :=
  if cs.isEmpty || !cs.all fun c => isHexDigit c && hexValue c < base then .error .notValue
  else .ok (cs.foldl (fun n c => n * base + hexValue c) 0)

def readDecimal (cs : List Char) : Except DocumentFault Nat :=
  match Text.readNatural? (Text.trim cs) with
  | some n => .ok n
  | none => .error .notValue

def readNatural (cs : List Char) : Except DocumentFault Nat :=
  match cs with
  | [] => .error .missingDigits
  | ['0'] => .ok 0
  | '0' :: 'b' :: ds => readDigits 2 ds
  | '0' :: 'x' :: ds => readDigits 16 ds
  | '0' :: ds => readDigits 8 ds
  | cs =>
    (Text.pieces ':' cs).foldlM (fun n part => do return n * 60 + (← readDecimal part)) 0

def splitSign (cs : List Char) : Bool × List Char := (cs.head? == some '-', dropSign cs)

def readInteger (cs : List Char) : Except DocumentFault Int := do
  let cs := cs.filter (· != '_')
  if cs.isEmpty then .error .missingDigits
  let (negative, digits) := splitSign cs
  let n ← readNatural digits
  return if negative then -(n : Int) else n

def readPart (cs : List Char) : Except DocumentFault Binary64 :=
  match Binary64.read? (String.ofList cs) with
  | some x => .ok x
  | none => .error .notValue

def sexagesimalLimit : Nat := 174

def addParts (sum : Binary64) (exponent : Nat) :
    List Binary64 → Except DocumentFault Binary64
  | [] => .ok sum
  | part :: parts =>
    if sexagesimalLimit ≤ exponent then .error .tooLarge
    else addParts (sum.add (part.mul (.ofNat (Nat.pow 60 exponent)))) (exponent + 1) parts

def readFloat (cs : List Char) : Except DocumentFault Binary64 := do
  let cs := (cs.filter (· != '_')).map Char.toLower
  if cs.isEmpty then .error .missingDigits
  let (negative, digits) := splitSign cs
  let word := String.ofList digits
  let x ←
    if word = ".inf" then pure (.infinity false)
    else if word = ".nan" then pure .nan
    else if digits.contains ':' then
      addParts .zero 0 (← (Text.pieces ':' digits).mapM readPart).reverse
    else readPart digits
  return if negative then x.neg else x

def readBool (cs : List Char) : Except DocumentFault Bool :=
  match String.ofList (cs.map Char.toLower) with
  | "yes" | "true" | "on" => .ok true
  | "no" | "false" | "off" => .ok false
  | _ => .error .unknownWord

def Scalar.read (tag : Tag) (cs : List Char) : Except DocumentFault Scalar :=
  match tag with
  | .null => .ok .null
  | .bool => .bool <$> readBool cs
  | .int => (.number ∘ .integer) <$> readInteger cs
  | .float => (.number ∘ .float) <$> readFloat cs
  | .timestamp => .timestamp <$> readTimestamp cs
  | .str => .ok (.string (String.ofList cs))
  | .seq | .map | .merge | .value | .unknown => .error .malformed

/-- The number that a scalar counts as when keys are compared: truth values are zero and one. -/
def Scalar.numeral? : Scalar → Option Number
  | .number n => some n
  | .bool b => some (.integer (if b then 1 else 0))
  | _ => none

def isInteger? (x : Binary64) (n : Int) : Bool :=
  match x with
  | .finite negative m e =>
    let (num, den) := Binary64.ratio m e
    (if negative then -(num : Int) else num) == n * den
  | _ => false

def sameNumber : Number → Number → Bool
  | .integer m, .integer n => m == n
  | .float x, .float y => x.equals y
  | .integer n, .float x | .float x, .integer n => isInteger? x n

def Scalar.sameKey (a b : Scalar) : Bool :=
  match a.numeral?, b.numeral? with
  | some m, some n => sameNumber m n
  | none, none => a == b
  | _, _ => false

def Scalar.keyText : Scalar → String
  | .null => "None"
  | .bool b => if b then "True" else "False"
  | .number n => n.text
  | .string s => s
  | .timestamp t => t.text

end TagTemplate.Yaml
