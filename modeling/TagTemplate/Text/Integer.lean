import TagTemplate.Text.Blank
import TagTemplate.Text.Digit

/-!
# Integers written in text

A sign, then decimal digits of any script with single underscores between them, blanks allowed
around. At most 4300 digits are read.
-/

namespace TagTemplate.Text

def maxIntegerDigits : Nat := 4300

def integerDigits? : List Char → Option (List Nat)
  | [] => none
  | [c] => (digitValue? c).map ([·])
  | c :: '_' :: cs => do
    let d ← digitValue? c
    let ds ← integerDigits? cs
    return d :: ds
  | c :: cs => do
    let d ← digitValue? c
    let ds ← integerDigits? cs
    return d :: ds

def ofDigits (ds : List Nat) : Nat := ds.foldl (fun n d => 10 * n + d) 0

def readNatural? (cs : List Char) : Option Nat := do
  let ds ← integerDigits? cs
  if ds.length ≤ maxIntegerDigits then some (ofDigits ds) else none

def readSigned? : List Char → Option Int
  | '-' :: cs => (readNatural? cs).map fun n => -(n : Int)
  | '+' :: cs => (readNatural? cs).map fun n => (n : Int)
  | cs => (readNatural? cs).map fun n => (n : Int)

def readInteger? (s : String) : Option Int := readSigned? (trim s.toList)

/-- Blanks in the narrow sense: the information separators of ASCII are not among them. -/
def isPlainBlank (c : Char) : Bool :=
  isBlank c && !(0x1c ≤ c.toNat && c.toNat ≤ 0x1f)

def trimPlain (cs : List Char) : List Char :=
  ((cs.dropWhile isPlainBlank).reverse.dropWhile isPlainBlank).reverse

def readPlainInteger? (s : String) : Option Int := readSigned? (trimPlain s.toList)

end TagTemplate.Text
