import TagTemplate.Number.Shortest

/-!
# Numbers

Content holds integers of any size and double precision numbers.
-/

namespace TagTemplate

inductive Number where
  | integer (n : Int)
  | float (x : Binary64)
  deriving DecidableEq, Repr

def Number.text : Number → String
  | .integer n => toString n
  | .float x => x.text

def Number.maxDigits : Nat := 4300

/-- The number can be shown: it does not have too many digits. -/
def Number.isShowable : Number → Bool
  | .integer n => n.natAbs < Nat.pow 10 maxDigits
  | .float _ => true

end TagTemplate
