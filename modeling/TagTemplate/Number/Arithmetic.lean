import TagTemplate.Number.Binary64

/-!
# Arithmetic of floating-point numbers

Sums and products are rounded once, from their exact value. Only numbers that are not negative are
needed, beside infinity and what is no number.
-/

namespace TagTemplate.Binary64

def zero : Binary64 := .finite false 0 minExponent

def ofNat (n : Nat) : Binary64 := ofRatio false n 1

def ratio (m : Nat) (e : Int) : Nat × Nat :=
  if 0 ≤ e then (m * Nat.pow 2 e.toNat, 1) else (m, Nat.pow 2 (-e).toNat)

def add : Binary64 → Binary64 → Binary64
  | .finite _ m e, .finite _ n f =>
    let (a, b) := ratio m e
    let (c, d) := ratio n f
    ofRatio false (a * d + c * b) (b * d)
  | .nan, _ | _, .nan => .nan
  | _, _ => .infinity false

def mul : Binary64 → Binary64 → Binary64
  | .finite _ m e, .finite _ n f =>
    let (a, b) := ratio m e
    let (c, d) := ratio n f
    ofRatio false (a * c) (b * d)
  | .nan, _ | _, .nan => .nan
  | _, _ => .infinity false

def neg : Binary64 → Binary64
  | .nan => .nan
  | .infinity negative => .infinity !negative
  | .finite negative m e => .finite (!negative) m e

def equals : Binary64 → Binary64 → Bool
  | .finite a m e, .finite b n f => (m == 0 && n == 0) || (a == b && ratio m e == ratio n f)
  | x, y => x == y

end TagTemplate.Binary64
