/-!
# Binary floating-point numbers

The double precision numbers as exact values: `significand · 2 ^ exponent`, with the significand
below 2⁵³ and the exponent at least -1074, two infinities and a value that is no number. A quotient
of natural numbers is rounded to the nearest of them, ties to the even significand.
-/

namespace TagTemplate

inductive Binary64 where
  | nan
  | infinity (negative : Bool)
  | finite (negative : Bool) (significand : Nat) (exponent : Int)
  deriving DecidableEq, Repr

namespace Binary64

def precision : Nat := 53

def minExponent : Int := -1074

def overflowExponent : Int := 972

def scale (num den : Nat) (e : Int) : Nat × Nat :=
  if 0 ≤ e then (num, den * Nat.pow 2 e.toNat) else (num * Nat.pow 2 (-e).toNat, den)

def roundHalfEven (num den : Nat) : Nat :=
  let q := num / den
  let r := num % den
  if 2 * r < den then q
  else if den < 2 * r then q + 1
  else if q % 2 = 0 then q else q + 1

def bitLength (n : Nat) : Nat := if n = 0 then 0 else Nat.log2 n + 1

def exponentFor (num den : Nat) : Int :=
  let e : Int := (bitLength num : Int) - bitLength den - precision
  let (n, d) := scale num den e
  max (if d * Nat.pow 2 precision ≤ n then e + 1 else e) minExponent

def ofRatio (negative : Bool) (num den : Nat) : Binary64 :=
  let e := exponentFor num den
  let (n, d) := scale num den e
  let m := roundHalfEven n d
  let (m, e) := if m = Nat.pow 2 precision then (Nat.pow 2 (precision - 1), e + 1) else (m, e)
  if m = 0 then .finite negative 0 minExponent
  else if overflowExponent ≤ e then .infinity negative
  else .finite negative m e

/-- The number nearest to `digits · 10 ^ exponent`. Far outside the range nothing is computed. -/
def ofDecimal (negative : Bool) (digits : Nat) (exponent : Int) : Binary64 :=
  let size : Int := (Nat.toDigits 10 digits).length + exponent
  if digits = 0 || size < -400 then .finite negative 0 minExponent
  else if 400 < size then .infinity negative
  else if 0 ≤ exponent then ofRatio negative (digits * Nat.pow 10 exponent.toNat) 1
  else ofRatio negative digits (Nat.pow 10 (-exponent).toNat)

end Binary64

end TagTemplate
