import TagTemplate.Number.Binary64

/-!
# Shortest decimal text

A double precision number is written with the fewest decimal digits that read back as the same
number, and of those with the ones nearest to it. The notation is positional while the decimal
exponent lies between -4 and 15.
-/

namespace TagTemplate.Binary64

structure Decimal where
  digits : List Char
  exponent : Int
  deriving DecidableEq, Repr

/-- The open or closed interval of the rationals that round to a number, over one denominator. -/
structure Interval where
  low : Nat
  value : Nat
  high : Nat
  den : Nat
  closed : Bool
  deriving DecidableEq, Repr

/-- The rationals nearer to `m · 2 ^ e` than to its neighbours. The gap below a power of two is half
as wide as the one above. -/
def roundingInterval (m : Nat) (e : Int) : Interval :=
  let narrow := m = Nat.pow 2 (precision - 1) && minExponent < e
  let (unit, den) := if 0 ≤ e then (Nat.pow 2 e.toNat, 4) else (1, 4 * Nat.pow 2 (-e).toNat)
  { low := (if narrow then 4 * m - 1 else 4 * m - 2) * unit
    value := 4 * m * unit
    high := (4 * m + 2) * unit
    den
    closed := m % 2 == 0 }

def Interval.has (i : Interval) (n d : Nat) : Bool :=
  let low := i.low * d
  let high := i.high * d
  let x := n * i.den
  if i.closed then low ≤ x && x ≤ high else low < x && x < high

/-- Of two neighbouring points of a grid, the one that lies in the interval; of two that do the
nearer one, and the even one of two equally near. -/
def Interval.pick (i : Interval) (below num den : Nat) : Option Nat :=
  let above := below + 1
  let hit (k : Nat) := i.has (k * num) den
  if hit below && hit above then
    let down := i.value * den - below * num * i.den
    let up := above * num * i.den - i.value * den
    if down < up || (down = up && below % 2 = 0) then some below else some above
  else if hit below then some below
  else if hit above then some above
  else none

def Interval.onGrid (i : Interval) (k : Int) : Option Nat :=
  let (num, den) := if 0 ≤ k then (Nat.pow 10 k.toNat, 1) else (1, Nat.pow 10 (-k).toNat)
  i.pick (i.value * den / (i.den * num)) num den

def decimalExponentFrom (n d : Nat) : Nat → Int → Int
  | 0, k => k
  | steps + 1, k =>
    let above := k + 1
    let reached :=
      if 0 ≤ above then d * Nat.pow 10 above.toNat ≤ n else d ≤ n * Nat.pow 10 (-above).toNat
    if reached then decimalExponentFrom n d steps above else k

def decimalExponent (n d : Nat) : Int :=
  let bits : Int := (bitLength n : Int) - bitLength d
  decimalExponentFrom n d 4 (Int.fdiv ((bits - 1) * 30103) 100000 - 2)

def Interval.search (i : Interval) (top : Int) : Nat → Int → Decimal
  | 0, _ => ⟨['0'], 0⟩
  | steps + 1, k =>
    match i.onGrid k with
    | some n =>
      let digits := Nat.toDigits 10 n
      let kept := (digits.reverse.dropWhile (· == '0')).reverse
      if n = 0 then i.search top steps (k - 1)
      else ⟨kept, k + digits.length - 1⟩
    | none => i.search top steps (k - 1)

def shortest (m : Nat) (e : Int) : Decimal :=
  let i := roundingInterval m e
  let top := decimalExponent i.value i.den
  i.search top 18 top

def exponentText (k : Int) : List Char :=
  let digits := Nat.toDigits 10 k.natAbs
  (if k < 0 then '-' else '+') :: (if digits.length < 2 then '0' :: digits else digits)

/-- Positional notation for exponents from -4 to 15, otherwise one digit before the point and the
exponent after an `e`. A whole number keeps one zero after its point. -/
def Decimal.text (x : Decimal) : List Char :=
  let count := x.digits.length
  if -4 ≤ x.exponent && x.exponent < 16 then
    if x.exponent < 0 then
      '0' :: '.' :: List.replicate ((-x.exponent).toNat - 1) '0' ++ x.digits
    else
      let whole := x.exponent.toNat + 1
      if count ≤ whole then
        x.digits ++ List.replicate (whole - count) '0' ++ ['.', '0']
      else x.digits.take whole ++ '.' :: x.digits.drop whole
  else
    match x.digits with
    | [d] => d :: 'e' :: exponentText x.exponent
    | ds => ds.take 1 ++ '.' :: ds.drop 1 ++ 'e' :: exponentText x.exponent

def text : Binary64 → String
  | .nan => "nan"
  | .infinity false => "inf"
  | .infinity true => "-inf"
  | .finite negative m e =>
    let body := if m = 0 then ['0', '.', '0'] else (shortest m e).text
    String.ofList (if negative then '-' :: body else body)

end TagTemplate.Binary64
