import FleetWatch.Number.Quotient
/-!
Single precision numbers that are not negative.

A value is `digits · 2^exponent` with `digits` below `2^24`; it is normal when `digits` is at least
`2^23`, and the exponent never falls below `minExponent`.  Every operation computes the exact result
as a quotient of natural numbers and rounds it once, to the nearest value, ties to even digits.
-/

namespace FleetWatch

/-- A single precision number that is not negative. -/
structure Single where
  digits : Nat
  exponent : Int
deriving Repr, DecidableEq, Inhabited

namespace Single

/-- The exponent of the smallest positive number. -/
def minExponent : Int := -149

/-- Nothing. -/
def zero : Single := ⟨0, minExponent⟩

/-- `num / den` scaled by `2^(-e)` as a quotient of natural numbers. -/
def scaled (num den : Nat) (e : Int) : Nat × Nat :=
  match e with
  | .ofNat k => (num, den <<< k)
  | .negSucc k => (num <<< (k + 1), den)

/-- The exponent at which a positive quotient has twenty-four digits before the point, or the
smallest exponent. -/
def exponentFor (num den : Nat) : Int :=
  let guess : Int := (Nat.log2 num : Int) - (Nat.log2 den : Int) - 23
  let (n, d) := scaled num den guess
  let e := if n < d <<< 23 then guess - 1 else guess
  max e minExponent

/-- The number nearest to a quotient. -/
def ofQuotient (num den : Nat) : Single :=
  if num = 0 ∨ den = 0 then zero
  else
    let e := exponentFor num den
    let (n, d) := scaled num den e
    let q := divEven n d
    if q = 1 <<< 24 then ⟨1 <<< 23, e + 1⟩ else ⟨q, e⟩

/-- The number nearest to a natural number. -/
def ofNat (n : Nat) : Single :=
  ofQuotient n 1

def quotient (x : Single) : Nat × Nat :=
  match x.exponent with
  | .ofNat k => (x.digits <<< k, 1)
  | .negSucc k => (x.digits, 1 <<< (k + 1))

def div (x y : Single) : Single :=
  let (xn, xd) := x.quotient
  let (yn, yd) := y.quotient
  ofQuotient (xn * yd) (xd * yn)

def mul (x y : Single) : Single :=
  let (xn, xd) := x.quotient
  let (yn, yd) := y.quotient
  ofQuotient (xn * yn) (xd * yd)

/-- The rounded difference of two numbers, or nothing if it would be negative. -/
def monus (x y : Single) : Single :=
  let (xn, xd) := x.quotient
  let (yn, yd) := y.quotient
  ofQuotient (xn * yd - yn * xd) (xd * yd)

/-- The interchange format: eight bits of biased exponent, twenty-three of fraction. -/
def bits (x : Single) : Nat :=
  if x.digits < 1 <<< 23 then x.digits
  else (x.exponent + 150).toNat <<< 23 + (x.digits - 1 <<< 23)

/-- A number with two decimal places, a tie to the even digit. -/
def twoPlaces (x : Single) : String :=
  let (n, d) := x.quotient
  let cents := divEven (n * 100) d
  let rest := cents % 100
  toString (cents / 100) ++ "." ++ (if rest < 10 then "0" else "") ++ toString rest

end Single

end FleetWatch
