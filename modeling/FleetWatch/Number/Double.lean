import FleetWatch.Number.Quotient
/-!
The range of double precision.

A natural number is rounded to the nearest one that fifty-three binary digits can write, a tie to
even digits.  What would round to `limit` or more has no double.
-/

namespace FleetWatch

namespace Double

/-- Half a step above the largest double: from here on a number rounds to none. -/
def limit : Nat := 1 <<< 1024 - 1 <<< 970

/-- The natural number nearest to `n` that fifty-three binary digits write. -/
def nearest (n : Nat) : Nat :=
  if n < 1 <<< 53 then n
  else
    let unit := 1 <<< (Nat.log2 n - 52)
    divEven n unit * unit

/-- The largest power of ten that is a double. -/
def maxPower : Nat := 308

/-- Whether `digits · 10^exponent` is too large for a double.  An exponent that settles it by itself
is not raised to. -/
def isBeyond (digits : Nat) (exponent : Int) : Bool :=
  if digits = 0 then false
  else
    match exponent with
    | .ofNat e => maxPower < e || limit ≤ digits * Nat.pow 10 e
    | .negSucc e => e < Nat.log2 digits && limit * Nat.pow 10 (e + 1) ≤ digits

/-- Whether the product of the doubles nearest to `digits` and to `10^exponent` is too large for a
double.  Only a whole power can make it so: `digits` has few enough digits itself. -/
def isProductBeyond (digits : Nat) (exponent : Int) : Bool :=
  if digits = 0 then false
  else
    match exponent with
    | .ofNat e => maxPower < e || limit ≤ nearest digits * nearest (Nat.pow 10 e)
    | .negSucc _ => false

end Double

end FleetWatch
