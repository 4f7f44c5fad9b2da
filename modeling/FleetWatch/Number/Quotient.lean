/-!
Quotients of natural numbers, rounded.
-/

namespace FleetWatch

/-- A quotient rounded to the nearest natural number, a tie to the even one. -/
def divEven (num den : Nat) : Nat :=
  let q := num / den
  let r := num % den
  if 2 * r < den then q
  else if den < 2 * r then q + 1
  else if q % 2 = 0 then q
  else q + 1

example : [divEven 5 2, divEven 7 2, divEven 8 3, divEven 7 3] = [2, 4, 3, 2] := by decide

end FleetWatch
