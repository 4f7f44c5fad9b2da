import FleetWatch.Text.Digit
/-!
Reading whole numbers within bounds.

A number is an optional sign and ASCII digits.  Reading stops at the first fault: a character that
is no digit, or a digit that takes the number past its bound.  A minus sign is a fault where the
bound leaves no room below zero.
-/

namespace FleetWatch

namespace Text

/-- Why a text is not a whole number within its bounds. -/
inductive IntegerFault where
  | empty
  | invalidDigit
  | tooLarge
  | tooSmall
deriving Repr, DecidableEq

/-- The reason as it is reported. -/
def IntegerFault.message : IntegerFault → String
  | .empty => "cannot parse integer from empty string"
  | .invalidDigit => "invalid digit found in string"
  | .tooLarge => "number too large to fit in target type"
  | .tooSmall => "number too small to fit in target type"

/-- Digits read onto `value`, which may not pass `limit`; `fault` is told when it does. -/
def readDigits (limit : Nat) (fault : IntegerFault) : Nat → List Char → Except IntegerFault Nat
  | value, [] => .ok value
  | value, c :: rest =>
    match digitValue? c with
    | none => .error .invalidDigit
    | some d =>
      if value * 10 + d ≤ limit then readDigits limit fault (value * 10 + d) rest
      else .error fault

/-- A natural number up to `limit`, with an optional plus sign. -/
def readNat (limit : Nat) : List Char → Except IntegerFault Nat
  | [] => .error .empty
  | ['+'] => .error .invalidDigit
  | '+' :: rest => readDigits limit .tooLarge 0 rest
  | cs => readDigits limit .tooLarge 0 cs

/-- An integer from `-below` to `above`, with an optional sign. -/
def readInt (below above : Nat) : List Char → Except IntegerFault Int
  | [] => .error .empty
  | ['+'] => .error .invalidDigit
  | ['-'] => .error .invalidDigit
  | '+' :: rest => (readDigits above .tooLarge 0 rest).map Int.ofNat
  | '-' :: rest => (readDigits below .tooSmall 0 rest).map fun n => -Int.ofNat n
  | cs => (readDigits above .tooLarge 0 cs).map Int.ofNat

def max16 : Nat := 1 <<< 16 - 1

def max32 : Nat := 1 <<< 32 - 1

def max64 : Nat := 1 <<< 64 - 1

def maxSigned64 : Nat := 1 <<< 63 - 1

/-- How far below zero a signed number of sixty-four bits goes. -/
def depthSigned64 : Nat := 1 <<< 63

def readInt64 (cs : List Char) : Except IntegerFault Int :=
  readInt depthSigned64 maxSigned64 cs

end Text

end FleetWatch
