import FleetWatch.Calendar.Instant
import FleetWatch.Text.Digit
/-!
Reading RFC 3339 time stamps.

A stamp is `YYYY-MM-DD`, a separator (`T`, `t` or a blank), `HH:MM:SS`, an optional fraction, and
`Z` or an offset `+HH:MM`.  The second 60 is a leap second, whatever the minute.  Digits of the
fraction past the ninth are dropped.
-/

namespace FleetWatch

namespace Rfc3339

/-- Exactly `count` digits. -/
def fixedDigits? (count value : Nat) (cs : List Char) : Option (Nat × List Char) :=
  match count, cs with
  | 0, rest => some (value, rest)
  | _ + 1, [] => none
  | n + 1, c :: rest =>
    match Text.digitValue? c with
    | some d => fixedDigits? n (value * 10 + d) rest
    | none => none

def literal? (c : Char) : List Char → Option (List Char)
  | d :: rest => if d = c then some rest else none
  | [] => none

def separator? : List Char → Option (List Char)
  | c :: rest => if c = 'T' ∨ c = 't' ∨ c = ' ' then some rest else none
  | [] => none

/-- Up to nine digits as nanoseconds; further digits are dropped. -/
def fractionDigits (places value : Nat) : List Char → Nat × List Char
  | [] => (value * Nat.pow 10 places, [])
  | c :: rest =>
    match Text.digitValue? c with
    | some d =>
      match places with
      | 0 => fractionDigits 0 value rest
      | p + 1 => fractionDigits p (value * 10 + d) rest
    | none => (value * Nat.pow 10 places, c :: rest)

/-- The optional fraction of a second, in nanoseconds. -/
def fraction? : List Char → Option (Nat × List Char)
  | '.' :: c :: rest =>
    if Text.isAsciiDigit c then some (fractionDigits 9 0 (c :: rest)) else none
  | ['.'] => none
  | rest => some (0, rest)

/-- The offset from universal time in seconds, up to a minute less than a day. -/
def offset? : List Char → Option (Int × List Char)
  | c :: rest =>
    if c = 'Z' ∨ c = 'z' then some (0, rest)
    else if c = '+' ∨ c = '-' ∨ c = '\u2212' then do
      let (hours, rest) ← fixedDigits? 2 0 rest
      let rest ← literal? ':' rest
      let (minutes, rest) ← fixedDigits? 2 0 rest
      if minutes < 60 ∧ hours < 24 then
        let secs : Int := (hours * 3600 + minutes * 60 : Nat)
        some (if c = '+' then secs else -secs, rest)
      else none
    else none
  | [] => none

def parse? (s : String) : Option Instant := do
  let (year, cs) ← fixedDigits? 4 0 s.toList
  let cs ← literal? '-' cs
  let (month, cs) ← fixedDigits? 2 0 cs
  let cs ← literal? '-' cs
  let (day, cs) ← fixedDigits? 2 0 cs
  let cs ← separator? cs
  let (hour, cs) ← fixedDigits? 2 0 cs
  let cs ← literal? ':' cs
  let (minute, cs) ← fixedDigits? 2 0 cs
  let cs ← literal? ':' cs
  let (second, cs) ← fixedDigits? 2 0 cs
  let (nanos, cs) ← fraction? cs
  let (offset, cs) ← offset? cs
  if cs ≠ [] then none
  if ¬ Instant.isDate year month day then none
  if 24 ≤ hour ∨ 60 ≤ minute ∨ 60 < second then none
  let (second, nanos) := if second = 60 then (59, nanos + 1000000000) else (second, nanos)
  let clock : Int := (hour * 3600 + minute * 60 + second : Nat)
  return ⟨Instant.dayOfDate year month day * Instant.daySecs + clock - offset, nanos⟩

end Rfc3339

end FleetWatch
