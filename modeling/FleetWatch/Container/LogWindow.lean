import FleetWatch.Calendar.Rfc3339
import FleetWatch.Text.Blank
import FleetWatch.Text.Integer
/-!
Which part of a container's log is read: from when on, and how many lines at most.

The start is given as nothing or `0` (the beginning), a time stamp, a number of seconds since 1970,
or an age such as `90s`, `10m`, `1h` or `2d` before now.  An age whose start lies outside the
calendar has no answer at all: the program stops on it, so its fault has no message.
-/

namespace FleetWatch

inductive LogSince where
  | beginning
  | at (time : Instant)
deriving Repr, DecidableEq, Inhabited

/-- Why a text is not a start. -/
inductive SinceFault where
  | secondsOutOfRange (text : String)
  | notAnAge (text : String)
  | unknownUnit (text : String)
  | ageOutOfRange
deriving Repr, DecidableEq

/-- The fault in words; `none` where the program stops without any. -/
def SinceFault.message? : SinceFault → Option String
  | .secondsOutOfRange text => some ("timestamp out of range: " ++ text)
  | .notAnAge text => some ("invalid duration '" ++ text ++ "', expected e.g. 10m or 1h")
  | .unknownUnit text => some ("invalid duration unit in '" ++ text ++ "'")
  | .ageOutOfRange => none

namespace LogSince

def unitSecs? (c : Char) : Option Int :=
  if c = 's' then some 1
  else if c = 'm' then some 60
  else if c = 'h' then some 3600
  else if c = 'd' then some 86400
  else none

/-- An age, which is an amount and a unit, before `now`.  The unit is the last character. -/
def ofAge (cs : List Char) (now : Instant) : Except SinceFault LogSince :=
  match Text.readInt64 cs.dropLast with
  | .error _ => .error (.notAnAge (String.ofList cs))
  | .ok amount =>
    match cs.getLast?.bind unitSecs? with
    | none => .error (.unknownUnit (String.ofList cs))
    | some unit =>
      match now.addSecs? (-(amount * unit)) with
      | some t => .ok (.at t)
      | none => .error .ageOutOfRange

def parse (text : String) (now : Instant) : Except SinceFault LogSince :=
  let cs := Text.trimChars text.toList
  if cs = [] ∨ cs = ['0'] then .ok .beginning
  else
    match Rfc3339.parse? (String.ofList cs) with
    | some t => .ok (.at t)
    | none =>
      match Text.readInt64 cs with
      | .ok secs =>
        match Instant.ofSecs? secs with
        | some t => .ok (.at t)
        | none => .error (.secondsOutOfRange (String.ofList cs))
      | .error _ => ofAge cs now

/-- The start in seconds since 1970; the beginning is 0. -/
def unix : LogSince → Int
  | .beginning => 0
  | .at t => t.secs

end LogSince

/-- How many of the last lines a log read returns. -/
inductive LogTail where
  | all
  | lines (count : Nat)
deriving Repr, DecidableEq, Inhabited

namespace LogTail

/-- The number of lines that a text names: `all`, nothing, or a count. -/
def parse (text : String) : Except String LogTail :=
  let cs := Text.trimChars text.toList
  if cs = [] ∨ cs = ['a', 'l', 'l'] then .ok .all
  else
    match Text.readNat Text.max64 cs with
    | .ok n => .ok (.lines n)
    | .error _ =>
      .error ("invalid tail '" ++ String.ofList cs ++ "', expected 'all' or a line count")

/-- The number as the engine's interface takes it. -/
def argument : LogTail → String
  | .all => "all"
  | .lines n => toString n

/-- The lines that are left of a log. -/
def take {α : Type} (tail : LogTail) (lines : List α) : List α :=
  match tail with
  | .all => lines
  | .lines n => lines.drop (lines.length - n)

end LogTail

structure LogRequest where
  since : LogSince
  tail : LogTail
  follow : Bool
deriving Repr, DecidableEq, Inhabited

end FleetWatch
