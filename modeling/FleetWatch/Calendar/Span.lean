/-!
Lengths of time in messages.

A span is a whole number of milliseconds here.  It is written in seconds when it has any, in
milliseconds otherwise, with as many decimal places as it needs; nothing at all is `0ns`.
-/

namespace FleetWatch

namespace Span

/-- The three decimal places of a number below a thousand, without the zeros at the end. -/
def places (ms : Nat) : String :=
  if ms = 0 then ""
  else if ms % 100 = 0 then "." ++ toString (ms / 100)
  else if ms % 10 = 0 then
    "." ++ (if ms < 100 then "0" else "") ++ toString (ms / 10)
  else
    "." ++ (if ms < 10 then "00" else if ms < 100 then "0" else "") ++ toString ms

/-- A span of milliseconds as it stands in messages. -/
def text (ms : Nat) : String :=
  if ms = 0 then "0ns"
  else if ms < 1000 then toString ms ++ "ms"
  else toString (ms / 1000) ++ places (ms % 1000) ++ "s"

end Span

end FleetWatch
