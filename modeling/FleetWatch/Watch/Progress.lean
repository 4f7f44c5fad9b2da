import FleetWatch.Watch.Pattern
import FleetWatch.Number.Single
/-!
Progress read from a backend's log.

What a line tells moves the counters.  The height reached never goes back, and the line that says the
backend caught up is the last one that counts.  How a line is read is left open: the built-in pattern
sets are the readers in use, and any other may stand in for them.
-/

namespace FleetWatch

/-- How far a backend is with its chain, by its log. -/
structure SyncProgress where
  current : Nat := 0
  total : Nat := 0
  caughtUp : Bool := false
deriving Repr, DecidableEq, Inhabited

/-- The share of `current` in `total` as a percentage, with `total` at least `current`.  A margin of
0.005 is taken off, so that only a full share is shown as one. -/
def percentage (current total : Nat) : Single :=
  let whole := max total current
  if whole = 0 then Single.zero
  else
    let share := (Single.ofNat current).div (Single.ofNat whole)
    (share.mul (Single.ofNat 100)).monus (Single.ofQuotient 5 1000)

/-- The status of a backend that is catching up. -/
def syncingText (current total : Nat) : String :=
  "Syncing " ++ (percentage current total).twoPlaces ++ "% (" ++ toString current ++ "/" ++
    toString (max total current) ++ ")"

namespace SyncProgress

/-- Whether any line has moved the counters. -/
def hasProgress (p : SyncProgress) : Bool :=
  0 < p.current || 0 < p.total || p.caughtUp

def percent (p : SyncProgress) : Single :=
  percentage p.current p.total

/-- The status of the backend while it catches up. -/
def text (p : SyncProgress) : String :=
  syncingText p.current p.total

def record (p : SyncProgress) : Reading → SyncProgress
  | ⟨.caughtUp, height⟩ => { p with current := max p.current height, caughtUp := true }
  | ⟨.current, height⟩ => { p with current := max p.current height }
  | ⟨.total, height⟩ => { p with total := height }

/-- The progress after a line, where `read?` says what a line tells. -/
def apply (read? : String → Option Reading) (p : SyncProgress) (line : String) : SyncProgress :=
  if p.caughtUp then p
  else
    match read? line with
    | some reading => p.record reading
    | none => p

end SyncProgress

/-- Reads lines until one says that the backend caught up.  Returns the last progress and the number
of lines read. -/
def watchLines (read? : String → Option Reading) :
    SyncProgress → List String → SyncProgress × Nat
  | p, [] => (p, 0)
  | p, line :: rest =>
    let next := p.apply read? (Text.trim line)
    if next ≠ p ∧ next.caughtUp then (next, 1)
    else
      let (last, count) := watchLines read? next rest
      (last, count + 1)

end FleetWatch
