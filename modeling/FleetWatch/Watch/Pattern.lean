import FleetWatch.Text.Blank
import FleetWatch.Text.Integer
import FleetWatch.Watch.Expression
/-!
Log lines that tell a height.

The first pattern of a set that matches a line decides, and the first group of its expression is the
height.  If that is no number of sixty-four bits, the line tells nothing.
-/

namespace FleetWatch

/-- What a height stands for. -/
inductive ReadingKind where
  | caughtUp
  | current
  | total
deriving Repr, DecidableEq, Inhabited

def ReadingKind.name : ReadingKind → String
  | .caughtUp => "caught_up"
  | .current => "current"
  | .total => "total"

structure Reading where
  kind : ReadingKind
  height : Nat
deriving Repr, DecidableEq, Inhabited

/-- A log line that tells a height. -/
structure LogPattern where
  kind : ReadingKind
  expression : Expression
deriving Repr, DecidableEq, Inhabited

namespace LogPattern

def accepts (p : LogPattern) (line : String) : Bool :=
  (p.expression.groups? line.toList).isSome

/-- The digits that the pattern captures in a line. -/
def capture? (p : LogPattern) (line : String) : Option (List Char) :=
  (p.expression.groups? line.toList).bind List.head?

end LogPattern

/-- Patterns in the order in which they are tried. -/
structure PatternSet where
  patterns : List LogPattern
deriving Repr, DecidableEq, Inhabited

namespace PatternSet

def read? (set : PatternSet) (line : String) : Option Reading :=
  match set.patterns.find? fun p => p.accepts line with
  | none => none
  | some p =>
    match p.capture? line with
    | none => none
    | some run =>
      match Text.readNat Text.max64 run with
      | .ok height => some ⟨p.kind, height⟩
      | .error _ => none

/-- A pattern set stands for the way in which it reads lines. -/
instance : CoeFun PatternSet fun _ => String → Option Reading :=
  ⟨read?⟩

/-- The light client of a Bitcoin-like chain.  A simulated network has no checkpoints and logs its
progress in other words. -/
def neutrino (simnet : Bool) : PatternSet :=
  let current : Expression :=
    if simnet then
      [.many .onLine, .text "Writing cfheaders at height=", .group .digit,
        .text " to next checkpoint"]
    else
      [.many .onLine, .text "Fetching set of checkpointed cfheaders filters from height=",
        .group .digit, .many .onLine]
  ⟨[⟨.caughtUp,
      [.many .onLine, .text "Fully caught up with cfheaders at height ", .group .digit,
        .text ", waiting at tip for new blocks"]⟩,
    ⟨.current, current⟩,
    ⟨.total,
      [.many .onLine, .text "Syncing to block height ", .group .digit, .text " from peer",
        .many .onLine]⟩]⟩

/-- Blocks that a lightning node was told of by its chain backend. -/
def newBlocks : PatternSet :=
  ⟨[⟨.current,
      [.many .onLine, .text "NTFN: New block: height=", .group .digit, .text ", sha=",
        .group .onLine]⟩]⟩

end PatternSet

end FleetWatch
