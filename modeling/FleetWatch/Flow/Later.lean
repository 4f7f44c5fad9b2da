/-!
Answers that take their time, in milliseconds, or never come.
-/

namespace FleetWatch

/-- An answer with the time that it takes. -/
inductive Later (α : Type) where
  | after (ms : Nat) (a : α)
  | never
deriving Repr, DecidableEq, Inhabited

namespace Later

variable {α β : Type}

/-- An answer that is there at once. -/
def now (a : α) : Later α :=
  .after 0 a

/-- The answer, changed. -/
def map (f : α → β) : Later α → Later β
  | .after ms a => .after ms (f a)
  | .never => .never

/-- What is there after a time; an answer that takes exactly that long is. -/
def within (timeout : Nat) : Later α → Option α
  | .after ms a => if ms ≤ timeout then some a else none
  | .never => none

/-- How long somebody waits who gives up after a time. -/
def wait (timeout : Nat) : Later α → Nat
  | .after ms _ => min ms timeout
  | .never => timeout

/-- An answer that is there at once, or never. -/
def ofOption : Option α → Later α
  | some a => now a
  | none => .never

end Later

end FleetWatch
