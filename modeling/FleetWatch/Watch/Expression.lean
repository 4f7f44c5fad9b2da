import FleetWatch.Text.Digit
import FleetWatch.Text.Search
/-!
Expressions that whole texts match.

An expression is a row of pieces, and a text matches when the pieces stand one after the other from
its first character to its last.  A piece that repeats is greedy: of the ways to match, the one that
gives the first repetition the most characters counts, among these the one that gives the second the
most, and so on.  It is found by giving a repetition all it can have, and taking back one character
at a time while what follows does not match.
-/

namespace FleetWatch

/-- The characters that a piece can repeat: those that do not end a line, or the decimal digits. -/
inductive CharClass where
  | onLine
  | digit
deriving Repr, DecidableEq, Inhabited

def CharClass.has : CharClass → Char → Bool
  | .onLine, c => c != '\n'
  | .digit, c => Text.isDecimalDigit c

inductive Piece where
  /-- The text itself. -/
  | text (text : String)
  /-- Any number of characters of a class. -/
  | many (kind : CharClass)
  /-- At least one character of a class; what they are is captured. -/
  | group (kind : CharClass)
deriving Repr, DecidableEq, Inhabited

/-- A row of pieces. -/
abbrev Expression := List Piece

namespace Expression

/-- Cuts a text behind characters of a class, the longest run first, and gives what `next?` first
makes of the run, which it is passed backwards, and of what follows the run. -/
def greedy {α : Type} (kind : CharClass) (next? : List Char → List Char → Option α)
    (run : List Char) : List Char → Option α
  | [] => next? run []
  | c :: cs =>
    if kind.has c then
      match greedy kind next? (c :: run) cs with
      | some found => some found
      | none => next? run (c :: cs)
    else next? run (c :: cs)

/-- What the groups of an expression capture in a text, or `none` if the text does not match. -/
def groups? : Expression → List Char → Option (List (List Char))
  | [], cs => if cs.isEmpty then some [] else none
  | .text text :: pieces, cs =>
    match Text.dropPrefix? text.toList cs with
    | none => none
    | some after => groups? pieces after
  | .many kind :: pieces, cs => greedy kind (fun _ after => groups? pieces after) [] cs
  | .group kind :: pieces, cs =>
    greedy kind
      (fun run after =>
        if run.isEmpty then none else (groups? pieces after).map fun found => run.reverse :: found)
      [] cs

end Expression

end FleetWatch
