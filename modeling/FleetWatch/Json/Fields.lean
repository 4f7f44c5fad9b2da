import FleetWatch.Json.Value
import FleetWatch.Text.Lossy
/-!
Reading the members of a document that leaves some out.

A member that is null counts as left out, and a member of the wrong kind too.
-/

namespace FleetWatch

namespace Json

def field? (j : Json) (name : String) : Option Json :=
  match j.get? name with
  | some .null => none
  | other => other

/-- The object of a name; empty when left out. -/
def child (j : Json) (name : String) : Json :=
  (j.field? name).getD (.object [])

def text? (j : Json) (name : String) : Option String :=
  (j.field? name).bind string?

/-- The text of a name, or another. -/
def text (j : Json) (name : String) (otherwise : String := "") : String :=
  (j.text? name).getD otherwise

def count? (j : Json) (name : String) : Option Nat :=
  (j.field? name).bind nat?

/-- The natural number of a name, or another. -/
def count (j : Json) (name : String) (otherwise : Nat := 0) : Nat :=
  (j.count? name).getD otherwise

/-- The integer of a name; zero when left out. -/
def integer (j : Json) (name : String) : Int :=
  ((j.field? name).bind int?).getD 0

/-- The truth value of a name; false when left out. -/
def flag (j : Json) (name : String) : Bool :=
  ((j.field? name).bind bool?).getD false

def items (j : Json) (name : String) : List Json :=
  ((j.field? name).bind array?).getD []

def texts (j : Json) (name : String) : List String :=
  (j.items name).filterMap string?

def members (j : Json) (name : String) : List (String × Json) :=
  match j.field? name with
  | some (.object ms) => ms
  | _ => []

/-- The bytes that a document stands for: those of a text, or an array of byte values. -/
def toBytes : Json → List UInt8
  | .string s => Text.utf8Bytes s
  | .array items => items.filterMap fun i => i.nat?.map UInt8.ofNat
  | _ => []

def bytes (j : Json) (name : String) : List UInt8 :=
  ((j.field? name).getD .null).toBytes

def ofTexts (texts : List String) : Json :=
  .array (texts.map .string)

def optNat : Option Nat → Json
  | none => .null
  | some n => .nat n

end Json

end FleetWatch
