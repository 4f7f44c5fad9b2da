/-!
JSON documents.

An object keeps its members in the order they were written, repeated names included: whether a
repetition is an error or the last member wins is for the reader of the document to say.  A number
is a natural number, a negative integer, or a number with a fraction or an exponent.
-/

namespace FleetWatch

/-- A number of a document. -/
inductive Json.Number where
  | natural (n : Nat)
  | negative (n : Nat)
  | decimal (below : Bool) (digits : Nat) (exponent : Int)
deriving Repr, BEq, Inhabited

/-- A document. -/
inductive Json where
  | null
  | bool (b : Bool)
  | number (n : Json.Number)
  | string (s : String)
  | array (items : List Json)
  | object (members : List (String × Json))
deriving Repr, BEq, Inhabited

namespace Json

def nat (n : Nat) : Json :=
  .number (.natural n)

def int (i : Int) : Json :=
  match i with
  | .ofNat n => .number (.natural n)
  | .negSucc n => .number (.negative (n + 1))

/-- A text or nothing. -/
def optString : Option String → Json
  | none => .null
  | some s => .string s

/-- The last member of an object with a name. -/
def lookup? (members : List (String × Json)) (name : String) : Option Json :=
  (members.reverse.find? fun m => m.1 == name).map Prod.snd

/-- The member of a document with a name, if the document is an object that has it. -/
def get? (name : String) : Json → Option Json
  | .object members => lookup? members name
  | _ => none

def string? : Json → Option String
  | .string s => some s
  | _ => none

/-- The items of a document that is an array. -/
def array? : Json → Option (List Json)
  | .array items => some items
  | _ => none

def int? : Json → Option Int
  | .number (.natural n) => some n
  | .number (.negative n) => some (-(n : Int))
  | _ => none

/-- The natural number of a document that is one. -/
def nat? : Json → Option Nat
  | .number (.natural n) => some n
  | _ => none

/-- The truth value of a document that is one. -/
def bool? : Json → Option Bool
  | .bool b => some b
  | _ => none

/-- Puts a member in its place by name; a member of the same name is replaced. -/
def insertMember {α : Type} (name : String) (value : α) :
    List (String × α) → List (String × α)
  | [] => [(name, value)]
  | (other, old) :: rest =>
    if name = other then (name, value) :: rest
    else if name < other then (name, value) :: (other, old) :: rest
    else (other, old) :: insertMember name value rest

/-- Members in the order of their names, the last of each name kept. -/
def sortMembers {α : Type} (members : List (String × α)) : List (String × α) :=
  members.foldl (fun sorted m => insertMember m.1 m.2 sorted) []

mutual

/-- A document with the members of every object sorted by name. -/
def sorted : Json → Json
  | .array items => .array (sortedItems items)
  | .object members => .object (sortMembers (sortedMembers members))
  | other => other

/-- `sorted` on the items of an array. -/
def sortedItems : List Json → List Json
  | [] => []
  | j :: rest => j.sorted :: sortedItems rest

/-- `sorted` on the values of an object. -/
def sortedMembers : List (String × Json) → List (String × Json)
  | [] => []
  | (name, j) :: rest => (name, j.sorted) :: sortedMembers rest

end

mutual

/-- How many arrays and objects stand around the innermost value. -/
def nesting : Json → Nat
  | .array items => nestingItems items + 1
  | .object members => nestingMembers members + 1
  | _ => 0

/-- The deepest `nesting` among items. -/
def nestingItems : List Json → Nat
  | [] => 0
  | j :: rest => max j.nesting (nestingItems rest)

/-- The deepest `nesting` among members. -/
def nestingMembers : List (String × Json) → Nat
  | [] => 0
  | (_, j) :: rest => max j.nesting (nestingMembers rest)

end

end Json

end FleetWatch
