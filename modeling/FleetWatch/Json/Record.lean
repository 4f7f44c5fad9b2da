import FleetWatch.Json.Reader
/-!
Records out of documents.

A record is an object, whose other members are passed over, or an array of the values in the order
of the fields.  In an array the fields with a default may be left out at the end, and nothing may
follow the last field.  Where a text is read straight into a record, a field that is given twice is
an error; a document that was built before keeps the last value.
-/

namespace FleetWatch

namespace Json

/-- A field of a record, with whether it may be left out. -/
structure Field where
  name : String
  hasDefault : Bool
deriving Repr, DecidableEq, Inhabited

/-- The values of a record's fields, in order; `none` for one that is left out. -/
def record? (isFirstHand : Bool) (fields : List Field) : Json → Option (List (Option Json))
  | .object members =>
    if isFirstHand && fields.any fun f => 1 < members.countP fun m => m.1 == f.name then none
    else some (fields.map fun f => lookup? members f.name)
  | .array items =>
    if items.length ≤ fields.length && (fields.drop items.length).all Field.hasDefault then
      some (items.map some ++ (fields.drop items.length).map fun _ => none)
    else none
  | _ => none

def word? : Json → Option Nat
  | .number (.natural n) => if n ≤ Text.max64 then some n else none
  | _ => none

def signedWord? : Json → Option Int
  | .number (.natural n) => if n ≤ Text.maxSigned64 then some n else none
  | .number (.negative n) => if n ≤ Text.depthSigned64 then some (-(n : Int)) else none
  | _ => none

/-- A field that has a default when it is left out. -/
def withDefault {α : Type} (d : α) (read : Json → Option α) : Option Json → Option α
  | none => some d
  | some j => read j

/-- A field that may be left out or be null. -/
def optional {α : Type} (read : Json → Option α) : Option Json → Option (Option α)
  | none => some none
  | some .null => some none
  | some j => (read j).map some

end Json

end FleetWatch
