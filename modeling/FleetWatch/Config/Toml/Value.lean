/-!
TOML documents, and how the lines of one are put together.

A table can be opened by its header, come into being because a table inside it was opened, or be
made by dotted keys.  `Definition` keeps which: a table is opened once, and only a table of dotted
keys is added to by dotted keys.  Of an array of tables only the last one can still grow.
-/

namespace FleetWatch

/-- A document or a value in it.  Fractions and dates are kept as they were written. -/
inductive Toml where
  | string (s : String)
  | integer (i : Int)
  | boolean (b : Bool)
  | fraction (text : String)
  | date (text : String)
  | array (items : List Toml)
  | table (members : List (String × Toml))
deriving Repr, BEq, Inhabited

namespace Toml

def lookup? {α : Type} (key : String) (members : List (String × α)) : Option α :=
  (members.find? fun m => m.1 == key).map Prod.snd

/-- How a table came into being. -/
inductive Definition where
  | header
  | implied
  | dotted
deriving Repr, DecidableEq, Inhabited

/-- A part of a document that is being put together. -/
inductive Part where
  | value (v : Toml)
  | table (definition : Definition) (members : List (String × Part))
  | tables (done : List Toml) (last : List (String × Part))
deriving Inhabited

/-- The members of a table that is being put together. -/
abbrev Parts : Type := List (String × Part)

mutual

/-- A part as it stands. -/
def Part.toToml : Part → Toml
  | .value v => v
  | .table _ members => .table (membersToToml members)
  | .tables done last => .array (done ++ [.table (membersToToml last)])

/-- `Part.toToml` on the members of a table. -/
def membersToToml : List (String × Part) → List (String × Toml)
  | [] => []
  | (key, part) :: rest => (key, part.toToml) :: membersToToml rest

end

/-- Why lines do not fit together. -/
inductive Clash where
  | duplicateKey (key : String)
  | notATable (key : String)
deriving Repr, DecidableEq

def Clash.message : Clash → String
  | .duplicateKey key => "duplicate key " ++ key
  | .notATable key => key ++ " is not a table"

/-- Members with the part of a key replaced, or added at the end. -/
def setPart (key : String) (part : Part) : Parts → Parts
  | [] => [(key, part)]
  | (other, old) :: rest =>
    if other = key then (key, part) :: rest else (other, old) :: setPart key part rest

/-- Adds the value of a dotted key, whose tables are `path`. -/
def insertDotted (path : List String) (key : String) (v : Toml) (members : Parts) :
    Except Clash Parts :=
  match path with
  | [] =>
    match lookup? key members with
    | none => .ok (members ++ [(key, .value v)])
    | some _ => .error (.duplicateKey key)
  | step :: rest =>
    match lookup? step members with
    | none => do
      return setPart step (.table .dotted (← insertDotted rest key v [])) members
    | some (.table .dotted inner) => do
      return setPart step (.table .dotted (← insertDotted rest key v inner)) members
    | some (.table .implied inner) => do
      if rest.isEmpty then throw (.duplicateKey key)
      return setPart step (.table .implied (← insertDotted rest key v inner)) members
    | some (.table .header _) => .error (.duplicateKey step)
    | some (.tables done last) => do
      if rest.isEmpty then throw (.duplicateKey key)
      return setPart step (.tables done (← insertDotted rest key v last)) members
    | some (.value _) => .error (.notATable step)

/-- Changes the table that headers name by `path`.  Tables on the way come into being. -/
def within (path : List String) (change : Parts → Except Clash Parts) (members : Parts) :
    Except Clash Parts :=
  match path with
  | [] => change members
  | step :: rest =>
    match lookup? step members with
    | none => do
      return setPart step (.table .implied (← within rest change [])) members
    | some (.table definition inner) => do
      return setPart step (.table definition (← within rest change inner)) members
    | some (.tables done last) => do
      return setPart step (.tables done (← within rest change last)) members
    | some (.value _) => .error (.notATable step)

/-- Opens the table of a header in the table around it. -/
def openTable (key : String) (members : Parts) : Except Clash Parts :=
  match lookup? key members with
  | none => .ok (members ++ [(key, .table .header [])])
  | some (.table .implied inner) => .ok (setPart key (.table .header inner) members)
  | some _ => .error (.duplicateKey key)

/-- Opens the next table of an array in the table around it. -/
def openNext (key : String) (members : Parts) : Except Clash Parts :=
  match lookup? key members with
  | none => .ok (members ++ [(key, .tables [] [])])
  | some (.tables done last) =>
    .ok (setPart key (.tables (done ++ [.table (membersToToml last)]) []) members)
  | some _ => .error (.duplicateKey key)

/-- A key with the tables before its last dot. -/
structure Key where
  path : List String
  last : String
deriving Repr, DecidableEq, Inhabited

/-- The whole key as a path. -/
def Key.steps (k : Key) : List String :=
  k.path ++ [k.last]

inductive Statement where
  | header (key : Key)
  | arrayHeader (key : Key)
  | pair (key : Key) (value : Toml)
deriving Repr, Inhabited

/-- A document after one more line.  Pairs belong to the table whose header came last. -/
def addStatement (state : List String × Parts) : Statement → Except Clash (List String × Parts)
  | .header key => do
    return (key.steps, ← within key.path (openTable key.last) state.2)
  | .arrayHeader key => do
    return (key.steps, ← within key.path (openNext key.last) state.2)
  | .pair key value => do
    return (state.1, ← within state.1 (insertDotted key.path key.last value) state.2)

def ofStatements (statements : List Statement) : Except Clash Toml := do
  let (_, members) ← statements.foldlM addStatement ([], [])
  return .table (membersToToml members)

def ofPairs (pairs : List (Key × Toml)) : Except Clash Toml := do
  let members ← pairs.foldlM (fun ms p => insertDotted p.1.path p.1.last p.2 ms) []
  return .table (membersToToml members)

end Toml

end FleetWatch
