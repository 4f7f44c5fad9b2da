import FleetWatch.Text.Integer
import FleetWatch.Text.Search
/-!
Reading the arguments of a command line.

A `Grammar` lists the options of a command, its positional arguments and its subcommands.  Arguments
are read in order: a subcommand's name hands the rest over to it, `--` makes everything after it
positional, and an option that takes a value takes the next argument unless a value is attached with
an equals sign.  An argument counts as given once the next one is looked at, so a fault of a value
comes after a fault that is found on the way to it.
-/

namespace FleetWatch

/-- Why arguments are refused, or what is wanted instead of a run. -/
inductive ArgumentFault where
  | unknown (argument : String)
  /-- A positional argument that has to be given is not. -/
  | missing (name : String)
  /-- An option is given twice. -/
  | repeated (name : String)
  | badNumber (name value : String)
  /-- An option has no value, or an empty one where it may not be empty. -/
  | noValue (name : String)
  /-- A flag has a value attached. -/
  | surplusValue (name value : String)
  | unknownCommand (name : String)
  | noCommand
  | nothingGiven
  | helpWanted
  | versionWanted
deriving Repr, DecidableEq, Inhabited

def ArgumentFault.message : ArgumentFault → String
  | .unknown argument => "unexpected argument '" ++ argument ++ "'"
  | .missing name => "missing argument " ++ name
  | .repeated name => "argument " ++ name ++ " cannot be used twice"
  | .badNumber name value => "invalid value '" ++ value ++ "' for " ++ name
  | .noValue name => "a value is required for " ++ name
  | .surplusValue name value => "unexpected value '" ++ value ++ "' for " ++ name
  | .unknownCommand name => "unrecognized command '" ++ name ++ "'"
  | .noCommand => "a command is required"
  | .nothingGiven => "a command is required"
  | .helpWanted => "help"
  | .versionWanted => "version"

/-- What an option means, and what its values have to be. -/
inductive OptionRule where
  | flag
  | help
  | version
  | text
  | path
  | integer
  | natural
deriving Repr, DecidableEq, Inhabited

/-- Whether an option takes a value. -/
def OptionRule.takesValue : OptionRule → Bool
  | .flag | .help | .version => false
  | _ => true

/-- Accepts a value or says what is wrong with it. -/
def OptionRule.check (rule : OptionRule) (name value : String) : Except ArgumentFault Unit :=
  match rule with
  | .path => if value.isEmpty then .error (.noValue name) else .ok ()
  | .integer =>
    match Text.readInt64 value.toList with
    | .ok _ => .ok ()
    | .error _ => .error (.badNumber name value)
  | .natural =>
    match Text.readNat Text.max64 value.toList with
    | .ok _ => .ok ()
    | .error _ => .error (.badNumber name value)
  | _ => .ok ()

/-- An option.  Only an integer's value may begin with a minus sign. -/
structure OptionSpec where
  name : String
  letter : Option Char := none
  rule : OptionRule
deriving Repr, DecidableEq, Inhabited

/-- A positional argument.  One that takes the rest takes every later argument as it is. -/
structure PositionalSpec where
  name : String
  isRequired : Bool := true
  takesRest : Bool := false
deriving Repr, DecidableEq, Inhabited

structure Grammar where
  options : List OptionSpec
  positionals : List PositionalSpec := []
  commands : List String := []
deriving Repr, DecidableEq, Inhabited

def helpCommand : String := "help"

namespace Arguments

inductive Spelling where
  /-- Two dashes alone. -/
  | escape
  /-- Two dashes, a name, and the value after an equals sign. -/
  | long (name : String) (value : Option String)
  /-- One dash and what follows it. -/
  | short (letters : List Char)
  | plain
deriving Repr, DecidableEq, Inhabited

/-- The spelling of an argument.  A dash alone is plain. -/
def spelling (argument : String) : Spelling :=
  match argument.toList with
  | ['-', '-'] => .escape
  | '-' :: '-' :: rest =>
    match Text.splitOnce? ['='] rest with
    | some (name, value) => .long (String.ofList name) (some (String.ofList value))
    | none => .long (String.ofList rest) none
  | '-' :: c :: rest => .short (c :: rest)
  | _ => .plain

/-- Whether the characters after a minus sign are a number: digits, with at most one point after the
first character and at most one `e` between the first and the last. -/
def isNumber (cs : List Char) : Bool :=
  let (mantissa, power) := match Text.splitOnce? ['e'] cs with
    | some (m, p) => (m, some p)
    | none => (cs, none)
  let points := (mantissa.filter (· == '.')).length
  mantissa.all (fun c => c.isDigit || c == '.') && points ≤ 1 && mantissa.head? != some '.' &&
    match power with
    | none => true
    | some p => !mantissa.isEmpty && !p.isEmpty && p.all Char.isDigit

/-- An argument whose values are being read. -/
structure Pending where
  name : String
  rule : OptionRule
  values : List String := []
  /-- The next argument is its value. -/
  isOpen : Bool := false
  isPositional : Bool := false
deriving Repr, DecidableEq, Inhabited

structure Reading where
  /-- The arguments that were given, with their values. -/
  given : List (String × List String) := []
  pending : Option Pending := none
  /-- How many positional arguments were given. -/
  positionals : Nat := 0
  /-- Everything else is positional. -/
  isTrailing : Bool := false
deriving Repr, DecidableEq, Inhabited

namespace Reading

/-- Whether the next argument is an option's value. -/
def isOpen (r : Reading) : Bool :=
  (r.pending.map Pending.isOpen).getD false

def accept (r : Reading) (p : Pending) : Except ArgumentFault Reading := do
  if p.rule.takesValue && p.values.isEmpty then throw (.noValue p.name)
  if r.given.any fun g => g.1 == p.name then throw (.repeated p.name)
  p.values.forM (p.rule.check p.name)
  return { r with given := r.given ++ [(p.name, p.values)] }

def settle (r : Reading) : Except ArgumentFault Reading :=
  match r.pending with
  | none => .ok r
  | some p => { r with pending := none }.accept p

/-- Reads an option with the value that is attached to it. -/
def option (r : Reading) (o : OptionSpec) (value : Option String) : Except ArgumentFault Reading :=
  if o.rule.takesValue then do
    let r ← r.settle
    match value with
    | some v => r.accept { name := o.name, rule := o.rule, values := [v] }
    | none => return { r with pending := some { name := o.name, rule := o.rule, isOpen := true } }
  else
    match value with
    | some v => .error (.surplusValue o.name v)
    | none => do
      let r ← r.settle
      match o.rule with
      | .help => throw .helpWanted
      | .version => throw .versionWanted
      | rule => r.accept { name := o.name, rule }

/-- Reads the letters after a dash.  What follows the letter of an option with a value is the
value. -/
def letters (g : Grammar) (r : Reading) : List Char → Except ArgumentFault Reading
  | [] => .ok r
  | c :: rest =>
    match g.options.find? fun o => o.letter == some c with
    | none => .error (.unknown ("-" ++ c.toString))
    | some o =>
      if o.rule.takesValue then
        match rest with
        | [] => r.option o none
        | '=' :: value => r.option o (some (String.ofList value))
        | value => r.option o (some (String.ofList value))
      else do letters g (← r.option o none) rest

/-- Reads an argument that is no option. -/
def positional (g : Grammar) (r : Reading) (argument : String) : Except ArgumentFault Reading :=
  match g.positionals[r.positionals]? with
  | none =>
    .error
      (if g.commands.isEmpty || (r.isTrailing && g.commands.contains argument) then
        .unknown argument
      else .unknownCommand argument)
  | some p =>
    if p.takesRest then
      match r.pending with
      | some pending =>
        if pending.isPositional && pending.name == p.name then
          .ok { r with pending := some { pending with values := pending.values ++ [argument] } }
        else start r p
      | none => start r p
    else do return { (← start r p) with positionals := r.positionals + 1 }
where
  /-- Starts a positional argument. -/
  start (r : Reading) (p : PositionalSpec) : Except ArgumentFault Reading := do
    let pending : Pending :=
      { name := p.name, rule := .text, values := [argument], isPositional := true }
    return { (← r.settle) with pending := some pending, isTrailing := r.isTrailing || p.takesRest }

/-- Reads an argument as the value of the option that waits for one. -/
def value (r : Reading) (argument : String) : Reading :=
  { r with pending := r.pending.map fun p =>
      { p with values := p.values ++ [argument], isOpen := false } }

/-- Whether the option that waits for a value takes a negative number. -/
def awaitsInteger (r : Reading) : Bool :=
  (r.pending.map fun p => p.isOpen && p.rule == .integer).getD false

/-- Reads an argument that is no subcommand. -/
def argument (g : Grammar) (r : Reading) (argument : String) : Except ArgumentFault Reading :=
  let plain := if r.isOpen then .ok (r.value argument) else r.positional g argument
  if r.isTrailing then r.positional g argument
  else
    match spelling argument with
    | .escape => .ok { r with isTrailing := true }
    | .long name value =>
      match g.options.find? fun o => o.name == name with
      | some o => r.option o value
      | none => .error (.unknown ("--" ++ name))
    | .short cs =>
      if r.awaitsInteger && isNumber cs then plain else r.letters g cs
    | .plain => plain

end Reading

/-- Reads the arguments of a command, up to the name of a subcommand. -/
def read (g : Grammar) (r : Reading) :
    List String → Except ArgumentFault (Reading × Option (String × List String))
  | [] => .ok (r, none)
  | argument :: rest =>
    if !r.isTrailing && !r.isOpen && g.commands.contains argument then
      .ok (r, some (argument, rest))
    else do read g (← r.argument g argument) rest

/-- Every positional argument that has to be given is. -/
def checkRequired (g : Grammar) (r : Reading) : Except ArgumentFault Unit :=
  match g.positionals.find? fun p => p.isRequired && !r.given.any fun x => x.1 == p.name with
  | some p => .error (.missing p.name)
  | none => .ok ()

/-- The arguments of a command without subcommands. -/
def readAll (g : Grammar) (arguments : List String) : Except ArgumentFault Reading := do
  let (r, _) ← read g {} arguments
  let r ← r.settle
  checkRequired g r
  return r

end Arguments

end FleetWatch
