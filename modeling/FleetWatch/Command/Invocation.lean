import FleetWatch.Command.Arguments
/-!
The program's command line.

The options `--config` and `--json-logs` may stand before and after the command; where both name a
configuration, the later one counts.
-/

namespace FleetWatch

inductive Command where
  | services (asJson : Bool)
  | status (service : Option String) (asJson : Bool)
  | logs (service since tail : String) (follow : Bool)
  | exec (service : String) (command : List String)
  | setupStatus (history : Int)
  /-- The interval is in seconds. -/
  | watch (interval : Nat)
deriving Repr, DecidableEq, Inhabited

structure Invocation where
  command : Command
  config : Option String
  jsonLogs : Bool
deriving Repr, DecidableEq, Inhabited

/-- The start of a log that is read when none is named. -/
def defaultSince : String := "1h"

/-- The lines of a log that are read when no count is named. -/
def defaultTail : String := "all"

/-- Every earlier milestone is shown when no count is named. -/
def defaultHistory : Int := -1

/-- Seconds between two tables when no interval is named. -/
def defaultInterval : Nat := 5

namespace Invocation

def commonOptions : List OptionSpec :=
  [{ name := "config", letter := some 'c', rule := .path },
   { name := "json-logs", rule := .flag },
   { name := "help", letter := some 'h', rule := .help }]

def jsonOption : OptionSpec := { name := "json", rule := .flag }

def grammars : List (String × Grammar) :=
  [("services", { options := jsonOption :: commonOptions }),
   ("status",
    { options := jsonOption :: commonOptions
      positionals := [{ name := "service", isRequired := false }] }),
   ("logs",
    { options :=
        [{ name := "since", rule := .text }, { name := "tail", rule := .text },
         { name := "follow", letter := some 'f', rule := .flag }] ++ commonOptions
      positionals := [{ name := "service" }] }),
   ("exec",
    { options := commonOptions
      positionals := [{ name := "service" }, { name := "cmd", takesRest := true }] }),
   ("setup-status", { options := { name := "history", rule := .integer } :: commonOptions }),
   ("watch", { options := { name := "interval", rule := .natural } :: commonOptions })]

/-- What stands before the command. -/
def outerGrammar : Grammar :=
  { options := { name := "version", letter := some 'V', rule := .version } :: commonOptions
    commands := helpCommand :: grammars.map Prod.fst }

/-- What asking for help comes to: every name but the last has to be a command with commands of its
own, and there is none but the program itself. -/
def helpFault : List String → ArgumentFault
  | [] => .helpWanted
  | name :: rest =>
    if outerGrammar.commands.contains name then
      match rest with
      | [] => .helpWanted
      | next :: _ => .unknownCommand next
    else .unknownCommand name

/-- The last value of an argument. -/
def valueOf? (r : Arguments.Reading) (name : String) : Option String :=
  (r.given.find? fun g => g.1 == name).bind fun g => g.2.getLast?

/-- Whether an argument was given. -/
def isGiven (r : Arguments.Reading) (name : String) : Bool :=
  r.given.any fun g => g.1 == name

/-- The command with a name and the arguments that were read for it. -/
def command? (name : String) (r : Arguments.Reading) : Option Command :=
  let text (key : String) (otherwise : String) := (valueOf? r key).getD otherwise
  match name with
  | "services" => some (.services (isGiven r "json"))
  | "status" => some (.status (valueOf? r "service") (isGiven r "json"))
  | "logs" =>
    some (.logs (text "service" "") (text "since" defaultSince) (text "tail" defaultTail)
      (isGiven r "follow"))
  | "exec" =>
    some (.exec (text "service" "")
      (((r.given.find? fun g => g.1 == "cmd").map Prod.snd).getD []))
  | "setup-status" =>
    let given := (valueOf? r "history").bind fun v => (Text.readInt64 v.toList).toOption
    some (.setupStatus (given.getD defaultHistory))
  | "watch" =>
    let given := (valueOf? r "interval").bind fun v => (Text.readNat Text.max64 v.toList).toOption
    some (.watch (given.getD defaultInterval))
  | _ => none

def parse (arguments : List String) : Except ArgumentFault Invocation := do
  let (outer, found) ← Arguments.read outerGrammar {} arguments
  match found with
  | none =>
    let outer ← outer.settle
    throw (if outer.given.isEmpty then .nothingGiven else .noCommand)
  | some (name, rest) =>
    if name = helpCommand then throw (helpFault rest)
    match grammars.lookup name with
    | none => throw (.unknownCommand name)
    | some grammar =>
      let inner ← Arguments.readAll grammar rest
      let outer ← outer.settle
      match command? name inner with
      | none => throw (.unknownCommand name)
      | some command =>
        return {
          command
          config := (valueOf? inner "config").or (valueOf? outer "config")
          jsonLogs := isGiven inner "json-logs" || isGiven outer "json-logs" }

end Invocation

end FleetWatch
