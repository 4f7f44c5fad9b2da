import FleetWatch.Json.Value
import FleetWatch.Text.Blank
import FleetWatch.Text.Search
/-!
Lines of the setup log that tell a step of the bring-up.

A log holds the sessions of one launcher run after another.  A session ends with the line that hands
over to the shell; the latest session is the one after the last such line, or the one that it ends
when nothing follows.
-/

namespace FleetWatch

/-- What a line of the setup log tells: a step, with details for some, or the end of the session. -/
inductive LineMatch where
  | milestone (status : String) (details : Option (List (String × String)))
  | finished
deriving Repr, DecidableEq, Inhabited

namespace LineMatch

/-- Whether the line ends its session. -/
def isFinished (m : LineMatch) : Bool :=
  m == .finished

/-- The status that the end of a session is published as. -/
def doneStatus : String := "Done"

/-- The status that a line is published as. -/
def status : LineMatch → String
  | .milestone status _ => status
  | .finished => doneStatus

/-- The details that a line is published with. -/
def details : LineMatch → Option (List (String × String))
  | .milestone _ details => details
  | .finished => none

end LineMatch

/-- Steps that are told by a text in the line.  The text is the status. -/
def plainMilestones : List String :=
  ["Waiting for XUD dependencies to be ready", "Setup wallets", "Create wallets",
   "Restore wallets", "Setup backup location", "Unlock wallets"]

/-- Pairs such as `bitcoind: 50.00%`, between bars, after the mark in a line of light client
progress.  A piece without a colon and a blank is skipped, and the last of several pairs of one name
counts. -/
def lightSyncDetails (line : String) : List (String × String) :=
  match Text.splitOnce? "[LightSync]".toList line.toList with
  | none => []
  | some (_, rest) =>
    Json.sortMembers
      ((Text.splitAll [' ', '|', ' '] (by decide) (Text.trimChars rest)).filterMap fun piece =>
        (Text.splitOnce? [':', ' '] piece).map fun (k, v) =>
          (String.ofList (Text.trimChars k), String.ofList (Text.trimChars v)))

/-- What a line tells, if anything. -/
def readSetupLine (line : String) : Option LineMatch :=
  if Text.contains line "LightSync" then
    some (.milestone "Syncing light clients" (some (lightSyncDetails line)))
  else
    match plainMilestones.find? fun step => Text.contains line step with
    | some step => some (.milestone step none)
    | none => if Text.contains line "Start shell" then some .finished else none

/-- A line that is read backwards, without the carriage return before its line feed. -/
def endLine : List Char → List Char
  | '\r' :: done => done.reverse
  | done => done.reverse

/-- The pieces of a text before each line feed, without a carriage return at their end, and the
rest unless it is empty.  `done` holds the piece being read, backwards. -/
def textLines (done : List Char) : List Char → List (List Char)
  | [] => if done.isEmpty then [] else [done.reverse]
  | c :: rest => if c = '\n' then endLine done :: textLines [] rest else textLines (c :: done) rest

/-- What the lines of a text tell, in order. -/
def setupMatches (text : String) : List LineMatch :=
  (textLines [] text.toList).filterMap fun line => readSetupLine (String.ofList line)

/-- A session, latest match first, with one more match: the match opens a session of its own when
the one before it is over. -/
def extendSession : List LineMatch → LineMatch → List LineMatch
  | .finished :: _, m => [m]
  | session, m => m :: session

def latestSession (ms : List LineMatch) : List LineMatch :=
  (ms.foldl extendSession []).reverse

/-- The matches of the latest session of a log. -/
def lastSession (text : String) : List LineMatch :=
  latestSession (setupMatches text)

end FleetWatch
