import FleetWatch.Json.Value
import FleetWatch.Number.Double
import FleetWatch.Text.Integer
/-!
Reading JSON documents.

The grammar is the standard one: no leading zeros, no trailing commas, no bare control characters
inside a text, and a pair of escapes for a character beyond the sixteen-bit range.  Whole numbers
that fit sixty-four bits stay whole; larger ones become decimals.  A decimal keeps the digits that
fit sixty-four bits; one that is too large for double precision is a fault, as is nesting deeper
than `maxNesting`.
-/

namespace FleetWatch

namespace Json

/-- Why a text is not a document. -/
inductive Fault where
  | endOfText
  | unexpected
  | badEscape
  | controlCharacter
  | numberRange
  | trailing
  | tooDeep
  | notUtf8
deriving Repr, DecidableEq

def Fault.message : Fault → String
  | .endOfText => "the document ends too early"
  | .unexpected => "unexpected character"
  | .badEscape => "invalid escape"
  | .controlCharacter => "control character in a string"
  | .numberRange => "number out of range"
  | .trailing => "trailing characters"
  | .tooDeep => "nested too deeply"
  | .notUtf8 => "not UTF-8"

def isSpace (c : Char) : Bool :=
  c == ' ' || c == '\n' || c == '\t' || c == '\r'

/-- A text from its first character that is no blank. -/
def skipSpace (cs : List Char) : List Char :=
  cs.dropWhile isSpace

def hex4? (a b c d : Char) : Option Nat := do
  let a ← Text.hexValue? a
  let b ← Text.hexValue? b
  let c ← Text.hexValue? c
  let d ← Text.hexValue? d
  return ((a * 16 + b) * 16 + c) * 16 + d

/-- The character that a one-letter escape stands for. -/
def shortEscape? (c : Char) : Option Char :=
  if c = '"' ∨ c = '\\' ∨ c = '/' then some c
  else if c = 'b' then some (Char.ofNat 8)
  else if c = 'f' then some (Char.ofNat 12)
  else if c = 'n' then some '\n'
  else if c = 'r' then some '\r'
  else if c = 't' then some '\t'
  else none

/-- The rest of a quoted text after its opening quote; `done` holds what was read, backwards. -/
def readQuoted (done : List Char) : List Char → Except Fault (List Char × List Char)
  | [] => .error .endOfText
  | '"' :: rest => .ok (done.reverse, rest)
  | '\\' :: 'u' :: a :: b :: c :: d :: rest =>
    match hex4? a b c d with
    | none => .error .badEscape
    | some high =>
      if high < 0xD800 ∨ 0xE000 ≤ high then readQuoted (Char.ofNat high :: done) rest
      else if 0xDC00 ≤ high then .error .badEscape
      else
        match rest with
        | '\\' :: 'u' :: a :: b :: c :: d :: rest =>
          match hex4? a b c d with
          | none => .error .badEscape
          | some low =>
            if 0xDC00 ≤ low ∧ low < 0xE000 then
              readQuoted
                (Char.ofNat (0x10000 + (high - 0xD800) * 0x400 + (low - 0xDC00)) :: done) rest
            else .error .badEscape
        | _ => .error .badEscape
  | '\\' :: c :: rest =>
    match shortEscape? c with
    | some e => readQuoted (e :: done) rest
    | none => .error .badEscape
  | c :: rest =>
    if c.toNat < 0x20 then .error .controlCharacter else readQuoted (c :: done) rest

/-- A number with one more digit, if it still fits sixty-four bits. -/
def withDigit? (value digit : Nat) : Option Nat :=
  if value * 10 + digit ≤ Text.max64 then some (value * 10 + digit) else none

/-- A text without the digits in front. -/
def skipDigits (cs : List Char) : List Char :=
  cs.dropWhile Text.isAsciiDigit

/-- Digits onto `value`.  From the first one on that does not fit they are only counted. -/
def readWhole (value : Nat) : List Char → Nat × Nat × List Char
  | [] => (value, 0, [])
  | c :: rest =>
    match Text.digitValue? c with
    | none => (value, 0, c :: rest)
    | some d =>
      match withDigit? value d with
      | some value => readWhole value rest
      | none => (value, ((c :: rest).takeWhile Text.isAsciiDigit).length, skipDigits rest)

/-- Digits after the point onto `value`, with how many were taken.  From the first one on that does
not fit they are passed over. -/
def readPlaces (value count : Nat) : List Char → Nat × Nat × List Char
  | [] => (value, count, [])
  | c :: rest =>
    match Text.digitValue? c with
    | none => (value, count, c :: rest)
    | some d =>
      match withDigit? value d with
      | some value => readPlaces value (count + 1) rest
      | none => (value, count, skipDigits rest)

/-- The exponent of a number, if one is written here. -/
def readExponent : List Char → Except Fault (Option Int × List Char)
  | c :: rest =>
    if c = 'e' ∨ c = 'E' then
      let (negated, digits) :=
        match rest with
        | '+' :: more => (false, more)
        | '-' :: more => (true, more)
        | more => (false, more)
      match digits.takeWhile Text.isAsciiDigit with
      | [] => .error .unexpected
      | ds =>
        let e := ds.foldl (fun n d => n * 10 + (Text.digitValue? d).getD 0) 0
        .ok (some (if negated then -(e : Int) else (e : Int)), skipDigits digits)
    else .ok (none, c :: rest)
  | [] => .ok (none, [])

/-- The fraction of a number, if one is written here: its digits onto `value`, and how many they
are. -/
def readFraction (value : Nat) : List Char → Except Fault (Nat × Option Nat × List Char)
  | '.' :: rest =>
    match rest.takeWhile Text.isAsciiDigit with
    | [] => .error .unexpected
    | _ =>
      let (value, places, rest) := readPlaces value 0 rest
      .ok (value, some places, rest)
  | rest => .ok (value, none, rest)

/-- A whole number, which is a decimal when it is too far below zero for sixty-four bits, or a
negative zero. -/
def wholeNumber (below : Bool) (n : Nat) : Number :=
  if below then
    if n = 0 ∨ Text.depthSigned64 < n then .decimal true n 0 else .negative n
  else .natural n

/-- A number after its sign. -/
def readNumber (below : Bool) (cs : List Char) : Except Fault (Number × List Char) := do
  match cs with
  | '0' :: c :: _ => if Text.isAsciiDigit c then throw .unexpected
  | c :: _ => if !Text.isAsciiDigit c then throw .unexpected
  | [] => throw .endOfText
  let (whole, dropped, rest) := readWhole 0 cs
  let (digits, places, rest) ← readFraction whole rest
  let (exponent, rest) ← readExponent rest
  if dropped = 0 ∧ places = none ∧ exponent = none then return (wholeNumber below digits, rest)
  let exponent := (dropped : Int) - (places.getD 0 : Nat) + exponent.getD 0
  if Double.isProductBeyond digits exponent then throw .numberRange
  return (.decimal below digits exponent, rest)

/-- The rest of a text after a fixed word. -/
def expect (word : List Char) (cs : List Char) : Except Fault (List Char) :=
  if word.isPrefixOf cs then .ok (cs.drop word.length)
  else if cs.isPrefixOf word then .error .endOfText
  else .error .unexpected

mutual

/-- One value.  `fuel` bounds the steps; the length of the text is enough. -/
def readValue : Nat → List Char → Except Fault (Json × List Char)
  | 0, _ => .error .endOfText
  | fuel + 1, cs =>
    match skipSpace cs with
    | [] => .error .endOfText
    | '"' :: rest => do
      let (s, rest) ← readQuoted [] rest
      return (.string (String.ofList s), rest)
    | '[' :: rest =>
      match skipSpace rest with
      | ']' :: rest => .ok (.array [], rest)
      | rest => do
        let (items, rest) ← readItems fuel rest
        return (.array items, rest)
    | '\x7b' :: rest =>
      match skipSpace rest with
      | '\x7d' :: rest => .ok (.object [], rest)
      | rest => do
        let (members, rest) ← readMembers fuel rest
        return (.object members, rest)
    | 't' :: rest => do
      return (.bool true, ← expect ['r', 'u', 'e'] rest)
    | 'f' :: rest => do
      return (.bool false, ← expect ['a', 'l', 's', 'e'] rest)
    | 'n' :: rest => do
      return (.null, ← expect ['u', 'l', 'l'] rest)
    | '-' :: rest => do
      let (n, rest) ← readNumber true rest
      return (.number n, rest)
    | c :: rest => do
      let (n, rest) ← readNumber false (c :: rest)
      return (.number n, rest)

/-- The items of an array up to its closing bracket. -/
def readItems : Nat → List Char → Except Fault (List Json × List Char)
  | 0, _ => .error .endOfText
  | fuel + 1, cs => do
    let (item, rest) ← readValue fuel cs
    match skipSpace rest with
    | ',' :: rest => do
      let (items, rest) ← readItems fuel rest
      return (item :: items, rest)
    | ']' :: rest => return ([item], rest)
    | [] => throw .endOfText
    | _ => throw .unexpected

/-- The members of an object up to its closing bracket. -/
def readMembers : Nat → List Char → Except Fault (List (String × Json) × List Char)
  | 0, _ => .error .endOfText
  | fuel + 1, cs =>
    match skipSpace cs with
    | '"' :: rest => do
      let (name, rest) ← readQuoted [] rest
      match skipSpace rest with
      | ':' :: rest => do
        let (value, rest) ← readValue fuel rest
        match skipSpace rest with
        | ',' :: rest => do
          let (members, rest) ← readMembers fuel rest
          return ((String.ofList name, value) :: members, rest)
        | '\x7d' :: rest => return ([(String.ofList name, value)], rest)
        | [] => throw .endOfText
        | _ => throw .unexpected
      | [] => throw .endOfText
      | _ => throw .unexpected
    | [] => .error .endOfText
    | _ => .error .unexpected

end

/-- How many brackets may stand around a value. -/
def maxNesting : Nat := 127

/-- The document that a text is, however deeply it nests. -/
def parseDeep (s : String) : Except Fault Json := do
  let cs := s.toList
  let (j, rest) ← readValue (2 * cs.length + 2) cs
  if (skipSpace rest).isEmpty then return j else throw .trailing

def parse (s : String) : Except Fault Json := do
  let j ← parseDeep s
  if j.nesting ≤ maxNesting then return j else throw .tooDeep

end Json

end FleetWatch
