import FleetWatch.Config.Toml.Value
import FleetWatch.Number.Double
import FleetWatch.Text.Integer
/-!
Reading TOML.

A document is a sequence of lines: blank, a comment, a table header or a pair.  Strings are in one
of four forms, numbers may be grouped with underscores, and an inline table stands on one line while
an array may go over several.
-/

namespace FleetWatch

namespace Toml

/-- Why a text is not a document. -/
inductive Fault where
  | expected (what : String)
  | badString
  | badEscape
  | badNumber
  | badDate
  | tooDeep
  | trailing
  | clash (cause : Clash)
deriving Repr, DecidableEq

def Fault.message : Fault → String
  | .expected what => "expected " ++ what
  | .badString => "invalid string"
  | .badEscape => "invalid escape sequence"
  | .badNumber => "invalid number"
  | .badDate => "invalid date"
  | .tooDeep => "nested too deeply"
  | .trailing => "unexpected text after a value"
  | .clash cause => cause.message

/-- The result of putting lines together, as the reading of a text. -/
def settle {α : Type} : Except Clash α → Except Fault α
  | .ok a => .ok a
  | .error c => .error (.clash c)

def isSpace (c : Char) : Bool :=
  c == ' ' || c == '\t'

/-- A text without the blanks in front. -/
def skipBlanks (cs : List Char) : List Char :=
  cs.dropWhile isSpace

/-- The rest after the end of a line, if a line ends here. -/
def lineEnd? : List Char → Option (List Char)
  | '\n' :: rest => some rest
  | '\r' :: '\n' :: rest => some rest
  | _ => none

/-- A character that may stand in a comment, or unescaped in a string beside quote and backslash. -/
def isPlain (c : Char) : Bool :=
  c == '\t' || (0x20 ≤ c.toNat && c.toNat != 0x7F)

/-- The rest after a comment, if one starts here. -/
def skipComment : List Char → List Char
  | '#' :: rest => rest.dropWhile isPlain
  | cs => cs

/-- The rest after blanks, comments and line ends. -/
def skipLines : Nat → List Char → Except Fault (List Char)
  | 0, cs => .ok cs
  | fuel + 1, cs =>
    match skipBlanks cs with
    | '#' :: rest =>
      match lineEnd? (rest.dropWhile isPlain) with
      | some rest => skipLines fuel rest
      | none => .error (.expected "end of line")
    | cs =>
      match lineEnd? cs with
      | some rest => skipLines fuel rest
      | none => .ok cs

/-! ### Strings -/

/-- The character that a number in an escape names; halves of pairs have none. -/
def scalar? (digits : List Char) : Option Char := do
  let n ← digits.foldlM (fun n c => (Text.hexValue? c).map (n * 16 + ·)) 0
  if n < 0xD800 ∨ (0xE000 ≤ n ∧ n < 0x110000) then some (Char.ofNat n) else none

/-- The character of an escape after its backslash. -/
def readEscape : List Char → Except Fault (Char × List Char)
  | 'b' :: rest => .ok ('\x08', rest)
  | 't' :: rest => .ok ('\t', rest)
  | 'n' :: rest => .ok ('\n', rest)
  | 'f' :: rest => .ok ('\x0c', rest)
  | 'r' :: rest => .ok ('\r', rest)
  | '"' :: rest => .ok ('"', rest)
  | '\\' :: rest => .ok ('\\', rest)
  | 'u' :: rest =>
    if rest.length < 4 then .error .badEscape
    else
      match scalar? (rest.take 4) with
      | some c => .ok (c, rest.drop 4)
      | none => .error .badEscape
  | 'U' :: rest =>
    if rest.length < 8 then .error .badEscape
    else
      match scalar? (rest.take 8) with
      | some c => .ok (c, rest.drop 8)
      | none => .error .badEscape
  | _ => .error .badEscape

/-- The rest of a string on one line after its opening quote; `done` holds what was read,
backwards. -/
def readBasic : Nat → List Char → List Char → Except Fault (String × List Char)
  | 0, _, _ => .error .badString
  | fuel + 1, done, cs =>
    match cs with
    | '"' :: rest => .ok (String.ofList done.reverse, rest)
    | '\\' :: rest => do
      let (c, rest) ← readEscape rest
      readBasic fuel (c :: done) rest
    | c :: rest => if isPlain c then readBasic fuel (c :: done) rest else .error .badString
    | [] => .error .badString

/-- The rest of a string without escapes after its opening quote. -/
def readLiteral (done : List Char) : List Char → Except Fault (String × List Char)
  | '\'' :: rest => .ok (String.ofList done.reverse, rest)
  | c :: rest => if isPlain c then readLiteral (c :: done) rest else .error .badString
  | [] => .error .badString

/-- The end of a string over several lines, if three quotes or more stand here.  Up to two quotes
before the closing three belong to the string. -/
def closing? (quote : Char) (cs : List Char) : Option (List Char × List Char) :=
  let count := (cs.takeWhile (· == quote)).length
  if count < 3 then none
  else
    let kept := min (count - 3) 2
    some (List.replicate kept quote, cs.drop (kept + 3))

/-- The rest after blanks and line ends. -/
def skipBreaks : List Char → List Char
  | '\r' :: '\n' :: rest => skipBreaks rest
  | c :: rest => if isSpace c || c == '\n' then skipBreaks rest else c :: rest
  | [] => []

/-- The rest after the blanks and line ends that follow a backslash at the end of a line, if the
line ends here. -/
def joinedLine? (cs : List Char) : Option (List Char) :=
  (lineEnd? (skipBlanks cs)).map skipBreaks

/-- The rest of a string over several lines. -/
def readMultiBasic : Nat → List Char → List Char → Except Fault (String × List Char)
  | 0, _, _ => .error .badString
  | fuel + 1, done, cs =>
    match closing? '"' cs with
    | some (kept, rest) => .ok (String.ofList (kept ++ done).reverse, rest)
    | none =>
      match lineEnd? cs with
      | some rest => readMultiBasic fuel ('\n' :: done) rest
      | none =>
        match cs with
        | '\\' :: rest =>
          match joinedLine? rest with
          | some rest => readMultiBasic fuel done rest
          | none => do
            let (c, rest) ← readEscape rest
            readMultiBasic fuel (c :: done) rest
        | c :: rest =>
          if isPlain c then readMultiBasic fuel (c :: done) rest else .error .badString
        | [] => .error .badString

/-- The rest of a string over several lines without escapes. -/
def readMultiLiteral : Nat → List Char → List Char → Except Fault (String × List Char)
  | 0, _, _ => .error .badString
  | fuel + 1, done, cs =>
    match closing? '\'' cs with
    | some (kept, rest) => .ok (String.ofList (kept ++ done).reverse, rest)
    | none =>
      match lineEnd? cs with
      | some rest => readMultiLiteral fuel ('\n' :: done) rest
      | none =>
        match cs with
        | c :: rest =>
          if isPlain c then readMultiLiteral fuel (c :: done) rest else .error .badString
        | [] => .error .badString

/-- A text without a line end in front. -/
def dropLineEnd (cs : List Char) : List Char :=
  (lineEnd? cs).getD cs

/-- A string in any of its forms, if a quote stands here. -/
def readString? (cs : List Char) : Option (Except Fault (String × List Char)) :=
  match cs with
  | '"' :: '"' :: '"' :: rest => some (readMultiBasic (cs.length + 1) [] (dropLineEnd rest))
  | '"' :: rest => some (readBasic (cs.length + 1) [] rest)
  | '\'' :: '\'' :: '\'' :: rest => some (readMultiLiteral (cs.length + 1) [] (dropLineEnd rest))
  | '\'' :: rest => some (readLiteral [] rest)
  | _ => none

/-! ### Keys -/

/-- A character of a key without quotes. -/
def isBare (c : Char) : Bool :=
  ('a' ≤ c && c ≤ 'z') || ('A' ≤ c && c ≤ 'Z') || ('0' ≤ c && c ≤ '9') || c == '_' || c == '-'

def readSimpleKey (cs : List Char) : Except Fault (String × List Char) :=
  match cs with
  | '"' :: rest => readBasic (cs.length + 1) [] rest
  | '\'' :: rest => readLiteral [] rest
  | _ =>
    match cs.takeWhile isBare with
    | [] => .error (.expected "a key")
    | name => .ok (String.ofList name, cs.dropWhile isBare)

/-- How many brackets may stand around a value, and how many parts a key may have. -/
def maxDepth : Nat := 79

/-- A key with its dots; `path` holds the parts read, in order. -/
def readKey : Nat → List String → List Char → Except Fault (Key × List Char)
  | 0, _, _ => .error (.expected "a key")
  | fuel + 1, path, cs => do
    let (name, rest) ← readSimpleKey (skipBlanks cs)
    match skipBlanks rest with
    | '.' :: rest => readKey fuel (path ++ [name]) rest
    | rest =>
      if path.length < maxDepth then return (⟨path, name⟩, rest)
      else throw .tooDeep

/-! ### Numbers and dates -/

/-- A run of digits of a base with single underscores between them, without the underscores. -/
def ungroup? (isDigit : Char → Bool) (cs : List Char) : Option (List Char) :=
  if cs.isEmpty then none
  else
    let rec go (afterDigit : Bool) : List Char → Option (List Char)
      | [] => if afterDigit then some [] else none
      | c :: rest =>
        if isDigit c then (go true rest).map (c :: ·)
        else if c = '_' ∧ afterDigit then go false rest
        else none
    go false cs

def valueOf (base : Nat) (digits : List Char) : Nat :=
  digits.foldl (fun n c => n * base + (Text.hexValue? c).getD 0) 0

/-- A number in another base than ten. -/
def readBased (base : Nat) (cs : List Char) : Except Fault Toml :=
  match ungroup? (fun c => (Text.hexValue? c).any (· < base)) cs with
  | none => .error .badNumber
  | some digits =>
    let n := valueOf base digits
    if n ≤ Text.maxSigned64 then .ok (.integer n) else .error .badNumber

/-- The digits of a whole number in base ten, which has no leading zero. -/
def wholeDigits? (cs : List Char) : Option (List Char) := do
  let digits ← ungroup? Text.isAsciiDigit cs
  if 1 < digits.length ∧ digits.head? = some '0' then none else some digits

/-- An exponent, with or without a sign. -/
def exponent? (cs : List Char) : Option Int :=
  let value (digits : List Char) : Option Nat :=
    (ungroup? Text.isAsciiDigit digits).map (valueOf 10)
  match cs with
  | '+' :: digits => (value digits).map fun e => (e : Int)
  | '-' :: digits => (value digits).map fun e => -(e : Int)
  | digits => (value digits).map fun e => (e : Int)

/-- A whole number, then places or an exponent or both, as digits with an exponent. -/
def decimal? (cs : List Char) : Option (Nat × Int) := do
  let startsExponent (c : Char) : Bool := c == 'e' || c == 'E'
  let whole := cs.takeWhile fun c => c != '.' && !startsExponent c
  let digits ← wholeDigits? whole
  match cs.drop whole.length with
  | [] => none
  | '.' :: more =>
    let written := more.takeWhile fun c => !startsExponent c
    let places ← ungroup? Text.isAsciiDigit written
    let e ← match more.drop written.length with
      | [] => some 0
      | _ :: e => exponent? e
    return (valueOf 10 (digits ++ places), e - places.length)
  | _ :: e => return (valueOf 10 digits, ← exponent? e)

/-- A number after its sign.  A fraction that is too large for double precision is refused, unless
it is below zero. -/
def readUnsigned (below : Bool) (cs : List Char) : Except Fault Toml :=
  match wholeDigits? cs with
  | some digits =>
    let n := valueOf 10 digits
    if below then
      if n ≤ Text.depthSigned64 then .ok (.integer (-(n : Int))) else .error .badNumber
    else if n ≤ Text.maxSigned64 then .ok (.integer n) else .error .badNumber
  | none =>
    let number : Toml := .fraction (String.ofList (if below then '-' :: cs else cs))
    if cs = ['i', 'n', 'f'] ∨ cs = ['n', 'a', 'n'] then .ok number
    else
      match decimal? cs with
      | none => .error .badNumber
      | some (digits, exponent) =>
        if !below && Double.isBeyond digits exponent then .error .badNumber else .ok number

/-- A number as it stands. -/
def readNumber (cs : List Char) : Except Fault Toml :=
  match cs with
  | '+' :: rest => readUnsigned false rest
  | '-' :: rest => readUnsigned true rest
  | '0' :: 'x' :: rest => readBased 16 rest
  | '0' :: 'o' :: rest => readBased 8 rest
  | '0' :: 'b' :: rest => readBased 2 rest
  | _ => readUnsigned false cs

/-- A number of exactly two digits in a range. -/
def twoDigits? (least most : Nat) : List Char → Option (Nat × List Char)
  | a :: b :: rest => do
    let n := (← Text.digitValue? a) * 10 + (← Text.digitValue? b)
    if least ≤ n ∧ n ≤ most then some (n, rest) else none
  | _ => none

def monthDays (year month : Nat) : Nat :=
  if month = 2 then
    if year % 400 = 0 ∨ (year % 4 = 0 ∧ year % 100 ≠ 0) then 29 else 28
  else if month = 4 ∨ month = 6 ∨ month = 9 ∨ month = 11 then 30
  else 31

def skipTime? (cs : List Char) : Option (List Char) := do
  let (_, rest) ← twoDigits? 0 23 cs
  match rest with
  | ':' :: rest => do
    let (_, rest) ← twoDigits? 0 59 rest
    match rest with
    | ':' :: rest => do
      let (_, rest) ← twoDigits? 0 60 rest
      match rest with
      | '.' :: places =>
        match places.takeWhile Text.isAsciiDigit with
        | [] => none
        | ds => some (places.drop ds.length)
      | _ => some rest
    | _ => none
  | _ => none

/-- The rest after the offset of a time, if one is written. -/
def skipOffset? : List Char → Option (List Char)
  | c :: rest =>
    if c = 'Z' ∨ c = 'z' then some rest
    else if c = '+' ∨ c = '-' then do
      let (_, rest) ← twoDigits? 0 23 rest
      match rest with
      | ':' :: rest => (twoDigits? 0 59 rest).map Prod.snd
      | _ => none
    else some (c :: rest)
  | [] => some []

/-- The rest after a date, which has a year of four digits. -/
def skipDay? : List Char → Option (List Char)
  | a :: b :: c :: d :: '-' :: rest => do
    let digits ← [a, b, c, d].mapM Text.digitValue?
    let year := digits.foldl (fun n d => n * 10 + d) 0
    let (month, rest) ← twoDigits? 1 12 rest
    match rest with
    | '-' :: rest => (twoDigits? 1 (monthDays year month) rest).map Prod.snd
    | _ => none
  | _ => none

/-- The rest after a date, a time or both, if one stands here. -/
def skipDate? (cs : List Char) : Option (List Char) :=
  match skipDay? cs with
  | some rest =>
    match rest with
    | c :: more =>
      if c = 'T' ∨ c = 't' ∨ c = ' ' then
        match skipTime? more with
        | some rest => skipOffset? rest
        | none => some rest
      else some rest
    | [] => some []
  | none => skipTime? cs

/-- A character of a number, or of a word beside one. -/
def isNumeral (c : Char) : Bool :=
  isBare c || c == '+' || c == '.'

def readScalar (cs : List Char) : Except Fault (Toml × List Char) :=
  match skipDate? cs with
  | some rest => .ok (.date (String.ofList (cs.take (cs.length - rest.length))), rest)
  | none => do
    let word := cs.takeWhile isNumeral
    return (← readNumber word, cs.drop word.length)

/-- The rest after a word, which stands for `v`. -/
def readWord (word : String) (v : Toml) (cs : List Char) : Except Fault (Toml × List Char) :=
  if word.toList.isPrefixOf cs then .ok (v, cs.drop word.length)
  else .error (.expected "a value")

/-! ### Values -/

mutual

/-- One value.  `fuel` bounds the steps, for which the length of the text is enough; `room` is how
many more brackets may be opened. -/
def readValue : Nat → Nat → List Char → Except Fault (Toml × List Char)
  | 0, _, _ => .error (.expected "a value")
  | fuel + 1, room, cs =>
    match readString? cs with
    | some step => do
      let (s, rest) ← step
      return (.string s, rest)
    | none =>
      match cs with
      | '[' :: rest => do
        if room = 0 then throw .tooDeep
        match ← skipLines rest.length rest with
        | ']' :: rest => return (.array [], rest)
        | rest => do
          let (items, rest) ← readItems fuel (room - 1) rest
          return (.array items, rest)
      | '\x7b' :: rest => do
        if room = 0 then throw .tooDeep
        match skipBlanks rest with
        | '\x7d' :: rest => return (.table [], rest)
        | rest => do
          let (pairs, rest) ← readPairs fuel (room - 1) rest
          return (← settle (ofPairs pairs), rest)
      | 't' :: _ => readWord "true" (.boolean true) cs
      | 'f' :: _ => readWord "false" (.boolean false) cs
      | 'i' :: _ => readWord "inf" (.fraction "inf") cs
      | 'n' :: _ => readWord "nan" (.fraction "nan") cs
      | c :: _ =>
        if Text.isAsciiDigit c || c == '+' || c == '-' then readScalar cs
        else .error (.expected "a value")
      | [] => .error (.expected "a value")

/-- The items of an array up to its closing bracket; a comma may follow the last. -/
def readItems : Nat → Nat → List Char → Except Fault ((List Toml) × List Char)
  | 0, _, _ => .error (.expected "a value")
  | fuel + 1, room, cs => do
    let (item, rest) ← readValue fuel room cs
    match ← skipLines rest.length rest with
    | ']' :: rest => return ([item], rest)
    | ',' :: rest =>
      match ← skipLines rest.length rest with
      | ']' :: rest => return ([item], rest)
      | rest => do
        let (items, rest) ← readItems fuel room rest
        return (item :: items, rest)
    | _ => throw (.expected "a comma or a bracket")

/-- The pairs of an inline table up to its closing bracket. -/
def readPairs : Nat → Nat → List Char → Except Fault ((List (Key × Toml)) × List Char)
  | 0, _, _ => .error (.expected "a pair")
  | fuel + 1, room, cs => do
    let (key, rest) ← readKey (cs.length + 1) [] cs
    match rest with
    | '=' :: rest => do
      let (value, rest) ← readValue fuel room (skipBlanks rest)
      match skipBlanks rest with
      | '\x7d' :: rest => return ([(key, value)], rest)
      | ',' :: rest => do
        let (pairs, rest) ← readPairs fuel room rest
        return ((key, value) :: pairs, rest)
      | _ => throw (.expected "a comma or a bracket")
    | _ => throw (.expected "an equals sign")

end

/-! ### Documents -/

/-- The rest after what may follow a statement on its line. -/
def finishLine (cs : List Char) : Except Fault (List Char) :=
  match skipComment (skipBlanks cs) with
  | [] => .ok []
  | rest =>
    match lineEnd? rest with
    | some rest => .ok rest
    | none => .error .trailing

/-- A line that says something. -/
def readStatement (cs : List Char) : Except Fault (Statement × List Char) :=
  match cs with
  | '[' :: '[' :: rest => do
    let (key, rest) ← readKey (cs.length + 1) [] rest
    match rest with
    | ']' :: ']' :: rest => return (.arrayHeader key, ← finishLine rest)
    | _ => throw (.expected "the end of a header")
  | '[' :: rest => do
    let (key, rest) ← readKey (cs.length + 1) [] rest
    match rest with
    | ']' :: rest => return (.header key, ← finishLine rest)
    | _ => throw (.expected "the end of a header")
  | _ => do
    let (key, rest) ← readKey (cs.length + 1) [] cs
    match rest with
    | '=' :: rest => do
      let (value, rest) ← readValue (2 * cs.length + 2) maxDepth (skipBlanks rest)
      return (.pair key value, ← finishLine rest)
    | _ => throw (.expected "an equals sign")

def readStatements : Nat → List Char → Except Fault (List Statement)
  | 0, _ => .ok []
  | fuel + 1, cs =>
    match skipComment (skipBlanks cs) with
    | [] => .ok []
    | rest =>
      match lineEnd? rest with
      | some rest => readStatements fuel rest
      | none => do
        let (statement, rest) ← readStatement (skipBlanks cs)
        return statement :: (← readStatements fuel rest)

/-- The document that a text is.  A byte order mark in front is passed over. -/
def parse (text : String) : Except Fault Toml := do
  let cs := match text.toList with
    | '\uFEFF' :: rest => rest
    | cs => cs
  settle (ofStatements (← readStatements (cs.length + 1) cs))

end Toml

end FleetWatch
