/-!
Reading bytes as UTF-8, with a replacement character for what is not.

A lead byte says which bytes may follow it.  The longest run of bytes that some character could
start with, and that is no whole character, becomes one replacement character; so does a byte that
starts no character at all.  Well-formed text is read unchanged.
-/

namespace FleetWatch

namespace Text

/-- What stands for bytes that are no character. -/
def replacement : Char := '\uFFFD'

/-- The ranges of the bytes that follow a lead byte, and the lead byte's share of the code point.
No byte outside these cases starts a character. -/
def leadByte? (b : Nat) : Option (Nat × List (Nat × Nat)) :=
  if b < 0x80 then some (b, [])
  else if b < 0xC2 then none
  else if b < 0xE0 then some (b - 0xC0, [(0x80, 0xBF)])
  else if b = 0xE0 then some (0, [(0xA0, 0xBF), (0x80, 0xBF)])
  else if b = 0xED then some (0xD, [(0x80, 0x9F), (0x80, 0xBF)])
  else if b < 0xF0 then some (b - 0xE0, [(0x80, 0xBF), (0x80, 0xBF)])
  else if b = 0xF0 then some (0, [(0x90, 0xBF), (0x80, 0xBF), (0x80, 0xBF)])
  else if b < 0xF4 then some (b - 0xF0, [(0x80, 0xBF), (0x80, 0xBF), (0x80, 0xBF)])
  else if b = 0xF4 then some (4, [(0x80, 0x8F), (0x80, 0xBF), (0x80, 0xBF)])
  else none

/-- Reads the bytes that should follow.  `none` when one is missing or out of range; either way
the bytes from the first one not taken are returned. -/
def readTail : Nat → List (Nat × Nat) → List UInt8 → Option Nat × List UInt8
  | code, [], bytes => (some code, bytes)
  | _, _ :: _, [] => (none, [])
  | code, (lo, hi) :: ranges, b :: bytes =>
    if lo ≤ b.toNat ∧ b.toNat ≤ hi then readTail (code * 64 + (b.toNat - 0x80)) ranges bytes
    else (none, b :: bytes)

theorem readTail_length (code : Nat) (ranges : List (Nat × Nat)) (bytes : List UInt8) :
    (readTail code ranges bytes).2.length ≤ bytes.length := by
  induction ranges generalizing code bytes with
  | nil => simp [readTail]
  | cons r rs ih =>
    cases bytes with
    | nil => simp [readTail]
    | cons b bs =>
      simp only [readTail]
      split
      · exact Nat.le_trans (ih _ _) (Nat.le_succ _)
      · exact Nat.le_refl _

/-- The first character of a non-empty byte sequence, and the bytes after it. -/
def readChar (b : UInt8) (bytes : List UInt8) : Char × List UInt8 :=
  match leadByte? b.toNat with
  | none => (replacement, bytes)
  | some (code, ranges) =>
    match readTail code ranges bytes with
    | (some n, rest) => (Char.ofNat n, rest)
    | (none, rest) => (replacement, rest)

theorem readChar_length (b : UInt8) (bytes : List UInt8) :
    (readChar b bytes).2.length ≤ bytes.length := by
  unfold readChar
  split
  · exact Nat.le_refl _
  · next code ranges _ =>
    have := readTail_length code ranges bytes
    split <;> simp_all

/-- The characters of a byte sequence. -/
def decodeLossy : List UInt8 → List Char
  | [] => []
  | b :: bytes => (readChar b bytes).1 :: decodeLossy (readChar b bytes).2
termination_by bytes => bytes.length
decreasing_by
  have := readChar_length b bytes
  simp only [List.length_cons]
  omega

def lossyString (bytes : List UInt8) : String :=
  String.ofList (decodeLossy bytes)

/-- The text of a byte sequence that is UTF-8 throughout. -/
def strictString? (bytes : List UInt8) : Option String :=
  String.fromUTF8? (ByteArray.mk bytes.toArray)

def utf8Bytes (s : String) : List UInt8 :=
  s.toUTF8.data.toList

end Text

end FleetWatch
