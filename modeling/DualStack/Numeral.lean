/-!
# Numerals

A numeral is the text of a whole number. Its opening characters choose how it is read
(`Numeral.read`): after `B` come binary digits, after `0X` or `X` hexadecimal ones, and both are
patterns of thirty-two bits in two's complement; anything else is a decimal number with an optional
sign, between `-2^31` and `2^31 - 1`. A plus sign may stand before the digits of every form, a minus
sign only before decimal ones.

Digits are read from the left and the first difficulty is the one reported (`Numeral.magnitude`): a
character that is no digit, or a digit that takes the number out of range. Numbers are written in
decimal (`Numeral.write`).
-/

set_option autoImplicit false
set_option relaxedAutoImplicit false

namespace DualStack.Numeral

/-- Why a text is not a numeral. -/
inductive Error
  /-- No character follows the opening that chose the form. -/
  | empty
  /-- A character is no digit of the form, or a sign stands alone. -/
  | invalidDigit
  /-- The number lies above the range of the form. -/
  | tooLarge
  /-- The number lies below the range of the form. -/
  | tooSmall
  deriving DecidableEq, Repr

/-- The wording of an error. -/
def Error.message : Error → String
  | .empty => "cannot parse integer from empty string"
  | .invalidDigit => "invalid digit found in string"
  | .tooLarge => "number too large to fit in target type"
  | .tooSmall => "number too small to fit in target type"

/-- The value of a character as a digit of any base up to thirty-six, in either case. -/
def digitValue? (character : Char) : Option Nat :=
  if '0' ≤ character && character ≤ '9' then some (character.toNat - '0'.toNat)
  else if 'a' ≤ character && character ≤ 'z' then some (character.toNat - 'a'.toNat + 10)
  else if 'A' ≤ character && character ≤ 'Z' then some (character.toNat - 'A'.toNat + 10)
  else none

/-- The value of a character as a digit of base `radix`. -/
def digit? (radix : Nat) (character : Char) : Option Nat :=
  (digitValue? character).filter (· < radix)

/-- Reads digits of base `radix` behind a number read so far. The number may not pass `limit`;
where it would, the answer is the error `overflow`. -/
def magnitude (radix limit : Nat) (overflow : Error) (value : Nat) : List Char → Except Error Nat
  | [] => .ok value
  | character :: rest =>
    match digit? radix character with
    | none => .error .invalidDigit
    | some digit =>
      if value * radix + digit ≤ limit then
        magnitude radix limit overflow (value * radix + digit) rest
      else
        .error overflow

/-- Reads at least one digit. A sign with nothing behind it is no number. -/
def digits (radix limit : Nat) (overflow : Error) : List Char → Except Error Nat
  | [] => .error .invalidDigit
  | text => magnitude radix limit overflow 0 text

/-- The two's complement reading of a pattern of thirty-two bits. -/
def ofBits (bits : Nat) : Int := Int.bmod bits 0x100000000

/-- Reads a pattern of thirty-two bits in base `radix` as a two's complement number. -/
def pattern (radix : Nat) : List Char → Except Error Int
  | [] => .error .empty
  | '+' :: rest => (digits radix 0xFFFFFFFF .tooLarge rest).map ofBits
  | text => (digits radix 0xFFFFFFFF .tooLarge text).map ofBits

/-- Reads a decimal number of thirty-two bits with an optional sign. -/
def decimal : List Char → Except Error Int
  | [] => .error .empty
  | '+' :: rest => (digits 10 0x7FFFFFFF .tooLarge rest).map Int.ofNat
  | '-' :: rest => (digits 10 0x80000000 .tooSmall rest).map fun value ↦ -Int.ofNat value
  | text => (digits 10 0x7FFFFFFF .tooLarge text).map Int.ofNat

/-- Reads the characters of a numeral in the form that its opening chooses. -/
def readChars : List Char → Except Error Int
  | 'B' :: rest => pattern 2 rest
  | '0' :: 'X' :: rest => pattern 16 rest
  | 'X' :: rest => pattern 16 rest
  | text => decimal text

/-- Reads a numeral. -/
def read (text : String) : Except Error Int := readChars text.toList

/-- The decimal digits of a number, behind a minus sign if it is negative. -/
def writeChars (value : Int) : List Char :=
  if value < 0 then '-' :: Nat.toDigits 10 value.natAbs else Nat.toDigits 10 value.natAbs

/-- Writes a number in decimal. -/
def write (value : Int) : String := String.ofList (writeChars value)

end DualStack.Numeral
