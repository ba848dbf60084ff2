import Mathlib.Data.Rat.Defs
import Mathlib.Algebra.Order.Ring.Rat
import RetroStation.Text.Unicode

/-! # Number texts

A number is read as floats are, from a text with a sign, a point and an exponent, if any. Its
value is the decimal written; one beyond the doubles is infinite. Which characters are digits
comes from outside.
-/

namespace Text

/-- The values of the characters that are digits. -/
structure Digits where
  value : Char → Option Nat
  value_ascii : ∀ char, isAscii char →
    value char = if char.isDigit then some (char.toNat - '0'.toNat) else none

/-- The digits of ASCII only. -/
def Digits.ascii : Digits where
  value char := if char.isDigit then some (char.toNat - '0'.toNat) else none
  value_ascii _ _ := rfl

inductive Number
  | finite (value : ℚ)
  | nonFinite

/-- The least number that rounds to infinity. -/
def DOUBLE_LIMIT : ℚ := 2 ^ 1024 - 2 ^ 970

/-- Blank, the separators of the control characters apart. -/
def isFloatBlank (char : Char) : Bool :=
  isSpace char && !(0x1C ≤ char.toNat && char.toNat ≤ 0x1F)

/-- The text without its underscores, each of which stands between two digits. -/
def dropUnderscores : Char → List Char → Option (List Char)
  | before, [] => if before = '_' then none else some []
  | before, char :: rest =>
    if char = '_' then
      if before.isDigit then dropUnderscores char rest else none
    else if before = '_' ∧ !char.isDigit then none
    else (dropUnderscores char rest).map (char :: ·)

/-- The most digits that an integer is read from. -/
def MAX_STR_DIGITS : Nat := 4300

def natOf (digits : List Char) : Nat :=
  digits.foldl (fun total char => 10 * total + (char.toNat - '0'.toNat)) 0

/-- Whether the text is negative, and the text without its sign. -/
def splitSign : List Char → Bool × List Char
  | '-' :: rest => (true, rest)
  | '+' :: rest => (false, rest)
  | text => (false, text)

def isExponent (char : Char) : Bool := char = 'e' || char = 'E'

/-- The exponent a text ends with, its letter included. -/
def exponentOf : List Char → Option Int
  | [] => some 0
  | _ :: rest =>
    let (negative, digits) := splitSign rest
    if digits = [] ∨ !digits.all Char.isDigit then none
    else some (if negative then -(natOf digits) else natOf digits)

/-- A number without a sign. -/
def unsignedDecimal (text : List Char) : Option ℚ :=
  let mantissa := text.takeWhile (!isExponent ·)
  let whole := mantissa.takeWhile (· ≠ '.')
  let fraction := (mantissa.dropWhile (· ≠ '.')).drop 1
  let digits := whole ++ fraction
  if digits = [] ∨ !digits.all Char.isDigit then none
  else
    match exponentOf (text.dropWhile (!isExponent ·)) with
    | none => none
    | some exponent =>
      let power := exponent - fraction.length
      some (mkRat (natOf digits * 10 ^ power.toNat) (10 ^ (-power).toNat))

/-- `float(text)`; none is a ValueError. -/
def readFloat (digits : Digits) (text : String) : Option Number :=
  let trimmed := (text.toList.dropWhile isFloatBlank).rdropWhile isFloatBlank
  let spelled := trimmed.map fun char =>
    match digits.value char with
    | some value => Char.ofNat ('0'.toNat + value)
    | none => char
  match dropUnderscores ' ' spelled with
  | none => none
  | some plain =>
    let (negative, size) := splitSign plain
    if String.ofList (size.map Char.toLower) ∈ ["inf", "infinity", "nan"] then some .nonFinite
    else
      match unsignedDecimal size with
      | none => none
      | some value =>
        if value < DOUBLE_LIMIT then some (.finite (if negative then -value else value))
        else some .nonFinite

end Text
