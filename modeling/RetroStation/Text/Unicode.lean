import Mathlib.Data.List.Basic
import Mathlib.Data.List.DropRight

/-! # Characters

Text is stripped of the blank characters at its ends.
-/

namespace Text

/-- Unicode's blank characters, with the separators of the control characters. -/
def isSpace (char : Char) : Bool :=
  let code := char.toNat
  (0x09 ≤ code && code ≤ 0x0D) || (0x1C ≤ code && code ≤ 0x20) || code = 0x85 || code = 0xA0 ||
    code = 0x1680 || (0x2000 ≤ code && code ≤ 0x200A) || code = 0x2028 || code = 0x2029 ||
    code = 0x202F || code = 0x205F || code = 0x3000

def strip (text : List Char) : List Char := (text.dropWhile isSpace).rdropWhile isSpace

def stripText (text : String) : String := String.ofList (strip text.toList)

end Text

/-! ## Character tables

Which characters make up words, which are digits, how a text is lowered and how it is spelled
in ASCII, comes from outside. What they say about ASCII text is known.
-/

namespace Text

def isAscii (char : Char) : Bool := char.toNat < 128

abbrev IsAscii (text : List Char) : Prop := ∀ char ∈ text, isAscii char

structure Unicode where
  isWord : Char → Bool
  isDigit : Char → Bool
  lower : List Char → List Char
  unidecode : List Char → List Char
  isWord_ascii : ∀ char, isAscii char → isWord char = (char.isAlphanum || char = '_')
  isDigit_ascii : ∀ char, isAscii char → isDigit char = char.isDigit
  lower_ascii : ∀ text, IsAscii text → lower text = text.map Char.toLower
  unidecode_isAscii : ∀ text, IsAscii (unidecode text)
  unidecode_ascii : ∀ text, IsAscii text → unidecode text = text

/-- Tables that know ASCII only. -/
def Unicode.ascii : Unicode where
  isWord char := char.isAlphanum || char = '_'
  isDigit := Char.isDigit
  lower text := text.map Char.toLower
  unidecode text := text.filter isAscii
  isWord_ascii _ _ := rfl
  isDigit_ascii _ _ := rfl
  lower_ascii _ _ := rfl
  unidecode_isAscii _ _ hchar := (List.mem_filter.mp hchar).2
  unidecode_ascii _ htext := List.filter_eq_self.mpr htext

theorem forall_ascii {property : Char → Prop}
    (hcodes : ∀ code < 128, property (Char.ofNat code)) (char : Char) (hascii : isAscii char) :
    property char := by
  have hcode := hcodes char.toNat (by simpa [isAscii] using hascii)
  rwa [Char.ofNat_toNat] at hcode

end Text
