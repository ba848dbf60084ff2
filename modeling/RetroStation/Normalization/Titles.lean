import RetroStation.Text.Substitute
import RetroStation.Text.Words

/-! # Normalized titles

A title is spelled in lower-case ASCII, marks of remasters, years and truncation are taken out,
and what is left of its punctuation is dropped.
-/

namespace RetroStation.Normalization

open Text

/-! ## The patterns -/

/-- Text in brackets: `inner` leaves what follows it, and blanks may stand around it. -/
def bracketed (opening closing : Char) (inner : List Char → Option (List Char)) : Pattern
  | _, [] => 0
  | _, char :: rest =>
      if char = opening then
        match inner (rest.dropWhile isSpace) with
        | none => 0
        | some after =>
          match after.dropWhile isSpace with
          | [] => 0
          | last :: after => if last = closing then rest.length + 1 - after.length else 0
      else 0

/-- Three or more dots at the end of the text. -/
def trailingDots : Pattern := fun _ text =>
  let dots := text.dropWhile isSpace
  let after := dots.dropWhile (· = '.')
  if after.length + 3 ≤ dots.length ∧ after.all isSpace then text.length else 0

def dots (text : List Char) : Option (List Char) :=
  let after := text.dropWhile (· = '.')
  if after.length + 2 ≤ text.length then some after else none

def ellipsis : List Char → Option (List Char)
  | '…' :: after => some after
  | _ => none

def remaster : List Char → Option (List Char)
  | [] => none
  | char :: rest =>
      if (char = 'R' ∨ char = 'r') ∧ "emaster".toList.isPrefixOf rest then
        some ((rest.drop 7).dropWhile (· ≠ ')'))
      else none

def fourDigits (unicode : Unicode) : List Char → Option (List Char)
  | first :: second :: third :: fourth :: after =>
      if [first, second, third, fourth].all unicode.isDigit then some after else none
  | _ => none

/-- The years from 1950 to 2029. -/
def isYear (unicode : Unicode) : List Char → Bool
  | [first, second, third, fourth] =>
      (first = '1' && second = '9' && '5' ≤ third && third ≤ '9' ||
        first = '2' && second = '0' && '0' ≤ third && third ≤ '2') && unicode.isDigit fourth
  | _ => false

/-- A year no character of a word stands next to. -/
def standaloneYear (unicode : Unicode) : Pattern := fun before text =>
  if isYear unicode (text.take 4) && !before.any unicode.isWord &&
      !(text.drop 4).head?.any unicode.isWord
  then 4 else 0

/-! ## The steps -/

def normalizeSmartQuotes (text : List Char) : List Char :=
  text.map fun char =>
    if char = '\u2018' ∨ char = '\u2019' then '\''
    else if char = '\u201c' ∨ char = '\u201d' then '"'
    else if '\u2010' ≤ char ∧ char ≤ '\u2014' then '-'
    else char

def removeRemasterYearTruncation (unicode : Unicode) (text : List Char) : List Char :=
  let text := replaceChar '…' [' '] text
  let text := substitute trailingDots [] text
  let text := substitute (bracketed '(' ')' dots) [' '] text
  let text := substitute (bracketed '[' ']' dots) [' '] text
  let text := substitute (bracketed '(' ')' ellipsis) [' '] text
  let text := substitute (bracketed '(' ')' remaster) [' '] text
  let text := substitute (bracketed '(' ')' (fourDigits unicode)) [' '] text
  let text := substitute (bracketed '[' ']' (fourDigits unicode)) [' '] text
  strip text

/-- The characters that part words become blanks. -/
def blankSeparators (text : List Char) : List Char :=
  text.map fun char =>
    if char = '-' ∨ char = '_' ∨ char = '/' ∨ char = '\\' ∨ char = '|' then ' ' else char

/-- Words and blanks, with the two signs that are read as words spelled out. -/
def spellSigns (unicode : Unicode) (text : List Char) : List Char :=
  (replaceChar '+' " plus ".toList (replaceChar '&' " and ".toList (blankSeparators text))).filter
    fun char => unicode.isWord char || isSpace char

def normalizeSpecialCharsAndWhitespace (unicode : Unicode) (text : List Char) : List Char :=
  unicode.lower (squeeze (spellSigns unicode text))

/-- The title in ASCII, without its marks of remasters, bracketed years and truncation. -/
def titleWithYears (unicode : Unicode) (raw : List Char) : List Char :=
  removeRemasterYearTruncation unicode
    (unicode.lower (unicode.unidecode (normalizeSmartQuotes raw)))

def removeYears (unicode : Unicode) (text : List Char) : List Char :=
  substitute (standaloneYear unicode) [] text

def normalizeTitle (unicode : Unicode) (raw : List Char) : List Char :=
  if strip raw = [] then []
  else
    let text := titleWithYears unicode raw
    let tempText := removeYears unicode text
    normalizeSpecialCharsAndWhitespace unicode
      (if strip tempText ≠ [] ∨ strip text = [] then tempText else text)

/-- Lower-case letters and digits. -/
def isPlain (char : Char) : Bool := char.isLower || char.isDigit

def strictNormalize (unicode : Unicode) (text : List Char) : List Char :=
  squeeze ((normalizeTitle unicode text).map fun char => if isPlain char then char else ' ')

end RetroStation.Normalization
