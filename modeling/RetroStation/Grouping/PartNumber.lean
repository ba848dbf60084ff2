/-! # Part numbers

A title may say which part of a song it is: by a number, a roman numeral or a word after
"part", "pt" or "no", or by a roman numeral at its end. Normalized titles are lower-case
ASCII words with one blank between them.
-/

namespace RetroStation.Grouping

def isWordChar (char : Char) : Bool := char.isAlphanum || char = '_'

def isRomanLetter (char : Char) : Bool := "ivxlc".toList.contains char

/-- Spelled-out part numbers, from one on. -/
def partWords : List String :=
  ["one", "two", "three", "four", "five", "six", "seven", "eight", "nine", "ten", "eleven",
    "twelve", "thirteen", "fourteen", "fifteen", "sixteen", "seventeen", "eighteen", "nineteen",
    "twenty"]

/-! ## Values -/

/-- The roman numerals below four hundred: hundreds, tens and ones. -/
def romanNumerals : List (List Char) :=
  ["", "c", "cc", "ccc"].flatMap fun hundreds =>
    ["", "x", "xx", "xxx", "xl", "l", "lx", "lxx", "lxxx", "xc"].flatMap fun tens =>
      ["", "i", "ii", "iii", "iv", "v", "vi", "vii", "viii", "ix"].map fun ones =>
        (hundreds ++ tens ++ ones).toList

def romanValue : Char → Int
  | 'i' => 1
  | 'v' => 5
  | 'x' => 10
  | 'l' => 50
  | 'c' => 100
  | _ => 0

/-- A letter before a greater one is taken off. -/
def romanSum : List Char → Int
  | [] => 0
  | char :: rest =>
    let value := romanValue char
    (match rest with
      | following :: _ => if romanValue following > value then -value else value
      | [] => value) + romanSum rest

def decimal (digits : List Char) : Int :=
  digits.foldl (fun value digit => 10 * value + (digit.toNat - '0'.toNat : Nat)) 0

/-- What a digit, roman numeral or number word spells. -/
def partValue (numeral : List Char) : Option Int :=
  if numeral ≠ [] ∧ numeral.all Char.isDigit then some (decimal numeral)
  else
    match partWords.findIdx? fun word => word.toList = numeral with
    | some index => some (index + 1)
    | none => if numeral ∈ romanNumerals then some (romanSum numeral) else none

/-! ## Finding the part -/

/-- The text after the given one. -/
def dropText (text : String) (title : List Char) : Option (List Char) :=
  if text.toList.isPrefixOf title then some (title.drop text.length) else none

/-- A numeral word right here that satisfies `numeral`, with what follows it. -/
def numeralAt (numeral : List Char → Bool) (title : List Char) : Option (List Char × List Char) :=
  let word := title.takeWhile isWordChar
  if numeral word then some (word, title.dropWhile isWordChar) else none

/-- A part named by letters: "part" or "pt", a blank, and a roman numeral or a word. -/
def partByLetters (title : List Char) : Option (List Char × List Char) :=
  ["part ", "pt "].firstM fun lead =>
    (dropText lead title).bind (numeralAt fun word =>
      (word ≠ [] && word.all isRomanLetter) || partWords.any fun spelled => spelled.toList = word)

/-- A part named by digits, after "part", "pt" or "no" and a blank that may be left out. -/
def partByDigits (title : List Char) : Option (List Char × List Char) :=
  ["part", "pt", "no"].firstM fun lead =>
    (dropText lead title).bind fun rest =>
      numeralAt (fun word => word ≠ [] && word.all Char.isDigit)
        (match rest with
          | ' ' :: digits => digits
          | _ => rest)

/-- The first part of a title: what is before it, its numeral, and what is after it. -/
def findPart (afterWord : Bool) : List Char → Option (List Char × List Char × List Char)
  | [] => none
  | char :: rest =>
    let here := if afterWord then none
      else (partByLetters (char :: rest)).or (partByDigits (char :: rest))
    match here with
    | some (numeral, after) => some ([], numeral, after)
    | none => (findPart (isWordChar char) rest).map fun (before, numeral, after) =>
        (char :: before, numeral, after)

/-- A sequel numbered by a roman numeral at the end, after a blank that follows a word. -/
def trailingRoman (title : List Char) : Option (List Char) :=
  let numeral := title.reverse.takeWhile isRomanLetter
  match title.reverse.dropWhile isRomanLetter with
  | ' ' :: before :: _ => if numeral ≠ [] ∧ before ≠ ' ' then some numeral.reverse else none
  | _ => none

/-- The part number a normalized title carries. -/
def titlePartNumber (normalizedTitle : String) : Option Int :=
  let title := normalizedTitle.toList
  ((findPart false title).bind fun (_, numeral, _) => partValue numeral).or
    ((trailingRoman title).bind partValue)

/-- A normalized title with its part number spelled one way. -/
def canonicalizePartNumber (normalizedTitle : String) : String :=
  match findPart false normalizedTitle.toList with
  | none => normalizedTitle
  | some (before, numeral, after) =>
    match partValue numeral with
    | none => normalizedTitle
    | some value => String.ofList before ++ "part " ++ toString value ++ String.ofList after

example : titlePartNumber "another brick in the wall pt ii" = some 2 := by decide

example : titlePartNumber "the look of love part four" = some 4 := by decide

example : titlePartNumber "part civil" = none := by decide

example : titlePartNumber "the unforgiven iii" = some 3 := by decide

example : titlePartNumber "synchronicity no 14 live" = some 14 := by decide

example : titlePartNumber "apartment pt1b part9" = some 9 := by decide

end RetroStation.Grouping
