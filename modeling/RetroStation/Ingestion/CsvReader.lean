import RetroStation.Dict.Basic

/-! # Reading CSV

A CSV text is read line by line. A record ends with its line, unless a quoted field goes on;
what follows a carriage return must end the line. Records become dictionaries by the names
of the first one.
-/

namespace RetroStation.Ingestion

inductive ParserState
  | startRecord
  | startField
  | inField
  | inQuotedField
  | quoteInQuotedField
  | eatCrnl
  deriving DecidableEq, Repr

inductive CsvError
  | fieldLimit
  | newLineInField
  deriving DecidableEq, Repr

/-- Where the parser is in a record. -/
structure Parser where
  state : ParserState := .startRecord
  fields : List String := []
  field : List Char := []
  deriving DecidableEq, Repr

def FIELD_LIMIT : Nat := 131072

namespace Parser

variable (parser : Parser)

def saveField (state : ParserState) : Parser :=
  ⟨state, parser.fields ++ [String.ofList parser.field], []⟩

def addChar (state : ParserState) (char : Char) : Except CsvError Parser :=
  if parser.field.length ≥ FIELD_LIMIT then .error .fieldLimit
  else .ok ⟨state, parser.fields, parser.field ++ [char]⟩

/-- The state after a character that ends a line; `none` is the end of what the line holds. -/
def lineEnd : Option Char → Option ParserState
  | none => some .startRecord
  | some '\n' => some .eatCrnl
  | some '\r' => some .eatCrnl
  | some _ => none

/-- At the start of a field. -/
def atField (char : Option Char) : Except CsvError Parser :=
  match lineEnd char, char with
  | some state, _ => .ok (parser.saveField state)
  | none, some '"' => .ok { parser with state := .inQuotedField }
  | none, some ',' => .ok (parser.saveField .startField)
  | none, some char => parser.addChar .inField char
  | none, none => .ok parser

/-- One character, or the end of a line. -/
def processChar (char : Option Char) : Except CsvError Parser :=
  match parser.state with
  | .startRecord =>
    match char with
    | none => .ok parser
    | some '\n' => .ok { parser with state := .eatCrnl }
    | some '\r' => .ok { parser with state := .eatCrnl }
    | some char => parser.atField (some char)
  | .startField => parser.atField char
  | .inField =>
    match lineEnd char, char with
    | some state, _ => .ok (parser.saveField state)
    | none, some ',' => .ok (parser.saveField .startField)
    | none, some char => parser.addChar .inField char
    | none, none => .ok parser
  | .inQuotedField =>
    match char with
    | none => .ok parser
    | some '"' => .ok { parser with state := .quoteInQuotedField }
    | some char => parser.addChar .inQuotedField char
  | .quoteInQuotedField =>
    match lineEnd char, char with
    | some state, _ => .ok (parser.saveField state)
    | none, some '"' => parser.addChar .inQuotedField '"'
    | none, some ',' => .ok (parser.saveField .startField)
    | none, some char => parser.addChar .inField char
    | none, none => .ok parser
  | .eatCrnl =>
    match char with
    | none => .ok { parser with state := .startRecord }
    | some '\n' => .ok parser
    | some '\r' => .ok parser
    | some _ => .error .newLineInField

/-- A line, and its end. -/
def processLine (line : List Char) : Except CsvError Parser :=
  (line.map some ++ [none]).foldlM processChar parser

end Parser

/-- Lines with their line feeds. -/
def splitLines : List Char → List (List Char)
  | [] => []
  | '\n' :: rest => ['\n'] :: splitLines rest
  | char :: rest =>
    match splitLines rest with
    | [] => [[char]]
    | line :: lines => (char :: line) :: lines

/-- The records of some lines, up to one that cannot be read. -/
def readRecords (parser : Parser) : List (List Char) → List (List String)
  | [] =>
    if parser.field ≠ [] ∨ parser.state = .inQuotedField
    then [(parser.saveField .startRecord).fields]
    else []
  | line :: rest =>
    match parser.processLine line with
    | .error _ => []
    | .ok parser =>
      if parser.state = .startRecord then parser.fields :: readRecords {} rest
      else readRecords parser rest

def csvRecords (text : String) : List (List String) := readRecords {} (splitLines text.toList)

example : csvRecords "Artist,Title\r\n\"Guess, \"\"Who\"\"\nLive\",No Time,\n\n" =
    [["Artist", "Title"], ["Guess, \"Who\"\nLive", "No Time", ""], []] := by decide

/-! ## Rows by name -/

/-- The names a text's rows go by. -/
def fieldnames (text : String) : Option (List String) := (csvRecords text).head?

/-- The rows of a text; empty lines are none. -/
def csvRows (text : String) : List (List String) := (csvRecords text).tail.filter (· ≠ [])

/-- What a row has under a name: a field, the fields that are left over, or nothing. -/
inductive CsvValue
  | text (value : String)
  | rest (values : List String)
  | missing
  deriving DecidableEq, Repr

/-- A row by the names; a name that is repeated has its last field, and the fields that are
left over have no name. -/
def dictRow (fieldnames row : List String) : Dict (Option String) CsvValue :=
  let named := Dict.ofList ((fieldnames.zip row).map fun pair =>
    (some pair.1, CsvValue.text pair.2))
  if fieldnames.length < row.length then named.set none (.rest (row.drop fieldnames.length))
  else (fieldnames.drop row.length).foldl (fun named name => named.set (some name) .missing) named

end RetroStation.Ingestion
