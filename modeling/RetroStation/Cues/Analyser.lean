import RetroStation.Cues.Precompute

/-! # Reading the analyser's protocol

The analyser prints a line before each file of a batch and a line with its result after it,
among the lines of its log. The reader follows these until every file has settled, the output
ends or a deadline passes.
-/

namespace RetroStation.Cues

/-- A JSON value, as it is read: an object's keys are distinct. A number that is not an integer
is kept as it is shown. -/
inductive Json
  | null
  | bool (value : Bool)
  | int (value : Int)
  | real (shown : String)
  | text (value : String)
  | array (items : List Json)
  | object (fields : List (String × Json))

/-- What reading a text as JSON gives: a value, or an error that says it is no JSON, or an
error of another kind (a number of too many digits, values nested too deep). -/
inductive Loaded
  | value (parsed : Json)
  | notJson
  | failed

/-- How Python reads and shows JSON. `echo` and `echoText` are texts cut to their first
characters; a value that is nested too deep to be shown has none. -/
structure Python where
  loads : String → Loaded
  echo : Option Json → Option String
  echoText : String → String

inductive AnalyserProblem
  | notStarted
  | neverBegan
  | beginOutOfOrder (lineNo expected count : Nat) (body : String)
  | noFileAwaiting (lineNo : Nat)
  deriving DecidableEq, Repr

/-- How the analysis of a batch fails: with the error it documents, or with one that it does
not catch. -/
inductive Failure
  | analyserError (problem : AnalyserProblem)
  | uncaught (lineNo : Nat)
  deriving DecidableEq, Repr

def BEGIN : String := "RS_CUE_BEGIN"
def RESULT : String := "RS_CUE_RESULT"

/-- `line.partition(" ")`, without the separator. -/
def partitionSpace (line : String) : String × String :=
  let chars := line.toList
  (String.ofList (chars.takeWhile (· ≠ ' ')), String.ofList ((chars.dropWhile (· ≠ ' ')).drop 1))

/-- A line of the protocol. -/
inductive Message
  | begin_ (body : String)
  | result (body : String)
  deriving DecidableEq, Repr

/-- A line of the protocol, or none for a line of the log. -/
def parseLine (line : String) : Option Message :=
  let (head, body) := partitionSpace line
  if head = BEGIN then some (.begin_ body)
  else if head = RESULT then some (.result body)
  else none

/-- The strings a JSON object maps to strings. -/
def stringsOf : List (String × Json) → Option Metadata
  | [] => some []
  | (key, .text value) :: rest => (stringsOf rest).map ((key, value) :: ·)
  | _ :: _ => none

/-- A parsed result line that breaks the protocol, by the field and what was found in it. -/
inductive ResultProblem
  | notObject (parsed : Json)
  | index (found : Option Json)
  | metadata (found : Option Json)

def ResultProblem.found : ResultProblem → Option Json
  | .notObject parsed => some parsed
  | .index found | .metadata found => found

/-- Why the line breaks the protocol, naming the field and showing what was found. -/
def ResultProblem.reason (begun lineNo : Nat) (shown : String) : ResultProblem → String
  | .notObject _ => s!"{RESULT} on output line {lineNo} is JSON but not an object: {shown}"
  | .index _ => s!"index on output line {lineNo} must be {begun}, the file begun: {shown}"
  | .metadata _ => s!"metadata on output line {lineNo} must map strings to strings: {shown}"

/-- A parsed result line's metadata, or how it breaks the protocol. -/
def resultMetadata (parsed : Json) (begun : Nat) : Except ResultProblem Metadata :=
  match parsed with
  | .object fields =>
    let index := fields.lookup "index"
    let metadata := fields.lookup "metadata"
    match index with
    | some (.int value) =>
      if value ≠ begun then .error (.index index)
      else
        match metadata with
        | some (.object entries) =>
          match stringsOf entries with
          | some strings => .ok strings
          | none => .error (.metadata metadata)
        | _ => .error (.metadata metadata)
    | _ => .error (.index index)
  | _ => .error (.notObject parsed)

section

variable (python : Python)

/-- Follows one child's protocol lines, and keeps the outcome. -/
structure Reader where
  lineNo : Nat := 0
  metadata : Dict Nat Metadata := Dict.empty
  rejected : Dict Nat String := Dict.empty
  begun : Option Nat := none

namespace Reader

variable (reader : Reader) (count : Nat)

def settled (index : Nat) : Bool :=
  (reader.metadata.get? index).isSome || (reader.rejected.get? index).isSome

/-- Every file of the batch has settled. -/
def done : Bool := reader.metadata.size + reader.rejected.size ≥ count

/-- The index the next begin must carry. -/
def nextIndex : Nat :=
  match reader.begun with
  | none => 0
  | some begun => begun + 1

/-- Record that a file has begun. The next file beginning before the previous one's result
rejects that one. -/
def begin_ (body : String) : Except Failure Reader :=
  let expected := reader.nextIndex
  if body ≠ toString expected ∨ expected ≥ count then
    .error (.analyserError (.beginOutOfOrder reader.lineNo expected count body))
  else
    let rejected := match reader.begun with
      | some begun =>
        let reason :=
          s!"no {RESULT} for file {begun} before {BEGIN} {expected} on output line {reader.lineNo}"
        if reader.settled begun then reader.rejected else reader.rejected.set begun reason
      | none => reader.rejected
    .ok { reader with rejected := rejected, begun := some expected }

/-- Record a file's result, or reject the file for it. -/
def result (body : String) : Except Failure Reader :=
  match reader.begun with
  | none => .error (.analyserError (.noFileAwaiting reader.lineNo))
  | some begun =>
    if reader.settled begun then .error (.analyserError (.noFileAwaiting reader.lineNo))
    else
      match python.loads body with
      | .failed => .error (.uncaught reader.lineNo)
      | .notJson =>
        let reason :=
          s!"{RESULT} on output line {reader.lineNo} is not JSON: {python.echoText body}"
        .ok { reader with rejected := reader.rejected.set begun reason }
      | .value parsed =>
        match resultMetadata parsed begun with
        | .error problem =>
          match python.echo problem.found with
          | none => .error (.uncaught reader.lineNo)
          | some shown =>
            let reason := problem.reason begun reader.lineNo shown
            .ok { reader with rejected := reader.rejected.set begun reason }
        | .ok metadata => .ok { reader with metadata := reader.metadata.set begun metadata }

/-- One line of output. -/
def read (line : String) : Except Failure Reader :=
  let numbered := { reader with lineNo := reader.lineNo + 1 }
  match parseLine line with
  | none => .ok numbered
  | some (.begin_ body) => numbered.begin_ count body
  | some (.result body) => numbered.result python body

/-- Read until every file has settled, or to the last line that came before the output ended
or a deadline passed. -/
def run : Reader → List String → Except Failure Reader
  | reader, [] => .ok reader
  | reader, line :: rest =>
    if reader.done count then .ok reader
    else
      match reader.read python count line with
      | .error failure => .error failure
      | .ok next => run next rest

end Reader

/-- The analysis of a batch, from the lines that the process printed in time; none if the
process did not start. -/
def analyseBatch (count : Nat) (output : Option (List String)) : Except Failure BatchAnalysis :=
  if count = 0 then .ok {}
  else
    match output with
    | none => .error (.analyserError .notStarted)
    | some lines =>
      match Reader.run python count {} lines with
      | .error failure => .error failure
      | .ok reader =>
        match reader.begun with
        | none => .error (.analyserError .neverBegan)
        | some begun => .ok {
            metadata := reader.metadata.get?
            stalled := if reader.settled begun then none else some begun
            rejected := reader.rejected.get? }

end

end RetroStation.Cues
