import Mathlib.Logic.Function.Basic
import RetroStation.Library.Statements
import RetroStation.Transition.Run

/-! # Scans, backfills and a changing disk

Any number of workers read files and write their rows, while anything may write the
disk. A scan takes a file's size and modification time, then reads its tags, then its
fingerprint if the file stores one; the backfill reads the fingerprint between two looks
at the file. A write can be undone: a file is its size and modification time, which
determine what it holds.
-/

namespace RetroStation.Library

open Transition

/-- What the scans ask of the disk's files and names. -/
structure Host (Content : Type) where
  /-- Files of the same size and modification time hold the same. -/
  contents : DiskStat → Content
  /-- The suffix of a name, in lower case. -/
  suffix : String → String
  /-- The tags, or nothing if the file is no audio. -/
  extract : String → Content → Option LibraryFile
  /-- Whether the stream info stores an MD5 of the audio. -/
  storesMd5 : Content → Bool
  flacHash : Content → Option String
  mp3Hash : Content → Option String
  lower : String → String
  fileName : String → String
  isSameFile : (String → Option DiskStat) → String → String → Bool

inductive HashKind
  | flac
  | mp3
  | other
  deriving DecidableEq

/-- A file whose fingerprint is being read. -/
structure Hashing where
  path : String
  /-- The file when it was looked at first. -/
  stat : DiskStat
  opened : DiskStat
  /-- Whether the file was written since it was opened. -/
  torn : Bool := false
  deriving DecidableEq

inductive Job
  | idle
  | statted (path : String) (stat : DiskStat)
  | tagged (stat : DiskStat) (file : LibraryFile)
  | hashing (reading : Hashing) (file : LibraryFile)
  | read (file : LibraryFile)
  | restoring (existing : LibraryFile)
  | checked (row : LibraryFile) (before : DiskStat)
  | measuring (reading : Hashing) (row : LibraryFile)
  | measured (reading : Hashing) (row : LibraryFile) (audioHash : String)
  | confirmed (row : LibraryFile) (before : DiskStat) (audioHash : String)

/-- A write to a file tears the reading of it. -/
def Job.tear (path : String) : Job → Job
  | .hashing reading file =>
    .hashing { reading with torn := reading.torn || reading.path = path } file
  | .measuring reading row =>
    .measuring { reading with torn := reading.torn || reading.path = path } row
  | job => job

structure Indexing where
  disk : String → Option DiskStat
  files : List LibraryFile := []
  /-- Every row there ever was. -/
  versions : List LibraryFile := []
  jobs : Nat → Job := fun _ => .idle

namespace Indexing

variable (state : Indexing)

def assign (worker : Nat) (job : Job) : Indexing :=
  { state with jobs := Function.update state.jobs worker job }

/-- A statement leaves these rows. -/
def store (files : List LibraryFile) : Indexing :=
  { state with files := files, versions := state.versions ++ files }

def write (path : String) (file : Option DiskStat) : Indexing :=
  { state with
    disk := Function.update state.disk path file
    jobs := fun worker => (state.jobs worker).tear path }

end Indexing

inductive IndexAction
  /-- A file is created, rewritten, replaced or deleted. -/
  | writes (path : String) (file : Option DiskStat)
  | moves (source target : String)
  | stats (worker : Nat) (path : String)
  | readsTags (worker : Nat) (id : Uuid)
  | opens (worker : Nat)
  | hashes (worker : Nat) (audioHash : Option String)
  | adopts (worker : Nat)
  | upserts (worker : Nat)
  | restores (worker : Nat) (row : LibraryFile)
  | checks (worker : Nat) (row : LibraryFile)
  | confirms (worker : Nat)
  | setsAudioHash (worker : Nat)
  /-- A worker gives the file up: it cannot be read, or its row is refused. -/
  | abandons (worker : Nat)
  | marksMissing (now : Int) (path : String)
  | deletes (id : Uuid)
  /-- A transaction is rolled back, and leaves an earlier version of a row. -/
  | rollsBack (row : LibraryFile)

section

variable {Content : Type} (host : Host Content) (state : Indexing)

def hashKind (path : String) : HashKind :=
  if host.suffix path = ".flac" then .flac
  else if host.suffix path = ".mp3" then .mp3
  else .other

/-- The file's audio fingerprint; nothing for another format or a file with no audio. -/
def computeAudioHash (path : String) (content : Content) : Option String :=
  match hashKind host path with
  | .flac => host.flacHash content
  | .mp3 => host.mp3Hash content
  | .other => none

/-- What reading a fingerprint gives; a torn reading can give anything. -/
def Hashing.gives (reading : Hashing) (audioHash : Option String) : Bool :=
  reading.torn || audioHash = computeAudioHash host reading.path (host.contents reading.opened)

def diskAnswer (path : String) : DiskAnswer :=
  if (state.disk path).isSome then .found else .notFound

def names : Names := ⟨host.lower, host.fileName, host.isSameFile state.disk⟩

/-- The tags of a file under its own name, with the stat taken before they were read. -/
def withDiskStat (id : Uuid) (path : String) (stat : DiskStat) (file : LibraryFile) :
    LibraryFile :=
  { file with
    id := id
    filePath := path
    fileSize := some stat.size
    fileMtimeNs := some stat.mtimeNs
    audioHash := none }

def readTags (worker : Nat) (id : Uuid) (path : String) (stat now : DiskStat) : Indexing :=
  match host.extract path (host.contents now) with
  | none => state.assign worker .idle
  | some extracted =>
    let file := withDiskStat id path stat extracted
    if host.storesMd5 (host.contents now) then state.assign worker (.tagged stat file)
    else state.assign worker (.read file)

/-- Repoint the row the file was moved from, unless another row has the new path. -/
def adoptMovedRow (file : LibraryFile) : Option Indexing :=
  match movedFrom state.files (names host state) (diskAnswer state) file with
  | none => some state
  | some origin =>
    if indexed state.files file.filePath then none
    else some (state.store (relocate state.files origin.id file.filePath))

/-- A row is written over, or inserted under an id no row has. -/
def writeRow (file : LibraryFile) (fresh : Bool) : Option Indexing :=
  if indexed state.files file.filePath ∨ fresh then some (state.store (upsert state.files file))
  else none

def indexStep : IndexAction → Option (Indexing × Unit)
  | .writes path file => some (state.write path file, ())
  | .moves source target =>
    if source = target then none
    else some ((state.write target (state.disk source)).write source none, ())
  | .stats worker path =>
    match state.jobs worker, state.disk path with
    | .idle, some stat => some (state.assign worker (.statted path stat), ())
    | _, _ => none
  | .readsTags worker id =>
    match state.jobs worker with
    | .statted path stat =>
      (state.disk path).map fun now => (readTags host state worker id path stat now, ())
    | _ => none
  | .opens worker =>
    match state.jobs worker with
    | .tagged stat file =>
      (state.disk file.filePath).map fun now =>
        (state.assign worker (.hashing ⟨file.filePath, stat, now, false⟩ file), ())
    | .checked row before =>
      (state.disk row.filePath).map fun now =>
        (state.assign worker (.measuring ⟨row.filePath, before, now, false⟩ row), ())
    | _ => none
  | .hashes worker audioHash =>
    match state.jobs worker with
    | .hashing reading file =>
      if reading.gives host audioHash then
        some (state.assign worker (.read { file with audioHash := audioHash }), ())
      else none
    | .measuring reading row =>
      if reading.gives host audioHash then
        match audioHash with
        | some audioHash => some (state.assign worker (.measured reading row audioHash), ())
        | none => some (state.assign worker .idle, ())
      else none
    | _ => none
  | .adopts worker =>
    match state.jobs worker with
    | .read file => (adoptMovedRow host state file).map (·, ())
    | _ => none
  | .upserts worker =>
    match state.jobs worker with
    | .read file =>
      (writeRow state file (file.id ∉ state.versions.map LibraryFile.id)).map fun next =>
        (next.assign worker .idle, ())
    | .restoring existing =>
      (writeRow state existing (existing.id ∉ state.files.map LibraryFile.id)).map fun next =>
        (next.assign worker .idle, ())
    | _ => none
  | .restores worker row =>
    match state.jobs worker with
    | .idle =>
      if row ∈ state.versions ∧ row.fileStatus = .missing ∧
          (state.disk row.filePath).any row.statMatches then
        some (state.assign worker (.restoring { row with fileStatus := .present }), ())
      else none
    | _ => none
  | .checks worker row =>
    match state.jobs worker, state.disk row.filePath with
    | .idle, some before =>
      if row ∈ state.versions ∧ row.audioHash = none ∧ row.isPresent ∧
          row.format ∈ ["flac", "mp3"] ∧ row.statMatches before then
        some (state.assign worker (.checked row before), ())
      else none
    | _, _ => none
  | .confirms worker =>
    match state.jobs worker with
    | .measured reading row audioHash =>
      if state.disk row.filePath = some reading.stat then
        some (state.assign worker (.confirmed row reading.stat audioHash), ())
      else some (state.assign worker .idle, ())
    | _ => none
  | .setsAudioHash worker =>
    match state.jobs worker with
    | .confirmed row before audioHash =>
      some ((state.store (setAudioHash state.files row.id audioHash before)).assign worker .idle,
        ())
    | _ => none
  | .abandons worker => some (state.assign worker .idle, ())
  | .marksMissing now path => some (state.store (markMissing state.files now path), ())
  | .deletes id => some (state.store (Table.delete state.files fun row => row.id = id), ())
  | .rollsBack row =>
    if row ∈ state.versions then
      some (state.store (Table.delete state.files (fun other => other.id = row.id) ++ [row]), ())
    else none

def indexMachine : Machine Indexing IndexAction Unit := ⟨indexStep host⟩

end

end RetroStation.Library
