import RetroStation.Library.Values
import RetroStation.Table.Basic
import RetroStation.Table.Firsts

/-! # What the scans write to the library files

The statements of the file repository that the scans and the hash backfill run, and how
a scan finds the row a new file was moved from.
-/

namespace RetroStation.Library

/-- The two stat fields a scan compares to decide whether to read a file's tags again. -/
structure DiskStat where
  size : Int
  mtimeNs : Int
  deriving DecidableEq, Repr

namespace LibraryFile

/-- Whether the row stores exactly this size and modification time. -/
def statMatches (row : LibraryFile) (disk : DiskStat) : Bool :=
  row.fileSize = some disk.size ∧ row.fileMtimeNs = some disk.mtimeNs

/-- Whether both rows store a size and a modification time, and the same ones. -/
def sameStat (row excluded : LibraryFile) : Bool :=
  row.fileSize.isSome ∧ row.fileSize = excluded.fileSize ∧
    row.fileMtimeNs.isSome ∧ row.fileMtimeNs = excluded.fileMtimeNs

end LibraryFile

/-- A text without blanks at its ends, or the stored one if nothing is left of it. -/
def orStored (text stored : Option String) : Option String :=
  let trimmed := text.map fun text =>
    String.ofList (((text.toList.dropWhile (· = ' ')).reverse.dropWhile (· = ' ')).reverse)
  (trimmed.filter (· ≠ "")).or stored

/-- The tags that were read, over those that are stored. -/
def readOver (read stored : AudioMetadata) : AudioMetadata :=
  { read with
    artistName := orStored read.artistName stored.artistName
    normalizedArtistName := orStored read.normalizedArtistName stored.normalizedArtistName
    normalizedTitle := orStored read.normalizedTitle stored.normalizedTitle }

/-- The stored row once the read one is written over it. -/
def upserted (excluded row : LibraryFile) : LibraryFile where
  id := row.id
  filePath := row.filePath
  format := excluded.format
  enrichmentStatus :=
    if row.sameStat excluded then row.enrichmentStatus else excluded.enrichmentStatus
  fileStatus := .present
  recordingId := excluded.recordingId.or row.recordingId
  workId := excluded.workId.or row.workId
  fileSize := excluded.fileSize
  fileMtimeNs := excluded.fileMtimeNs
  audioHash :=
    if excluded.audioHash.isSome then excluded.audioHash
    else if row.sameStat excluded then row.audioHash
    else none
  missingSince := none
  audio := readOver excluded.audio row.audio

section

variable (files : List LibraryFile)

/-- Whether a row has the path, so that an upsert writes over it. -/
def indexed (filePath : String) : Bool := files.any fun row => row.filePath = filePath

/-- A row as it is inserted. -/
def inserted (file : LibraryFile) : LibraryFile :=
  { file with fileStatus := .present, missingSince := none }

def upsert (excluded : LibraryFile) : List LibraryFile :=
  if indexed files excluded.filePath then
    Table.update files (fun row => row.filePath = excluded.filePath) (upserted excluded)
  else files ++ [inserted excluded]

def markMissing (now : Int) (filePath : String) : List LibraryFile :=
  Table.update files (fun row => row.filePath = filePath) fun row =>
    { row with
      missingSince := if row.fileStatus = .missing then row.missingSince else some now
      fileStatus := .missing }

/-- A row that follows its file. -/
def moved (newPath : String) (row : LibraryFile) : LibraryFile :=
  { row with filePath := newPath, fileStatus := .present, missingSince := none }

def relocate (fileId : Uuid) (newPath : String) : List LibraryFile :=
  Table.update files (fun row => row.id = fileId) (moved newPath)

/-- Fill in a missing fingerprint, while the row is of the file that was measured. -/
def setAudioHash (fileId : Uuid) (audioHash : String) (stat : DiskStat) : List LibraryFile :=
  Table.update files
    (fun row => row.id = fileId ∧ row.audioHash = none ∧ row.statMatches stat)
    fun row => { row with audioHash := some audioHash }

/-! ## Moved files -/

/-- What the disk answers when it is asked for a path. -/
inductive DiskAnswer
  | found
  | notFound
  | notADirectory
  | refused
  deriving DecidableEq, Repr

namespace DiskAnswer

/-- The disk says there is nothing. -/
def gone (answer : DiskAnswer) : Bool := answer = .notFound ∨ answer = .notADirectory

end DiskAnswer

/-- `os.path.exists`: a path that the disk refuses to look at is taken for one that is gone. -/
def pathExists (answer : String → DiskAnswer) (filePath : String) : Bool :=
  answer filePath = .found

theorem pathExists_eq_false {answer : String → DiskAnswer} {filePath : String} :
    pathExists answer filePath = false ↔
      (answer filePath ≠ .refused → (answer filePath).gone = true) := by
  unfold pathExists
  cases answer filePath <;> simp [DiskAnswer.gone]

/-- Rows in path order. -/
def orderByPath (rows : List LibraryFile) : List LibraryFile :=
  rows.insertionSort fun first second => first.filePath ≤ second.filePath

/-- What the host makes of names: case, the last part, and whether two open one file. -/
structure Names where
  lower : String → String
  fileName : String → String
  isSameFile : String → String → Bool

variable (names : Names) (answer : String → DiskAnswer)

def respelledFrom (file : LibraryFile) : Option LibraryFile :=
  (orderByPath (files.filter fun row =>
    names.lower row.filePath = names.lower file.filePath)).find? fun candidate =>
      candidate.filePath ≠ file.filePath ∧ names.isSameFile candidate.filePath file.filePath

/-- Rows with the same audio, then rows with the same size and modification time. -/
def moveCandidates (file : LibraryFile) : List LibraryFile :=
  Firsts.firsts LibraryFile.id
    ((if file.audioHash.isSome then
        orderByPath (files.filter fun row => row.audioHash = file.audioHash) else []) ++
      (if file.fileSize.isSome ∧ file.fileMtimeNs.isSome then
        orderByPath (files.filter fun row => row.sameStat file) else []))

def trackPosition (file : LibraryFile) : Option (String × Int × Int) := do
  pure (← file.audio.releaseTitle, ← file.audio.discNumber, ← file.audio.trackNumber)

/-- The only one of a list. -/
def onlyOf (rows : List LibraryFile) : Option LibraryFile :=
  match rows with
  | [row] => some row
  | _ => none

/-- The only candidate, else the only one on the same track of the same release, else the
only one of the same file name. -/
def chooseMoveOrigin (file : LibraryFile) (gone : List LibraryFile) : Option LibraryFile :=
  ((onlyOf gone).or
    (if (trackPosition file).isSome then
      onlyOf (gone.filter fun row => trackPosition row = trackPosition file) else none)).or
    (onlyOf (gone.filter fun row => names.fileName row.filePath = names.fileName file.filePath))

/-- The row this newly seen file was moved or renamed from. -/
def movedFrom (file : LibraryFile) : Option LibraryFile :=
  (respelledFrom files names file).or
    (chooseMoveOrigin names file ((moveCandidates files file).filter fun candidate =>
      candidate.filePath ≠ file.filePath ∧
        (!pathExists answer candidate.filePath ||
          names.isSameFile candidate.filePath file.filePath)))

end

variable {files : List LibraryFile} {names : Names} {answer : String → DiskAnswer}
  {file origin : LibraryFile}

theorem mem_orderByPath {row : LibraryFile} {rows : List LibraryFile} :
    row ∈ orderByPath rows ↔ row ∈ rows := List.mem_insertionSort _

instance : Std.Total fun first second : LibraryFile => first.filePath ≤ second.filePath :=
  ⟨fun first second => String.le_total first.filePath second.filePath⟩

instance : IsTrans LibraryFile fun first second => first.filePath ≤ second.filePath :=
  ⟨fun _ _ _ => String.le_trans⟩

/-- Rows with paths of their own have one path order. -/
theorem orderByPath_perm {rows rows' : List LibraryFile}
    (hpaths : Table.UniqueBy LibraryFile.filePath rows)
    (hperm : rows.Perm rows') : orderByPath rows = orderByPath rows' := by
  have hsorted : (orderByPath rows).Perm (orderByPath rows') :=
    (List.perm_insertionSort _ rows).trans (hperm.trans (List.perm_insertionSort _ rows').symm)
  refine hsorted.eq_of_pairwise (fun first second hfirst hsecond hle hge => ?_)
    (List.pairwise_insertionSort _ rows) (List.pairwise_insertionSort _ rows')
  exact hpaths.eq (mem_orderByPath.mp hfirst)
    (hperm.mem_iff.mpr (mem_orderByPath.mp hsecond)) (String.le_antisymm hle hge)

theorem onlyOf_eq_some {rows : List LibraryFile} : onlyOf rows = some origin ↔ rows = [origin] := by
  unfold onlyOf
  split
  · simp
  next hmany =>
    refine ⟨nofun, ?_⟩
    rintro rfl
    exact absurd rfl (hmany origin)

/-- Which row is the only one does not depend on how the rows are listed. -/
theorem onlyOf_perm {rows rows' : List LibraryFile} (hperm : rows.Perm rows') :
    onlyOf rows = onlyOf rows' := by
  refine Option.ext fun row => ?_
  rw [onlyOf_eq_some, onlyOf_eq_some]
  constructor
  · rintro rfl
    exact List.perm_singleton.mp hperm.symm
  · rintro rfl
    exact List.perm_singleton.mp hperm

theorem onlyOf_mem {rows : List LibraryFile} (honly : onlyOf rows = some origin) :
    origin ∈ rows := by
  unfold onlyOf at honly
  split at honly
  · obtain rfl := Option.some.inj honly
    exact List.mem_singleton_self _
  · cases honly

theorem chooseMoveOrigin_mem {gone : List LibraryFile}
    (horigin : chooseMoveOrigin names file gone = some origin) : origin ∈ gone := by
  unfold chooseMoveOrigin at horigin
  rcases Option.or_eq_some_iff.mp horigin with horigin | ⟨-, horigin⟩
  · rcases Option.or_eq_some_iff.mp horigin with horigin | ⟨-, horigin⟩
    · exact onlyOf_mem horigin
    · split at horigin
      · exact List.mem_of_mem_filter (onlyOf_mem horigin)
      · cases horigin
  · exact List.mem_of_mem_filter (onlyOf_mem horigin)

/-! ## Rows under an upsert -/

section

variable {row : LibraryFile}

/-- What an upsert leaves: rows at other paths as they were, and one at the file's path. -/
theorem of_mem_upsert (hrow : row ∈ upsert files file) :
    row ∈ files ∧ row.filePath ≠ file.filePath ∨ row.filePath = file.filePath ∧
      (row.id = file.id ∨ ∃ old ∈ files, old.filePath = file.filePath ∧
        row = upserted file old) := by
  unfold upsert at hrow
  split at hrow
  · rcases Table.mem_update.mp hrow with ⟨old, hold, hpath, rfl⟩ | ⟨hrow, hpath⟩
    · have hpath : old.filePath = file.filePath := by simpa using hpath
      exact .inr ⟨hpath, .inr ⟨old, hold, hpath, rfl⟩⟩
    · exact .inl ⟨hrow, by simpa using hpath⟩
  next hnew =>
    rcases List.mem_append.mp hrow with hrow | hrow
    · refine .inl ⟨hrow, fun hpath => hnew ?_⟩
      exact List.any_eq_true.mpr ⟨row, hrow, by simpa using hpath⟩
    · obtain rfl := List.mem_singleton.mp hrow
      exact .inr ⟨rfl, .inl rfl⟩

theorem mem_upsert_of_ne (hrow : row ∈ files) (hpath : row.filePath ≠ file.filePath) :
    row ∈ upsert files file := by
  unfold upsert
  split
  · exact Table.mem_update.mpr (.inr ⟨hrow, by simpa using hpath⟩)
  · exact List.mem_append_left _ hrow

theorem upserted_mem_upsert (hrow : row ∈ files) (hpath : row.filePath = file.filePath) :
    upserted file row ∈ upsert files file := by
  have hindexed : indexed files file.filePath = true :=
    List.any_eq_true.mpr ⟨row, hrow, by simpa using hpath⟩
  rw [upsert, if_pos hindexed]
  exact Table.mem_update.mpr (.inl ⟨row, hrow, by simpa using hpath, rfl⟩)

theorem inserted_mem_upsert (hnew : ∀ row ∈ files, row.filePath ≠ file.filePath) :
    inserted file ∈ upsert files file := by
  have hindexed : indexed files file.filePath = false :=
    List.any_eq_false.mpr fun row hrow => by simpa using hnew row hrow
  rw [upsert, hindexed]
  simp

/-- There is one row at the file's path then, with what the file has been stored with. -/
theorem exists_mem_upsert : ∃ row ∈ upsert files file, row.filePath = file.filePath := by
  by_cases hold : ∃ row ∈ files, row.filePath = file.filePath
  · obtain ⟨row, hrow, hpath⟩ := hold
    exact ⟨upserted file row, upserted_mem_upsert hrow hpath, hpath⟩
  · exact ⟨inserted file, inserted_mem_upsert fun row hrow hpath => hold ⟨row, hrow, hpath⟩, rfl⟩

theorem stored_of_mem_upsert (hrow : row ∈ upsert files file)
    (hpath : row.filePath = file.filePath) : row.fileStatus = .present ∧
      row.fileSize = file.fileSize ∧ row.fileMtimeNs = file.fileMtimeNs := by
  unfold upsert at hrow
  split at hrow
  · rcases Table.mem_update.mp hrow with ⟨old, -, -, rfl⟩ | ⟨-, hother⟩
    · exact ⟨rfl, rfl, rfl⟩
    · exact absurd hpath (by simpa using hother)
  next hnew =>
    rcases List.mem_append.mp hrow with hrow | hrow
    · exact absurd (List.any_eq_true.mpr ⟨row, hrow, by simpa using hpath⟩) hnew
    · obtain rfl := List.mem_singleton.mp hrow
      exact ⟨rfl, rfl, rfl⟩

theorem unique_id_upsert (hids : Table.UniqueBy LibraryFile.id files)
    (hfresh : ∀ row ∈ files, row.filePath ≠ file.filePath → row.id ≠ file.id) :
    Table.UniqueBy LibraryFile.id (upsert files file) := by
  unfold upsert
  split
  · exact hids.update fun _ => rfl
  next hnew =>
    refine hids.append fun old hold => hfresh old hold fun hpath => hnew ?_
    exact List.any_eq_true.mpr ⟨old, hold, by simpa using hpath⟩

end

/-! ## Rows under marking -/

/-- A row that is marked keeps the time it first went missing. -/
def marked (now : Int) (row : LibraryFile) : LibraryFile :=
  { row with
    missingSince := if row.fileStatus = .missing then row.missingSince else some now
    fileStatus := .missing }

theorem foldl_markMissing (now : Int) (paths : List String) (files : List LibraryFile) :
    paths.foldl (fun files filePath => markMissing files now filePath) files =
      files.map fun row => if row.filePath ∈ paths then marked now row else row := by
  induction paths generalizing files with
  | nil => simp
  | cons filePath rest ih =>
      rw [List.foldl_cons, ih]
      simp only [markMissing, Table.update, List.map_map]
      refine List.map_congr_left fun row _ => ?_
      by_cases hsame : row.filePath = filePath
      · simp [hsame, marked]
      · simp [hsame]

/-- A file is only ever taken for the new place of a row there is. -/
theorem movedFrom_mem (horigin : movedFrom files names answer file = some origin) :
    origin ∈ files := by
  unfold movedFrom at horigin
  rcases Option.or_eq_some_iff.mp horigin with horigin | ⟨-, horigin⟩
  · exact List.mem_of_mem_filter (mem_orderByPath.mp (List.mem_of_find?_eq_some horigin))
  · have hcandidate := List.mem_of_mem_filter (chooseMoveOrigin_mem horigin)
    rcases List.mem_append.mp (Firsts.firsts_sublist.subset hcandidate) with hmem | hmem
    · split at hmem
      · exact List.mem_of_mem_filter (mem_orderByPath.mp hmem)
      · cases hmem
    · split at hmem
      · exact List.mem_of_mem_filter (mem_orderByPath.mp hmem)
      · cases hmem

/-- The row's own file is gone, or is the file that is now found under another name. -/
theorem movedFrom_gone (horigin : movedFrom files names answer file = some origin) :
    origin.filePath ≠ file.filePath ∧
      (pathExists answer origin.filePath = false ∨
        names.isSameFile origin.filePath file.filePath = true) := by
  unfold movedFrom at horigin
  rcases Option.or_eq_some_iff.mp horigin with horigin | ⟨-, horigin⟩
  · have hfound := List.find?_some horigin
    simp only [ne_eq, decide_eq_true_eq] at hfound
    exact ⟨hfound.1, .inr hfound.2⟩
  · have hgone := (List.mem_filter.mp (chooseMoveOrigin_mem horigin)).2
    simp only [ne_eq, Bool.or_eq_true, Bool.not_eq_true', decide_eq_true_eq] at hgone
    exact hgone

end RetroStation.Library
