import Mathlib.Data.List.Sort
import Mathlib.Data.Rat.Floor

/-! # Library values

A library file as its row stores it, with the tags that were read from it.
Identifiers of files, songs and artists are only ever compared; works and
recordings carry text identifiers, of which the empty one names nothing.
-/

namespace RetroStation.Library

abbrev Uuid := Nat

inductive FileStatus
  | present
  | missing
  | deleted
  deriving DecidableEq, Repr

inductive EnrichmentStatus
  | pending
  | categorized
  | enriched
  | failed
  | skipped
  deriving DecidableEq, Repr

inductive ReleaseType
  | album
  | single
  | ep
  | compilation
  | live
  | broadcast
  | other
  deriving DecidableEq, Repr

inductive ReleaseStatus
  | official
  | promotion
  | bootleg
  | pseudoRelease
  deriving DecidableEq, Repr

/-- Metadata extracted from audio file tags. -/
structure AudioMetadata where
  recordingMbid : Option String := none
  artistMbid : Option String := none
  albumArtistMbid : Option String := none
  releaseMbid : Option String := none
  releaseTitle : Option String := none
  releaseType : Option ReleaseType := none
  releaseStatus : Option ReleaseStatus := none
  trackTitle : Option String := none
  trackNumber : Option Int := none
  discNumber : Option Int := none
  durationMs : Option Int := none
  bitrate : Option Int := none
  artistName : Option String := none
  normalizedArtistName : Option String := none
  normalizedTitle : Option String := none
  deriving DecidableEq, Repr

/-- A row of `library_files`. -/
structure LibraryFile where
  id : Uuid
  filePath : String
  format : String := "flac"
  enrichmentStatus : EnrichmentStatus := .pending
  fileStatus : FileStatus := .present
  recordingId : Option String := none
  workId : Option String := none
  fileSize : Option Int := none
  fileMtimeNs : Option Int := none
  audioHash : Option String := none
  missingSince : Option Int := none
  audio : AudioMetadata := {}
  deriving DecidableEq, Repr

/-- A text that says something, as Python's truth value of it does. -/
def truthy (text : Option String) : Option String := text.filter (· ≠ "")

theorem truthy_eq_some {text : Option String} {value : String} :
    truthy text = some value ↔ text = some value ∧ value ≠ "" := by
  simp [truthy, Option.filter_eq_some_iff]

def LibraryFile.isPresent (file : LibraryFile) : Bool := file.fileStatus = .present

end RetroStation.Library

/-! ## Queries over the library files

What the file repository reads. A query without an order answers in table order.
-/

namespace RetroStation.Library

section

variable (files : List LibraryFile)

def getById (fileId : Uuid) : Option LibraryFile := files.find? fun file => file.id = fileId

def getByIds (ids : List Uuid) : List LibraryFile := files.filter fun file => file.id ∈ ids

def getByPath (filePath : String) : Option LibraryFile :=
  files.find? fun file => file.filePath = filePath

/-- Files of any status tagged with the MBID, as artist or as album artist. -/
def getByArtistMbid (artistMbid : String) : List LibraryFile :=
  files.filter fun file =>
    file.audio.artistMbid = some artistMbid ∨ file.audio.albumArtistMbid = some artistMbid

/-- Rows in id order. -/
def orderById (rows : List LibraryFile) : List LibraryFile :=
  rows.insertionSort fun first second => first.id ≤ second.id

def getByNormalizedArtistName (normalizedName : String) (limit : Nat) : List LibraryFile :=
  if normalizedName = "" then []
  else (orderById (files.filter fun file =>
    file.audio.normalizedArtistName = some normalizedName ∧ file.fileStatus = .present)).take limit

def getByRecordingMbid (recordingMbid : String) : List LibraryFile :=
  orderById (files.filter fun file =>
    file.audio.recordingMbid = some recordingMbid ∧ file.fileStatus = .present)

/-- Whether a present file of this artist carries a recording MBID, and the
artist's own MBID in neither tag. -/
def hasFileBeyondArtistMbid (normalizedArtistName artistMbid : String) : Bool :=
  files.any fun file =>
    file.audio.normalizedArtistName = some normalizedArtistName ∧ file.fileStatus = .present ∧
      file.audio.recordingMbid.isSome ∧ file.audio.artistMbid ≠ some artistMbid ∧
      file.audio.albumArtistMbid ≠ some artistMbid

end

variable {files : List LibraryFile}

theorem mem_orderById {rows : List LibraryFile} {file : LibraryFile} :
    file ∈ orderById rows ↔ file ∈ rows := List.mem_insertionSort _

theorem mem_getByArtistMbid {artistMbid : String} {file : LibraryFile} :
    file ∈ getByArtistMbid files artistMbid ↔ file ∈ files ∧
      (file.audio.artistMbid = some artistMbid ∨ file.audio.albumArtistMbid = some artistMbid) := by
  simp [getByArtistMbid]

theorem mem_getByRecordingMbid {recordingMbid : String} {file : LibraryFile} :
    file ∈ getByRecordingMbid files recordingMbid ↔ file ∈ files ∧
      file.audio.recordingMbid = some recordingMbid ∧ file.fileStatus = .present := by
  simp [getByRecordingMbid, mem_orderById]

/-- A name lookup answers present files of that name. -/
theorem of_mem_getByNormalizedArtistName {normalizedName : String} {limit : Nat}
    {file : LibraryFile} (hfile : file ∈ getByNormalizedArtistName files normalizedName limit) :
    file ∈ files ∧ file.audio.normalizedArtistName = some normalizedName ∧
      file.fileStatus = .present := by
  unfold getByNormalizedArtistName at hfile
  split at hfile
  · simp at hfile
  · simpa using mem_orderById.mp (List.mem_of_mem_take hfile)

theorem nodup_orderById {rows : List LibraryFile} (hids : (rows.map LibraryFile.id).Nodup) :
    ((orderById rows).map LibraryFile.id).Nodup :=
  ((List.perm_insertionSort _ rows).map _).nodup_iff.mpr hids

theorem nodup_filter_ids (p : LibraryFile → Bool) (hids : (files.map LibraryFile.id).Nodup) :
    ((files.filter p).map LibraryFile.id).Nodup := hids.sublist (List.filter_sublist.map _)

theorem getById_eq_some {fileId : Uuid} {file : LibraryFile}
    (hfile : getById files fileId = some file) : file ∈ files ∧ file.id = fileId :=
  ⟨List.mem_of_find?_eq_some hfile, by simpa using List.find?_some hfile⟩

theorem getById_of_mem {file : LibraryFile} (hids : (files.map LibraryFile.id).Nodup)
    (hfile : file ∈ files) : getById files file.id = some file := by
  cases hget : getById files file.id with
  | none => simpa using List.find?_eq_none.mp hget file hfile
  | some other =>
      obtain ⟨hother, hid⟩ := getById_eq_some hget
      rw [List.inj_on_of_nodup_map hids hother hfile hid]

end RetroStation.Library
