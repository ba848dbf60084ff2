import RetroStation.Database.Curation

/-! # Pairing missing rows with their successors

A missing row is paired with the one present row that holds the same track: by
audio fingerprint first, else by duration together with the recording or the
track's place on its release.
-/

namespace RetroStation.Curation

open Library

/-- A remaster or an edit on the same release differs by more than this. -/
def MAX_DURATION_DIFF_MS : Int := 2000

def AUDIO_HASHABLE_FORMATS : List String := ["flac", "mp3"]

/-- How the host reads texts: a release title's letters and digits, and a path's
last part. -/
structure PairingConfig where
  releaseKey : String → Option String
  fileName : String → String

def durationsAgree (a b : LibraryFile) : Bool :=
  match a.audio.durationMs, b.audio.durationMs with
  | some da, some db => (da - db).natAbs ≤ MAX_DURATION_DIFF_MS
  | _, _ => false

def sameRecording (a b : LibraryFile) : Bool :=
  a.audio.recordingMbid.isSome ∧ a.audio.recordingMbid = b.audio.recordingMbid ∧
    a.audio.releaseMbid = b.audio.releaseMbid

def sameAudio (a b : LibraryFile) : Bool := a.audioHash.isSome ∧ a.audioHash = b.audioHash

/-- A candidate the hash backfill will still fingerprint. -/
def awaitingFingerprint (candidate : LibraryFile) : Bool :=
  candidate.audioHash.isNone ∧ candidate.format ∈ AUDIO_HASHABLE_FORMATS

structure MissingFileMove where
  missingId : Uuid
  missingWorkId : Option String
  successorId : Uuid
  successorWorkId : Option String
  deriving DecidableEq, Repr

def moveOf (missing successor : LibraryFile) : MissingFileMove where
  missingId := missing.id
  missingWorkId := missing.workId
  successorId := successor.id
  successorWorkId := successor.workId

structure MissingFilePlan where
  moves : List MissingFileMove
  ambiguous : List String
  unmatched : List String
  deriving DecidableEq, Repr

section

variable (config : PairingConfig)

/-- A track's place: artist, release, disc, number and title. -/
def releaseTrack (file : LibraryFile) : Option (String × String × Option Int × Int × String) := do
  let release ← file.audio.releaseTitle.bind config.releaseKey
  let number ← file.audio.trackNumber
  let title ← file.audio.normalizedTitle
  let artist ← file.audio.normalizedArtistName
  return (artist, release, file.audio.discNumber, number, title)

/-- Whether `candidate` holds the track that `missing` held. -/
def isSameTrack (missing candidate : LibraryFile) : Bool :=
  sameAudio missing candidate ||
    (durationsAgree missing candidate &&
      (sameRecording missing candidate ||
        ((releaseTrack config missing).isSome &&
          releaseTrack config missing = releaseTrack config candidate)))

/-- Rows that may hold the track; `readySuccessors` decides. -/
def successorCandidates (db : Database) (missing : LibraryFile) : List LibraryFile :=
  let audioTwins := match missing.audioHash with
    | some hash => db.files.filter fun file => file.audioHash = some hash
    | none => []
  let recordingTwins := match missing.audio.recordingMbid with
    | some mbid => getByRecordingMbid db.files mbid
    | none => []
  let trackTwins := match releaseTrack config missing with
    | some (artist, _, _, number, title) => db.files.filter fun file =>
        file.audio.normalizedArtistName = some artist ∧ file.audio.trackNumber = some number ∧
          file.audio.normalizedTitle = some title ∧ file.fileStatus = .present
    | none => []
  (audioTwins ++ recordingTwins ++ trackTwins).dedup

/-- The only candidate, else the only one with the missing row's file name. -/
def pick (missing : LibraryFile) (candidates : List LibraryFile) : Option LibraryFile :=
  match candidates with
  | [candidate] => some candidate
  | _ =>
    match candidates.filter fun candidate =>
      config.fileName candidate.filePath = config.fileName missing.filePath with
    | [candidate] => some candidate
    | _ => none

/-- Candidates that can take over now: on disk, grouped, the same track. -/
def readySuccessors (missing : LibraryFile) (candidates : List LibraryFile) : List LibraryFile :=
  candidates.filter fun candidate =>
    candidate.id ≠ missing.id ∧ candidate.fileStatus = .present ∧ candidate.workId.isSome ∧
      isSameTrack config missing candidate

/-- An audio match wins outright once every hashable candidate has its fingerprint. -/
def chooseSuccessor (missing : LibraryFile) (ready : List LibraryFile) : Option LibraryFile :=
  let audio := ready.filter (sameAudio missing)
  if !audio.isEmpty && ready.any awaitingFingerprint then none
  else pick config missing (if audio.isEmpty then ready else audio)

/-- Pair each missing row, by path; a successor takes over one row a run. -/
def planMissingFileMoves (candidatesFor : LibraryFile → List LibraryFile) :
    List Uuid → List LibraryFile → MissingFilePlan
  | _, [] => ⟨[], [], []⟩
  | claimed, missing :: rest =>
    let ready := readySuccessors config missing (candidatesFor missing)
    if ready.isEmpty then
      let plan := planMissingFileMoves candidatesFor claimed rest
      { plan with unmatched := missing.filePath :: plan.unmatched }
    else match (chooseSuccessor config missing ready).filter (·.id ∉ claimed) with
    | none =>
      let plan := planMissingFileMoves candidatesFor claimed rest
      { plan with ambiguous := missing.filePath :: plan.ambiguous }
    | some successor =>
      let plan := planMissingFileMoves candidatesFor (successor.id :: claimed) rest
      { plan with moves := moveOf missing successor :: plan.moves }

def planForLibrary (db : Database) : MissingFilePlan :=
  planMissingFileMoves config (successorCandidates config db) [] db.getMissing

/-- Whether a file on disk holds the row's track, grouped or not. -/
def hasPresentCopy (missing : LibraryFile) (candidates : List LibraryFile) : Bool :=
  candidates.any fun candidate =>
    candidate.id ≠ missing.id ∧ candidate.fileStatus = .present ∧
      isSameTrack config missing candidate

def unreplacedRows (db : Database) (missingRows : List LibraryFile) : List LibraryFile :=
  missingRows.filter fun missing =>
    !hasPresentCopy config missing (successorCandidates config db missing)

end

/-! ## What a plan pairs -/

section

variable {config : PairingConfig} {missing successor : LibraryFile}

theorem mem_of_pick {candidates : List LibraryFile}
    (hpick : pick config missing candidates = some successor) : successor ∈ candidates := by
  unfold pick at hpick
  split at hpick
  · obtain rfl := Option.some.inj hpick
    exact List.mem_singleton_self _
  · split at hpick
    next candidate honly =>
      obtain rfl := Option.some.inj hpick
      exact (List.mem_filter.mp (honly ▸ List.mem_singleton_self candidate)).1
    · cases hpick

theorem mem_of_chooseSuccessor {ready : List LibraryFile}
    (hchosen : chooseSuccessor config missing ready = some successor) : successor ∈ ready := by
  unfold chooseSuccessor at hchosen
  dsimp only at hchosen
  split at hchosen
  · cases hchosen
  · have hmem := mem_of_pick hchosen
    split at hmem
    · exact hmem
    · exact (List.mem_filter.mp hmem).1

/-- A planned move pairs a missing row with a candidate on disk that has a work. -/
theorem mem_planMissingFileMoves {candidatesFor : LibraryFile → List LibraryFile}
    {claimed : List Uuid} {rows : List LibraryFile} {move : MissingFileMove}
    (hmove : move ∈ (planMissingFileMoves config candidatesFor claimed rows).moves) :
    ∃ missing ∈ rows, ∃ successor ∈ candidatesFor missing, move = moveOf missing successor ∧
      successor.id ≠ missing.id ∧ successor.fileStatus = .present ∧ successor.workId.isSome := by
  induction rows generalizing claimed with
  | nil => simp [planMissingFileMoves] at hmove
  | cons missing rest ih =>
      have hrest : ∀ claimed, move ∈
        (planMissingFileMoves config candidatesFor claimed rest).moves →
          ∃ row ∈ missing :: rest, ∃ successor ∈ candidatesFor row, move = moveOf row successor ∧
            successor.id ≠ row.id ∧ successor.fileStatus = .present ∧ successor.workId.isSome :=
        fun claimed hmove => by
          obtain ⟨row, hrow, hpaired⟩ := ih hmove
          exact ⟨row, List.mem_cons_of_mem _ hrow, hpaired⟩
      unfold planMissingFileMoves at hmove
      dsimp only at hmove
      split at hmove
      · exact hrest _ hmove
      · split at hmove
        · exact hrest _ hmove
        next successor hchosen =>
          rcases List.mem_cons.mp hmove with rfl | hmove
          · have hready := mem_of_chooseSuccessor (Option.filter_eq_some_iff.mp hchosen).1
            obtain ⟨hmem, hok⟩ := List.mem_filter.mp hready
            simp only [decide_eq_true_eq] at hok
            exact ⟨missing, List.mem_cons_self, successor, hmem, rfl, hok.1, hok.2.1, hok.2.2.1⟩
          · exact hrest _ hmove

theorem mem_successorCandidates {db : Database}
    (hmem : successor ∈ successorCandidates config db missing) : successor ∈ db.files := by
  unfold successorCandidates at hmem
  simp only [List.mem_dedup, List.mem_append] at hmem
  rcases hmem with (hmem | hmem) | hmem
  · split at hmem
    · exact (List.mem_filter.mp hmem).1
    · cases hmem
  · split at hmem
    · exact (mem_getByRecordingMbid.mp hmem).1
    · cases hmem
  · split at hmem
    · exact (List.mem_filter.mp hmem).1
    · cases hmem

end

end RetroStation.Curation
