import RetroStation.Library.Values
import RetroStation.Streaming.Markers

/-! # The cue editor

A song opens on what the radio plays for it, and an edit is refused where the radio
would not play it. An edit is stored by the fingerprint of the audio.
-/

namespace RetroStation.Streaming

open Library (LibraryFile)

abbrev AudioHash := String

/-- The analysis stored for one audio. A failed or silent one holds fallback points. -/
structure CueAnalysis where
  cues : CuePoints
  analysisFailed : Bool
  audioSilent : Bool := false
  deriving DecidableEq, Repr

/-- Where a song's opening markers come from. -/
inductive CueAnalysisState
  | measured
  | failed
  | waiting
  | silent
  deriving DecidableEq, Repr

/-- What the editor reads and writes. -/
structure CueEditorPorts where
  files : Uuid → Option LibraryFile
  cues : AudioHash → Option CueAnalysis
  edits : AudioHash → Option CueMarkers

structure CueEditorView where
  fileId : Uuid
  title : Option String
  artist : Option String
  format : String
  durationMs : Nat
  analysis : CueAnalysisState
  automatic : CueMarkers
  manual : Option CueMarkers
  deriving DecidableEq, Repr

/-- Why the radio would not play an edit's markers. -/
inductive Refusal
  | silent
  | stopPastEnd (durationMs : Nat)
  | fadeNeedsMargin (marginMs : Nat)
  deriving DecidableEq, Repr

inductive CueEditError
  | fileNotFound
  | notFingerprinted
  | noLength
  | rejected (reason : Refusal)
  deriving DecidableEq, Repr

/-- A file the editor can open, with the length that it edits against. -/
structure Editable where
  file : LibraryFile
  audioHash : AudioHash
  durationMs : Nat
  row : Option CueAnalysis
  durationMs_pos : 0 < durationMs

/-- The points autocue stored, if any. -/
def Editable.stored (target : Editable) : Option CuePoints := target.row.map (·.cues)

/-- What the radio plays for a song with no cues, with no fade-in. -/
def noCuePoints (durationMs : Nat) (hpos : 0 < durationMs) (timing : StreamTiming) : CuePoints where
  cueInMs := 0
  cueOutMs := durationMs
  fadeInMs := 0
  fadeOutMs := timing.defaultFadeOutMs
  startNextMs := 0
  gainDb := NO_CUES_GAIN_DB
  cueIn_lt_cueOut := hpos
  startNext_lt_span := by omega

section

variable (ports : CueEditorPorts) (fileId : Uuid) (timing : StreamTiming)

def presentFile : Except CueEditError LibraryFile :=
  match ports.files fileId with
  | none => .error .fileNotFound
  | some file => if file.fileStatus ≠ .present then .error .fileNotFound else .ok file

/-- The longer of the tag and autocue's stop. -/
def editedLengthMs (taggedMs : Int) : Option CueAnalysis → Int
  | some row => max taggedMs row.cues.cueOutMs
  | none => taggedMs

theorem toNat_pos_of_not_le {durationMs : Int} (hpos : ¬ durationMs ≤ 0) :
    0 < durationMs.toNat := by
  omega

def editable : Except CueEditError Editable := do
  let file ← presentFile ports fileId
  match file.audioHash with
  | none => .error .notFingerprinted
  | some audioHash =>
    let row := ports.cues audioHash
    let durationMs := editedLengthMs (file.audio.durationMs.getD 0) row
    if hpos : durationMs ≤ 0 then .error .noLength
    else .ok ⟨file, audioHash, durationMs.toNat, row, toNat_pos_of_not_le hpos⟩

def analysisState : Option CueAnalysis → CueAnalysisState
  | none => .waiting
  | some row =>
    if row.audioSilent then .silent else if row.analysisFailed then .failed else .measured

/-- What the radio plays for this audio without an edit. -/
def openingMarkers (target : Editable) : CueMarkers :=
  match target.row with
  | some row => .fromPoints row.cues
  | none => .fromPoints (noCuePoints target.durationMs target.durationMs_pos timing)

def readCueEditor : Except CueEditError CueEditorView := do
  let target ← editable ports fileId
  return {
    fileId := target.file.id
    title := target.file.audio.trackTitle
    artist := target.file.audio.artistName
    format := target.file.format
    durationMs := target.durationMs
    analysis := analysisState target.row
    automatic := openingMarkers timing target
    manual := ports.edits target.audioHash }

/-- Why the radio would not play these markers, or none when it would. -/
def refusalFor (target : Editable) (markers : CueMarkers) : Option Refusal :=
  if target.row.any (·.audioSilent) then some .silent
  else if markers.stopMs > target.durationMs then some (.stopPastEnd target.durationMs)
  else
    let playable : PlayableFile :=
      ⟨target.file.id, target.file.filePath, some target.durationMs,
        some (editedCues markers target.stored)⟩
    if !playable.isPlayable timing then some (.fadeNeedsMargin timing.marginMs) else none

def CueEditorPorts.save (audioHash : AudioHash) (markers : CueMarkers) : CueEditorPorts :=
  { ports with edits := fun other => if other = audioHash then some markers else ports.edits other }

def saveCueEdit (markers : CueMarkers) : Except CueEditError CueEditorPorts := do
  let target ← editable ports fileId
  match refusalFor timing target markers with
  | some reason => .error (.rejected reason)
  | none => return ports.save target.audioHash markers

end

/-- The file as the schedule hands it to the radio, or none where its length is negative. -/
def toValidFile (file : LibraryFile) (cues : Option CuePoints) : Option PlayableFile :=
  match file.audio.durationMs with
  | none => some ⟨file.id, file.filePath, none, cues⟩
  | some durationMs =>
    if durationMs < 0 then none
    else some ⟨file.id, file.filePath, some durationMs.toNat, cues⟩

/-! ## An edit that opens on what the radio plays -/

section Payload

variable (host : HostPaths) (timing : StreamTiming) (file : PlayableFile)

/-- The editor's points for stored ones differ only in the fade-in, which is never played. -/
theorem editedCues_fromPoints {points : CuePoints}
    (hfade : points.fadeOutMs ≤ points.cueOutMs - points.cueInMs) :
    editedCues (.fromPoints points) (some points) = { points with fadeInMs := 0 } := by
  have hspan := points.cueIn_lt_cueOut
  have hnext := points.startNext_lt_span
  ext <;> simp only [editedCues, CueMarkers.fromPoints, CueMarkers.toPoints]
  · omega
  · omega

/-- A song with no cues opens on the points that it plays with. -/
theorem editedCues_noCuePoints {durationMs : Nat} (hpos : 0 < durationMs)
    (hfade : timing.defaultFadeOutMs ≤ durationMs) :
    editedCues (.fromPoints (noCuePoints durationMs hpos timing)) none =
      noCuePoints durationMs hpos timing := by
  ext <;> simp only [editedCues, CueMarkers.fromPoints, CueMarkers.toPoints, noCuePoints]
  · omega
  · omega

/-- A fade-in is never sent. -/
theorem landingPayload_fadeIn (seq : Nat) (item : ScheduleItem) (points : CuePoints)
    (fadeInMs offsetMs : Nat) :
    landingPayload host timing seq
        { item with file := some { file with cues := some { points with fadeInMs := fadeInMs } } }
        offsetMs =
      landingPayload host timing seq
        { item with file := some { file with cues := some points } } offsetMs := by
  have hplay (cues : CuePoints) :
      (PlayableFile.cuesToPlay { file with cues := some cues } offsetMs timing).isSome =
        PlayableFile.tailFits { file with cues := some cues } offsetMs timing := by
    simp only [PlayableFile.cuesToPlay]
    split <;> simp_all
  simp only [landingPayload, hplay]
  rfl

/-- A song is sent the same with no cues and with those that stand for none. -/
theorem landingPayload_noCuePoints (seq : Nat) (item : ScheduleItem) {durationMs : Nat}
    (hpos : 0 < durationMs) (hduration : file.durationMs = some durationMs) (offsetMs : Nat) :
    landingPayload host timing seq
        { item with file := some { file with cues := some (noCuePoints durationMs hpos timing) } }
        offsetMs =
      landingPayload host timing seq
        { item with file := some { file with cues := none } } offsetMs := by
  simp only [landingPayload]
  split
  · simp [itemPayload, noCuePoints, hduration, NO_CUES_START_NEXT_MS]
  · simp [noCuePoints]

end Payload

/-! ## Opening and saving -/

section Saving

variable {ports : CueEditorPorts} {fileId : Uuid} {timing : StreamTiming}

/-- The radio plays this library file with no edit: it is present and fingerprinted, its
audio was not measured silent, and its tagged length and stored points are playable. -/
structure PlaysUnedited (ports : CueEditorPorts) (fileId : Uuid) (timing : StreamTiming)
    (file : LibraryFile) (audioHash : AudioHash) (played : PlayableFile) : Prop where
  found : ports.files fileId = some file
  present : file.fileStatus = .present
  fingerprinted : file.audioHash = some audioHash
  sounds : (ports.cues audioHash).any (·.audioSilent) = false
  valid : toValidFile file ((ports.cues audioHash).map (·.cues)) = some played
  playable : played.isPlayable timing

theorem toValidFile_spec {file : LibraryFile} {cues : Option CuePoints} {played : PlayableFile}
    (hvalid : toValidFile file cues = some played) :
    played.cues = cues ∧ (played.durationMs.getD 0 : Int) = file.audio.durationMs.getD 0 := by
  unfold toValidFile at hvalid
  split at hvalid
  next hnone =>
    cases hvalid
    simp [hnone]
  next durationMs hsome =>
    split at hvalid
    · cases hvalid
    · cases hvalid
      simp [hsome]
      omega

theorem editable_of_file {file : LibraryFile} {audioHash : AudioHash}
    (hfound : ports.files fileId = some file) (hpresent : file.fileStatus = .present)
    (hhash : file.audioHash = some audioHash)
    (hlength : 0 < editedLengthMs (file.audio.durationMs.getD 0) (ports.cues audioHash)) :
    ∃ target, editable ports fileId = .ok target ∧ target.audioHash = audioHash ∧
      target.row = ports.cues audioHash ∧ (target.durationMs : Int) =
        editedLengthMs (file.audio.durationMs.getD 0) (ports.cues audioHash) := by
  refine ⟨⟨file, audioHash,
    (editedLengthMs (file.audio.durationMs.getD 0) (ports.cues audioHash)).toNat,
    ports.cues audioHash, by omega⟩, ?_, rfl, rfl, by dsimp only; omega⟩
  have hknown : ¬ editedLengthMs (file.audio.durationMs.getD 0) (ports.cues audioHash) ≤ 0 := by
    omega
  simp [editable, presentFile, hfound, hpresent, hhash, bind, Except.bind, hknown]

/-- The opening markers' points are the stored ones without their fade-in, or those that
stand for none; they end within the edited length. -/
theorem PlaysUnedited.opening {file : LibraryFile} {audioHash : AudioHash} {played : PlayableFile}
    (hplays : PlaysUnedited ports fileId timing file audioHash played) :
    ∃ target, editable ports fileId = .ok target ∧ target.audioHash = audioHash ∧
      target.row = ports.cues audioHash ∧
      (openingMarkers timing target).stopMs ≤ target.durationMs ∧
      editedCues (openingMarkers timing target) target.stored =
        (match played.cues with
        | some points => { points with fadeInMs := 0 }
        | none => noCuePoints target.durationMs target.durationMs_pos timing) ∧
      (played.cues = none → played.durationMs = some target.durationMs) := by
  obtain ⟨hcues, htagged⟩ := toValidFile_spec hplays.valid
  obtain ⟨hspan, hfade⟩ := (played.isPlayable_iff timing).mp hplays.playable
  cases hrow : ports.cues audioHash with
  | none =>
    simp only [hrow, Option.map_none] at hcues
    simp only [PlayableFile.spanMs, PlayableFile.minSpanMs, hcues] at hspan hfade
    obtain ⟨target, htarget, hhash, hstored, hlength⟩ :=
      editable_of_file hplays.found hplays.present hplays.fingerprinted
        (by simp only [hrow, editedLengthMs]; omega)
    simp only [hrow, editedLengthMs] at hstored hlength
    refine ⟨target, htarget, hhash, hstored, ?_, ?_, fun _ => ?_⟩
    · simp [openingMarkers, hstored, CueMarkers.fromPoints, noCuePoints]
    · simp only [hcues, openingMarkers, hstored, Editable.stored, Option.map_none]
      exact editedCues_noCuePoints timing target.durationMs_pos (by omega)
    · cases hduration : played.durationMs with
      | none => simp [hduration] at hspan
      | some durationMs =>
        simp only [hduration, Option.getD_some] at htagged
        rw [Option.some.injEq]
        omega
  | some row =>
    simp only [hrow, Option.map_some] at hcues
    simp only [PlayableFile.spanMs, PlayableFile.minSpanMs, hcues] at hspan hfade
    obtain ⟨target, htarget, hhash, hstored, hlength⟩ :=
      editable_of_file hplays.found hplays.present hplays.fingerprinted
        (by simp only [hrow, editedLengthMs]; omega)
    simp only [hrow, editedLengthMs] at hstored hlength
    refine ⟨target, htarget, hhash, hstored, ?_, ?_, fun hnone => ?_⟩
    · simp only [openingMarkers, hstored, CueMarkers.fromPoints]
      omega
    · simp only [hcues, openingMarkers, hstored, Editable.stored, Option.map_some]
      exact editedCues_fromPoints (by omega)
    · rw [hcues] at hnone
      cases hnone

/-- What is playable of a file with cues depends on the cues alone. -/
theorem isPlayable_cued (fileId : Uuid) (path : String) (durationMs : Option Nat)
    (points : CuePoints) : PlayableFile.isPlayable ⟨fileId, path, durationMs, some points⟩ timing ↔
      points.fadeOutMs + timing.marginMs ≤ points.cueOutMs - points.cueInMs := by
  have hspan := points.cueIn_lt_cueOut
  rw [PlayableFile.isPlayable_iff]
  simp only [PlayableFile.spanMs, PlayableFile.minSpanMs]
  omega

theorem refusalFor_eq_none_iff {target : Editable} {markers : CueMarkers} :
    refusalFor timing target markers = none ↔
      target.row.any (·.audioSilent) = false ∧ markers.stopMs ≤ target.durationMs ∧
        PlayableFile.isPlayable ⟨target.file.id, target.file.filePath, some target.durationMs,
          some (editedCues markers target.stored)⟩ timing := by
  unfold refusalFor
  dsimp only
  split_ifs with hsilent hstop hplayable
  · simp [hsilent]
  · simp only [false_iff, not_and]
    omega
  · simp only [false_iff]
    rintro ⟨-, -, hplays⟩
    simp [hplays] at hplayable
  · simp only [Bool.not_eq_true', Bool.not_eq_false] at hplayable
    simpa [hsilent, hplayable] using hstop

theorem saveCueEdit_ok {markers : CueMarkers} {saved : CueEditorPorts}
    (hsaved : saveCueEdit ports fileId timing markers = .ok saved) :
    ∃ target, editable ports fileId = .ok target ∧ refusalFor timing target markers = none ∧
      saved = ports.save target.audioHash markers := by
  unfold saveCueEdit at hsaved
  cases htarget : editable ports fileId with
  | error why => simp [htarget, bind, Except.bind] at hsaved
  | ok target =>
    simp only [htarget, bind, Except.bind] at hsaved
    split at hsaved
    · cases hsaved
    next hnone =>
      cases hsaved
      exact ⟨target, rfl, hnone, rfl⟩

/-- The opening markers are accepted, and nothing the radio sends changes with them. -/
theorem PlaysUnedited.unchanged {file : LibraryFile} {audioHash : AudioHash}
    {played : PlayableFile} (hplays : PlaysUnedited ports fileId timing file audioHash played)
    {target : Editable} (hrow : target.row = ports.cues audioHash)
    (hstop : (openingMarkers timing target).stopMs ≤ target.durationMs)
    (hedited : editedCues (openingMarkers timing target) target.stored =
      match played.cues with
      | some points => { points with fadeInMs := 0 }
      | none => noCuePoints target.durationMs target.durationMs_pos timing)
    (hlength : played.cues = none → played.durationMs = some target.durationMs) :
    refusalFor timing target (openingMarkers timing target) = none ∧
      ∀ (host : HostPaths) (seq : Nat) (item : ScheduleItem) (offsetMs : Nat),
        landingPayload host timing seq { item with file := some { played with
          cues := some (editedCues (openingMarkers timing target) target.stored) } } offsetMs =
        landingPayload host timing seq { item with file := some played } offsetMs := by
  obtain ⟨hspan, hfade⟩ := (played.isPlayable_iff timing).mp hplays.playable
  rw [refusalFor_eq_none_iff, isPlayable_cued, hrow, hedited]
  cases hcues : played.cues with
  | none =>
    have hduration := hlength hcues
    simp only [PlayableFile.spanMs, PlayableFile.minSpanMs, hcues, hduration,
      Option.getD_some] at hspan hfade
    refine ⟨⟨hplays.sounds, hstop, by simpa [noCuePoints] using hfade⟩, ?_⟩
    intro host seq item offsetMs
    have hsame := landingPayload_noCuePoints host timing played seq item target.durationMs_pos
      hduration offsetMs
    rw [← hcues] at hsame
    exact hsame
  | some points =>
    simp only [PlayableFile.spanMs, PlayableFile.minSpanMs, hcues] at hspan hfade
    refine ⟨⟨hplays.sounds, hstop, hfade⟩, ?_⟩
    intro host seq item offsetMs
    have hsame := landingPayload_fadeIn host timing played seq item points 0 offsetMs
    rw [← hcues] at hsame
    exact hsame

end Saving

/-- Saving the opening markers of a song that the radio plays is accepted and changes nothing
that is sent. Whatever is accepted plays, ends within the edited length, and opens again as the
same markers. -/
theorem cueEdits_keep_air (ports : CueEditorPorts) (fileId : Uuid) (timing : StreamTiming) :
    (∀ file audioHash played, PlaysUnedited ports fileId timing file audioHash played →
      ∃ view saved, readCueEditor ports fileId timing = .ok view ∧
        saveCueEdit ports fileId timing view.automatic = .ok saved ∧
        saved.edits audioHash = some view.automatic ∧
        ∀ (host : HostPaths) (seq : Nat) (item : ScheduleItem) (offsetMs : Nat),
          landingPayload host timing seq { item with file := some { played with
            cues := some (editedCues view.automatic ((ports.cues audioHash).map (·.cues))) } }
            offsetMs =
          landingPayload host timing seq { item with file := some played } offsetMs) ∧
    (∀ markers saved, saveCueEdit ports fileId timing markers = .ok saved →
      ∃ target, editable ports fileId = .ok target ∧
        saved = ports.save target.audioHash markers ∧
        markers.stopMs ≤ target.durationMs ∧
        (∀ durationMs, PlayableFile.isPlayable ⟨target.file.id, target.file.filePath, durationMs,
          some (editedCues markers target.stored)⟩ timing) ∧
        CueMarkers.fromPoints (editedCues markers target.stored) = markers) := by
  constructor
  · intro file audioHash played hplays
    obtain ⟨target, htarget, rfl, hrow, hstop, hedited, hlength⟩ := hplays.opening
    -- The opening markers are the cues the file plays with, so saving them changes nothing on air.
    obtain ⟨haccepted, hsame⟩ := hplays.unchanged hrow hstop hedited hlength
    have hread : readCueEditor ports fileId timing = .ok {
        fileId := target.file.id
        title := target.file.audio.trackTitle
        artist := target.file.audio.artistName
        format := target.file.format
        durationMs := target.durationMs
        analysis := analysisState target.row
        automatic := openingMarkers timing target
        manual := ports.edits target.audioHash } := by
      simp [readCueEditor, htarget, bind, Except.bind, pure, Except.pure]
    have hsave : saveCueEdit ports fileId timing (openingMarkers timing target) =
        .ok (ports.save target.audioHash (openingMarkers timing target)) := by
      simp [saveCueEdit, htarget, haccepted, bind, Except.bind, pure, Except.pure]
    refine ⟨_, _, hread, hsave, by simp [CueEditorPorts.save], ?_⟩
    rw [← hrow]
    exact hsame
  · intro markers saved hsaved
    obtain ⟨target, htarget, hnone, hports⟩ := saveCueEdit_ok hsaved
    obtain ⟨-, hstop, hplayable⟩ := refusalFor_eq_none_iff.mp hnone
    refine ⟨target, htarget, hports, hstop, ?_, CueMarkers.fromPoints_toPoints markers _⟩
    intro durationMs
    rw [isPlayable_cued] at hplayable ⊢
    exact hplayable

/-- The points of a song that autocue has measured. -/
def measuredPoints : CuePoints where
  cueInMs := 1500
  cueOutMs := 195000
  fadeInMs := 40
  fadeOutMs := 3000
  startNextMs := 2500
  gainDb := -3
  cueIn_lt_cueOut := by decide
  startNext_lt_span := by decide

def measuredSong : LibraryFile where
  id := 1
  filePath := "song.mp3"
  audioHash := some "mp3"
  audio := { durationMs := some 200000 }

def measuredPorts : CueEditorPorts where
  files fileId := if fileId = 1 then some measuredSong else none
  cues audioHash := if audioHash = "mp3" then some ⟨measuredPoints, false, false⟩ else none
  edits _ := none

/-- The song with its points or those of an edit, logged at midnight. -/
def measuredItem (cues : CuePoints) : ScheduleItem :=
  ⟨7, 0, "Song", "Band", some ⟨1, "song.mp3", some 200000, some cues⟩⟩

/-- Its opening markers are saved, and a listener who tunes in half a minute into it or just
before its end is sent the same as before. -/
theorem cueEdits_keep_air_measured :
    ∃ view saved, readCueEditor measuredPorts 1 {} = .ok view ∧
      saveCueEdit measuredPorts 1 {} view.automatic = .ok saved ∧
      saved.edits "mp3" = some view.automatic ∧
      ∀ host, ∀ offsetMs ∈ [30000, 193000],
        landingPayload host {} 4 (measuredItem (editedCues view.automatic (some measuredPoints)))
            offsetMs =
          landingPayload host {} 4 (measuredItem measuredPoints) offsetMs := by
  have hplays : PlaysUnedited measuredPorts 1 {} measuredSong "mp3"
      ⟨1, "song.mp3", some 200000, some measuredPoints⟩ :=
    ⟨rfl, rfl, rfl, rfl, rfl, by decide⟩
  obtain ⟨view, saved, hread, hsave, hstored, hsame⟩ :=
    (cueEdits_keep_air measuredPorts 1 {}).1 _ _ _ hplays
  exact ⟨view, saved, hread, hsave, hstored, fun host offsetMs _ =>
    hsame host 4 (measuredItem measuredPoints) offsetMs⟩

end RetroStation.Streaming
