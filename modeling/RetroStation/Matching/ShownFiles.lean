import RetroStation.Matching.MissingFiles

/-! # The files a run shows

Over a whole matching run, the file of every match row it writes is on disk if and
only if at no song's turn a missing file wins.
-/

namespace RetroStation.Matching

open Library Effect

/-- The row names a file on disk. -/
def Match.PresentIn (files : List LibraryFile) (row : Match) : Prop :=
  ∃ file ∈ files, row.libraryFileId = some file.id ∧ file.fileStatus = .present

/-- What every turn of a run starts from. -/
structure RunOk (engines : SongEngines) (artists : List BroadcastArtist) (state : PlaylistState) :
    Prop where
  reads : StateOk engines.repos artists state.engines
  answers : state.engines.recordingSearch.answers.isSome =
    engines.config.trialTitleScore.isSome

/-- At its turn the song is still pending, its artist is there and a missing file wins. -/
def MissingWinsAt (engines : SongEngines) (artists : List BroadcastArtist)
    (identity : BroadcastTrackIdentity) (state : PlaylistState) : Prop :=
  (∃ song ∈ state.db.identities, song.id = identity.id ∧ song.matchStatus = .pending) ∧
    ∃ artist, (artists.find? fun artist => artist.id = identity.broadcastArtistId) = some artist ∧
      engines.MissingWins identity artist state.engines.recordingSearch

section

variable {engines : SongEngines} {artists : List BroadcastArtist}
  {identity : BroadcastTrackIdentity} {result : IdentityMatchResult} {db : Database}

theorem SongEngines.decide_file_mem {artist : BroadcastArtist} {search : RecordingSearch}
    (hfiles : (engines.repos.files.map LibraryFile.id).Nodup)
    (hdecided : (outcome (engines.decide identity artist) search).1 = .ok result) {fileId : Uuid}
    (hfile : result.libraryFileId = some fileId) :
    ∃ file ∈ engines.repos.files, file.id = fileId := by
  cases hrule : identityMappingRule engines.config engines.repos engines.exclusionsByIdentity
      identity with
  | some ruled =>
      rw [decide_of_rule hrule] at hdecided
      obtain rfl := Except.ok.inj hdecided
      obtain ⟨file, hmem, hid, -⟩ := of_identityMappingRule hrule
      exact ⟨file, hmem, Option.some.inj (hid.symm.trans hfile)⟩
  | none =>
      obtain ⟨file, hmem, hid, -⟩ := decide_gated hfiles hrule hdecided fileId hfile
      exact ⟨file, hmem, hid⟩

/-- What a song's result shows: a decided one shows what the engines decide, and a
song without an artist, or one put off, shows no file. -/
theorem songResult_shows {state later : EngineState}
    (hartists : (artists.map BroadcastArtist.id).Nodup)
    (hfiles : (engines.repos.files.map LibraryFile.id).Nodup)
    (hstate : RunOk engines artists ⟨db, state⟩)
    (hresult : songResult engines artists identity state = (.ok result, later)) :
    RunOk engines artists ⟨db, later⟩ ∧
      (ShowsMissing engines.repos.files result ↔
        ∃ artist, (artists.find? fun artist => artist.id = identity.broadcastArtistId) =
            some artist ∧ engines.MissingWins identity artist state.recordingSearch) ∧
      ∀ fileId, result.libraryFileId = some fileId →
        ∃ file ∈ engines.repos.files, file.id = fileId := by
  unfold songResult at hresult
  cases hfind : artists.find? fun artist => artist.id = identity.broadcastArtistId with
  | none =>
      rw [hfind] at hresult
      obtain ⟨hok, rfl⟩ := Prod.mk.inj hresult
      obtain rfl := Except.ok.inj hok
      exact ⟨hstate, iff_of_false (not_showsMissing_of_no_file rfl) (by simp),
        fun fileId hfile => by simp [orphaned] at hfile⟩
  | some artist =>
      have hmem := List.mem_of_find?_eq_some hfind
      obtain ⟨hanswer, hsearch, hreads⟩ := @SongEngines.resolve_simulates identity artist artists
        engines hartists hmem state hstate.reads
      rw [outcome_map] at hanswer hsearch
      have hwins := @SongEngines.decide_showsMissing_iff engines identity artist
        state.recordingSearch hfiles hstate.answers
      have hanswers := @SongEngines.decide_answers engines identity artist state.recordingSearch
      rw [hfind] at hresult
      dsimp only at hresult
      generalize outcome (engines.resolve identity artist) state = resolved at *
      obtain ⟨answer, after⟩ := resolved
      dsimp only at hanswer hsearch hreads
      subst hanswer
      have hlater : RunOk engines artists ⟨db, after⟩ :=
        ⟨hreads, by rw [hsearch, hanswers, hstate.answers]⟩
      cases hdecided : (outcome (engines.decide identity artist) state.recordingSearch).1 with
      | ok decided =>
          rw [hdecided] at hresult hwins
          obtain ⟨hok, rfl⟩ := Prod.mk.inj hresult
          obtain rfl := Except.ok.inj hok
          refine ⟨hlater, ?_, fun fileId hfile => SongEngines.decide_file_mem hfiles hdecided hfile⟩
          simpa using hwins
      | error error =>
          rw [hdecided] at hresult hwins
          cases error with
          | musicBrainzUnavailable =>
              obtain ⟨hok, rfl⟩ := Prod.mk.inj hresult
              obtain rfl := Except.ok.inj hok
              refine ⟨hlater, ?_, fun fileId hfile => by simp [mbDeferral] at hfile⟩
              refine iff_of_false (not_showsMissing_of_no_file rfl) ?_
              simpa using hwins
          | musicBrainzFailed => cases (Prod.mk.inj hresult).1
          | noCandidates => cases (Prod.mk.inj hresult).1

theorem persist_row : (persist db identity result).1.row =
    if db.identities.any fun song => song.id = identity.id ∧ song.matchStatus = .pending
    then suggestion identity result else none := by
  unfold persist Database.updateMatchStatusIfPending
  dsimp only
  cases db.identities.any fun song => decide (song.id = identity.id ∧ song.matchStatus = .pending)
    with
  | false => rfl
  | true =>
      dsimp only
      cases suggestion identity result with
      | some row => rfl
      | none => rfl

theorem suggestion_eq_some_iff {row : Match} : suggestion identity result = some row ↔
    ∃ fileId, result.libraryFileId = some fileId ∧ result.status ≠ .autoRejected ∧ row = {
      subject := .identity identity.id
      confidenceScore := result.confidenceScore
      matchTier := result.tier
      libraryFileId := some fileId
      workId := truthy result.workId } := by
  unfold suggestion
  cases result.libraryFileId with
  | none => simp
  | some fileId =>
      by_cases hrejected : result.status = .autoRejected
      · simp [hrejected]
      · simp [hrejected, eq_comm]

/-- A turn writes a row of a missing file exactly where one wins. -/
theorem playlistMachine_shows {state next : PlaylistState} {done : SongOutcome}
    (hartists : (artists.map BroadcastArtist.id).Nodup)
    (hfiles : (engines.repos.files.map LibraryFile.id).Nodup) (hstate : RunOk engines artists state)
    (hstep : (playlistMachine engines artists).step state identity = some (next, done)) :
    RunOk engines artists next ∧
      ((∃ row, done.row = some row ∧ ¬ row.PresentIn engines.repos.files) ↔
        MissingWinsAt engines artists identity state) := by
  simp only [playlistMachine] at hstep
  split at hstep
  next result later hresult =>
    obtain ⟨rfl, rfl⟩ := Prod.mk.inj (Option.some.inj hstep)
    obtain ⟨hlater, hshows, hmem⟩ := songResult_shows hartists hfiles hstate hresult
    refine ⟨⟨hlater.reads, hlater.answers⟩, ?_⟩
    have hpending : (state.db.identities.any fun song =>
        decide (song.id = identity.id ∧ song.matchStatus = .pending)) ↔
        ∃ song ∈ state.db.identities, song.id = identity.id ∧ song.matchStatus = .pending := by
      simp
    rw [MissingWinsAt, ← hshows, ← hpending, persist_row]
    constructor
    · rintro ⟨row, hrow, hmissing⟩
      split at hrow
      next hsong =>
        obtain ⟨fileId, hfile, hstatus, rfl⟩ := suggestion_eq_some_iff.mp hrow
        obtain ⟨file, hfile', rfl⟩ := hmem fileId hfile
        exact ⟨hsong, file, hfile', fun hpresent => hmissing ⟨file, hfile', rfl, hpresent⟩, hstatus,
          hfile⟩
      · cases hrow
    · rintro ⟨hsong, file, hfile, hmissing, hstatus, hshown⟩
      rw [if_pos hsong]
      refine ⟨_, suggestion_eq_some_iff.mpr ⟨file.id, hshown, hstatus, rfl⟩, ?_⟩
      rintro ⟨other, hother, hid, hpresent⟩
      obtain rfl := List.inj_on_of_nodup_map hfiles hfile hother (Option.some.inj hid)
      exact hmissing hpresent
  · cases hstep

theorem runOk_start (config : EngineConfig) (hconfig : engines.config = config)
    (artists : List BroadcastArtist) (db : Database) :
    RunOk engines artists ⟨db, .start config⟩ where
  reads := stateOk_start config engines.repos artists
  answers := by
    rw [hconfig]
    simp [EngineState.start]

end

/-- Every row a run writes names a file on disk if and only if at no turn of the run a
missing file wins. -/
theorem playlist_rows_present_iff (config : EngineConfig) (db : Database) (playlistId : Uuid)
    (hartists : Table.UniqueBy BroadcastArtist.id db.artists)
    (hfiles : Table.UniqueBy LibraryFile.id db.files)
    {trace : List (BroadcastTrackIdentity × SongOutcome)} {last : PlaylistState}
    (hrun : (playlistMachine (playlistEngines config db playlistId)
      (playlistArtists db playlistId)).Run ⟨db, .start config⟩ trace last) :
    (∀ entry ∈ trace, ∀ row, entry.2.row = some row → row.PresentIn db.files) ↔
      ∀ before entry after state, trace = before ++ entry :: after →
        (playlistMachine (playlistEngines config db playlistId)
          (playlistArtists db playlistId)).Run ⟨db, .start config⟩ before state →
        ¬ MissingWinsAt (playlistEngines config db playlistId) (playlistArtists db playlistId)
          entry.1 state := by
  have hunique : ((playlistArtists db playlistId).map BroadcastArtist.id).Nodup :=
    hartists.sublist (List.filter_sublist.map _)
  have hids : ((playlistEngines config db playlistId).repos.files.map LibraryFile.id).Nodup :=
    hfiles
  have hkeep : (playlistMachine (playlistEngines config db playlistId)
      (playlistArtists db playlistId)).Preserves
      (RunOk (playlistEngines config db playlistId) (playlistArtists db playlistId)) :=
    fun _ _ _ _ hstate hstep => (playlistMachine_shows hunique hids hstate hstep).1
  have hstart : RunOk (playlistEngines config db playlistId) (playlistArtists db playlistId)
      ⟨db, .start config⟩ := runOk_start config rfl _ db
  -- Each entry of the trace is a turn from a state that the run reaches.
  have hturn : ∀ before entry after state, trace = before ++ entry :: after →
      (playlistMachine (playlistEngines config db playlistId)
        (playlistArtists db playlistId)).Run ⟨db, .start config⟩ before state →
      ((∃ row, entry.2.row = some row ∧ ¬ row.PresentIn db.files) ↔
        MissingWinsAt (playlistEngines config db playlistId) (playlistArtists db playlistId)
          entry.1 state) := by
    rintro before ⟨identity, done⟩ after state rfl hbefore
    obtain ⟨middle, next, hmiddle, hstep, -⟩ := hrun.split
    obtain rfl := hbefore.deterministic hmiddle
    exact (playlistMachine_shows hunique hids (hbefore.invariant hkeep hstart) hstep).2
  constructor
  · intro hrows before entry after state htrace hbefore hwins
    obtain ⟨row, hrow, hmissing⟩ := (hturn before entry after state htrace hbefore).mpr hwins
    exact hmissing (hrows entry (by simp [htrace]) row hrow)
  · intro hnone entry hentry row hrow
    obtain ⟨before, after, htrace⟩ := List.append_of_mem hentry
    have hsplit := htrace ▸ hrun
    obtain ⟨state, next, hbefore, -, -⟩ := hsplit.split
    by_contra hmissing
    exact hnone before entry after state htrace hbefore
      ((hturn before entry after state htrace hbefore).mp ⟨row, hrow, hmissing⟩)

def goneSong : BroadcastTrackIdentity where
  id := 1
  broadcastArtistId := 1
  originalTitle := "Dancing Queen"
  normalizedSignature := "abba|dancing queen"

/-- A playlist with one pending song of an artist linked to MusicBrainz, whose only file is gone
from disk. -/
def goneFromDisk : Database where
  artists := [{ id := 1, originalName := "ABBA", normalizedName := "abba",
                matchStatus := .autoMatched }]
  identities := [goneSong]
  plays := [⟨1, 1⟩]
  matchRows := [{ subject := .artist 1, confidenceScore := 100, matchTier := .normalization,
                  targetId := some "mb-abba", targetType := some .artist }]
  files := [{ id := 1, filePath := "/abba/dancing.flac", fileStatus := .missing,
              audio := { artistMbid := some "mb-abba", normalizedArtistName := some "abba" } }]

/-- What a run writes for it. -/
def goneRow : Match where
  subject := .identity 1
  confidenceScore := 100
  matchTier := .musicbrainzIdExact
  libraryFileId := some 1

theorem goneRow_missing : ¬ goneRow.PresentIn goneFromDisk.files := by
  rintro ⟨file, hfile, -, hpresent⟩
  simp only [goneFromDisk, List.mem_singleton] at hfile
  subst hfile
  cases hpresent

/-- The run matches the song to the missing file. -/
theorem playlist_row_missing :
    (matchIdentitiesForPlaylist literalConfig goneFromDisk 1).map
        (fun matched => (matched.2.identities.map (·.matchStatus), matched.2.rowsOf 1)) =
      some ([.autoMatched], [goneRow]) ∧ ¬ goneRow.PresentIn goneFromDisk.files :=
  ⟨by rfl, goneRow_missing⟩

theorem playlist_rows_present_iff_gone :
    ∃ state, MissingWinsAt (playlistEngines literalConfig goneFromDisk 1)
      (playlistArtists goneFromDisk 1) goneSong state := by
  by_contra hnone
  have hrun := @Transition.Machine.Run.single _ _ _ (playlistMachine
    (playlistEngines literalConfig goneFromDisk 1) (playlistArtists goneFromDisk 1))
    ⟨goneFromDisk, .start literalConfig⟩ _ goneSong ⟨some goneRow, none⟩ rfl
  refine goneRow_missing ((playlist_rows_present_iff literalConfig goneFromDisk 1 (by decide)
    (by decide) hrun).mpr ?_ _ List.mem_cons_self goneRow rfl)
  intro before entry after state htrace _ hwins
  cases before with
  | nil =>
      obtain ⟨rfl, -⟩ := List.cons.inj htrace
      exact hnone ⟨state, hwins⟩
  | cons first rest => simp at htrace

end RetroStation.Matching
