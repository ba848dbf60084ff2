import RetroStation.Matching.LiveReads

/-! # A song by itself

What a chain of strategies decides for a song is settled by the library, the rules, the
song's rejections and MusicBrainz's answer to one question. As long as MusicBrainz
answers alike and the run has not cut it off, it matters neither what the chains have
read before nor which songs came first: a run writes for each song what the song gets
alone, from strategies that have read nothing.
-/

namespace RetroStation.Matching

open Library Effect Database

/-! ## What MusicBrainz settles -/

/-- MusicBrainz answers a question the same way each time, or fails it each time. -/
def AnswersAlike (config : EngineConfig) : Prop :=
  ∀ calls artistMbid title, config.mbClient calls artistMbid title =
    config.mbClient 0 artistMbid title

/-- What a search comes to. -/
def answerOf (config : EngineConfig) (artistMbid title : String) :
    Except SongError (List MbRecording) :=
  match config.mbClient 0 artistMbid title with
  | .ok recordings => .ok recordings
  | .error .permanent => .error .musicBrainzFailed
  | .error .transient => .error .musicBrainzUnavailable

/-- What a run remembers of MusicBrainz is what it answers. -/
def Remembers (config : EngineConfig) (search : RecordingSearch) : Prop :=
  ∀ answers artistMbid title recordings, search.answers = some answers →
    answers.get? (artistMbid, title) = some recordings →
    config.mbClient 0 artistMbid title = .ok recordings

section

variable {config : EngineConfig} {search : RecordingSearch} {artistMbid title : String}

theorem remembers_start : Remembers config (EngineState.start config).recordingSearch := by
  intro answers artistMbid title recordings hanswers hget
  obtain ⟨titleScore, -, rfl⟩ := Option.map_eq_some_iff.mp hanswers
  simp at hget

/-- A search the run has not cut off is settled, and one that succeeds cuts nothing off. -/
theorem search_settles (halike : AnswersAlike config) (hremembers : Remembers config search)
    (hcutOff : search.cutOff = false) :
    (search.search config.mbClient artistMbid title).1 = answerOf config artistMbid title ∧
      Remembers config (search.search config.mbClient artistMbid title).2 ∧
      ((answerOf config artistMbid title).isOk →
        (search.search config.mbClient artistMbid title).2.cutOff = false) := by
  unfold RecordingSearch.search answerOf
  rw [hcutOff]
  cases hknown : search.answers.bind (·.get? (artistMbid, title)) with
  | some recordings =>
      obtain ⟨answers, hanswers, hget⟩ := Option.bind_eq_some_iff.mp hknown
      rw [hremembers answers artistMbid title recordings hanswers hget]
      exact ⟨rfl, hremembers, fun _ => rfl⟩
  | none =>
      simp only [Bool.false_eq_true, if_false]
      rw [halike search.calls]
      cases hanswer : config.mbClient 0 artistMbid title with
      | error failure =>
          cases failure with
          | transient => exact ⟨rfl, hremembers, fun hok => by cases hok⟩
          | permanent => exact ⟨rfl, hremembers, fun hok => by cases hok⟩
      | ok recordings =>
          refine ⟨rfl, fun answers otherMbid otherTitle found hanswers hget => ?_, fun _ => rfl⟩
          obtain ⟨before, hbefore, rfl⟩ := Option.map_eq_some_iff.mp hanswers
          rw [Dict.get?_set] at hget
          split at hget
          next hsame =>
            obtain ⟨rfl, rfl⟩ := Prod.mk.inj hsame
            exact hanswer.trans (congrArg Except.ok (Option.some.inj hget))
          · exact hremembers before otherMbid otherTitle found hbefore hget

/-- What a plan comes to. -/
def Plan.settled (config : EngineConfig) (title : String) :
    Plan → Except SongError IdentityMatchResult
  | .decided result => .ok result
  | .searches mbid decide => (answerOf config mbid title).map decide

theorem Plan.run_settles (plan : Plan) (halike : AnswersAlike config)
    (hremembers : Remembers config search) (hcutOff : search.cutOff = false) :
    (outcome (plan.run config title) search).1 = plan.settled config title ∧
      Remembers config (outcome (plan.run config title) search).2 ∧
      ((plan.settled config title).isOk →
        (outcome (plan.run config title) search).2.cutOff = false) := by
  cases plan with
  | decided result => exact ⟨rfl, hremembers, fun _ => hcutOff⟩
  | searches mbid decide =>
      obtain ⟨hanswer, hafter, hok⟩ := @search_settles config search mbid title halike hremembers
        hcutOff
      simp only [run, settled, searchOnly, outcome_bind, outcome_get, outcome_set, hanswer]
      cases hsettled : answerOf config mbid title with
      | ok recordings =>
          rw [hsettled] at hok
          exact ⟨rfl, hafter, fun _ => hok rfl⟩
      | error error => exact ⟨rfl, hafter, fun hok => by cases hok⟩

end

/-- What the engines come to for a song. -/
def SongEngines.settled (engines : SongEngines) (identity : BroadcastTrackIdentity)
    (artist : BroadcastArtist) : Except SongError IdentityMatchResult :=
  let chain := fun titleScore =>
    (chainPlan engines.config engines.repos engines.exclusionsByIdentity titleScore identity
      artist).settled engines.config (engines.config.searchTitle identity.originalTitle)
  match chain none, engines.config.trialTitleScore with
  | .ok today, some titleScore => (chain (some titleScore)).map (trialResult today)
  | today, _ => today

/-- What a run makes of a song: a transient MusicBrainz failure defers it, any other raises. -/
def settledSong (engines : SongEngines) (artists : List BroadcastArtist)
    (identity : BroadcastTrackIdentity) : Except SongError IdentityMatchResult :=
  match artists.find? fun artist => artist.id = identity.broadcastArtistId with
  | none => .ok (orphaned identity)
  | some artist =>
    match engines.settled identity artist with
    | .error .musicBrainzUnavailable => .ok mbDeferral
    | settled => settled

section

variable {engines : SongEngines} {identity : BroadcastTrackIdentity} {artist : BroadcastArtist}
  {search : RecordingSearch}

theorem SongEngines.decide_settles (halike : AnswersAlike engines.config)
    (hremembers : Remembers engines.config search) (hcutOff : search.cutOff = false) :
    (outcome (engines.decide identity artist) search).1 = engines.settled identity artist ∧
      Remembers engines.config (outcome (engines.decide identity artist) search).2 := by
  have hrun (titleScore : Option TitleScore) (before : RecordingSearch) :=
    @Plan.run_settles engines.config before (engines.config.searchTitle identity.originalTitle)
      (chainPlan engines.config engines.repos engines.exclusionsByIdentity titleScore
        identity artist)
      halike
  obtain ⟨htoday, hkeeps, hgoes⟩ := hrun none search hremembers hcutOff
  unfold decide settled
  dsimp only
  rw [outcome_bind]
  generalize outcome _ search = first at htoday hkeeps hgoes
  obtain ⟨answer, later⟩ := first
  obtain rfl : answer = _ := htoday
  cases hsettled : (chainPlan engines.config engines.repos engines.exclusionsByIdentity none
      identity artist).settled engines.config
      (engines.config.searchTitle identity.originalTitle) with
  | error error => exact ⟨rfl, hkeeps⟩
  | ok today =>
      rw [hsettled] at hgoes
      cases htrial : engines.config.trialTitleScore with
      | none => exact ⟨rfl, hkeeps⟩
      | some titleScore =>
          obtain ⟨hanswer, hafter, -⟩ := hrun (some titleScore) later hkeeps (hgoes rfl)
          dsimp only
          rw [outcome_bind]
          generalize outcome _ later = second at hanswer hafter
          obtain ⟨answer, last⟩ := second
          obtain rfl : answer = _ := hanswer
          cases (chainPlan engines.config engines.repos engines.exclusionsByIdentity
              (some titleScore) identity artist).settled engines.config
              (engines.config.searchTitle identity.originalTitle) with
          | error error => exact ⟨rfl, hafter⟩
          | ok trial => exact ⟨rfl, hafter⟩

variable {artists : List BroadcastArtist} {state : EngineState}

/-- What a run's strategies may have read, with MusicBrainz still asked. -/
structure ReadsOk (engines : SongEngines) (artists : List BroadcastArtist) (state : EngineState) :
    Prop where
  reads : StateOk engines.repos artists state
  remembers : Remembers engines.config state.recordingSearch

theorem readsOk_start : ReadsOk engines artists (.start engines.config) :=
  ⟨stateOk_start .., remembers_start⟩

/-- A song's result is settled, whatever has been read and remembered before. -/
theorem songResult_settles (halike : AnswersAlike engines.config)
    (hartists : (artists.map BroadcastArtist.id).Nodup) (hstate : ReadsOk engines artists state)
    (hcutOff : state.recordingSearch.cutOff = false) :
    (songResult engines artists identity state).1 = settledSong engines artists identity ∧
      ReadsOk engines artists (songResult engines artists identity state).2 := by
  unfold songResult settledSong
  cases hfind : artists.find? fun artist => artist.id = identity.broadcastArtistId with
  | none => exact ⟨rfl, hstate⟩
  | some artist =>
      obtain ⟨hanswer, hsearch, hreads⟩ := @SongEngines.resolve_simulates identity artist artists
        engines hartists (List.mem_of_find?_eq_some hfind) state hstate.reads
      obtain ⟨hsettled, hremembers⟩ := @SongEngines.decide_settles engines identity artist
        state.recordingSearch halike hstate.remembers hcutOff
      rw [outcome_map] at hanswer hsearch
      rw [← hsearch] at hremembers
      dsimp only at hanswer ⊢
      rw [hsettled] at hanswer
      generalize outcome (engines.resolve identity artist) state = resolved at *
      obtain ⟨answer, later⟩ := resolved
      dsimp only at hanswer hreads hremembers
      subst hanswer
      cases engines.settled identity artist with
      | ok result => exact ⟨rfl, hreads, hremembers⟩
      | error error => cases error <;> exact ⟨rfl, hreads, hremembers⟩

end

/-! ## What the other songs of a run change -/

section

variable {config : EngineConfig} {repos : IdentityMatchingRepos} {titleScore : Option TitleScore}
  {identity : BroadcastTrackIdentity} {artist : BroadcastArtist}
  {exclusions other : ExclusionsByIdentity}

/-- A chain asks for the rejections of its own song only. -/
theorem chainPlan_exclusions
    (hsame : exclusionsFor exclusions identity = exclusionsFor other identity) :
    chainPlan config repos exclusions titleScore identity artist =
      chainPlan config repos other titleScore identity artist := by
  have hallowed : allowedOf exclusions identity artist = allowedOf other identity artist := by
    funext candidates
    rw [allowedOf, allowedOf, hsame]
  have hrule : ruleFor config repos exclusions identity = ruleFor config repos other identity := by
    funext rule
    rw [ruleFor, ruleFor, hsame]
  have hname : nameResult config repos exclusions titleScore identity artist =
      nameResult config repos other titleScore identity artist := by
    rw [nameResult, nameResult, nameCandidates, nameCandidates, hallowed]
  have hafter : afterMbid config repos exclusions titleScore identity artist =
      afterMbid config repos other titleScore identity artist := by
    funext found
    rw [afterMbid, afterMbid, hname]
  have hmbid : mbidResult config repos exclusions titleScore identity artist =
      mbidResult config repos other titleScore identity artist := by
    funext mbid
    rw [mbidResult, mbidResult, mbidCandidates, mbidCandidates, hallowed]
  have hsearch : searchResult config repos exclusions titleScore identity artist =
      searchResult config repos other titleScore identity artist := by
    funext recordings
    rw [searchResult, searchResult, searchCandidates, searchCandidates, hallowed]
  have hplan : mbidPlan config repos exclusions titleScore identity artist =
      mbidPlan config repos other titleScore identity artist := by
    funext mbid
    unfold mbidPlan
    rw [hmbid, hafter, hsearch]
  unfold chainPlan identityMappingRule
  rw [hrule, hafter, hplan, hname]

theorem exclusionsFor_loadExclusions {songs : List BroadcastTrackIdentity}
    {files : List LibraryFile} (hsongs : (songs.map BroadcastTrackIdentity.id).Nodup)
    (hidentity : identity ∈ songs) :
    exclusionsFor (loadExclusions songs files) identity =
      if identity.rejectedFileIds = [] then NO_EXCLUSIONS else rejectionsOf files identity := by
  have hfind : songs.find? (fun song => song.id = identity.id) = some identity :=
    Table.UniqueBy.find? hsongs hidentity
  have hrejections : rejectionsOf (getByIds files (songs.flatMap (·.rejectedFileIds))) identity =
      rejectionsOf files identity := by
    unfold rejectionsOf
    congr 1
    refine List.filterMap_congr fun fileId hfile => ?_
    have hmem : fileId ∈ songs.flatMap (·.rejectedFileIds) :=
      List.mem_flatMap.mpr ⟨identity, hidentity, hfile⟩
    have hget : getById (getByIds files (songs.flatMap (·.rejectedFileIds))) fileId =
        getById files fileId := by
      unfold getById getByIds
      rw [List.find?_filter]
      congr 1
      funext file
      by_cases hid : file.id = fileId <;> simp [hid, hmem]
    rw [hget]
  unfold exclusionsFor loadExclusions
  rw [get?_foldl_rejections _ _ _ hsongs, hfind]
  dsimp only
  split
  · simp
  · rw [hrejections]
    rfl

/-- The rejections a run loads for one of its songs are those the song has alone. -/
theorem exclusionsFor_alone {songs : List BroadcastTrackIdentity} {files : List LibraryFile}
    (hsongs : (songs.map BroadcastTrackIdentity.id).Nodup) (hidentity : identity ∈ songs) :
    exclusionsFor (loadExclusions songs files) identity =
      exclusionsFor (loadExclusions [identity] files) identity := by
  rw [exclusionsFor_loadExclusions hsongs hidentity,
    exclusionsFor_loadExclusions (by simp) List.mem_cons_self]

theorem find?_songsArtists {db : Database} {songs : List BroadcastTrackIdentity}
    (hidentity : identity ∈ songs) :
    (songsArtists db songs).find? (fun artist => artist.id = identity.broadcastArtistId) =
      db.getArtist identity.broadcastArtistId := by
  unfold songsArtists getArtistsByIds getArtist
  rw [List.find?_filter]
  congr 1
  funext artist
  by_cases hid : artist.id = identity.broadcastArtistId
  · simp [hid, List.mem_map_of_mem hidentity]
  · simp [hid]

/-- What a song gets from strategies of its own that have read nothing. -/
def aloneResult (config : EngineConfig) (db : Database) (identity : BroadcastTrackIdentity) :
    Except SongError IdentityMatchResult :=
  (songResult (songsEngines config db [identity]) (songsArtists db [identity]) identity
    (.start config)).1

theorem nodup_songsArtists {db : Database} {songs : List BroadcastTrackIdentity}
    (hartists : Table.UniqueBy BroadcastArtist.id db.artists) :
    ((songsArtists db songs).map BroadcastArtist.id).Nodup :=
  hartists.sublist (List.filter_sublist.map _)

theorem settledSong_alone {db : Database} {songs : List BroadcastTrackIdentity}
    (halike : AnswersAlike config) (hartists : Table.UniqueBy BroadcastArtist.id db.artists)
    (hsongs : (songs.map BroadcastTrackIdentity.id).Nodup) (hidentity : identity ∈ songs) :
    settledSong (songsEngines config db songs) (songsArtists db songs) identity =
      aloneResult config db identity := by
  have hchain (titleScore : Option TitleScore) (artist : BroadcastArtist) :=
    @chainPlan_exclusions config db.identityMatchingRepos titleScore identity artist _ _
      (@exclusionsFor_alone identity songs db.files hsongs hidentity)
  have hengines (artist : BroadcastArtist) :
      (songsEngines config db songs).settled identity artist =
        (songsEngines config db [identity]).settled identity artist := by
    simp only [SongEngines.settled, songsEngines, buildSongEngines,
      identityMatchingRepos] at hchain ⊢
    simp only [hchain]
  have halone := @songResult_settles (songsEngines config db [identity]) identity
    (songsArtists db [identity])
    (.start config) halike (nodup_songsArtists hartists) readsOk_start rfl
  rw [aloneResult, halone.1]
  unfold settledSong
  rw [find?_songsArtists hidentity, find?_songsArtists List.mem_cons_self]
  simp only [hengines]

end

/-! ## What a run writes for each song -/

/-- The database shows the song with the result: its decision, and the one match row of it. -/
structure ShowsResult (db : Database) (identity : BroadcastTrackIdentity)
    (result : IdentityMatchResult) :
    Prop where
  song : ∃ song, db.getIdentity identity.id = some song ∧ song.matchStatus = result.status ∧
    song.matchTier = some result.tier ∧ song.reasonCode = result.reasonCode ∧
    song.reasonDetail = result.reasonDetail
  rows : db.rowsOf identity.id = shownRows identity result

/-- The song is still to be decided. -/
def Waits (db : Database) (identity : BroadcastTrackIdentity) : Prop :=
  ∃ song, db.getIdentity identity.id = some song ∧ song.matchStatus = .pending

section

variable {db : Database} {identity other : BroadcastTrackIdentity}
  {result otherResult : IdentityMatchResult}

theorem shows_persist (hwaits : Waits db identity) :
    ShowsResult (persist db identity result).2 identity result := by
  obtain ⟨song, hsong, hpending⟩ := hwaits
  obtain ⟨hmem, hid⟩ := getIdentity_eq_some hsong
  have hstill : stillPending identity.id song = true := by simp [stillPending, hid, hpending]
  refine ⟨⟨result.decision.write song, ?_, rfl, rfl, rfl, rfl⟩, ?_⟩
  · rw [getIdentity_persist, hsong, Option.map_some, if_pos hstill]
  · rw [(persist_writes db identity result).2.2.2, if_pos ⟨rfl, List.any_eq_true.mpr ⟨song, hmem,
      hstill⟩⟩]

/-- Writing one song's result leaves the others as they are. -/
theorem getIdentity_persist_other (hother : other.id ≠ identity.id) :
    (persist db identity result).2.getIdentity other.id = db.getIdentity other.id := by
  rw [getIdentity_persist]
  cases hsong : db.getIdentity other.id with
  | none => rfl
  | some song =>
      have hid := (getIdentity_eq_some hsong).2
      simp [stillPending, hid, hother]

theorem ShowsResult.persist_other (hother : other.id ≠ identity.id)
    (hshows : ShowsResult db other otherResult) :
    ShowsResult (persist db identity result).2 other otherResult := by
  refine ⟨?_, ?_⟩
  · rw [getIdentity_persist_other hother]
    exact hshows.song
  · rw [(persist_writes db identity result).2.2.2, if_neg fun hboth => hother hboth.1]
    exact hshows.rows

theorem Waits.persist_other (hother : other.id ≠ identity.id) (hwaits : Waits db other) :
    Waits (persist db identity result).2 other := by
  rw [Waits, getIdentity_persist_other hother]
  exact hwaits

end

section

variable {config : EngineConfig} {db : Database} {songs : List BroadcastTrackIdentity}

theorem perm_groupedByArtist : (groupedByArtist songs).Perm songs :=
  List.perm_insertionSort _ songs

/-- The song shows what it gets alone. -/
def ShowsAlone (config : EngineConfig) (start db : Database) (identity : BroadcastTrackIdentity) :
    Prop :=
  ∃ result, aloneResult config start identity = .ok result ∧ ShowsResult db identity result

/-- MusicBrainz is not cut off at any point of the run over the songs. -/
def NotCutOff (config : EngineConfig) (db : Database)
    (songs : List BroadcastTrackIdentity) : Prop :=
  ∀ trace state, (livePlaylistMachine (songsEngines config db songs) (songsArtists db songs)).Run
    ⟨db, .start config⟩ trace state → trace.map Prod.fst <+: groupedByArtist songs →
    state.engines.recordingSearch.cutOff = false

/-- From any point of the run on: the songs done show what they get alone, and so will the
others, unless one of them raises. -/
theorem exec_alone (hartists : Table.UniqueBy BroadcastArtist.id db.artists)
    (hsongs : (songs.map BroadcastTrackIdentity.id).Nodup) (halike : AnswersAlike config)
    (hcutOff : NotCutOff config db songs) {before rest : List BroadcastTrackIdentity}
    {trace : List (BroadcastTrackIdentity × SongOutcome)} {state : PlaylistState}
    (hsplit : groupedByArtist songs = before ++ rest)
    (hrun : (livePlaylistMachine (songsEngines config db songs) (songsArtists db songs)).Run
      ⟨db, .start config⟩ trace state) (htrace : trace.map Prod.fst = before)
    (hreads : ReadsAs db state.db)
    (hstate : ReadsOk (songsEngines config db songs) (songsArtists db songs) state.engines)
    (hdone : ∀ identity ∈ before, ShowsAlone config db state.db identity)
    (hwaits : ∀ identity ∈ rest, Waits state.db identity) :
    (∃ more last, (livePlaylistMachine (songsEngines config db songs) (songsArtists db songs)).exec
        state rest = some (more, last) ∧
      ∀ identity ∈ before ++ rest, ShowsAlone config db last.db identity) ∨
    ((livePlaylistMachine (songsEngines config db songs) (songsArtists db songs)).exec
        state rest = none ∧
      ∃ identity ∈ rest, ∃ error, aloneResult config db identity = .error error) := by
  -- On the songs left; those done keep what they show, since each writes only its own row.
  induction rest generalizing before trace state with
  | nil => exact .inl ⟨[], state, rfl, by simpa using hdone⟩
  | cons identity rest ih =>
      have hperm := @perm_groupedByArtist songs
      have hidentity : identity ∈ songs := hperm.mem_iff.mp (by rw [hsplit]; simp)
      have hids : ((before ++ identity :: rest).map BroadcastTrackIdentity.id).Nodup := by
        rw [← hsplit]
        exact (hperm.map _).nodup_iff.mpr hsongs
      have hothers : ∀ other ∈ before ++ rest, other.id ≠ identity.id := by
        intro other hother hsame
        rw [List.map_append, List.map_cons, List.nodup_middle, ← List.map_append] at hids
        exact (List.nodup_cons.mp hids).1 (hsame ▸ List.mem_map_of_mem hother)
      have hgoing := hcutOff trace state hrun
        (htrace ▸ hsplit ▸ List.prefix_append before (identity :: rest))
      obtain ⟨hresult, hlater⟩ := @songResult_settles (songsEngines config db songs) identity
        (songsArtists db songs) state.engines halike (nodup_songsArtists hartists) hstate hgoing
      rw [settledSong_alone halike hartists hsongs hidentity] at hresult
      have hstep := @livePlaylistMachine_step config db songs (songsArtists db songs) state identity
        hreads
      simp only [playlistMachine] at hstep
      generalize songResult (songsEngines config db songs) (songsArtists db songs) identity
        state.engines = decided at hresult hlater hstep
      obtain ⟨answer, later⟩ := decided
      obtain rfl : answer = aloneResult config db identity := hresult
      cases halone : aloneResult config db identity with
      -- A song that raises ends the whole run.
      | error error =>
          rw [halone] at hstep
          refine .inr ⟨?_, identity, List.mem_cons_self, error, halone⟩
          unfold Transition.Machine.exec
          rw [hstep]
      | ok result =>
          rw [halone] at hstep
          dsimp only at hstep hlater
          have hshown : ∀ other ∈ before ++ [identity],
              ShowsAlone config db (persist state.db identity result).2 other := by
            intro other hother
            rcases List.mem_append.mp hother with hother | hother
            · obtain ⟨otherResult, hgets, hshows⟩ := hdone other hother
              exact ⟨otherResult, hgets,
                hshows.persist_other (hothers other (List.mem_append_left _ hother))⟩
            · obtain rfl := List.mem_singleton.mp hother
              exact ⟨result, halone, shows_persist (hwaits other List.mem_cons_self)⟩
          have hleft : ∀ other ∈ rest, Waits (persist state.db identity result).2 other :=
            fun other hother => (hwaits other (List.mem_cons_of_mem _ hother)).persist_other
              (hothers other (List.mem_append_right _ hother))
          have hrest := ih (hsplit.trans (List.append_cons before identity rest)) (hrun.snoc hstep)
            (by rw [List.map_append, htrace]; rfl) hreads.persist hlater hshown hleft
          unfold Transition.Machine.exec
          rw [hstep]
          dsimp only
          rcases hrest with ⟨more, last, hexec, hall⟩ | ⟨hnone, other, hother, error, herror⟩
          · rw [hexec]
            exact .inl ⟨_, last, rfl, by rwa [List.append_cons]⟩
          · rw [hnone]
            exact .inr ⟨rfl, other, List.mem_cons_of_mem _ hother, error, herror⟩

/-- With the songs in any order, the reads shared and the match rows written between them,
every song shows what it gets alone from strategies that have read nothing; the run raises
only if some song does so alone. -/
theorem matchSongs_alone (hartists : Table.UniqueBy BroadcastArtist.id db.artists)
    (hidentities : Table.UniqueBy BroadcastTrackIdentity.id db.identities)
    (hsongs : (songs.map BroadcastTrackIdentity.id).Nodup)
    (hpending : ∀ identity ∈ songs, identity ∈ db.identities ∧ identity.matchStatus = .pending)
    (halike : AnswersAlike config) (hcutOff : NotCutOff config db songs) :
    (∃ trace last, matchSongs config db songs = some (trace, last) ∧
        ∀ identity ∈ songs, ∃ result, aloneResult config db identity = .ok result ∧
          ShowsResult last.db identity result) ∨
      (matchSongs config db songs = none ∧
        ∃ identity ∈ songs, ∃ error, aloneResult config db identity = .error error) := by
  have hmem {identity : BroadcastTrackIdentity} :
      identity ∈ groupedByArtist songs ↔ identity ∈ songs := perm_groupedByArtist.mem_iff
  have hwaits : ∀ identity ∈ groupedByArtist songs, Waits db identity := by
    intro identity hidentity
    obtain ⟨hrow, hstatus⟩ := hpending identity (hmem.mp hidentity)
    exact ⟨identity, hidentities.find? hrow, hstatus⟩
  have hrun := @exec_alone config db songs hartists hsongs halike hcutOff [] (groupedByArtist songs)
    [] ⟨db, .start config⟩ rfl .nil rfl (.refl db) readsOk_start (by simp) hwaits
  rcases hrun with ⟨trace, last, hexec, hall⟩ | ⟨hnone, identity, hidentity, hraises⟩
  · exact .inl ⟨trace, last, hexec, fun identity hidentity =>
      hall identity (hmem.mpr hidentity)⟩
  · exact .inr ⟨hnone, identity, hmem.mp hidentity, hraises⟩

end

/-- A run over the songs is cut off nowhere if it is not after any number of them. -/
theorem notCutOff_of_takes {config : EngineConfig} {db : Database}
    {songs : List BroadcastTrackIdentity}
    (htakes : ∀ count trace state, count ≤ (groupedByArtist songs).length →
      (livePlaylistMachine (songsEngines config db songs) (songsArtists db songs)).exec
        ⟨db, .start config⟩ ((groupedByArtist songs).take count) = some (trace, state) →
      state.engines.recordingSearch.cutOff = false) : NotCutOff config db songs := by
  intro trace state hrun hprefix
  have htake := List.prefix_iff_eq_take.mp hprefix
  exact htakes _ trace state hprefix.length_le (htake ▸ hrun.exec_eq)

def dancingQueen : BroadcastTrackIdentity where
  id := 1
  broadcastArtistId := 1
  originalTitle := "Dancing Queen"
  normalizedSignature := "abba|dancing queen"

def heartOfGlass : BroadcastTrackIdentity where
  id := 2
  broadcastArtistId := 2
  originalTitle := "Heart of Glass"
  normalizedSignature := "blondie|heart of glass"

/-- A resolved artist with an untagged file, and one that is not resolved. -/
def twoActs : Database where
  artists := [{ abba with matchStatus := .autoMatched },
    { id := 2, originalName := "Blondie", normalizedName := "blondie" }]
  identities := [dancingQueen, heartOfGlass]
  matchRows := [{
    subject := .artist 1
    confidenceScore := 100
    matchTier := .musicbrainzIdExact
    targetId := some "M" }]
  files := [
    { id := 1
      filePath := "/a.flac"
      audio := { normalizedArtistName := some "abba", recordingMbid := some "R" } },
    { id := 2
      filePath := "/b.flac"
      audio := { normalizedArtistName := some "blondie" } }]

/-- Every title scores 70; MusicBrainz says the same to every question. -/
def sayingConfig (answer : Except MbFailure (List MbRecording)) : EngineConfig :=
  { literalConfig with
    candidateScores := fun _ _ _ => (70, 70)
    mbClient := fun _ _ _ => answer }

theorem matchSongs_alone_twoActs :
    (∃ trace last, matchSongs (sayingConfig (.ok [])) twoActs [heartOfGlass, dancingQueen] =
        some (trace, last) ∧
      ∀ identity ∈ [heartOfGlass, dancingQueen], ∃ result,
        aloneResult (sayingConfig (.ok [])) twoActs identity = .ok result ∧
          ShowsResult last.db identity result) ∨
      (matchSongs (sayingConfig (.ok [])) twoActs [heartOfGlass, dancingQueen] = none ∧
        ∃ identity ∈ [heartOfGlass, dancingQueen], ∃ error,
          aloneResult (sayingConfig (.ok [])) twoActs identity = .error error) := by
  refine matchSongs_alone (by decide) (by decide) (by decide) (by decide) (fun _ _ _ => rfl)
    (notCutOff_of_takes fun count trace state hcount hexec => ?_)
  match count, (hcount : count ≤ 2) with
  | 0, _ | 1, _ | 2, _ =>
      obtain ⟨-, rfl⟩ := Prod.mk.inj (Option.some.inj hexec)
      rfl

/-- A question MusicBrainz fails for good ends the run: the other song, which alone is
decided, stays as it was. -/
theorem permanentFailure_ends :
    AnswersAlike (sayingConfig (.error .permanent)) ∧
      NotCutOff (sayingConfig (.error .permanent)) twoActs [dancingQueen, heartOfGlass] ∧
      matchSongs (sayingConfig (.error .permanent)) twoActs [dancingQueen, heartOfGlass] = none ∧
      ∃ result, aloneResult (sayingConfig (.error .permanent)) twoActs heartOfGlass =
        .ok result := by
  refine ⟨fun _ _ _ => rfl, notCutOff_of_takes fun count trace state hcount hexec => ?_,
    rfl, _, rfl⟩
  match count, (hcount : count ≤ 2) with
  | 0, _ =>
      obtain ⟨-, rfl⟩ := Prod.mk.inj (Option.some.inj hexec)
      rfl
  | 1, _ | 2, _ => cases hexec

end RetroStation.Matching
