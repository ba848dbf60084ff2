import RetroStation.Matching.DecisionMoves
import RetroStation.Matching.ShownFiles

/-! # A run reads what it writes

The strategies read the database song by song, while the run writes a row and a
decision for each. What they read of an artist is none of what the run writes: a run
over the live database decides as one over the database it started from.
-/

namespace RetroStation.Matching

open Library Effect Database

/-! ## The run over the live database -/

/-- The engines of a run, reading the database as it is now. The rules and the rejections
were read once, when the engines were built. -/
def SongEngines.reading (engines : SongEngines) (db : Database) : SongEngines :=
  { engines with repos := { db.identityMatchingRepos with rules := engines.repos.rules } }

/-- The songs of a run, one by one, each decided from the database the songs before it left. -/
def livePlaylistMachine (engines : SongEngines) (artistsById : List BroadcastArtist) :
    Transition.Machine PlaylistState BroadcastTrackIdentity SongOutcome where
  step state identity :=
    (playlistMachine (engines.reading state.db) artistsById).step state identity

/-- The engines of a run over the songs. -/
def songsEngines (config : EngineConfig) (db : Database) (songs : List BroadcastTrackIdentity) :
    SongEngines :=
  buildSongEngines config songs db.identityMatchingRepos

/-- The artists of the songs. -/
def songsArtists (db : Database) (songs : List BroadcastTrackIdentity) : List BroadcastArtist :=
  db.getArtistsByIds (songs.map BroadcastTrackIdentity.broadcastArtistId)

/-- Match the songs, in whatever order they came; `none` is a run that raised. -/
def matchSongs (config : EngineConfig) (db : Database) (songs : List BroadcastTrackIdentity) :
    Option (List (BroadcastTrackIdentity × SongOutcome) × PlaylistState) :=
  (livePlaylistMachine (songsEngines config db songs) (songsArtists db songs)).exec
    ⟨db, .start config⟩ (groupedByArtist songs)

/-! ## Reads that agree -/

/-- The strategies read the same of both. -/
structure SameReads (repos other : IdentityMatchingRepos) : Prop where
  rules : repos.rules = other.rules
  files : repos.files = other.files
  catalog : repos.catalog = other.catalog
  artistMatch : repos.getByArtist = other.getByArtist

theorem resolve_sameReads {engines : SongEngines} {other : IdentityMatchingRepos}
    {identity : BroadcastTrackIdentity} {artist : BroadcastArtist}
    (hsame : SameReads engines.repos other) :
    ({ engines with repos := other } : SongEngines).resolve identity artist =
      engines.resolve identity artist := by
  obtain ⟨config, ⟨rules, files, matchRows, catalog⟩, exclusions⟩ := engines
  obtain ⟨otherRules, otherFiles, otherRows, otherCatalog⟩ := other
  obtain ⟨hrules, hfiles, hcatalog, hartist⟩ := hsame
  simp only at hrules hfiles hcatalog
  subst hrules hfiles hcatalog
  have hresolved (titleScore : Option TitleScore) :
      resolvedArtistMbid config ⟨rules, files, otherRows, catalog⟩ exclusions titleScore identity
          artist =
        resolvedArtistMbid config ⟨rules, files, matchRows, catalog⟩ exclusions titleScore identity
          artist := by
    unfold resolvedArtistMbid
    rw [← hartist]
    rfl
  have hchain (titleScore : Option TitleScore) :
      resolveChain config ⟨rules, files, otherRows, catalog⟩ exclusions titleScore identity artist =
        resolveChain config ⟨rules, files, matchRows, catalog⟩ exclusions titleScore identity
          artist := by
    unfold resolveChain
    rw [hresolved]
    rfl
  unfold SongEngines.resolve
  simp only [hchain]

theorem songResult_sameReads {engines : SongEngines} {other : IdentityMatchingRepos}
    {artists : List BroadcastArtist} {identity : BroadcastTrackIdentity} {state : EngineState}
    (hsame : SameReads engines.repos other) :
    songResult { engines with repos := other } artists identity state =
      songResult engines artists identity state := by
  unfold songResult
  simp only [resolve_sameReads hsame]

/-! ## What a run leaves as it was -/

/-- The database reads as it did at the start of the run. -/
def ReadsAs (start db : Database) : Prop :=
  SameReads start.identityMatchingRepos { db.identityMatchingRepos with
    rules := start.identityMatchingRepos.rules }

theorem getByArtist_createMatch {db : Database} {row : Match} {identityId : Uuid}
    (hsubject : row.subject = .identity identityId) :
    (db.createMatch row).identityMatchingRepos.getByArtist =
      db.identityMatchingRepos.getByArtist := by
  funext artistId
  simp [IdentityMatchingRepos.getByArtist, createMatch, identityMatchingRepos, hsubject]

theorem getByArtist_deleteForIdentity {db : Database} {identityId : Uuid} :
    (db.deleteForIdentity identityId).identityMatchingRepos.getByArtist =
      db.identityMatchingRepos.getByArtist := by
  funext artistId
  simp only [IdentityMatchingRepos.getByArtist, deleteForIdentity, identityMatchingRepos,
    Table.delete, List.find?_filter]
  congr 1
  funext row
  cases hsubject : row.subject with
  | artist id => simp
  | identity id => simp

/-- A song's result is written where no strategy reads. -/
theorem persist_reads (db : Database) (identity : BroadcastTrackIdentity)
    (result : IdentityMatchResult) :
    let next := (persist db identity result).2
    next.files = db.files ∧ next.catalog = db.catalog ∧
      next.identityMatchingRepos.getByArtist = db.identityMatchingRepos.getByArtist := by
  refine ⟨(persist_writes db identity result).2.2.1, ?_⟩
  have hwrite : db.updateMatchStatusIfPending identity.id result.decision =
      (db.identities.any (stillPending identity.id),
        db.updateSongs (stillPending identity.id) result.decision) := rfl
  have hdeleted := @getByArtist_deleteForIdentity
    (db.updateSongs (stillPending identity.id) result.decision) identity.id
  unfold persist
  rw [hwrite]
  cases db.identities.any (stillPending identity.id) with
  | false => exact ⟨rfl, rfl⟩
  | true =>
      cases hsuggested : suggestion identity result with
      | none => exact ⟨rfl, hdeleted⟩
      | some row =>
          obtain ⟨fileId, -, -, rfl⟩ := suggestion_eq_some_iff.mp hsuggested
          exact ⟨rfl, (getByArtist_createMatch rfl).trans hdeleted⟩

namespace ReadsAs

variable {start db : Database}

theorem refl (db : Database) : ReadsAs db db := ⟨rfl, rfl, rfl, rfl⟩

theorem persist {identity : BroadcastTrackIdentity} {result : IdentityMatchResult}
    (hreads : ReadsAs start db) : ReadsAs start (persist db identity result).2 := by
  obtain ⟨hfiles, hcatalog, hartist⟩ := persist_reads db identity result
  exact ⟨rfl, hreads.files.trans hfiles.symm, hreads.catalog.trans hcatalog.symm,
    hreads.artistMatch.trans hartist.symm⟩

end ReadsAs

section

variable {config : EngineConfig} {start : Database} {songs : List BroadcastTrackIdentity}
  {artists : List BroadcastArtist} {state next : PlaylistState}
  {identity : BroadcastTrackIdentity} {done : SongOutcome}

/-- While the reads agree, a turn over the live database is one over the first. -/
theorem livePlaylistMachine_step (hreads : ReadsAs start state.db) :
    (livePlaylistMachine (songsEngines config start songs) artists).step state identity =
      (playlistMachine (songsEngines config start songs) artists).step state identity := by
  have hresult : songResult ((songsEngines config start songs).reading state.db) artists identity
      state.engines = songResult (songsEngines config start songs) artists identity state.engines :=
    songResult_sameReads hreads
  simp only [livePlaylistMachine, playlistMachine, hresult]

theorem readsAs_step (hreads : ReadsAs start state.db)
    (hstep : (playlistMachine (songsEngines config start songs) artists).step state identity =
      some (next, done)) : ReadsAs start next.db := by
  simp only [playlistMachine] at hstep
  split at hstep
  · obtain ⟨rfl, -⟩ := Prod.mk.inj (Option.some.inj hstep)
    exact hreads.persist
  · cases hstep

theorem exec_live (actions : List BroadcastTrackIdentity) (hreads : ReadsAs start state.db) :
    (livePlaylistMachine (songsEngines config start songs) artists).exec state actions =
      (playlistMachine (songsEngines config start songs) artists).exec state actions := by
  induction actions generalizing state with
  | nil => rfl
  | cons action rest ih =>
      unfold Transition.Machine.exec
      rw [livePlaylistMachine_step hreads]
      cases hstep : (playlistMachine (songsEngines config start songs) artists).step state
          action with
      | none => rfl
      | some result =>
          obtain ⟨next, done⟩ := result
          dsimp only
          rw [ih (readsAs_step hreads hstep)]

/-- A playlist's run is the same over the live database as over a copy of it. -/
theorem matchIdentitiesForPlaylist_eq (config : EngineConfig) (db : Database) (playlistId : Uuid) :
    matchIdentitiesForPlaylist config db playlistId =
      (matchSongs config db (db.getPendingForPlaylist playlistId)).map fun (trace, state) =>
        (trace.filterMap fun entry => entry.2.workId, state.db) := by
  unfold matchSongs
  rw [exec_live _ (ReadsAs.refl db)]
  rfl

end

end RetroStation.Matching
