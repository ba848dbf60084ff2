import RetroStation.Matching.SongMoves

/-! # Decisions move songs

Each action of a run, a re-check or a user but three moves the songs. Ingesting and
scanning add to what they are read with, and the rejection of an artist keeps rows.
-/

namespace RetroStation

open Library Matching

namespace Database

variable {db : Database} {artistId : Uuid}

theorem updateArtists_artistIds {which : BroadcastArtist → Bool}
    {change : BroadcastArtist → BroadcastArtist} (hid : ∀ artist, (change artist).id = artist.id) :
    (db.updateArtists which change).artists.map BroadcastArtist.id =
      db.artists.map BroadcastArtist.id := Table.map_update_key hid

theorem upsertArtistRow_others {targetId : String} :
    (db.upsertArtistRow artistId targetId).artists = db.artists ∧
      (db.upsertArtistRow artistId targetId).identities = db.identities ∧
      (db.upsertArtistRow artistId targetId).files = db.files := by
  unfold upsertArtistRow
  split <;> exact ⟨rfl, rfl, rfl⟩

theorem songIds_updateSongs {which p : BroadcastTrackIdentity → Bool} {decision : SongDecision}
    (hkeep : ∀ song, p (decision.write song) = p song) :
    (db.updateSongs which decision).songIds p = db.songIds p := by
  unfold songIds updateSongs
  rw [Table.filter_update fun song _ => hkeep song]
  exact Table.map_update_key fun _ => rfl

end Database

namespace Matching

open Database

namespace SongsMove

variable {db middle next : Database}

theorem songsUnique (hmoves : SongsMove db next)
    (hsongs : Table.UniqueBy BroadcastTrackIdentity.id db.identities) :
    Table.UniqueBy BroadcastTrackIdentity.id next.identities := by
  rwa [Table.UniqueBy, hmoves.ids]

theorem updateArtists {which : BroadcastArtist → Bool} {change : BroadcastArtist → BroadcastArtist}
    (hid : ∀ artist, (change artist).id = artist.id) :
    SongsMove db (db.updateArtists which change) :=
  .of_same rfl (updateArtists_artistIds hid) rfl fun _ => rfl

/-- Songs that go back to pending keep their rows. -/
theorem rewind {which : BroadcastTrackIdentity → Bool} :
    SongsMove db (db.updateSongs which pendingAgain) :=
  @SongsMove.of_change db _ which pendingAgain.write (fun _ => rfl) rfl rfl rfl
    (fun _ _ _ _ => .rewound rfl rfl) fun _ _ => rfl

/-- Songs that are left undecided or rejected lose their rows with the same statements. -/
theorem clear {which : BroadcastTrackIdentity → Bool}
    {change : BroadcastTrackIdentity → BroadcastTrackIdentity}
    (hsongs : Table.UniqueBy BroadcastTrackIdentity.id db.identities)
    (hid : ∀ song, (change song).id = song.id)
    (hrejected : ∀ song, (change song).rejectedFileIds = song.rejectedFileIds)
    (hstatus : ∀ song, which song = true → (change song).matchStatus = .pending ∨
      (change song).matchStatus = .needsReview ∨ (change song).matchStatus = .autoRejected) :
    SongsMove db ((db.changeSongs which change).deleteForIdentities (db.songIds which)) := by
  refine .of_change hid rfl rfl rfl
    (fun identityId song hsong hwhich => ?_) fun identityId hnone => ?_
  · rw [rowsOf_deleteForIdentities, if_pos ((mem_songIds hsongs).mpr ⟨song, hsong, hwhich⟩)]
    exact .cleared (hstatus song hwhich) (hrejected song)
  · rw [rowsOf_deleteForIdentities, if_neg]
    · rfl
    · rintro hmem
      obtain ⟨song, hsong, hwhich⟩ := (mem_songIds hsongs).mp hmem
      rw [hnone song hsong] at hwhich
      cases hwhich

/-- Pending songs lose their rows. -/
theorem of_kept {which : BroadcastTrackIdentity → Bool}
    (hsongs : Table.UniqueBy BroadcastTrackIdentity.id db.identities)
    (hpending : ∀ song, which song = true → song.matchStatus = .pending) :
    SongsMove db (db.deleteForIdentities (db.songIds which)) := by
  have hclear := clear hsongs (fun _ => rfl) (fun _ => rfl) fun song hsong =>
    .inl (hpending song hsong)
  rwa [show db.changeSongs which (fun song => song) = db by
    simp [changeSongs, Table.update]] at hclear

theorem decidePending {broadcastArtistId : Uuid} {decision : SongDecision}
    (hsongs : Table.UniqueBy BroadcastTrackIdentity.id db.identities)
    (hstatus : decision.status = .needsReview ∨ decision.status = .autoRejected) :
    SongsMove db (db.decidePendingByArtist broadcastArtistId decision) :=
  clear hsongs (fun _ => rfl) (fun _ => rfl) fun _ _ => .inr hstatus

end SongsMove

variable {db next : Database}

/-! ## Runs over songs -/

/-- The rows of a song that a run decides. -/
def shownRows (identity : BroadcastTrackIdentity) (result : IdentityMatchResult) : List Match :=
  ((suggestion identity result).map fun row => { row with workId := truthy row.workId }).toList

theorem mem_shownRows {identity : BroadcastTrackIdentity} {result : IdentityMatchResult}
    {row : Match} (hrow : row ∈ shownRows identity result) :
    row.subject = .identity identity.id ∧ row.libraryFileId = result.libraryFileId ∧
      row.libraryFileId.isSome ∧ result.status ≠ .autoRejected := by
  unfold shownRows suggestion at hrow
  split at hrow
  next fileId hfile =>
    split at hrow
    · cases hrow
    next hstatus =>
      obtain rfl := List.mem_singleton.mp hrow
      exact ⟨rfl, hfile.symm, rfl, hstatus⟩
  · cases hrow

theorem shownRows_ne_nil {identity : BroadcastTrackIdentity} {result : IdentityMatchResult}
    (hfile : result.libraryFileId.isSome) (hstatus : result.status ≠ .autoRejected) :
    shownRows identity result ≠ [] := by
  obtain ⟨fileId, hfile⟩ := Option.isSome_iff_exists.mp hfile
  simp [shownRows, suggestion, hfile, hstatus]

def stillPending (identityId : Uuid) (song : BroadcastTrackIdentity) : Bool :=
  song.id = identityId ∧ song.matchStatus = .pending

/-- Writing a result decides the pending song, whose rows it replaces. -/
theorem persist_writes (db : Database) (identity : BroadcastTrackIdentity)
    (result : IdentityMatchResult) :
    (persist db identity result).2.identities =
        Table.update db.identities (stillPending identity.id) result.decision.write ∧
      (persist db identity result).2.artists = db.artists ∧
      (persist db identity result).2.files = db.files ∧
      ∀ identityId, (persist db identity result).2.rowsOf identityId =
        if identityId = identity.id ∧ db.identities.any (stillPending identity.id) then
          shownRows identity result
        else db.rowsOf identityId := by
  have hwrite : db.updateMatchStatusIfPending identity.id result.decision =
      (db.identities.any (stillPending identity.id),
        db.updateSongs (stillPending identity.id) result.decision) := rfl
  unfold persist
  rw [hwrite]
  cases hany : db.identities.any (stillPending identity.id) with
  | false =>
      exact ⟨rfl, rfl, rfl, fun identityId =>
        (if_neg fun hboth => Bool.false_ne_true (And.right hboth)).symm⟩
  | true =>
      have hdeleted : ∀ identityId,
          ((db.updateSongs (stillPending identity.id) result.decision).deleteForIdentity
            identity.id).rowsOf identityId =
              if identityId = identity.id then [] else db.rowsOf identityId :=
        fun identityId => rowsOf_deleteForIdentity identity.id
      cases hsuggested : suggestion identity result with
      | none =>
          refine ⟨rfl, rfl, rfl, fun identityId => ?_⟩
          simp [shownRows, hsuggested, hdeleted]
      | some row =>
          have hsubject : row.subject = .identity identity.id :=
            (@mem_shownRows identity result { row with workId := truthy row.workId }
              (by simp [shownRows, hsuggested])).1
          refine ⟨rfl, rfl, rfl, fun identityId => ?_⟩
          dsimp only
          rw [rowsOf_createMatch, hdeleted, hsubject, shownRows, hsuggested]
          by_cases hsame : identityId = identity.id
          · simp [hsame, hsubject]
          · simp [hsame, Ne.symm hsame]

theorem getIdentity_persist (identity : BroadcastTrackIdentity) (result : IdentityMatchResult)
    (identityId : Uuid) :
    (persist db identity result).2.getIdentity identityId = (db.getIdentity identityId).map
      fun song => if stillPending identity.id song then result.decision.write song else song := by
  rw [getIdentity, (persist_writes db identity result).1]
  exact getIdentity_updateSongs

theorem persist_moves {identity : BroadcastTrackIdentity} {result : IdentityMatchResult}
    (hsongs : Table.UniqueBy BroadcastTrackIdentity.id db.identities)
    (hdecided : result.status = .autoMatched ∨ result.status = .autoRejected ∨
      result.status = .needsReview)
    (hshows : result.status = .autoMatched → result.libraryFileId.isSome)
    (hallowed : ∀ fileId, result.libraryFileId = some fileId → db.HasFile fileId ∧
      ∀ song, db.getIdentity identity.id = some song → fileId ∉ song.rejectedFileIds) :
    SongsMove db (persist db identity result).2 := by
  obtain ⟨hidentities, hartists, hfiles, hrows⟩ := persist_writes db identity result
  refine @SongsMove.of_change db _ _ result.decision.write (fun _ => rfl) hidentities
    (congrArg _ hartists) hfiles
      (fun identityId song hsong hpending => ?_) fun identityId hnone => ?_
  · obtain ⟨hmem, rfl⟩ := getIdentity_eq_some hsong
    have hany := List.any_eq_true.mpr ⟨song, hmem, hpending⟩
    simp only [stillPending, decide_eq_true_eq] at hpending
    rw [hrows, if_pos ⟨hpending.1, hany⟩]
    refine .decided hpending.2 hdecided rfl ?_ (fun hmatched => ?_) (fun hrejected => ?_)
      fun row hrow => ?_
    · exact Option.length_toList_le
    · refine shownRows_ne_nil (hshows hmatched) ?_
      rw [show result.status = .autoMatched from hmatched]
      decide
    · exact List.eq_nil_iff_forall_not_mem.mpr fun row hrow => (mem_shownRows hrow).2.2.2 hrejected
    · obtain ⟨-, hfile, hsome, -⟩ := mem_shownRows hrow
      obtain ⟨fileId, hrow⟩ := Option.isSome_iff_exists.mp hsome
      obtain ⟨hthere, hrejected⟩ := hallowed fileId (hfile.symm.trans hrow)
      exact ⟨fileId, hrow, hthere, hrejected song (hpending.1 ▸ hsong)⟩
  · rw [hrows, if_neg]
    rintro ⟨rfl, hany⟩
    obtain ⟨song, hsong, hpending⟩ := List.any_eq_true.mp hany
    obtain ⟨hid, -⟩ := of_decide_eq_true hpending
    rw [hnone song (hid ▸ getIdentity_of_mem hsongs hsong)] at hpending
    cases hpending

/-- The songs that a run decides have rejected what they had when it started. -/
theorem matchIdentities_moves {config : EngineConfig} {playlistId : Uuid} {works : List String}
    (hsongs : Table.UniqueBy BroadcastTrackIdentity.id db.identities)
    (hartists : Table.UniqueBy BroadcastArtist.id db.artists)
    (hfiles : Table.UniqueBy LibraryFile.id db.files)
    (hrun : matchIdentitiesForPlaylist config db playlistId = some (works, next)) :
    SongsMove db next := by
  refine (@matchIdentities_invariant config db playlistId (fun current => SongsMove db current ∧
    ∀ identityId song, current.getIdentity identityId = some song →
      ∃ first, db.getIdentity identityId = some first ∧
        song.rejectedFileIds = first.rejectedFileIds) _ _ hartists hrun
    ⟨.refl db, fun _ song hsong => ⟨song, hsong, rfl⟩⟩ ?_).1
  rintro current identity result ⟨hmoves, hkept⟩ hpending hresults
  have hresult := hresults.ok hartists hfiles
  have hsame : current.HasFile = db.HasFile := by
    unfold HasFile
    rw [hmoves.files]
  have hmove := persist_moves (hmoves.songsUnique hsongs) hresult.decided hresult.shows
    fun fileId hshown => by
      obtain ⟨file, hfile, rfl, hallows⟩ := hresult.allowed fileId hshown
      refine ⟨hsame ▸ ⟨file, hfile, rfl⟩, fun song hsong => ?_⟩
      obtain ⟨first, hfirst, hrejected⟩ := hkept identity.id song hsong
      have hmem : identity ∈ db.identities := (List.mem_filter.mp hpending).1
      obtain rfl := Option.some.inj ((getIdentity_of_mem hsongs hmem).symm.trans hfirst)
      rw [hrejected]
      exact (allows_loadExclusions (hsongs.sublist (List.filter_sublist.map _)) hfiles hpending
        hallows).1
  refine ⟨hmoves.trans hmove, fun identityId song hsong => ?_⟩
  rw [getIdentity, (persist_writes current identity result).1] at hsong
  obtain ⟨old, hold, rfl⟩ := Option.map_eq_some_iff.mp
    ((@getIdentity_updateSongs current identityId _ _).symm.trans hsong)
  obtain ⟨first, hfirst, hrejected⟩ := hkept identityId old hold
  refine ⟨first, hfirst, ?_⟩
  split
  · exact hrejected
  · exact hrejected

/-! ## Runs over artists -/

theorem persistArtistResult_moves {artistId : Uuid} {result : ArtistMatchResult} {written : Bool}
    (hpersist : persistArtistResult db artistId result = some (written, next)) :
    SongsMove db next := by
  have hwritten := @SongsMove.updateArtists db (fun artist => artist.id = artistId ∧
    artist.matchStatus = .pending) result.decision.write fun _ => rfl
  unfold persistArtistResult at hpersist
  split at hpersist
  next unchanged hupdate =>
    obtain ⟨-, rfl⟩ := Prod.mk.inj hupdate
    exact (Prod.mk.inj (Option.some.inj hpersist)).2 ▸ hwritten
  next unchanged hupdate =>
    obtain ⟨-, rfl⟩ := Prod.mk.inj hupdate
    split at hpersist
    · exact (Prod.mk.inj (Option.some.inj hpersist)).2 ▸ hwritten
    · obtain ⟨created, hcreated, heq⟩ := Option.map_eq_some_iff.mp hpersist
      obtain ⟨-, rfl⟩ := Prod.mk.inj heq
      refine hwritten.trans ?_
      unfold createArtistRow at hcreated
      split at hcreated
      · cases hcreated
      · obtain rfl := Option.some.inj hcreated
        exact .of_same rfl rfl rfl fun identityId => by simp [rowsOf_createMatch]

theorem persistArtistResults_moves {results : BroadcastArtist → ArtistMatchResult}
    {artists written : List BroadcastArtist}
    (hpersist : persistArtistResults results db artists = some (written, next)) :
    SongsMove db next := by
  induction artists generalizing db written with
  | nil =>
      obtain ⟨-, rfl⟩ := Prod.mk.inj (Option.some.inj hpersist)
      exact .refl db
  | cons artist rest ih =>
      obtain ⟨⟨first, middle⟩, hfirst, hpersist⟩ := Option.bind_eq_some_iff.mp hpersist
      obtain ⟨⟨others, last⟩, hrest, heq⟩ := Option.map_eq_some_iff.mp hpersist
      obtain ⟨-, rfl⟩ := Prod.mk.inj heq
      exact (persistArtistResult_moves hfirst).trans (ih hrest)

theorem resetDeferred_moves (artistIds : List Uuid) :
    SongsMove db ((db.resetDeferredByIds artistIds).resetDeferredByArtistIds artistIds) :=
  have hartists : SongsMove db (db.resetDeferredByIds artistIds) := .updateArtists fun _ => rfl
  hartists.trans .rewind

theorem artistMatchingTask_moves {results : BroadcastArtist → ArtistMatchResult}
    {playlistId : Uuid} {written : List BroadcastArtist}
    (hsongs : Table.UniqueBy BroadcastTrackIdentity.id db.identities)
    (htask : artistMatchingTask results db playlistId = some (written, next)) :
    SongsMove db next := by
  unfold artistMatchingTask matchArtistsForPlaylist at htask
  obtain ⟨⟨written, persisted⟩, hpersist, heq⟩ := Option.map_eq_some_iff.mp htask
  obtain ⟨-, rfl⟩ := Prod.mk.inj heq
  have hreset : SongsMove db persisted :=
    (resetDeferred_moves _).trans (persistArtistResults_moves hpersist)
  have hcascaded : SongsMove db (cascadeAutoRejected persisted playlistId) :=
    hreset.trans (.foldl (fun _ _ hmoves => .decidePending
      (hmoves.songsUnique (hreset.songsUnique hsongs)) (.inr rfl)) _ (.refl _))
  exact hcascaded.trans (.foldl (fun _ _ hmoves => .decidePending
    (hmoves.songsUnique (hcascaded.songsUnique hsongs)) (.inl rfl)) _ (.refl _))

/-! ## Users and re-checks -/

theorem rewindWave_moves {names : Option (List String)} : SongsMove db (rewindWave db names) :=
  have hartists : SongsMove db (db.rewindUndecidedArtists names) := .updateArtists fun _ => rfl
  have hsongs : SongsMove db ((db.rewindUndecidedArtists names).rewindUndecidedSongs
      (names.map db.idsByNormalizedNames)) := hartists.trans .rewind
  hsongs.trans .rewind

theorem resolveArtistMatched_moves {artistId : Uuid} {targetArtistId : String}
    (hsongs : Table.UniqueBy BroadcastTrackIdentity.id db.identities)
    (hresolve : resolveArtistMatched db artistId targetArtistId = some next) :
    SongsMove db next := by
  unfold resolveArtistMatched at hresolve
  split at hresolve
  · cases hresolve
  · obtain ⟨artist, -, rfl⟩ := Option.map_eq_some_iff.mp hresolve
    dsimp only
    generalize hdecided : (db.updateArtists (fun artist => artist.id = artistId) fun artist =>
      { artist with matchStatus := .manualMatched }) = decided
    have hartists : SongsMove db decided := hdecided ▸ .updateArtists fun _ => rfl
    obtain ⟨hsame, hidentities, hfiles⟩ := @upsertArtistRow_others decided artistId targetArtistId
    have hlinked : SongsMove db (decided.upsertArtistRow artistId targetArtistId) :=
      hartists.trans (.of_same hidentities (congrArg _ hsame) hfiles fun _ =>
        rowsOf_upsertArtistRow artistId targetArtistId)
    have hrewound := hlinked.trans (@SongsMove.rewind _ fun song =>
      song.broadcastArtistId = artistId ∧ song.matchStatus ∈ ARTIST_LINK_REWIND_STATUSES)
    refine hrewound.trans (.of_kept (hrewound.songsUnique hsongs) fun song hpending => ?_)
    exact (of_decide_eq_true hpending).2

theorem unmatchArtist_moves {artistId : Uuid}
    (hsongs : Table.UniqueBy BroadcastTrackIdentity.id db.identities)
    (hunmatch : unmatchArtist db artistId = some next) : SongsMove db next := by
  unfold unmatchArtist at hunmatch
  dsimp only at hunmatch
  split at hunmatch
  · obtain rfl := Option.some.inj hunmatch
    generalize hdecided : db.updateArtists _ _ = decided
    have hartists : SongsMove db decided := hdecided ▸ .updateArtists fun _ => rfl
    have hcleared : SongsMove decided _ := @SongsMove.clear decided
      (fun song => song.broadcastArtistId = artistId)
      (SongDecision.write
        { status := .needsReview, tier := none, reasonCode := some .userUnmatched })
      (hartists.songsUnique hsongs) (fun _ => rfl) (fun _ => rfl) fun _ _ => .inr (.inl rfl)
    rw [songIds_updateSongs fun _ => rfl]
    exact (hartists.trans hcleared).trans
      (.of_same rfl rfl rfl fun _ => rowsOf_deleteForArtist artistId)
  · cases hunmatch

theorem resolveIdentityMatched_moves {identityId libraryFileId : Uuid}
    (hresolve : resolveIdentityMatched db identityId libraryFileId = some next) :
    SongsMove db next := by
  unfold resolveIdentityMatched at hresolve
  obtain ⟨song, hthere, hresolve⟩ := Option.bind_eq_some_iff.mp hresolve
  obtain ⟨file, hfile, rfl⟩ := Option.map_eq_some_iff.mp hresolve
  obtain ⟨hmem, hid⟩ := getById_eq_some hfile
  have hrows : ∀ songId, ((db.changeSongs (fun song => song.id = identityId) fun song =>
      { song with matchStatus := .manualMatched, matchTier := some .manual }).deleteForIdentity
        identityId).rowsOf songId = if songId = identityId then [] else db.rowsOf songId :=
    fun songId => rowsOf_deleteForIdentity identityId
  refine @SongsMove.of_change db _ (fun song => song.id = identityId)
    (fun song => { song with matchStatus := .manualMatched, matchTier := some .manual })
    (fun _ => rfl) rfl rfl rfl (fun songId song hsong hthis => ?_) fun songId hother => ?_
  · obtain rfl : songId = identityId :=
      (getIdentity_eq_some hsong).2.symm.trans (of_decide_eq_true hthis)
    rw [rowsOf_createMatch, hrows, if_pos rfl, if_pos rfl]
    exact .matched rfl rfl rfl ⟨file, hmem, hid⟩
  · have hne : songId ≠ identityId := by
      rintro rfl
      simpa [(getIdentity_eq_some hthere).2] using hother song hthere
    simp [rowsOf_createMatch, hrows, hne, Ne.symm hne]

theorem recordSongRejection_moves {identityId : Uuid} {libraryFileIds : List Uuid}
    {song : BroadcastTrackIdentity} (hthere : db.getIdentity identityId = some song) :
    SongsMove db (recordSongRejection db identityId libraryFileIds) := by
  have hrows : ∀ songId, (recordSongRejection db identityId libraryFileIds).rowsOf songId =
      if songId = identityId then [] else db.rowsOf songId :=
    fun songId => rowsOf_deleteForIdentity identityId
  refine @SongsMove.of_change db _ (fun song => song.id = identityId) (fun song =>
    { song with
      rejectedFileIds := (song.rejectedFileIds ++ libraryFileIds).dedup
      matchStatus := .manualRejected
      matchTier := none
      reasonCode := some .userUnmatched
      reasonDetail := none }) (fun _ => rfl) rfl rfl rfl (fun songId song hsong hthis => ?_)
      fun songId hother => ?_
  · obtain rfl : songId = identityId :=
      (getIdentity_eq_some hsong).2.symm.trans (of_decide_eq_true hthis)
    rw [hrows, if_pos rfl]
    refine .parked rfl fun fileId hfile => ?_
    exact List.mem_dedup.mpr (List.mem_append_left _ hfile)
  · have hne : songId ≠ identityId := by
      rintro rfl
      simpa [(getIdentity_eq_some hthere).2] using hother song hthere
    rw [hrows, if_neg hne]

theorem rejectSongSuggestion_moves {identityId : Uuid} {shownFileId : Option Uuid}
    (hreject : rejectSongSuggestion db identityId shownFileId = some next) : SongsMove db next := by
  obtain ⟨song, hthere, hreject⟩ := Option.bind_eq_some_iff.mp hreject
  split at hreject
  · exact Option.some.inj hreject ▸ recordSongRejection_moves hthere
  · split at hreject
    · obtain ⟨shown, -, rfl⟩ := Option.map_eq_some_iff.mp hreject
      exact recordSongRejection_moves hthere
    · cases hreject

theorem unmatchSong_moves {identityId : Uuid} (hunmatch : unmatchSong db identityId = some next) :
    SongsMove db next := by
  obtain ⟨song, hthere, hunmatch⟩ := Option.bind_eq_some_iff.mp hunmatch
  split at hunmatch
  · exact Option.some.inj hunmatch ▸ recordSongRejection_moves hthere
  · cases hunmatch

/-! ## Every action -/

/-- The ids of artists, songs and files are primary keys. -/
structure KeysOk (db : Database) : Prop where
  artists : Table.UniqueBy BroadcastArtist.id db.artists
  songs : Table.UniqueBy BroadcastTrackIdentity.id db.identities
  files : Table.UniqueBy LibraryFile.id db.files

theorem SongsMove.keysOk (hmoves : SongsMove db next) (hkeys : KeysOk db) : KeysOk next where
  artists := by rw [Table.UniqueBy, hmoves.artistIds]; exact hkeys.artists
  songs := hmoves.songsUnique hkeys.songs
  files := hmoves.files ▸ hkeys.files

/-- The actions that only move songs. -/
def DecisionAction.Moves : DecisionAction → Prop
  | .resolveArtistRejected _ => False
  | .ingest _ => False
  | .scan _ => False
  | _ => True

theorem decision_moves {action : DecisionAction} {choices : List ArtistChoice} (hkeys : KeysOk db)
    (hmoves : action.Moves) (hstep : decisionMachine.step db action = some (next, choices)) :
    SongsMove db next := by
  cases action with
  | matchIdentities config playlistId =>
      obtain ⟨⟨works, last⟩, hrun, heq⟩ := Option.map_eq_some_iff.mp hstep
      obtain ⟨rfl, -⟩ := Prod.mk.inj heq
      exact matchIdentities_moves hkeys.songs hkeys.artists hkeys.files hrun
  | matchArtists results playlistId =>
      obtain ⟨⟨written, last⟩, hrun, heq⟩ := Option.map_eq_some_iff.mp hstep
      obtain ⟨rfl, -⟩ := Prod.mk.inj heq
      exact artistMatchingTask_moves hkeys.songs hrun
  | recheck names =>
      obtain ⟨rfl, -⟩ := Prod.mk.inj (Option.some.inj hstep)
      exact rewindWave_moves
  | resolveArtistMatched artistId targetArtistId =>
      obtain ⟨resolved, hresolve, heq⟩ := Option.map_eq_some_iff.mp hstep
      obtain ⟨rfl, -⟩ := Prod.mk.inj heq
      exact resolveArtistMatched_moves hkeys.songs hresolve
  | resolveArtistRejected artistId => exact hmoves.elim
  | unmatchArtist artistId =>
      obtain ⟨unmatched, hunmatch, heq⟩ := Option.map_eq_some_iff.mp hstep
      obtain ⟨rfl, -⟩ := Prod.mk.inj heq
      exact unmatchArtist_moves hkeys.songs hunmatch
  | resolveIdentityMatched identityId libraryFileId =>
      obtain ⟨resolved, hresolve, heq⟩ := Option.map_eq_some_iff.mp hstep
      obtain ⟨rfl, -⟩ := Prod.mk.inj heq
      exact resolveIdentityMatched_moves hresolve
  | rejectSongSuggestion identityId shownFileId =>
      obtain ⟨rejected, hreject, heq⟩ := Option.map_eq_some_iff.mp hstep
      obtain ⟨rfl, -⟩ := Prod.mk.inj heq
      exact rejectSongSuggestion_moves hreject
  | unmatchSong identityId =>
      obtain ⟨unmatched, hunmatch, heq⟩ := Option.map_eq_some_iff.mp hstep
      obtain ⟨rfl, -⟩ := Prod.mk.inj heq
      exact unmatchSong_moves hunmatch
  | ingest ingestion => exact hmoves.elim
  | scan files => exact hmoves.elim
  | configure rules catalog =>
      obtain ⟨rfl, -⟩ := Prod.mk.inj (Option.some.inj hstep)
      exact .of_same rfl rfl rfl fun _ => rfl

theorem decision_keysOk {action : DecisionAction} {choices : List ArtistChoice} (hkeys : KeysOk db)
    (hstep : decisionMachine.step db action = some (next, choices)) : KeysOk next := by
  by_cases hmoves : action.Moves
  · exact (decision_moves hkeys hmoves hstep).keysOk hkeys
  · cases action with
    | resolveArtistRejected artistId =>
        obtain ⟨resolved, hresolve, heq⟩ := Option.map_eq_some_iff.mp hstep
        obtain ⟨rfl, -⟩ := Prod.mk.inj heq
        obtain ⟨artist, -, rfl⟩ := Option.map_eq_some_iff.mp hresolve
        exact ⟨hkeys.artists.update fun _ => rfl, hkeys.songs.update fun _ => rfl, hkeys.files⟩
    | ingest ingestion =>
        obtain ⟨ingested, hingest, heq⟩ := Option.map_eq_some_iff.mp hstep
        obtain ⟨rfl, -⟩ := Prod.mk.inj heq
        unfold ingest at hingest
        split at hingest
        next hunique =>
          obtain rfl := Option.some.inj hingest
          exact ⟨hunique.1, hunique.2, hkeys.files⟩
        · cases hingest
    | scan files =>
        obtain ⟨scanned, hscan, heq⟩ := Option.map_eq_some_iff.mp hstep
        obtain ⟨rfl, -⟩ := Prod.mk.inj heq
        unfold scanLibrary at hscan
        split at hscan
        next hkept =>
          obtain rfl := Option.some.inj hscan
          exact ⟨hkeys.artists, hkeys.songs, hkept.1⟩
        · cases hscan
    | _ => exact (hmoves trivial).elim

end Matching

end RetroStation
