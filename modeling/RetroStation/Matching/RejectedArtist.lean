import RetroStation.Matching.ArtistMoves
import RetroStation.Matching.StationRuns

/-! # The songs of a rejected artist

Rejecting an artist takes its songs out of the matched and the reviewed. They stay out
up to a matching run that shows a file for one of them: a re-check returns them to
pending whatever the artist's status, and the run looks their files up by name. The
deletion of a song's last file takes it into review as well.
-/

namespace RetroStation.Matching

open Library Effect Database Curation

/-! ## The result for an unresolved artist -/

section

variable {config : EngineConfig} {repos : IdentityMatchingRepos}
  {exclusionsByIdentity : ExclusionsByIdentity} {titleScore : Option TitleScore}
  {identity : BroadcastTrackIdentity} {artist : BroadcastArtist}

/-- No rule names a file for the song, and no candidate by name is worth showing. -/
structure Hides (config : EngineConfig) (repos : IdentityMatchingRepos)
    (exclusionsByIdentity : ExclusionsByIdentity) (titleScore : Option TitleScore)
    (identity : BroadcastTrackIdentity) (artist : BroadcastArtist) : Prop where
  ruled : ∀ rule ∈ repos.rules, ruleFor config repos exclusionsByIdentity identity rule = none
  named : ∀ file ∈ nameCandidates repos exclusionsByIdentity identity artist,
    ¬ (scoringOf config titleScore identity).WinsOutright
        (nameCandidates repos exclusionsByIdentity identity artist) file ∧
      (scoringOf config titleScore identity).score file < SONG_MIN_PRESENTATION_SCORE

/-- The best candidate is hidden with all the others. -/
theorem nameResult_rejected_iff (hfiles : (repos.files.map LibraryFile.id).Nodup)
    {result : IdentityMatchResult}
    (hresult : nameResult config repos exclusionsByIdentity titleScore identity artist =
      some result) :
    result.status = .autoRejected ↔
      ∀ file ∈ nameCandidates repos exclusionsByIdentity identity artist,
        ¬ (scoringOf config titleScore identity).WinsOutright
            (nameCandidates repos exclusionsByIdentity identity artist) file ∧
          (scoringOf config titleScore identity).score file < SONG_MIN_PRESENTATION_SCORE := by
  obtain ⟨best, hscored⟩ := Scoring.scoredFrom_of_best (nodup_nameCandidates hfiles) hresult
  rw [hscored.rejected]
  constructor
  · rintro ⟨hwins, hscore⟩ file hfile
    have hle := hscored.leads.score_le hfile
    refine ⟨fun hother => ?_, lt_of_le_of_lt hle hscore⟩
    rcases hother with hliteral | ⟨hrival, hstrong, hlead⟩
    · exact hwins (.inl (hliteral.trans hle))
    · by_cases hsame : best.id = file.id
      · obtain rfl := List.inj_on_of_nodup_map (nodup_nameCandidates hfiles) hscored.leads.1 hfile
          hsame
        exact hwins (.inr ⟨hrival, hstrong, hlead⟩)
      · have hahead := hlead best hscored.leads.1 hsame
        unfold MB_SCORE_GAP at hahead
        linarith
  · exact fun hall => hall best hscored.leads.1

/-- The chain decides the song of an unresolved artist without a search. -/
theorem chainPlan_of_unresolved (hfiles : (repos.files.map LibraryFile.id).Nodup)
    (hunresolved : isResolved artist = false) :
    ∃ result, chainPlan config repos exclusionsByIdentity titleScore identity artist =
        .decided result ∧
      (result.status = .autoRejected ↔
        Hides config repos exclusionsByIdentity titleScore identity artist) := by
  unfold chainPlan
  cases hrule : identityMappingRule config repos exclusionsByIdentity identity with
  | some result =>
      obtain ⟨file, hfound, rfl⟩ := Option.map_eq_some_iff.mp hrule
      refine ⟨_, rfl, iff_of_false (by simp) fun hhides => ?_⟩
      rw [List.findSome?_eq_none_iff.mpr hhides.ruled] at hfound
      cases hfound
  | none =>
      have hruled := List.findSome?_eq_none_iff.mp (Option.map_eq_none_iff.mp hrule)
      simp only [hunresolved]
      refine ⟨_, rfl, ?_⟩
      cases hresult : nameResult config repos exclusionsByIdentity titleScore identity artist with
      | none =>
          refine iff_of_true rfl ⟨hruled, fun file hfile => ?_⟩
          rw [Scoring.best_eq_none_iff.mp hresult] at hfile
          cases hfile
      | some result =>
          exact (nameResult_rejected_iff hfiles hresult).trans
            ⟨fun hnamed => ⟨hruled, hnamed⟩, Hides.named⟩

/-- A trial hides what its own scorer hides. -/
theorem trialResult_rejected_iff {today trial : IdentityMatchResult} :
    (trialResult today trial).status = .autoRejected ↔ trial.status = .autoRejected := by
  unfold trialResult
  split
  next hboth => simp [hboth.1, hboth.2]
  next hshown =>
    dsimp only
    split
    next hagree => simp [← hagree.1.1, hagree.2]
    next =>
      split
      next hagree =>
        simpa [← hagree.1] using fun hrejected => hshown ⟨hrejected, hagree.1 ▸ hrejected⟩
      next =>
        dsimp only
        split
        next hrejected => simp [hrejected]
        next hrejected => simp [hrejected]

end

/-- What hides the song in the engines' chain, or in trial mode in the trial's. -/
abbrev SongEngines.Hides (engines : SongEngines) (identity : BroadcastTrackIdentity)
    (artist : BroadcastArtist) : Prop :=
  Matching.Hides engines.config engines.repos engines.exclusionsByIdentity
    engines.config.trialTitleScore identity artist

theorem SongEngines.decide_of_unresolved {engines : SongEngines} {identity : BroadcastTrackIdentity}
    {artist : BroadcastArtist} (hfiles : (engines.repos.files.map LibraryFile.id).Nodup)
    (hunresolved : isResolved artist = false) (search : RecordingSearch) :
    ∃ result, (outcome (engines.decide identity artist) search).1 = .ok result ∧
      (result.status = .autoRejected ↔ engines.Hides identity artist) := by
  obtain ⟨today, htoday, hhides⟩ := @chainPlan_of_unresolved engines.config engines.repos
    engines.exclusionsByIdentity none identity artist hfiles hunresolved
  unfold SongEngines.Hides SongEngines.decide
  cases htrial : engines.config.trialTitleScore with
  | none =>
      refine ⟨today, ?_, hhides⟩
      simp only [htoday, Plan.run]
      rfl
  | some titleScore =>
      obtain ⟨trial, hplan, htried⟩ := @chainPlan_of_unresolved engines.config engines.repos
        engines.exclusionsByIdentity (some titleScore) identity artist hfiles hunresolved
      refine ⟨trialResult today trial, ?_, trialResult_rejected_iff.trans htried⟩
      simp only [htoday, hplan, Plan.run]
      rfl

/-! ## What a run leaves -/

section

variable {db next : Database} {config : EngineConfig} {playlistId artistId : Uuid}
  {works : List String}

theorem mem_getPendingForPlaylist {song : BroadcastTrackIdentity}
    (hsong : song ∈ db.getPendingForPlaylist playlistId) :
    song ∈ db.identities ∧ song.matchStatus = .pending := by
  obtain ⟨hmem, hpending⟩ := List.mem_filter.mp hsong
  exact ⟨hmem, (of_decide_eq_true hpending).1⟩

/-- Each pending song of the playlist has its turn, and no other song's turn changes it. -/
theorem matchIdentities_writes (hkeys : KeysOk db)
    (hrun : matchIdentitiesForPlaylist config db playlistId = some (works, next))
    {song : BroadcastTrackIdentity} (hsong : song ∈ db.getPendingForPlaylist playlistId) :
    ∃ result, Results config db playlistId song result ∧
      next.getIdentity song.id = some (result.decision.write song) := by
  obtain ⟨⟨trace, state⟩, hexec, heq⟩ := Option.map_eq_some_iff.mp hrun
  obtain ⟨rfl, rfl⟩ := Prod.mk.inj heq
  have hunique : ((db.getPendingForPlaylist playlistId).map BroadcastTrackIdentity.id).Nodup :=
    hkeys.songs.sublist (List.filter_sublist.map _)
  have hmem : ∀ song, song ∈ groupedByArtist (db.getPendingForPlaylist playlistId) ↔
      song ∈ db.getPendingForPlaylist playlistId := fun song => List.mem_insertionSort _
  have hother : ∀ first ∈ db.getPendingForPlaylist playlistId,
      ∀ second ∈ db.getPendingForPlaylist playlistId, second ≠ first → second.id ≠ first.id :=
    fun first hfirst second hsecond hne hid =>
      hne (List.inj_on_of_nodup_map hunique hsecond hfirst hid)
  have hdone := @Transition.Machine.done_of_exec _ _ _ _
    (fun state : PlaylistState =>
      StateOk db.identityMatchingRepos (playlistArtists db playlistId) state.engines)
    (fun song state => song ∈ db.getPendingForPlaylist playlistId ∧
      state.db.getIdentity song.id = some song)
    (fun song state => song ∈ db.getPendingForPlaylist playlistId ∧
      ∃ result, Results config db playlistId song result ∧
        state.db.getIdentity song.id = some (result.decision.write song))
    ?_ ?_ _ _ _ _ hexec (stateOk_start config _ _)
    ((List.perm_insertionSort _ _).nodup_iff.mpr (List.Nodup.of_map _ hunique))
    fun song hsong => ⟨(hmem song).mp hsong,
      getIdentity_of_mem hkeys.songs (mem_getPendingForPlaylist ((hmem song).mp hsong)).1⟩
  · exact (hdone.1 song ((hmem song).mpr hsong)).2
  · rintro current later song output hreads ⟨hwaiting, hstored⟩ hstep
    simp only [playlistMachine] at hstep
    split at hstep
    next result reads hresult =>
      obtain ⟨rfl, rfl⟩ := Prod.mk.inj (Option.some.inj hstep)
      refine ⟨(@songResult_eq song (playlistEngines config db playlistId) _ _ _ _
        (nodup_playlistArtists hkeys.artists) hreads hresult).1, hwaiting, result,
        ⟨_, _, hreads, hresult⟩, ?_⟩
      rw [getIdentity_persist, hstored, Option.map_some, if_pos]
      simpa [stillPending] using (mem_getPendingForPlaylist hwaiting).2
    · cases hstep
  · rintro current later song output other hreads ⟨hwaiting, -⟩ hne hstep
    simp only [playlistMachine] at hstep
    split at hstep
    next result reads hresult =>
      obtain ⟨rfl, rfl⟩ := Prod.mk.inj (Option.some.inj hstep)
      have hkept : ∀ kept : BroadcastTrackIdentity, other ∈ db.getPendingForPlaylist playlistId →
          kept.id = other.id → current.db.getIdentity other.id = some kept →
          (persist current.db song result).2.getIdentity other.id = some kept := by
        intro kept hpending hid hstored
        rw [getIdentity_persist, hstored, Option.map_some, if_neg]
        rw [stillPending, hid]
        simp [hother song hwaiting other hpending hne]
      refine ⟨fun hwait => ⟨hwait.1, hkept other hwait.1 rfl hwait.2⟩, fun hdone => ?_⟩
      obtain ⟨hpending, result, hresults, hstored⟩ := hdone
      exact ⟨hpending, result, hresults, hkept _ hpending rfl hstored⟩
    · cases hstep

theorem matchIdentities_leaves (hkeys : KeysOk db)
    (hrun : matchIdentitiesForPlaylist config db playlistId = some (works, next))
    {song : BroadcastTrackIdentity} (hsong : song ∈ db.identities)
    (hother : song ∉ db.getPendingForPlaylist playlistId) :
    next.getIdentity song.id = some song := by
  refine @matchIdentities_invariant config db playlistId
    (fun current => current.getIdentity song.id = some song) _ _ hkeys.artists hrun
    (getIdentity_of_mem hkeys.songs hsong) ?_
  intro current identity result hstored hpending _
  rw [getIdentity_persist, hstored, Option.map_some, if_neg]
  intro hstill
  have hid : song.id = identity.id := (of_decide_eq_true hstill).1
  exact hother (hkeys.songs.eq hsong (mem_getPendingForPlaylist hpending).1 hid ▸ hpending)

end

/-! ## Songs kept out -/

def RECALLED : List MatchStatus := [.autoMatched, .needsReview]

/-- None of the artist's songs is matched by a run or in review. -/
def StaysOut (artistId : Uuid) (db : Database) : Prop :=
  ∀ song ∈ db.identities, song.broadcastArtistId = artistId → song.matchStatus ∉ RECALLED

/-- The artist is rejected by hand. -/
structure HeldOut (artistId : Uuid) (db : Database) : Prop where
  keys : KeysOk db
  rejected : ∃ artist, db.getArtist artistId = some artist ∧ artist.matchStatus = .manualRejected

/-- No user decides the artist, but for rejecting it again. -/
def LeavesArtist (artistId : Uuid) (action : DecisionAction) : Prop :=
  askedOf artistId action = none ∨ askedOf artistId action = some .reject

instance (artistId : Uuid) : DecidablePred (LeavesArtist artistId) := fun action =>
  inferInstanceAs (Decidable (askedOf artistId action = none ∨ _))

/-- A matching run shows no file for a song of the artist. -/
def LeavesHidden (artistId : Uuid) (db : Database) : DecisionAction → Prop
  | .matchIdentities config playlistId =>
    ∀ song ∈ db.getPendingForPlaylist playlistId, song.broadcastArtistId = artistId →
      ∀ artist, db.getArtist artistId = some artist →
        (playlistEngines config db playlistId).Hides song artist
  | _ => True

def StationLeavesArtist (artistId : Uuid) : StationAction → Prop
  | .decide action => LeavesArtist artistId action
  | .curate _ => True

instance (artistId : Uuid) : DecidablePred (StationLeavesArtist artistId)
  | .decide action => inferInstanceAs (Decidable (LeavesArtist artistId action))
  | .curate _ => isTrue trivial

/-- A matching run shows no file for a song of the artist, and a deletion takes from none of
its songs the last match row. -/
def StationLeavesHidden (artistId : Uuid) (db : Database) : StationAction → Prop
  | .decide action => LeavesHidden artistId db action
  | .curate (.deleteMissingRow fileId) =>
    ∀ song ∈ db.identities, song.broadcastArtistId = artistId → ¬ LosesLast db fileId song.id
  | .curate _ => True

section

variable {db next : Database} {artistId : Uuid}

/-- Nothing but its users' decisions moves a rejected artist. -/
theorem ArtistMove.of_rejected {asked : Option ArtistRequest} {view : ArtistView}
    {targets : List (Option String)} {choice : Option (Option String)}
    (hleaves : asked = none ∨ asked = some .reject)
    (hmove : ArtistMove asked (.manualRejected, targets) view choice) :
    view.1 = .manualRejected ∧ (asked = none → choice = none) := by
  cases hmove with
  | kept => exact ⟨rfl, fun _ => rfl⟩
  | rewound hopen => simp [ARTIST_UNDECIDED_STATUSES] at hopen
  | found hopen => simp [ARTIST_UNDECIDED_STATUSES] at hopen
  | reviewed hopen => simp [ARTIST_UNDECIDED_STATUSES] at hopen
  | linked => simp at hleaves
  | rejected => exact ⟨rfl, by simp⟩
  | unmatched => simp at hleaves

theorem ArtistMove.of_reject {view later : ArtistView} {choice : Option (Option String)}
    (hmove : ArtistMove (some .reject) view later choice) : later.1 = .manualRejected := by
  cases hmove
  rfl

theorem HeldOut.step {action : DecisionAction} {choices : List ArtistChoice}
    (hheld : HeldOut artistId db) (hleaves : LeavesArtist artistId action)
    (hstep : decisionMachine.step db action = some (next, choices)) :
    HeldOut artistId next ∧
      (askedOf artistId action = none → choiceOf choices artistId = none) := by
  obtain ⟨artist, hartist, hstatus⟩ := hheld.rejected
  obtain ⟨later, hlater, hmove⟩ := decision_artistMove hheld.keys hstep hartist
  rw [hstatus] at hmove
  obtain ⟨hrejected, hchoice⟩ := hmove.of_rejected hleaves
  exact ⟨⟨decision_keysOk hheld.keys hstep, later, hlater, hrejected⟩, hchoice⟩

/-- What a run makes of the artist's songs: it hides each or recalls it. -/
theorem matchIdentities_staysOut_iff {config : EngineConfig} {playlistId : Uuid}
    {works : List String} (hheld : HeldOut artistId db) (hout : StaysOut artistId db)
    (hrun : matchIdentitiesForPlaylist config db playlistId = some (works, next)) :
    StaysOut artistId next ↔
      ∀ song ∈ db.getPendingForPlaylist playlistId, song.broadcastArtistId = artistId →
        ∀ artist, db.getArtist artistId = some artist →
          (playlistEngines config db playlistId).Hides song artist := by
  have hkeys := hheld.keys
  obtain ⟨artist, hartist, hstatus⟩ := hheld.rejected
  have hmoves := matchIdentities_moves hkeys.songs hkeys.artists hkeys.files hrun
  have hlater := hmoves.songsUnique hkeys.songs
  -- Each pending song of the artist ends with a result that is hidden or recalled.
  have hwritten : ∀ song ∈ db.getPendingForPlaylist playlistId, ∃ result : IdentityMatchResult,
      next.getIdentity song.id = some (result.decision.write song) ∧
      (song.broadcastArtistId = artistId →
        (result.status ∉ RECALLED ↔ (playlistEngines config db playlistId).Hides song artist)) := by
    intro song hsong
    obtain ⟨result, hresults, hstored⟩ := matchIdentities_writes hkeys hrun hsong
    refine ⟨result, hstored, fun hthis => ?_⟩
    have hrecalled : result.status ∉ RECALLED ↔ result.status = .autoRejected := by
      rcases (hresults.ok hkeys.artists hkeys.files).decided with h | h | h <;> simp [h, RECALLED]
    rw [hrecalled]
    obtain ⟨state, later, hreads, hresult⟩ := hresults
    have hfind : ((playlistArtists db playlistId).find? fun artist =>
        artist.id = song.broadcastArtistId) = some artist := by
      obtain ⟨hmem, hid⟩ := getArtist_eq_some hartist
      have hplaylist : artist ∈ playlistArtists db playlistId :=
        List.mem_filter.mpr ⟨hmem, decide_eq_true
          (List.mem_map.mpr ⟨song, hsong, hthis.trans hid.symm⟩)⟩
      have hunique : Table.UniqueBy BroadcastArtist.id (playlistArtists db playlistId) :=
        nodup_playlistArtists hkeys.artists
      rw [hthis, ← hid]
      exact hunique.find? hplaylist
    obtain ⟨decided, hdecided, hhides⟩ := @SongEngines.decide_of_unresolved
      (playlistEngines config db playlistId) song artist hkeys.files (by simp [isResolved, hstatus])
      state.recordingSearch
    rcases (@songResult_eq song (playlistEngines config db playlistId) _ _ _ _
      (nodup_playlistArtists hkeys.artists) hreads hresult).2 with ⟨hnone, -⟩ |
        ⟨other, hother, hcame⟩
    · rw [hfind] at hnone
      cases hnone
    · obtain rfl := Option.some.inj (hfind.symm.trans hother)
      rcases hcame with hcame | ⟨-, hfailed⟩
      · obtain rfl := Except.ok.inj (hdecided.symm.trans hcame)
        exact hhides
      · rw [hdecided] at hfailed
        cases hfailed
  constructor
  · intro hnext song hsong hthis other hother
    obtain rfl := Option.some.inj (hartist.symm.trans hother)
    obtain ⟨result, hstored, hhides⟩ := hwritten song hsong
    exact (hhides hthis).mp (hnext _ (getIdentity_eq_some hstored).1 hthis)
  · intro hhidden song hsong hthis
    have hstored := getIdentity_of_mem hlater hsong
    have hthere : song.id ∈ db.identities.map BroadcastTrackIdentity.id :=
      hmoves.ids ▸ List.mem_map_of_mem hsong
    obtain ⟨first, hfirst, hid⟩ := List.mem_map.mp hthere
    by_cases hpending : first ∈ db.getPendingForPlaylist playlistId
    · obtain ⟨result, hwrote, hhides⟩ := hwritten first hpending
      rw [hid, hstored] at hwrote
      obtain rfl := Option.some.inj hwrote
      exact (hhides hthis).mpr (hhidden first hpending hthis artist hartist)
    · have hsame := matchIdentities_leaves hkeys hrun hfirst hpending
      rw [hid, hstored] at hsame
      obtain rfl := Option.some.inj hsame
      exact hout song hfirst hthis

/-! ## Every other action -/

theorem StaysOut.update {which : BroadcastTrackIdentity → Bool}
    {change : BroadcastTrackIdentity → BroadcastTrackIdentity} (hout : StaysOut artistId db)
    (hidentities : next.identities = Table.update db.identities which change)
    (hchange : ∀ song, which song = true → (change song).broadcastArtistId = artistId →
      (change song).matchStatus ∉ RECALLED) : StaysOut artistId next := by
  unfold StaysOut
  rw [hidentities]
  exact Table.forall_mem_update hout fun song _ hwhich => hchange song hwhich

theorem StaysOut.of_same (hout : StaysOut artistId db)
    (hidentities : next.identities = db.identities) : StaysOut artistId next := by
  unfold StaysOut
  rwa [hidentities]

theorem StaysOut.updateSongs {which : BroadcastTrackIdentity → Bool} {decision : SongDecision}
    (hout : StaysOut artistId db)
    (hdecision : decision.status ∉ RECALLED ∨
      ∀ song, which song = true → song.broadcastArtistId ≠ artistId) :
    StaysOut artistId (db.updateSongs which decision) :=
  hout.update rfl fun song hwhich hthis => hdecision.elim id fun hothers =>
    absurd hthis (hothers song hwhich)

theorem StaysOut.foldl {Item : Type} {step : Database → Item → Database} {items : List Item}
    (hout : StaysOut artistId db) (hstep : ∀ item ∈ items, ∀ current, StaysOut artistId current →
      StaysOut artistId (step current item)) : StaysOut artistId (items.foldl step db) :=
  List.foldlRecOn items step hout fun current hcurrent item hitem =>
    hstep item hitem current hcurrent

theorem persistArtistResult_identities {otherId : Uuid} {result : ArtistMatchResult}
    {written : Bool} (hpersist : persistArtistResult db otherId result = some (written, next)) :
    next.identities = db.identities := by
  unfold persistArtistResult updateArtistStatusIfPending at hpersist
  dsimp only at hpersist
  split at hpersist
  next unchanged hupdate =>
    obtain ⟨-, rfl⟩ := Prod.mk.inj hupdate
    obtain ⟨-, rfl⟩ := Prod.mk.inj (Option.some.inj hpersist)
    rfl
  next updated hupdate =>
    obtain ⟨-, rfl⟩ := Prod.mk.inj hupdate
    split at hpersist
    · obtain ⟨-, rfl⟩ := Prod.mk.inj (Option.some.inj hpersist)
      rfl
    · obtain ⟨created, hcreated, heq⟩ := Option.map_eq_some_iff.mp hpersist
      obtain ⟨-, rfl⟩ := Prod.mk.inj heq
      unfold createArtistRow at hcreated
      split at hcreated
      · cases hcreated
      · obtain rfl := Option.some.inj hcreated
        rfl

theorem persistArtistResults_identities {results : BroadcastArtist → ArtistMatchResult}
    {artists written : List BroadcastArtist}
    (hpersist : persistArtistResults results db artists = some (written, next)) :
    next.identities = db.identities := by
  induction artists generalizing db written with
  | nil =>
      obtain ⟨-, rfl⟩ := Prod.mk.inj (Option.some.inj hpersist)
      rfl
  | cons artist rest ih =>
      obtain ⟨⟨first, middle⟩, hfirst, hpersist⟩ := Option.bind_eq_some_iff.mp hpersist
      obtain ⟨⟨others, last⟩, hrest, heq⟩ := Option.map_eq_some_iff.mp hpersist
      obtain ⟨-, rfl⟩ := Prod.mk.inj heq
      exact (ih hrest).trans (persistArtistResult_identities hfirst)

/-- An artist run rejects songs, and defers those of the artists that it wrote. -/
theorem artistMatchingTask_staysOut {results : BroadcastArtist → ArtistMatchResult}
    {playlistId : Uuid} {written : List BroadcastArtist} (hout : StaysOut artistId db)
    (htask : artistMatchingTask results db playlistId = some (written, next))
    (hothers : ∀ artist ∈ written, artist.id ≠ artistId) : StaysOut artistId next := by
  unfold artistMatchingTask matchArtistsForPlaylist at htask
  dsimp only at htask
  generalize hreset : ((db.resetDeferredByIds _).resetDeferredByArtistIds _) = reset at htask
  have hpending : StaysOut artistId reset :=
    hreset ▸ @StaysOut.updateSongs (db.resetDeferredByIds _) artistId _ _ hout (.inl (by decide))
  obtain ⟨⟨written, persisted⟩, hpersist, heq⟩ := Option.map_eq_some_iff.mp htask
  obtain ⟨rfl, rfl⟩ := Prod.mk.inj heq
  have hpersisted : StaysOut artistId persisted :=
    hpending.of_same (persistArtistResults_identities hpersist)
  have hrejected : StaysOut artistId (cascadeAutoRejected persisted playlistId) :=
    hpersisted.foldl fun artist _ current hcurrent =>
      StaysOut.updateSongs hcurrent (.inl (by decide))
  refine hrejected.foldl fun artist hartist current hcurrent =>
    StaysOut.updateSongs hcurrent (.inr fun song hsong hthis => ?_)
  have hflipped := of_decide_eq_true hsong
  exact hothers artist (List.mem_filter.mp hartist).1 (hflipped.1.symm.trans hthis)

theorem recordSongRejection_staysOut {identityId : Uuid} {libraryFileIds : List Uuid}
    (hout : StaysOut artistId db) :
    StaysOut artistId (recordSongRejection db identityId libraryFileIds) :=
  hout.update rfl fun _ _ _ => by simp [RECALLED]

theorem rejectSongSuggestion_staysOut {identityId : Uuid} {shownFileId : Option Uuid}
    (hout : StaysOut artistId db)
    (hreject : rejectSongSuggestion db identityId shownFileId = some next) :
    StaysOut artistId next := by
  obtain ⟨song, -, hreject⟩ := Option.bind_eq_some_iff.mp hreject
  split at hreject
  · exact Option.some.inj hreject ▸ recordSongRejection_staysOut hout
  · split at hreject
    · obtain ⟨shown, -, rfl⟩ := Option.map_eq_some_iff.mp hreject
      exact recordSongRejection_staysOut hout
    · cases hreject

theorem unmatchSong_staysOut {identityId : Uuid} (hout : StaysOut artistId db)
    (hunmatch : unmatchSong db identityId = some next) : StaysOut artistId next := by
  obtain ⟨song, -, hunmatch⟩ := Option.bind_eq_some_iff.mp hunmatch
  split at hunmatch
  · exact Option.some.inj hunmatch ▸ recordSongRejection_staysOut hout
  · cases hunmatch

theorem resolveArtistMatched_staysOut {otherId : Uuid} {target : String}
    (hout : StaysOut artistId db) (hresolve : resolveArtistMatched db otherId target = some next) :
    StaysOut artistId next := by
  unfold resolveArtistMatched at hresolve
  split at hresolve
  · cases hresolve
  · obtain ⟨artist, -, rfl⟩ := Option.map_eq_some_iff.mp hresolve
    dsimp only
    generalize hdecided : (db.updateArtists _ _).upsertArtistRow otherId target = linked
    have hlinked : StaysOut artistId linked :=
      hout.of_same (hdecided ▸ upsertArtistRow_others.2.1)
    exact StaysOut.updateSongs hlinked (.inl (by decide))

theorem resolveArtistRejected_staysOut {otherId : Uuid} (hout : StaysOut artistId db)
    (hresolve : resolveArtistRejected db otherId = some next) : StaysOut artistId next := by
  obtain ⟨artist, -, rfl⟩ := Option.map_eq_some_iff.mp hresolve
  exact StaysOut.update hout rfl fun _ _ _ => by simp [RECALLED]

/-- The rejection itself leaves only songs that were resolved by hand, or are pending. -/
theorem resolveArtistRejected_out (hresolve : resolveArtistRejected db artistId = some next) :
    StaysOut artistId next := by
  obtain ⟨artist, -, rfl⟩ := Option.map_eq_some_iff.mp hresolve
  intro song hsong hthis
  rcases Table.mem_update.mp hsong with ⟨first, -, -, rfl⟩ | ⟨-, hkept⟩
  · simp [RECALLED]
  · have hprotected : song.matchStatus ∈ PROTECTED_STATUSES := by simpa [hthis] using hkept
    rcases List.mem_cons.mp hprotected with h | h
    · rw [h]
      decide
    · rw [List.mem_singleton.mp h]
      decide

theorem unmatchArtist_staysOut {otherId : Uuid} (hout : StaysOut artistId db)
    (hother : otherId ≠ artistId) (hunmatch : unmatchArtist db otherId = some next) :
    StaysOut artistId next := by
  unfold unmatchArtist at hunmatch
  dsimp only at hunmatch
  split at hunmatch
  · obtain rfl := Option.some.inj hunmatch
    refine StaysOut.update hout rfl fun song hsong hthis => ?_
    exact absurd ((of_decide_eq_true hsong).symm.trans hthis) hother
  · cases hunmatch

theorem ingest_staysOut {ingestion : Ingestion} (hout : StaysOut artistId db)
    (hingest : ingest db ingestion = some next) : StaysOut artistId next := by
  unfold ingest at hingest
  split at hingest
  · obtain rfl := Option.some.inj hingest
    intro song hsong hthis
    rcases List.mem_append.mp hsong with hold | hnew
    · exact hout song hold hthis
    · rw [(ingestion.songsPending song hnew).1]
      decide
  · cases hingest

/-- A step keeps the artist's songs out exactly if, as a matching run, it hides them all. -/
theorem decision_staysOut_iff {action : DecisionAction} {choices : List ArtistChoice}
    (hheld : HeldOut artistId db) (hout : StaysOut artistId db)
    (hleaves : LeavesArtist artistId action)
    (hstep : decisionMachine.step db action = some (next, choices)) :
    StaysOut artistId next ↔ LeavesHidden artistId db action := by
  -- With the artist left alone, only a matching run of songs can bring one of them back.
  cases action with
  | matchIdentities config playlistId =>
      obtain ⟨⟨works, last⟩, hrun, heq⟩ := Option.map_eq_some_iff.mp hstep
      obtain ⟨rfl, -⟩ := Prod.mk.inj heq
      exact matchIdentities_staysOut_iff hheld hout hrun
  | matchArtists results playlistId =>
      have hchoice := (hheld.step hleaves hstep).2 rfl
      obtain ⟨⟨written, last⟩, hrun, heq⟩ := Option.map_eq_some_iff.mp hstep
      obtain ⟨rfl, rfl⟩ := Prod.mk.inj heq
      refine iff_of_true (artistMatchingTask_staysOut hout hrun fun artist hartist hid => ?_)
        trivial
      rw [choiceOf, Option.map_eq_none_iff, List.getLast?_eq_none_iff, List.filter_eq_nil_iff]
        at hchoice
      exact hchoice (artistChoice results artist) (List.mem_map_of_mem hartist) (decide_eq_true hid)
  | recheck names =>
      obtain ⟨rfl, -⟩ := Prod.mk.inj (Option.some.inj hstep)
      refine iff_of_true ?_ trivial
      have hrewound : StaysOut artistId ((db.rewindUndecidedArtists names).rewindUndecidedSongs
          (names.map db.idsByNormalizedNames)) :=
        @StaysOut.updateSongs (db.rewindUndecidedArtists names) artistId _ _ hout (.inl (by decide))
      exact hrewound.updateSongs (.inl (by decide))
  | resolveArtistMatched otherId target =>
      obtain ⟨resolved, hresolve, heq⟩ := Option.map_eq_some_iff.mp hstep
      obtain ⟨rfl, -⟩ := Prod.mk.inj heq
      exact iff_of_true (resolveArtistMatched_staysOut hout hresolve) trivial
  | resolveArtistRejected otherId =>
      obtain ⟨resolved, hresolve, heq⟩ := Option.map_eq_some_iff.mp hstep
      obtain ⟨rfl, -⟩ := Prod.mk.inj heq
      exact iff_of_true (resolveArtistRejected_staysOut hout hresolve) trivial
  | unmatchArtist otherId =>
      obtain ⟨unmatched, hunmatch, heq⟩ := Option.map_eq_some_iff.mp hstep
      obtain ⟨rfl, -⟩ := Prod.mk.inj heq
      refine iff_of_true (unmatchArtist_staysOut hout ?_ hunmatch) trivial
      rintro rfl
      simp [LeavesArtist, askedOf] at hleaves
  | resolveIdentityMatched identityId libraryFileId =>
      obtain ⟨resolved, hresolve, heq⟩ := Option.map_eq_some_iff.mp hstep
      obtain ⟨rfl, -⟩ := Prod.mk.inj heq
      obtain ⟨song, -, hresolve⟩ := Option.bind_eq_some_iff.mp hresolve
      obtain ⟨file, -, rfl⟩ := Option.map_eq_some_iff.mp hresolve
      exact iff_of_true (hout.update rfl fun _ _ _ => by simp [RECALLED]) trivial
  | rejectSongSuggestion identityId shownFileId =>
      obtain ⟨rejected, hreject, heq⟩ := Option.map_eq_some_iff.mp hstep
      obtain ⟨rfl, -⟩ := Prod.mk.inj heq
      exact iff_of_true (rejectSongSuggestion_staysOut hout hreject) trivial
  | unmatchSong identityId =>
      obtain ⟨unmatched, hunmatch, heq⟩ := Option.map_eq_some_iff.mp hstep
      obtain ⟨rfl, -⟩ := Prod.mk.inj heq
      exact iff_of_true (unmatchSong_staysOut hout hunmatch) trivial
  | ingest ingestion =>
      obtain ⟨ingested, hingest, heq⟩ := Option.map_eq_some_iff.mp hstep
      obtain ⟨rfl, -⟩ := Prod.mk.inj heq
      exact iff_of_true (ingest_staysOut hout hingest) trivial
  | scan files =>
      obtain ⟨scanned, hscan, heq⟩ := Option.map_eq_some_iff.mp hstep
      obtain ⟨rfl, -⟩ := Prod.mk.inj heq
      unfold scanLibrary at hscan
      split at hscan
      · exact Option.some.inj hscan ▸ iff_of_true hout trivial
      · cases hscan
  | configure rules catalog =>
      obtain ⟨rfl, -⟩ := Prod.mk.inj (Option.some.inj hstep)
      exact iff_of_true hout trivial

/-! ## Library steps -/

theorem HeldOut.of_keeps (hkeys : KeysOk next) (hheld : HeldOut artistId db)
    (hartists : next.artists = db.artists) : HeldOut artistId next := by
  obtain ⟨artist, hartist, hstatus⟩ := hheld.rejected
  exact ⟨hkeys, artist, by rwa [getArtist, hartists], hstatus⟩

theorem HeldOut.effect {action : LibraryAction} {fold : Option Fold} (hheld : HeldOut artistId db)
    (heffect : SongEffect db next action fold) : HeldOut artistId next := by
  have hkeys := effect_keysOk hheld.keys heffect
  cases heffect with
  | kept _ hkeeps | folded _ _ _ hkeeps | gone hkeeps =>
      exact hheld.of_keeps hkeys hkeeps.artists

/-- A deletion recalls the songs that lose their last row with the file. -/
theorem released_staysOut_iff {fileId : Uuid} (hout : StaysOut artistId db) :
    StaysOut artistId (released db fileId) ↔
      ∀ song ∈ db.identities, song.broadcastArtistId = artistId →
        ¬ LosesLast db fileId song.id := by
  have hloses (song : BroadcastTrackIdentity) : decide (song.id ∈ db.songsOfFile fileId ∧
      (db.deleteMatchesForFile fileId).rowsOf song.id = []) = true ↔
        LosesLast db fileId song.id := by
    rw [decide_eq_true_eq, mem_songsOfFile]
    rfl
  constructor
  · intro hreleased song hsong hthis hlast
    refine hreleased _ (Table.mem_update.mpr (.inl ⟨song, hsong, (hloses song).mpr hlast, rfl⟩))
      hthis ?_
    simp [RECALLED, SongDecision.write]
  · intro hkept
    refine Table.forall_mem_update hout fun song hsong hlast hthis => ?_
    exact absurd ((hloses song).mp hlast) (hkept song hsong hthis)

theorem foldInto_staysOut {source target : Uuid} (hout : StaysOut artistId db) :
    StaysOut artistId (db.foldInto source target) := by
  refine Table.forall_mem_update hout fun song hsong _ hthis => ?_
  exact hout song hsong hthis

theorem library_staysOut_iff {action : LibraryAction} {fold : Option Fold}
    (hout : StaysOut artistId db) (heffect : SongEffect db next action fold) :
    StaysOut artistId next ↔ StationLeavesHidden artistId db (.curate action) := by
  have hfree (hstays : ∀ fileId, action ≠ .deleteMissingRow fileId) :
      StationLeavesHidden artistId db (.curate action) := by
    cases action with
    | deleteMissingRow fileId => exact absurd rfl (hstays fileId)
    | _ => exact trivial
  cases heffect with
  | kept hstays hkeeps => exact iff_of_true (hout.of_same hkeeps.identities) (hfree hstays)
  | folded hstays _ _ hkeeps =>
      exact iff_of_true ((foldInto_staysOut hout).of_same hkeeps.identities) (hfree hstays)
  | gone hkeeps =>
      refine Iff.trans ?_ (released_staysOut_iff hout)
      rw [StaysOut, hkeeps.identities, StaysOut]

end

/-! ## Every run -/

section

variable {db next : Database} {artistId : Uuid} {action : StationAction} {fold : Option Fold}

theorem station_heldOut (hheld : HeldOut artistId db)
    (hleaves : StationLeavesArtist artistId action)
    (hstep : stationMachine.step db action = some (next, fold)) : HeldOut artistId next := by
  cases action with
  | decide action =>
      obtain ⟨-, choices, hdecided⟩ := station_decide hstep
      exact (hheld.step hleaves hdecided).1
  | curate action => exact hheld.effect (library_effect hheld.keys.files hstep)

theorem station_staysOut_iff (hheld : HeldOut artistId db) (hout : StaysOut artistId db)
    (hleaves : StationLeavesArtist artistId action)
    (hstep : stationMachine.step db action = some (next, fold)) :
    StaysOut artistId next ↔ StationLeavesHidden artistId db action := by
  cases action with
  | decide action =>
      obtain ⟨-, choices, hdecided⟩ := station_decide hstep
      exact decision_staysOut_iff hheld hout hleaves hdecided
  | curate action => exact library_staysOut_iff hout (library_effect hheld.keys.files hstep)

end

/-- From the rejection of an artist until a user decides it again, its songs stay out of the
matched and the reviewed exactly as long as each matching run hides those it finds pending and
each deletion leaves them a match row. -/
theorem rejected_stays_out_iff {before start last : Database} {artistId : Uuid}
    {fold : Option Fold} {trace : List (StationAction × Option Fold)} (hkeys : KeysOk before)
    (hreject : stationMachine.step before (.decide (.resolveArtistRejected artistId)) =
      some (start, fold))
    (hrun : (stationMachine.restrict (StationLeavesArtist artistId)).Run start trace last) :
    (∀ first rest reached, trace = first ++ rest →
      (stationMachine.restrict (StationLeavesArtist artistId)).Run start first reached →
      StaysOut artistId reached) ↔
      (stationMachine.restrict (StationLeavesArtist artistId)).Meets (StationLeavesHidden artistId)
        start trace := by
  have hkeep : (stationMachine.restrict (StationLeavesArtist artistId)).Preserves
      (HeldOut artistId) := by
    intro state next action output hheld hstep
    obtain ⟨hleaves, hstep⟩ := Transition.Machine.restrict_step.mp hstep
    exact station_heldOut hheld hleaves hstep
  obtain ⟨-, choices, hreject⟩ := station_decide hreject
  -- The artist stays rejected throughout; each step, and the start, is then about its songs.
  refine (Transition.Machine.Meets.iff_invariant hkeep ?_ ?_ ?_ hrun).symm
  · intro state next action output hheld hout hstep
    obtain ⟨hleaves, hstep⟩ := Transition.Machine.restrict_step.mp hstep
    exact station_staysOut_iff hheld hout hleaves hstep
  · have hmoved := decision_keysOk hkeys hreject
    obtain ⟨rejected, hresolve, heq⟩ := Option.map_eq_some_iff.mp hreject
    obtain ⟨rfl, rfl⟩ := Prod.mk.inj heq
    obtain ⟨artist, hartist, -⟩ := Option.map_eq_some_iff.mp hresolve
    obtain ⟨later, hlater, hmove⟩ := decision_artistMove hkeys hreject hartist
    rw [show askedOf artistId (.resolveArtistRejected artistId) = some .reject by simp [askedOf]]
      at hmove
    exact ⟨hmoved, later, hlater, hmove.of_reject⟩
  · obtain ⟨rejected, hresolve, heq⟩ := Option.map_eq_some_iff.mp hreject
    obtain ⟨rfl, -⟩ := Prod.mk.inj heq
    exact resolveArtistRejected_out hresolve

/-- Rejected, re-checked and matched by name. -/
theorem rejected_artist_rematched :
    ∃ start trace last, KeysOk abbaStation ∧
      stationMachine.step abbaStation (.decide (.resolveArtistRejected 1)) = some (start, none) ∧
      trace.map Prod.fst = [.decide (.recheck none), .decide (.matchIdentities literalConfig 1)] ∧
      (stationMachine.restrict (StationLeavesArtist 1)).Run start trace last ∧
      ¬ StaysOut 1 last := by
  obtain ⟨start, hreject, pending, hrecheck, last, hmatch, hmatched⟩ :
      ∃ start, stationMachine.step abbaStation (.decide (.resolveArtistRejected 1)) =
        some (start, none) ∧
      ∃ pending, (stationMachine.restrict (StationLeavesArtist 1)).step start
        (.decide (.recheck none)) = some (pending, none) ∧
      ∃ last, (stationMachine.restrict (StationLeavesArtist 1)).step pending
        (.decide (.matchIdentities literalConfig 1)) = some (last, none) ∧
      ∃ song ∈ last.identities, song.broadcastArtistId = 1 ∧ song.matchStatus = .autoMatched :=
    ⟨_, rfl, _, rfl, _, rfl, by decide⟩
  refine ⟨start, _, last, abbaStation_keys, hreject, rfl,
    (Transition.Machine.Run.single hrecheck).snoc hmatch, fun hout => ?_⟩
  obtain ⟨song, hsong, hthis, hstatus⟩ := hmatched
  exact hout song hsong hthis (by simp [hstatus, RECALLED])

/-- A matched song whose row is of a file that names no artist; another file is missing. -/
def keptRowStation : Database :=
  { abbaStation with
    identities := abbaStation.identities.map ({ · with matchStatus := .autoMatched })
    matchRows := [⟨.identity 1, 100, .localFileFuzzy, some 5, none, none, none⟩]
    files := [{ id := 5, filePath := "/kept.flac" },
      { id := 9, filePath := "/gone.flac", fileStatus := .missing }] }

/-- The missing file goes, and the song is re-checked and matched with nothing. -/
theorem rejected_stays_out_iff_keptRow :
    ∃ start deleted pending last,
      stationMachine.step keptRowStation (.decide (.resolveArtistRejected 1)) =
        some (start, none) ∧
      (stationMachine.restrict (StationLeavesArtist 1)).Run start
        [(.curate (.deleteMissingRow 9), none), (.decide (.recheck none), none),
          (.decide (.matchIdentities literalConfig 1), none)] last ∧
      (∃ row ∈ start.rowsOf 1, row.libraryFileId = some 5) ∧
      (∃ song ∈ pending.identities, song.matchStatus = .pending) ∧
      StaysOut 1 deleted ∧ StaysOut 1 pending ∧ StaysOut 1 last := by
  obtain ⟨start, hreject, deleted, hdelete, pending, hrecheck, last, hmatch, hrow, hrows, hpending,
      hrules, hfiles⟩ :
      ∃ start, stationMachine.step keptRowStation (.decide (.resolveArtistRejected 1)) =
        some (start, none) ∧
      ∃ deleted, (stationMachine.restrict (StationLeavesArtist 1)).step start
        (.curate (.deleteMissingRow 9)) = some (deleted, none) ∧
      ∃ pending, (stationMachine.restrict (StationLeavesArtist 1)).step deleted
        (.decide (.recheck none)) = some (pending, none) ∧
      ∃ last, (stationMachine.restrict (StationLeavesArtist 1)).step pending
        (.decide (.matchIdentities literalConfig 1)) = some (last, none) ∧
      (∃ row ∈ start.rowsOf 1, row.libraryFileId = some 5) ∧
      (∀ row ∈ start.matchRows, row.libraryFileId ≠ some 9) ∧
      (∃ song ∈ pending.identities, song.matchStatus = .pending) ∧ pending.rules = [] ∧
      ∀ file ∈ pending.files, file.audio.normalizedArtistName = none :=
    ⟨_, rfl, _, rfl, _, rfl, _, rfl, by decide, by decide, by decide, rfl, by decide⟩
  have hfirst := Transition.Machine.Run.single hdelete
  have hsecond := hfirst.snoc hrecheck
  have hrun := hsecond.snoc hmatch
  have hkeys : KeysOk keptRowStation := ⟨abbaStation_keys.artists, by decide, by decide⟩
  have hstays := (rejected_stays_out_iff hkeys hreject hrun).mpr
    (((Transition.Machine.Meets.nil.snoc fun state hstate => by
      obtain rfl := hstate.deterministic .nil
      rintro song hsong _ ⟨⟨row, hrow, _, hfile⟩, _⟩
      exact hrows row hrow hfile).snoc fun _ _ => trivial).snoc fun state hstate => by
      obtain rfl := hsecond.deterministic hstate
      intro song hsong _ artist _
      refine ⟨fun rule hrule => ?_, fun file hfile => ?_⟩
      · have hmem := (List.mem_insertionSort _).mp hrule
        simp [hrules] at hmem
      · obtain ⟨hmem, hnamed, -⟩ := of_mem_getByNormalizedArtistName (mem_allowedOf.mp hfile).1
        rw [hfiles file hmem] at hnamed
        cases hnamed)
  exact ⟨start, deleted, pending, last, hreject, hrun, hrow, hpending,
    hstays [_] [_, _] deleted rfl hfirst, hstays [_, _] [_] pending rfl hsecond,
    hstays _ [] last (by simp) hrun⟩

end RetroStation.Matching
