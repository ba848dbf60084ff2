import RetroStation.Matching.Exclusions
import RetroStation.Matching.Playlist

/-! # What a matching run writes

A run writes results one by one, each where its song is still pending. Every result
is a match, a suggestion or a rejection; a match names a file, and whatever file is
named is in the library and passed the song's exclusions. What the writes keep, the
run keeps.
-/

namespace RetroStation.Matching

open Library Effect

/-- What every result of a run has. -/
structure ResultOk (repos : IdentityMatchingRepos) (exclusionsByIdentity : ExclusionsByIdentity)
    (identity : BroadcastTrackIdentity) (result : IdentityMatchResult) : Prop where
  decided : result.status = .autoMatched ∨ result.status = .autoRejected ∨
    result.status = .needsReview
  shows : result.status = .autoMatched → result.libraryFileId.isSome
  allowed : ∀ fileId, result.libraryFileId = some fileId → ∃ file ∈ repos.files, file.id = fileId ∧
    (exclusionsFor exclusionsByIdentity identity).allows file

section

variable {config : EngineConfig} {repos : IdentityMatchingRepos}
  {exclusionsByIdentity : ExclusionsByIdentity} {titleScore : Option TitleScore}
  {identity : BroadcastTrackIdentity} {artist : BroadcastArtist}

theorem ResultOk.of_no_file {result : IdentityMatchResult} (hnone : result.libraryFileId = none)
    (hdecided : result.status = .autoRejected ∨ result.status = .needsReview) :
    ResultOk repos exclusionsByIdentity identity result where
  decided := .inr hdecided
  shows hmatched := by rcases hdecided with h | h <;> simp [h] at hmatched
  allowed fileId hfile := by simp [hnone] at hfile

theorem chainPlan_ok (hfiles : (repos.files.map LibraryFile.id).Nodup) :
    (chainPlan config repos exclusionsByIdentity titleScore identity artist).Gives
      (ResultOk repos exclusionsByIdentity identity) := by
  refine chainPlan_gives hfiles (fun result hrule => ?_) (fun candidates tier result hmem hids hbest
    => ?_) (fun _ => .of_no_file rfl (.inr rfl)) (.of_no_file rfl (.inl rfl))
    (.of_no_file rfl (.inl rfl))
  · obtain ⟨file, hfile, hid, hallows⟩ := of_identityMappingRule hrule
    have hstatus : result.status = .autoMatched := by
      obtain ⟨file, -, rfl⟩ := Option.map_eq_some_iff.mp hrule
      rfl
    refine ⟨.inl hstatus, fun _ => by simp [hid], fun fileId hshown => ⟨file, hfile, ?_, hallows⟩⟩
    exact Option.some.inj (hid.symm.trans hshown)
  · obtain ⟨file, hscored⟩ := Scoring.scoredFrom_of_best (nodup_allowedOf hids) hbest
    refine ⟨hscored.decided, fun _ => by simp [hscored.fileId], fun fileId hshown => ?_⟩
    obtain ⟨hfile, -, hallows⟩ := mem_allowedOf.mp hscored.leads.1
    exact ⟨file, hmem file hfile, Option.some.inj (hscored.fileId.symm.trans hshown), hallows⟩

/-- A trial's result is decided like its chains', of a file of one of them. -/
theorem ResultOk.trial {today trial : IdentityMatchResult}
    (htoday : ResultOk repos exclusionsByIdentity identity today)
    (htrial : ResultOk repos exclusionsByIdentity identity trial) :
    ResultOk repos exclusionsByIdentity identity (trialResult today trial) := by
  refine ⟨?_, ?_, fun fileId hshown => ?_⟩
  · unfold trialResult
    split
    · exact htoday.decided
    · dsimp only
      split
      · exact htoday.decided
      · split
        · exact .inr (.inr rfl)
        · dsimp only
          split
          · exact .inr (.inl rfl)
          · exact .inr (.inr rfl)
  · intro hmatched
    unfold trialResult at hmatched ⊢
    split at hmatched
    next hboth => simp [hboth.1] at hmatched
    next hshow =>
      rw [if_neg hshow]
      dsimp only at hmatched ⊢
      split at hmatched
      next hagree =>
        rw [if_pos hagree]
        exact htoday.shows hagree.2
      next =>
        split at hmatched
        · cases hmatched
        · dsimp only at hmatched
          split at hmatched <;> cases hmatched
  · rcases trialResult_libraryFileId today trial with hfile | hfile
    · exact htoday.allowed fileId (hfile ▸ hshown)
    · exact htrial.allowed fileId (hfile ▸ hshown)

theorem SongEngines.decide_ok {engines : SongEngines}
    (hfiles : (engines.repos.files.map LibraryFile.id).Nodup) {search : RecordingSearch}
    {result : IdentityMatchResult}
    (hresult : (outcome (engines.decide identity artist) search).1 = .ok result) :
    ResultOk engines.repos engines.exclusionsByIdentity identity result :=
  decide_gives (fun _ => chainPlan_ok hfiles) (fun _ _ htoday htrial => htoday.trial htrial) hresult

/-- What the engines decide for a song, whatever they have read before. -/
theorem songResult_eq {engines : SongEngines} {artists : List BroadcastArtist}
    {state later : EngineState} {result : IdentityMatchResult}
    (hartists : (artists.map BroadcastArtist.id).Nodup)
    (hstate : StateOk engines.repos artists state)
    (hresult : songResult engines artists identity state = (.ok result, later)) :
    StateOk engines.repos artists later ∧
      (((artists.find? fun artist => artist.id = identity.broadcastArtistId) = none ∧
          result = orphaned identity) ∨
        ∃ artist, (artists.find? fun artist => artist.id = identity.broadcastArtistId) =
          some artist ∧
          ((outcome (engines.decide identity artist) state.recordingSearch).1 = .ok result ∨
            result = mbDeferral ∧
              (outcome (engines.decide identity artist) state.recordingSearch).1 =
                .error .musicBrainzUnavailable)) := by
  unfold songResult at hresult
  cases hfind : artists.find? fun artist => artist.id = identity.broadcastArtistId with
  | none =>
      rw [hfind] at hresult
      obtain ⟨hok, rfl⟩ := Prod.mk.inj hresult
      exact ⟨hstate, .inl ⟨rfl, (Except.ok.inj hok).symm⟩⟩
  | some artist =>
      have hmem := List.mem_of_find?_eq_some hfind
      obtain ⟨hanswer, -, hreads⟩ := @SongEngines.resolve_simulates identity artist artists engines
        hartists hmem state hstate
      rw [outcome_map] at hanswer
      rw [hfind] at hresult
      dsimp only at hresult
      generalize outcome (engines.resolve identity artist) state = resolved at *
      obtain ⟨answer, after⟩ := resolved
      dsimp only at hanswer hreads
      subst hanswer
      cases hdecided : (outcome (engines.decide identity artist) state.recordingSearch).1 with
      | ok decided =>
          rw [hdecided] at hresult
          obtain ⟨hok, rfl⟩ := Prod.mk.inj hresult
          exact ⟨hreads, .inr ⟨artist, rfl, .inl (hdecided.trans hok)⟩⟩
      | error error =>
          rw [hdecided] at hresult
          cases error with
          | musicBrainzUnavailable =>
              obtain ⟨hok, rfl⟩ := Prod.mk.inj hresult
              exact ⟨hreads, .inr ⟨artist, rfl, .inr ⟨(Except.ok.inj hok).symm, hdecided⟩⟩⟩
          | musicBrainzFailed => cases (Prod.mk.inj hresult).1
          | noCandidates => cases (Prod.mk.inj hresult).1

theorem songResult_ok {engines : SongEngines} {artists : List BroadcastArtist}
    {state later : EngineState} {result : IdentityMatchResult}
    (hartists : (artists.map BroadcastArtist.id).Nodup)
    (hfiles : (engines.repos.files.map LibraryFile.id).Nodup)
    (hstate : StateOk engines.repos artists state)
    (hresult : songResult engines artists identity state = (.ok result, later)) :
    ResultOk engines.repos engines.exclusionsByIdentity identity result := by
  rcases (songResult_eq hartists hstate hresult).2 with ⟨-, rfl⟩ | ⟨artist, -, hdecided | ⟨rfl, -⟩⟩
  · exact .of_no_file rfl (.inr rfl)
  · exact SongEngines.decide_ok hfiles hdecided
  · exact .of_no_file rfl (.inr rfl)

end

/-! ## The induction over a run -/

/-- A run over the database comes to the result for the song. -/
def Results (config : EngineConfig) (db : Database) (playlistId : Uuid)
    (identity : BroadcastTrackIdentity) (result : IdentityMatchResult) : Prop :=
  ∃ state later, StateOk db.identityMatchingRepos (playlistArtists db playlistId) state ∧
    songResult (playlistEngines config db playlistId) (playlistArtists db playlistId)
      identity state =
      (.ok result, later)

section

variable {config : EngineConfig} {db : Database} {playlistId : Uuid}

theorem nodup_playlistArtists (hartists : Table.UniqueBy BroadcastArtist.id db.artists) :
    ((playlistArtists db playlistId).map BroadcastArtist.id).Nodup :=
  hartists.sublist (List.filter_sublist.map _)

theorem Results.ok {identity : BroadcastTrackIdentity} {result : IdentityMatchResult}
    (hartists : Table.UniqueBy BroadcastArtist.id db.artists)
    (hfiles : Table.UniqueBy LibraryFile.id db.files)
    (hresults : Results config db playlistId identity result) :
    ResultOk db.identityMatchingRepos
      (loadExclusions (db.getPendingForPlaylist playlistId) db.files) identity result := by
  obtain ⟨state, later, hstate, hresult⟩ := hresults
  exact @songResult_ok identity (playlistEngines config db playlistId) _ _ _ _
    (nodup_playlistArtists hartists) hfiles hstate hresult

/-- What writing each of a run's results keeps, the run keeps. -/
theorem matchIdentities_invariant {invariant : Database → Prop} {works : List String}
    {last : Database} (hartists : Table.UniqueBy BroadcastArtist.id db.artists)
    (hrun : matchIdentitiesForPlaylist config db playlistId = some (works, last))
    (hstart : invariant db)
    (hkeep : ∀ current identity result, invariant current →
      identity ∈ db.getPendingForPlaylist playlistId →
      Results config db playlistId identity result →
        invariant (persist current identity result).2) :
    invariant last := by
  obtain ⟨⟨trace, state⟩, hexec, heq⟩ := Option.map_eq_some_iff.mp hrun
  obtain ⟨rfl, rfl⟩ := Prod.mk.inj heq
  refine (@Transition.Machine.invariant_of_exec _ _ _ _ (fun state : PlaylistState =>
    StateOk db.identityMatchingRepos (playlistArtists db playlistId) state.engines ∧
      invariant state.db) _ _ _ _ hexec ⟨stateOk_start config _ _, hstart⟩ ?_).2
  rintro identity hmem current next done ⟨hreads, hcurrent⟩ hstep
  simp only [playlistMachine] at hstep
  split at hstep
  next result later hresult =>
    obtain ⟨rfl, rfl⟩ := Prod.mk.inj (Option.some.inj hstep)
    unfold groupedByArtist at hmem
    exact ⟨(@songResult_eq identity (playlistEngines config db playlistId) _ _ _ _
      (nodup_playlistArtists hartists) hreads hresult).1, hkeep _ _ _ hcurrent
      ((List.mem_insertionSort _).mp hmem) ⟨_, _, hreads, hresult⟩⟩
  · cases hstep

end

end RetroStation.Matching
