import RetroStation.Matching.Exclusions

/-! # The recording-search pre-check

Step B is skipped for an artist with no file it could add to Step A's. Every file a
search can come back with is then scored by Step A already, and Step A keeps its
result unless Step B's score is strictly better: whatever MusicBrainz would have
answered, the search changes nothing.
-/

namespace RetroStation.Matching

open Library Effect

/-- A result's score is that of a candidate, and no candidate's is higher. -/
theorem Scoring.score_le_best {scoring : Scoring} {candidates : List LibraryFile}
    {tier : MatchTier} {result : IdentityMatchResult}
    (hbest : scoring.best candidates tier = some result) :
    (∃ file ∈ candidates, scoring.score file = result.confidenceScore) ∧
      ∀ file ∈ candidates, scoring.score file ≤ result.confidenceScore := by
  have hperm := List.perm_insertionSort scoring.RanksBefore candidates
  have hsorted := List.pairwise_insertionSort scoring.RanksBefore candidates
  unfold Scoring.best at hbest
  generalize candidates.insertionSort scoring.RanksBefore = ranked at hperm hsorted hbest
  cases ranked with
  | nil => cases hbest
  | cons first rest =>
      obtain rfl := Option.some.inj hbest
      refine ⟨⟨first, hperm.mem_iff.mp List.mem_cons_self, rfl⟩, fun file hfile => ?_⟩
      rcases List.mem_cons.mp (hperm.mem_iff.mpr hfile) with rfl | hrest
      · exact le_refl _
      · exact ((List.pairwise_cons.mp hsorted).1 file hrest).score_le

section

variable {config : EngineConfig} {repos : IdentityMatchingRepos}
  {exclusionsByIdentity : ExclusionsByIdentity} {titleScore : Option TitleScore}
  {identity : BroadcastTrackIdentity} {artist : BroadcastArtist} {mbid : String}

/-! ## What a search can come back with -/

theorem recordingMbid_of_mem {recordings : List MbRecording} {file : LibraryFile}
    (hfile : file ∈ recordingFiles repos recordings) : file.audio.recordingMbid.isSome := by
  obtain ⟨recordingMbid, -, hfound⟩ := List.mem_flatMap.mp (mem_dedupById hfile).1
  rw [(mem_getByRecordingMbid.mp hfound).2.1]
  rfl

/-- Without a file beyond the artist's MBID, Step B's candidates are among Step A's. -/
theorem mbidCandidates_of_search {recordings : List MbRecording} {file : LibraryFile}
    (hbeyond : hasFileBeyondArtistMbid repos.files artist.normalizedName mbid = false)
    (hfile : file ∈ searchCandidates repos exclusionsByIdentity identity artist recordings) :
    file ∈ mbidCandidates repos exclusionsByIdentity identity artist mbid := by
  obtain ⟨hfound, hname, hallows⟩ := mem_allowedOf.mp hfile
  obtain ⟨hmem, hpresent⟩ := mem_recordingFiles hfound
  refine mem_allowedOf.mpr ⟨mem_getByArtistMbid.mpr ⟨hmem, ?_⟩, hname, hallows⟩
  by_contra htags
  obtain ⟨hartist, halbumArtist⟩ := not_or.mp htags
  have hreach := List.any_eq_false.mp hbeyond file hmem
  exact hreach (decide_eq_true
    ⟨hname, hpresent, recordingMbid_of_mem hfound, hartist, halbumArtist⟩)

/-- A search that comes back with Step A's candidates only never displaces Step A. -/
theorem betterOf_searchResult (recordings : List MbRecording)
    (hbeyond : hasFileBeyondArtistMbid repos.files artist.normalizedName mbid = false) :
    betterOf (mbidResult config repos exclusionsByIdentity titleScore identity artist mbid)
        (searchResult config repos exclusionsByIdentity titleScore identity artist recordings) =
      mbidResult config repos exclusionsByIdentity titleScore identity artist mbid := by
  cases hsearch : searchResult config repos exclusionsByIdentity titleScore identity artist
      recordings with
  | none => exact betterOf_none_right _
  | some found =>
      obtain ⟨⟨file, hfile, hscore⟩, -⟩ := Scoring.score_le_best hsearch
      have hstepA := @mbidCandidates_of_search repos exclusionsByIdentity identity artist mbid
        recordings file hbeyond hfile
      cases hlocal : mbidResult config repos exclusionsByIdentity titleScore identity artist
          mbid with
      | none =>
          rw [Scoring.best_eq_none_iff.mp hlocal] at hstepA
          cases hstepA
      | some result =>
          have hle := (Scoring.score_le_best hlocal).2 file hstepA
          rw [hscore] at hle
          exact if_neg (not_lt.mpr hle)

/-! ## The same result with the pre-check and without -/

/-- The engines with Step B's pre-check, or without it. -/
def EngineConfig.withPreCheck (config : EngineConfig) (preCheck : Bool) : EngineConfig :=
  { config with recordingSearchReach := preCheck }

/-- MusicBrainz answers every call, and the run has not cut it off. -/
structure MusicBrainzAnswers (config : EngineConfig) (search : RecordingSearch) : Prop where
  client : ∀ calls artistMbid title, ∃ recordings,
    config.mbClient calls artistMbid title = .ok recordings
  cutOff : search.cutOff = false

theorem searchOnly_answers {search : RecordingSearch} (hanswers : MusicBrainzAnswers config search)
    (title : String) :
    ∃ recordings, (outcome (searchOnly config mbid title) search).1 = .ok recordings := by
  unfold searchOnly
  simp only [outcome_bind, outcome_get, outcome_set]
  unfold RecordingSearch.search
  rw [hanswers.cutOff]
  cases search.answers.bind (·.get? (mbid, title)) with
  | some recordings => exact ⟨recordings, rfl⟩
  | none =>
      obtain ⟨recordings, hcall⟩ := hanswers.client search.calls mbid title
      refine ⟨recordings, ?_⟩
      simp only [Bool.false_eq_true, if_false, hcall]
      rfl

/-- A plan that makes the same of every answer need not have asked. -/
theorem Plan.run_searches {decide : List MbRecording → IdentityMatchResult}
    {result : IdentityMatchResult} {search : RecordingSearch} (title : String)
    (hanswers : MusicBrainzAnswers config search)
    (hsame : ∀ recordings, decide recordings = result) :
    (outcome ((Plan.searches mbid decide).run config title) search).1 = .ok result := by
  obtain ⟨recordings, hanswer⟩ := @searchOnly_answers config mbid search hanswers title
  rw [Plan.run, outcome_bind]
  generalize outcome (searchOnly config mbid title) search = answered at hanswer
  obtain ⟨answer, later⟩ := answered
  obtain rfl : answer = .ok recordings := hanswer
  exact congrArg Except.ok (hsame recordings)

theorem mbidPlan_preCheck {search : RecordingSearch} (title : String)
    (hanswers : MusicBrainzAnswers config search) :
    (outcome ((mbidPlan (config.withPreCheck true) repos exclusionsByIdentity titleScore identity
        artist mbid).run config title) search).1 =
      (outcome ((mbidPlan (config.withPreCheck false) repos exclusionsByIdentity titleScore identity
        artist mbid).run config title) search).1 := by
  cases hbeyond : hasFileBeyondArtistMbid repos.files artist.normalizedName mbid with
  | true =>
      -- Both ask.
      have hreaches (preCheck : Bool) :
          reaches (config.withPreCheck preCheck) repos artist mbid = true := by
        cases preCheck <;> simp [reaches, EngineConfig.withPreCheck, hbeyond]
      unfold mbidPlan
      rw [hreaches, hreaches]
      rfl
  | false =>
      have hskips : reaches (config.withPreCheck true) repos artist mbid = false := by
        simp [reaches, EngineConfig.withPreCheck, hbeyond]
      unfold mbidPlan
      dsimp only
      rw [hskips, Bool.and_false, if_neg Bool.false_ne_true]
      split
      · -- Only the one without the pre-check asks, and makes nothing of the answer.
        refine (Plan.run_searches title hanswers fun recordings => ?_).symm
        exact congrArg _ (betterOf_searchResult recordings hbeyond)
      · rfl

theorem chainPlan_preCheck {search : RecordingSearch} (title : String)
    (hanswers : MusicBrainzAnswers config search) :
    (outcome ((chainPlan (config.withPreCheck true) repos exclusionsByIdentity titleScore identity
        artist).run config title) search).1 =
      (outcome ((chainPlan (config.withPreCheck false) repos exclusionsByIdentity
        titleScore identity
        artist).run config title) search).1 := by
  have hrule : identityMappingRule (config.withPreCheck true) repos exclusionsByIdentity identity =
      identityMappingRule (config.withPreCheck false) repos exclusionsByIdentity identity := rfl
  unfold chainPlan
  rw [hrule]
  split
  · rfl
  · split
    · split
      · rfl
      · rfl
      · exact mbidPlan_preCheck title hanswers
    · rfl

/-- With the recording-search pre-check and without it, a resolved artist's strategy has the
same result for every song, library, rejections and title scorer, whatever MusicBrainz
answers and whatever of the artist has been read before. -/
theorem resolvedArtistMbid_preCheck (state : EngineState)
    (hstate : StateOk repos [artist] state)
    (hanswers : MusicBrainzAnswers config state.recordingSearch) :
    (outcome (resolvedArtistMbid (config.withPreCheck true) repos exclusionsByIdentity titleScore
        identity artist) state).1 =
      (outcome (resolvedArtistMbid (config.withPreCheck false) repos exclusionsByIdentity titleScore
        identity artist) state).1 := by
  cases hresolved : isResolved artist with
  | false => simp [resolvedArtistMbid, hresolved]
  | true =>
      -- The strategy reads no mapping rule, so it is the chain of a library without any.
      have hplan (preCheck : Bool) := (@resolvedArtistMbid_simulates
        (config.withPreCheck preCheck) { repos with rules := [] } exclusionsByIdentity titleScore
        identity artist [artist] (List.nodup_singleton _) List.mem_cons_self hresolved rfl
        state ⟨hstate.memo, hstate.reach⟩).1
      -- Both runs follow their plans, and the two plans search the same.
      refine (hplan true).trans (Eq.trans ?_ (hplan false).symm)
      rw [outcome_map, outcome_map]
      exact congrArg (Except.map some) (@chainPlan_preCheck config _ _ _ _ _ _ _ hanswers)

end

/-- A resolved artist whose one tagged file scores too low to match by itself. -/
def resolvedAbba : BroadcastArtist := { abba with matchStatus := .autoMatched }

def taggedCopy : IdentityMatchingRepos where
  rules := []
  files := [
    { id := 1, filePath := "/a.flac"
      audio := {
        normalizedArtistName := some "abba"
        artistMbid := some "M"
        recordingMbid := some "R" } }]
  matchRows := [{
    subject := .artist 1
    confidenceScore := 100
    matchTier := .musicbrainzIdExact
    targetId := some "M" }]
  catalog := []

/-- Every title scores 70, and MusicBrainz knows one recording. -/
def midwayConfig : EngineConfig :=
  { literalConfig with
    candidateScores := fun _ _ _ => (70, 70)
    mbClient := fun _ _ _ => .ok [⟨some "R"⟩] }

theorem resolvedArtistMbid_preCheck_taggedCopy :
    (outcome (resolvedArtistMbid (midwayConfig.withPreCheck true) taggedCopy .empty none
        rejectedCopySong resolvedAbba) (.start midwayConfig)).1 =
      (outcome (resolvedArtistMbid (midwayConfig.withPreCheck false) taggedCopy .empty none
        rejectedCopySong resolvedAbba) (.start midwayConfig)).1 :=
  resolvedArtistMbid_preCheck (.start midwayConfig)
    (stateOk_start midwayConfig taggedCopy [resolvedAbba])
    ⟨fun _ _ _ => ⟨_, rfl⟩, rfl⟩

end RetroStation.Matching
