import RetroStation.Matching.Engines

/-! # What a chain decides

Without the reads it shares, a chain is a plan: it decides a song's result from
the library alone, or asks MusicBrainz once and decides from the answer. The
engines simulate their plans, whatever they have read before.
-/

namespace RetroStation.Matching

open Library Effect

/-- A result, or a search of an artist's recordings and what to make of them. -/
inductive Plan
  | decided (result : IdentityMatchResult)
  | searches (mbid : String) (decide : List MbRecording → IdentityMatchResult)

section

variable (config : EngineConfig) (repos : IdentityMatchingRepos)
  (exclusionsByIdentity : ExclusionsByIdentity) (titleScore : Option TitleScore)
  (identity : BroadcastTrackIdentity) (artist : BroadcastArtist)

def scoringOf : Scoring :=
  songScoring config.candidateScores identity.originalTitle config.strongMatchThreshold titleScore

def allowedOf (candidates : List LibraryFile) : List LibraryFile :=
  eligible candidates artist.normalizedName (exclusionsFor exclusionsByIdentity identity)

/-- Step A's candidates. -/
def mbidCandidates (mbid : String) : List LibraryFile :=
  allowedOf exclusionsByIdentity identity artist (getByArtistMbid repos.files mbid)

/-- Step B's candidates. -/
def searchCandidates (recordings : List MbRecording) : List LibraryFile :=
  allowedOf exclusionsByIdentity identity artist (recordingFiles repos recordings)

/-- The candidates by name. -/
def nameCandidates : List LibraryFile :=
  allowedOf exclusionsByIdentity identity artist
    (getByNormalizedArtistName repos.files artist.normalizedName SONG_NAME_LOOKUP_LIMIT)

/-- The best of the candidates by name, if there are any. -/
def nameResult : Option IdentityMatchResult :=
  (scoringOf config titleScore identity).best
    (nameCandidates repos exclusionsByIdentity identity artist) .localFileFuzzy

/-- Step C on what Steps A and B found: it runs unless they match the song. -/
def afterMbid (mbidResult : Option IdentityMatchResult) : IdentityMatchResult :=
  match mbidResult.filter (·.status = .autoMatched) with
  | some result => result
  | none =>
    (betterOf mbidResult
      (nameResult config repos exclusionsByIdentity titleScore identity artist)).getD noLocalFiles

/-- Whether Step B could add a file to Step A's. -/
def reaches (mbid : String) : Bool :=
  !config.recordingSearchReach || hasFileBeyondArtistMbid repos.files artist.normalizedName mbid

/-- Step A's result. -/
def mbidResult (mbid : String) : Option IdentityMatchResult :=
  (scoringOf config titleScore identity).best
    (mbidCandidates repos exclusionsByIdentity identity artist mbid) .musicbrainzIdExact

/-- Step B's result. -/
def searchResult (recordings : List MbRecording) : Option IdentityMatchResult :=
  (scoringOf config titleScore identity).best
    (searchCandidates repos exclusionsByIdentity identity artist recordings) .musicbrainzIdSearch

/-- Step A with Step B behind it, for an artist with an MBID. -/
def mbidPlan (mbid : String) : Plan :=
  let found := mbidResult config repos exclusionsByIdentity titleScore identity artist mbid
  if !found.any (·.status = .autoMatched) && reaches config repos artist mbid then
    .searches mbid fun recordings =>
      afterMbid config repos exclusionsByIdentity titleScore identity artist
        (betterOf found
          (searchResult config repos exclusionsByIdentity titleScore identity artist recordings))
  else .decided (afterMbid config repos exclusionsByIdentity titleScore identity artist found)

/-- The MBID of a resolved artist: what its match row names, unless that is a
catalog artist, which has its own or none. -/
def artistTarget : Except String (Option String) :=
  match repos.getByArtist artist.id with
  | none => .error "Artist is resolved but no match record found — data inconsistency"
  | some artistMatch =>
    let mbid := Text.stripText (artistMatch.targetId.getD "")
    if mbid = "" then .error "Artist match row has no valid target_id"
    else match repos.getCatalogArtist mbid with
    | some catalogArtist => .ok (truthy catalogArtist.mbid)
    | none => .ok (some mbid)

def chainPlan : Plan :=
  match identityMappingRule config repos exclusionsByIdentity identity with
  | some result => .decided result
  | none =>
    if isResolved artist then
      match artistTarget repos artist with
      | .error detail => .decided (missingMatchRecord detail)
      | .ok none =>
        .decided (afterMbid config repos exclusionsByIdentity titleScore identity artist none)
      | .ok (some mbid) =>
        mbidPlan config repos exclusionsByIdentity titleScore identity artist mbid
    else .decided
      ((nameResult config repos exclusionsByIdentity titleScore identity artist).getD
        (noCandidates artist))

/-- The run's search of MusicBrainz, alone. -/
def searchOnly (artistMbid title : String) : Comp RecordingSearch SongError (List MbRecording) := do
  let state ← get
  let (answer, search) := state.search config.mbClient artistMbid title
  set search
  match answer with
  | .ok recordings => return recordings
  | .error error => throw error

def Plan.run (config : EngineConfig) (title : String) :
    Plan → Comp RecordingSearch SongError IdentityMatchResult
  | .decided result => return result
  | .searches mbid decide => do
    let recordings ← searchOnly config mbid title
    return decide recordings

end

/-- What the engines decide, with MusicBrainz alone to ask. -/
def SongEngines.decide (engines : SongEngines) (identity : BroadcastTrackIdentity)
    (artist : BroadcastArtist) : Comp RecordingSearch SongError IdentityMatchResult := do
  let chain := fun titleScore =>
    (chainPlan engines.config engines.repos engines.exclusionsByIdentity titleScore identity
      artist).run engines.config (engines.config.searchTitle identity.originalTitle)
  let today ← chain none
  match engines.config.trialTitleScore with
  | some titleScore =>
    let trial ← chain (some titleScore)
    return trialResult today trial
  | none => return today

/-! ## The reads shared change nothing -/

/-- What a read of one artist answers. -/
def fetchOf (repos : IdentityMatchingRepos) (artist : BroadcastArtist) : (key : MemoKey) → key.Value
  | .artistMatch => repos.getByArtist artist.id
  | .catalog id => repos.getCatalogArtist id
  | .filesByMbid mbid => getByArtistMbid repos.files mbid
  | .filesByName =>
    getByNormalizedArtistName repos.files artist.normalizedName SONG_NAME_LOOKUP_LIMIT

def MemoOk (repos : IdentityMatchingRepos) (artists : List BroadcastArtist) (memo : ArtistMemo) :
    Prop :=
  ∀ artist ∈ artists, memo.artistId = some artist.id →
    ∀ key value, memo.reads key = some value → value = fetchOf repos artist key

structure StateOk (repos : IdentityMatchingRepos) (artists : List BroadcastArtist)
    (state : EngineState) : Prop where
  memo : ∀ reader, MemoOk repos artists (state.memo reader)
  reach : ∀ name mbid reach, state.reachByArtist.get? (name, mbid) = some reach →
    reach = hasFileBeyondArtistMbid repos.files name mbid

theorem stateOk_start (config : EngineConfig) (repos : IdentityMatchingRepos)
    (artists : List BroadcastArtist) : StateOk repos artists (.start config) where
  memo _ := fun _ _ _ _ _ hvalue => by simp [EngineState.start, ArtistMemo.empty] at hvalue
  reach _ _ _ hreach := by simp [EngineState.start] at hreach

section

variable {config : EngineConfig} {repos : IdentityMatchingRepos}
  {exclusionsByIdentity : ExclusionsByIdentity} {titleScore : Option TitleScore}
  {identity : BroadcastTrackIdentity} {artist : BroadcastArtist} {artists : List BroadcastArtist}

theorem ArtistMemo.read_ok {memo : ArtistMemo} (hids : (artists.map BroadcastArtist.id).Nodup)
    (hartist : artist ∈ artists) (hmemo : MemoOk repos artists memo) (key : MemoKey) :
    (memo.read artist key (fetchOf repos artist key)).1 = fetchOf repos artist key ∧
      MemoOk repos artists (memo.read artist key (fetchOf repos artist key)).2 := by
  have hcurrent : MemoOk repos artists
      (if memo.artistId = some artist.id then memo else ⟨some artist.id, fun _ => none⟩) := by
    split
    · exact hmemo
    · exact fun _ _ _ _ _ hvalue => by simp at hvalue
  have hid : (if memo.artistId = some artist.id then memo
      else ⟨some artist.id, fun _ => none⟩ : ArtistMemo).artistId = some artist.id := by
    split
    next hid => exact hid
    next => rfl
  unfold ArtistMemo.read
  dsimp only
  generalize (if memo.artistId = some artist.id then memo
    else ⟨some artist.id, fun _ => none⟩ : ArtistMemo) = current at hcurrent hid
  split
  next value hvalue => exact ⟨hcurrent artist hartist hid key value hvalue, hcurrent⟩
  next hnone =>
    refine ⟨rfl, fun other hother hotherId read value hvalue => ?_⟩
    dsimp only at hotherId hvalue
    have hsame : other = artist := List.inj_on_of_nodup_map hids hother hartist
      (Option.some.inj (hotherId.symm.trans hid))
    subst hsame
    by_cases hread : read = key
    · subst hread
      simpa using hvalue.symm
    · rw [Function.update_of_ne hread] at hvalue
      exact hcurrent other hother hotherId read value hvalue

theorem readMemo_known (hids : (artists.map BroadcastArtist.id).Nodup) (hartist : artist ∈ artists)
    (reader : Reader) (key : MemoKey) :
    Simulates (StateOk repos artists) EngineState.recordingSearch
      (readMemo reader artist key (fetchOf repos artist key))
      (pure (fetchOf repos artist key)) := by
  intro state hstate
  obtain ⟨hvalue, hmemo⟩ := ArtistMemo.read_ok hids hartist (hstate.memo reader) key
  refine ⟨congrArg Except.ok hvalue, rfl, fun other => ?_, hstate.reach⟩
  change MemoOk repos artists (Function.update state.memo reader _ other)
  by_cases hother : other = reader
  · subst hother
    rwa [Function.update_self]
  · rw [Function.update_of_ne hother]
    exact hstate.memo other

theorem searchCouldAddAFile_known (mbid : String) :
    Simulates (StateOk repos artists) EngineState.recordingSearch
      (searchCouldAddAFile config repos mbid artist) (pure (reaches config repos artist mbid)) := by
  intro state hstate
  unfold searchCouldAddAFile reaches
  cases config.recordingSearchReach with
  | false => exact ⟨rfl, rfl, hstate⟩
  | true =>
      simp only [Bool.not_true, Bool.false_eq_true, if_false, outcome_bind, outcome_get,
        Bool.false_or]
      cases hreach : state.reachByArtist.get? (artist.normalizedName, mbid) with
      | some reach =>
          refine ⟨?_, rfl, hstate⟩
          rw [hstate.reach _ _ _ hreach]
          rfl
      | none =>
          refine ⟨rfl, rfl, hstate.memo, fun name other reach hother => ?_⟩
          simp only [outcome_bind, outcome_set, outcome_pure] at hother
          rw [Dict.get?_set] at hother
          split at hother
          next hsame =>
            obtain ⟨rfl, rfl⟩ := Prod.mk.inj hsame
            exact (Option.some.inj hother).symm
          next => exact hstate.reach name other reach hother

theorem searchRecordings_simulates (mbid title : String) :
    Simulates (StateOk repos artists) EngineState.recordingSearch
      (searchRecordings config mbid title) (searchOnly config mbid title) := by
  intro state hstate
  unfold searchRecordings searchOnly
  simp only [outcome_bind, outcome_get, outcome_set]
  cases (state.recordingSearch.search config.mbClient mbid title).1 with
  | ok recordings => exact ⟨rfl, rfl, hstate.memo, hstate.reach⟩
  | error error => exact ⟨rfl, rfl, hstate.memo, hstate.reach⟩

@[simp] theorem betterOf_none_left (nameResult : Option IdentityMatchResult) :
    betterOf none nameResult = nameResult := by
  cases nameResult <;> rfl

@[simp] theorem betterOf_none_right (mbidResult : Option IdentityMatchResult) :
    betterOf mbidResult none = mbidResult := by
  cases mbidResult <;> rfl

theorem score_known {candidates : List LibraryFile} {tier : MatchTier}
    {result : IdentityMatchResult}
    (hresult : (scoringOf config titleScore identity).best candidates tier = some result) :
    Simulates (StateOk repos artists) EngineState.recordingSearch
      (score config titleScore identity candidates tier) (pure result) := by
  unfold score scoreCandidates
  rw [scoringOf] at hresult
  rw [hresult]
  exact .pure result

theorem nameLookupCandidates_known (hids : (artists.map BroadcastArtist.id).Nodup)
    (hartist : artist ∈ artists) (reader : Reader) :
    Simulates (StateOk repos artists) EngineState.recordingSearch
      (nameLookupCandidates repos reader artist (exclusionsFor exclusionsByIdentity identity))
      (pure (nameCandidates repos exclusionsByIdentity identity artist)) :=
  (readMemo_known hids hartist reader .filesByName).bind_known (.pure _)

/-- Step B asks MusicBrainz once, when it could add a file. -/
theorem mbRecordingSearch_simulates (mbid : String) :
    Simulates (StateOk repos artists) EngineState.recordingSearch
      (mbRecordingSearch config repos exclusionsByIdentity titleScore mbid identity artist)
      (if reaches config repos artist mbid then do
          let recordings ← searchOnly config mbid (config.searchTitle identity.originalTitle)
          return searchResult config repos exclusionsByIdentity titleScore identity
            artist recordings
        else pure none) := by
  unfold mbRecordingSearch
  refine (searchCouldAddAFile_known mbid).bind_known ?_
  cases reaches config repos artist mbid with
  | false => exact .pure none
  | true =>
      refine (searchRecordings_simulates mbid _).bind fun recordings => ?_
      change Simulates _ _ (if (searchCandidates repos exclusionsByIdentity identity artist
        recordings).isEmpty then pure none else _) _
      unfold searchResult
      cases hbest : (scoringOf config titleScore identity).best
          (searchCandidates repos exclusionsByIdentity identity artist recordings)
          .musicbrainzIdSearch with
      | none =>
          rw [Scoring.best_eq_none_iff] at hbest
          rw [hbest]
          exact .pure none
      | some result =>
          have hsome : searchCandidates repos exclusionsByIdentity identity artist recordings ≠
            [] :=
            fun hnone => by simp [Scoring.best_eq_none_iff.mpr hnone] at hbest
          rw [if_neg (by simpa using hsome)]
          exact (score_known hbest).bind_known (.pure _)

theorem artistMbidSteps_simulates (hids : (artists.map BroadcastArtist.id).Nodup)
    (hartist : artist ∈ artists) (mbid : String) :
    let found := mbidResult config repos exclusionsByIdentity titleScore identity artist mbid
    Simulates (StateOk repos artists) EngineState.recordingSearch
      (artistMbidSteps config repos exclusionsByIdentity titleScore mbid identity artist
        (exclusionsFor exclusionsByIdentity identity))
      (if !found.any (·.status = .autoMatched) && reaches config repos artist mbid then do
          let recordings ← searchOnly config mbid (config.searchTitle identity.originalTitle)
          return betterOf found
            (searchResult config repos exclusionsByIdentity titleScore identity artist recordings)
        else pure found) := by
  intro found
  unfold artistMbidSteps
  refine (readMemo_known hids hartist _ (.filesByMbid mbid)).bind_known ?_
  change Simulates _ _ (if (mbidCandidates repos exclusionsByIdentity identity artist
    mbid).isEmpty then _ else _) _
  have hsearch := @mbRecordingSearch_simulates config repos exclusionsByIdentity titleScore identity
    artist artists mbid
  cases hfound : found with
  | none =>
      rw [Scoring.best_eq_none_iff.mp hfound]
      simp only [List.isEmpty_nil, if_true, Option.any_none, Bool.not_false, Bool.true_and,
        betterOf_none_left]
      exact hsearch
  | some result =>
      have hsome : mbidCandidates repos exclusionsByIdentity identity artist mbid ≠ [] :=
        fun hnone => by simp [found, mbidResult, Scoring.best_eq_none_iff.mpr hnone] at hfound
      rw [if_neg (by simpa using hsome)]
      refine (score_known hfound).bind_known ?_
      simp only [Option.any_some]
      by_cases hmatched : result.status = .autoMatched
      · simp only [hmatched, if_true, decide_true, Bool.not_true, Bool.false_and,
          Bool.false_eq_true, if_false]
        exact .pure _
      · simp only [hmatched, if_false, decide_false, Bool.not_false, Bool.true_and]
        have hspec : (if reaches config repos artist mbid then do
              let recordings ← searchOnly config mbid (config.searchTitle identity.originalTitle)
              return betterOf (some result) (searchResult config repos exclusionsByIdentity
                titleScore identity artist recordings)
            else pure (some result) : Comp RecordingSearch SongError (Option IdentityMatchResult)) =
            (if reaches config repos artist mbid then do
              let recordings ← searchOnly config mbid (config.searchTitle identity.originalTitle)
              return searchResult config repos exclusionsByIdentity titleScore identity artist
                recordings
            else pure none) >>= fun mbResult => pure (betterOf (some result) mbResult) := by
          split <;> simp [betterOf]
        rw [hspec]
        refine hsearch.bind fun mbResult => ?_
        cases mbResult with
        | none => exact .pure _
        | some mbResult =>
            simp only [betterOf]
            split
            · exact .pure _
            · exact .pure _

theorem nameStep_known (hids : (artists.map BroadcastArtist.id).Nodup) (hartist : artist ∈ artists)
    (found : Option IdentityMatchResult) :
    Simulates (StateOk repos artists) EngineState.recordingSearch
      (nameStep config repos titleScore found identity artist
        (exclusionsFor exclusionsByIdentity identity))
      (pure (some (afterMbid config repos exclusionsByIdentity titleScore identity
        artist found))) := by
  have hbest : ∀ best : IdentityMatchResult,
      (found.filter (·.status = .autoMatched)) = some best → found = some best := by
    intro best hfilter
    exact (Option.filter_eq_some_iff.mp hfilter).1
  unfold nameStep afterMbid
  cases hmatched : found.filter (·.status = .autoMatched) with
  | some result =>
      obtain ⟨rfl, hstatus⟩ := Option.filter_eq_some_iff.mp hmatched
      rw [if_pos (by simpa using hstatus)]
      exact .pure _
  | none =>
      rw [if_neg (by
        intro hany
        obtain ⟨result, rfl, hstatus⟩ := (Option.any_eq_true _ _).mp hany
        simp [Option.filter, hstatus] at hmatched)]
      refine (nameLookupCandidates_known hids hartist _).bind_known ?_
      unfold nameResult
      cases hresult : (scoringOf config titleScore identity).best
          (nameCandidates repos exclusionsByIdentity identity artist) .localFileFuzzy with
      | none =>
          rw [Scoring.best_eq_none_iff.mp hresult]
          exact .pure _
      | some result =>
          have hsome : nameCandidates repos exclusionsByIdentity identity artist ≠ [] :=
            fun hnone => by simp [Scoring.best_eq_none_iff.mpr hnone] at hresult
          rw [if_neg (by simpa using hsome)]
          exact ((score_known hresult).map_known some).bind_known (.pure _)

theorem mbidPlan_simulates (hids : (artists.map BroadcastArtist.id).Nodup)
    (hartist : artist ∈ artists) (mbid : String) :
    Simulates (StateOk repos artists) EngineState.recordingSearch
      (artistMbidSteps config repos exclusionsByIdentity titleScore mbid identity artist
        (exclusionsFor exclusionsByIdentity identity) >>= fun found =>
          nameStep config repos titleScore found identity artist
            (exclusionsFor exclusionsByIdentity identity))
      (some <$> (mbidPlan config repos exclusionsByIdentity titleScore identity artist
        mbid).run config
        (config.searchTitle identity.originalTitle)) := by
  have hspec : some <$> (mbidPlan config repos exclusionsByIdentity titleScore identity artist
      mbid).run config (config.searchTitle identity.originalTitle) =
      (if !(mbidResult config repos exclusionsByIdentity titleScore identity artist mbid).any
            (·.status = .autoMatched) && reaches config repos artist mbid then do
          let recordings ← searchOnly config mbid (config.searchTitle identity.originalTitle)
          return betterOf (mbidResult config repos exclusionsByIdentity titleScore
            identity artist mbid)
            (searchResult config repos exclusionsByIdentity titleScore identity artist recordings)
        else
          pure (mbidResult config repos exclusionsByIdentity titleScore identity artist mbid)) >>=
      fun found => pure (some (afterMbid config repos exclusionsByIdentity titleScore
        identity artist
        found)) := by
    unfold mbidPlan
    dsimp only
    split <;> simp [Plan.run]
  rw [hspec]
  exact (artistMbidSteps_simulates hids hartist mbid).bind
    fun found => nameStep_known hids hartist found

theorem resolvedArtistMbid_simulates (hids : (artists.map BroadcastArtist.id).Nodup)
    (hartist : artist ∈ artists) (hresolved : isResolved artist)
    (hrule : identityMappingRule config repos exclusionsByIdentity identity = none) :
    Simulates (StateOk repos artists) EngineState.recordingSearch
      (resolvedArtistMbid config repos exclusionsByIdentity titleScore identity artist)
      (some <$> (chainPlan config repos exclusionsByIdentity titleScore identity artist).run config
        (config.searchTitle identity.originalTitle)) := by
  unfold resolvedArtistMbid chainPlan artistTarget
  rw [hrule, hresolved]
  simp only [Bool.not_true, Bool.false_eq_true, if_false, if_true]
  refine (readMemo_known hids hartist _ .artistMatch).bind_known ?_
  simp only [fetchOf]
  cases repos.getByArtist artist.id with
  | none => exact .pure _
  | some artistMatch =>
      dsimp only
      split
      · exact .pure _
      · refine (readMemo_known hids hartist _ (.catalog _)).bind_known ?_
        simp only [fetchOf]
        cases repos.getCatalogArtist (Text.stripText (artistMatch.targetId.getD "")) with
        | some catalogArtist =>
            dsimp only
            cases truthy catalogArtist.mbid with
            | none =>
                exact (Simulates.pure none).bind_known (nameStep_known hids hartist none)
            | some mbid => exact mbidPlan_simulates hids hartist mbid
        | none => exact mbidPlan_simulates hids hartist _

theorem broadcastToLocal_known (hids : (artists.map BroadcastArtist.id).Nodup)
    (hartist : artist ∈ artists) (hresolved : isResolved artist = false) :
    Simulates (StateOk repos artists) EngineState.recordingSearch
      (broadcastToLocal config repos exclusionsByIdentity titleScore identity artist)
      (pure (some ((nameResult config repos exclusionsByIdentity titleScore identity artist).getD
        (noCandidates artist)))) := by
  unfold broadcastToLocal nameResult
  rw [hresolved]
  simp only [Bool.false_eq_true, if_false]
  refine (nameLookupCandidates_known hids hartist _).bind_known ?_
  cases hresult : (scoringOf config titleScore identity).best
      (nameCandidates repos exclusionsByIdentity identity artist) .localFileFuzzy with
  | none =>
      rw [Scoring.best_eq_none_iff.mp hresult]
      exact .pure _
  | some result =>
      have hsome : nameCandidates repos exclusionsByIdentity identity artist ≠ [] :=
        fun hnone => by simp [Scoring.best_eq_none_iff.mpr hnone] at hresult
      rw [if_neg (by simpa using hsome)]
      exact (score_known hresult).bind_known (.pure _)

/-- A chain simulates its plan. -/
theorem resolveChain_simulates (hids : (artists.map BroadcastArtist.id).Nodup)
    (hartist : artist ∈ artists) :
    Simulates (StateOk repos artists) EngineState.recordingSearch
      (resolveChain config repos exclusionsByIdentity titleScore identity artist)
      (some <$> (chainPlan config repos exclusionsByIdentity titleScore identity artist).run config
        (config.searchTitle identity.originalTitle)) := by
  unfold resolveChain
  cases hrule : identityMappingRule config repos exclusionsByIdentity identity with
  | some result =>
      rw [chainPlan, hrule]
      exact .pure _
  | none =>
      dsimp only
      cases hresolved : isResolved artist with
      | true =>
          rw [← bind_pure_comp]
          exact (resolvedArtistMbid_simulates hids hartist hresolved hrule).bind_map
            fun result => .pure (some result)
      | false =>
          have hnone : resolvedArtistMbid config repos exclusionsByIdentity titleScore identity
              artist = pure none := by
            unfold resolvedArtistMbid
            simp [hresolved]
          rw [hnone, pure_bind, chainPlan, hrule, hresolved]
          exact broadcastToLocal_known hids hartist hresolved

/-- The engines decide as they would with nothing read before. -/
theorem SongEngines.resolve_simulates (engines : SongEngines)
    (hids : (artists.map BroadcastArtist.id).Nodup) (hartist : artist ∈ artists) :
    Simulates (StateOk engines.repos artists) EngineState.recordingSearch
      (engines.resolve identity artist) (some <$> engines.decide identity artist) := by
  unfold resolve decide
  cases htrial : engines.config.trialTitleScore with
  | none =>
      simp only [bind_pure]
      exact resolveChain_simulates hids hartist
  | some titleScore =>
      simp only [map_bind, map_pure]
      refine (resolveChain_simulates hids hartist).bind_map fun today => ?_
      exact (resolveChain_simulates hids hartist).bind_map
        fun trial => .pure (some (trialResult today trial))

end

end RetroStation.Matching
