import RetroStation.Matching.Exclusions
import RetroStation.Matching.Playlist

/-! # Missing files that match

The lookups by name and by recording answer present files only; a mapping rule
and the lookup by artist MBID answer files of any status. A matching run shows a
missing file exactly where one of these two names it and nothing outscores it.
-/

namespace RetroStation.Matching

open Library Effect

/-- The result is worth showing and shows `file`. -/
def IdentityMatchResult.Shows (result : IdentityMatchResult) (file : LibraryFile) : Prop :=
  result.status ≠ .autoRejected ∧ result.libraryFileId = some file.id

/-- The result shows a file that is not on disk. -/
def ShowsMissing (files : List LibraryFile) (result : IdentityMatchResult) : Prop :=
  ∃ file ∈ files, file.fileStatus ≠ .present ∧ result.Shows file

/-- The plan's result when MusicBrainz answers `recordings`. -/
def Plan.resultOn (recordings : List MbRecording) : Plan → IdentityMatchResult
  | .decided result => result
  | .searches _ decide => decide recordings

/-- Whether the plan asks MusicBrainz. -/
def Plan.asks : Plan → Bool
  | .decided _ => false
  | .searches _ _ => true

section

variable {config : EngineConfig} {repos : IdentityMatchingRepos}
  {exclusionsByIdentity : ExclusionsByIdentity} {titleScore : Option TitleScore}
  {identity : BroadcastTrackIdentity} {artist : BroadcastArtist} {mbid : String}
  {recordings : List MbRecording}

theorem not_showsMissing_of_no_file {files : List LibraryFile} {result : IdentityMatchResult}
    (hnone : result.libraryFileId = none) : ¬ ShowsMissing files result := by
  rintro ⟨file, -, -, -, hfile⟩
  simp [hnone] at hfile

theorem not_showsMissing_of_present {files : List LibraryFile} {result : IdentityMatchResult}
    {file : LibraryFile} (hfiles : (files.map LibraryFile.id).Nodup) (hmem : file ∈ files)
    (hpresent : file.fileStatus = .present) (hid : result.libraryFileId = some file.id) :
    ¬ ShowsMissing files result := by
  rintro ⟨other, hother, hmissing, -, hshown⟩
  have hsame : other = file := List.inj_on_of_nodup_map hfiles hother hmem
    (Option.some.inj (hshown.symm.trans hid))
  exact hmissing (hsame ▸ hpresent)

/-- The lookup by name answers files on disk. -/
theorem nameResult_present (hfiles : (repos.files.map LibraryFile.id).Nodup)
    {result : IdentityMatchResult}
    (hresult : nameResult config repos exclusionsByIdentity titleScore identity artist =
      some result) : ¬ ShowsMissing repos.files result := by
  obtain ⟨file, hscored⟩ := Scoring.scoredFrom_of_best (nodup_nameCandidates hfiles) hresult
  obtain ⟨hmem, -, hpresent⟩ :=
    of_mem_getByNormalizedArtistName (mem_allowedOf.mp hscored.leads.1).1
  exact not_showsMissing_of_present hfiles hmem hpresent hscored.fileId

/-- The lookup by recording answers files on disk. -/
theorem searchResult_present (hfiles : (repos.files.map LibraryFile.id).Nodup)
    {result : IdentityMatchResult}
    (hresult : searchResult config repos exclusionsByIdentity titleScore identity artist
      recordings = some result) : ¬ ShowsMissing repos.files result := by
  obtain ⟨file, hscored⟩ := Scoring.scoredFrom_of_best (nodup_searchCandidates recordings) hresult
  obtain ⟨hmem, hpresent⟩ := mem_recordingFiles (mem_allowedOf.mp hscored.leads.1).1
  exact not_showsMissing_of_present hfiles hmem hpresent hscored.fileId

/-- A missing file tagged with the artist's MBID leads Step A, and nothing outscores
it: it matches the song by itself, or it is worth showing and no candidate of the
steps behind it has a higher score. -/
structure MissingLeads (config : EngineConfig) (repos : IdentityMatchingRepos)
    (exclusionsByIdentity : ExclusionsByIdentity) (titleScore : Option TitleScore)
    (identity : BroadcastTrackIdentity) (artist : BroadcastArtist) (mbid : String)
    (recordings : List MbRecording) (file : LibraryFile) : Prop where
  leads : (scoringOf config titleScore identity).Leads
    (mbidCandidates repos exclusionsByIdentity identity artist mbid) file
  missing : file.fileStatus ≠ .present
  shown : (scoringOf config titleScore identity).WinsOutright
      (mbidCandidates repos exclusionsByIdentity identity artist mbid) file ∨
    SONG_MIN_PRESENTATION_SCORE ≤ (scoringOf config titleScore identity).score file ∧
      (∀ other ∈ nameCandidates repos exclusionsByIdentity identity artist,
        (scoringOf config titleScore identity).score other ≤
          (scoringOf config titleScore identity).score file) ∧
      (reaches config repos artist mbid →
        ∀ other ∈ searchCandidates repos exclusionsByIdentity identity artist recordings,
          (scoringOf config titleScore identity).score other ≤
            (scoringOf config titleScore identity).score file)

/-- The first of two results stays unless the second scores higher. -/
theorem betterOf_eq_left {first : IdentityMatchResult} {second : Option IdentityMatchResult}
    (hscore : ∀ result, second = some result → result.confidenceScore ≤ first.confidenceScore) :
    betterOf (some first) second = some first := by
  cases second with
  | none => rfl
  | some result => simp [betterOf, not_lt.mpr (hscore result rfl)]

theorem score_le_of_best {scoring : Scoring} {candidates : List LibraryFile} {tier : MatchTier}
    {bound : Rat} (hids : (candidates.map LibraryFile.id).Nodup)
    (hbound : ∀ other ∈ candidates, scoring.score other ≤ bound) :
    ∀ result, scoring.best candidates tier = some result → result.confidenceScore ≤ bound := by
  intro result hresult
  obtain ⟨file, hscored⟩ := Scoring.scoredFrom_of_best hids hresult
  rw [hscored.score]
  exact hbound file hscored.leads.1

/-- A merge whose second result does not show the missing file that it shows kept the
first, over every candidate of the second. -/
theorem of_showsMissing_betterOf {scoring : Scoring} {candidates : List LibraryFile}
    {tier : MatchTier} {found : Option IdentityMatchResult} {result : IdentityMatchResult}
    (hids : (candidates.map LibraryFile.id).Nodup) (hshows : ShowsMissing repos.files result)
    (hpresent : ∀ second, scoring.best candidates tier = some second →
      ¬ ShowsMissing repos.files second)
    (hresult : betterOf found (scoring.best candidates tier) = some result) :
    found = some result ∧ ∀ other ∈ candidates, scoring.score other ≤ result.confidenceScore := by
  cases hsecond : scoring.best candidates tier with
  | none =>
      rw [hsecond, betterOf_none_right] at hresult
      exact ⟨hresult, by simp [Scoring.best_eq_none_iff.mp hsecond]⟩
  | some second =>
      obtain ⟨file, hscored⟩ := Scoring.scoredFrom_of_best hids hsecond
      rw [hsecond] at hresult
      cases found with
      | none =>
          obtain rfl := Option.some.inj hresult
          exact absurd hshows (hpresent _ hsecond)
      | some first =>
          simp only [betterOf] at hresult
          split at hresult
          · obtain rfl := Option.some.inj hresult
            exact absurd hshows (hpresent _ hsecond)
          next hle =>
            obtain rfl := Option.some.inj hresult
            refine ⟨rfl, fun other hother => (hscored.leads.score_le hother).trans ?_⟩
            rw [← hscored.score]
            exact not_lt.mp hle

/-- What Step C leaves a missing file standing on. -/
theorem showsMissing_afterMbid_iff (hfiles : (repos.files.map LibraryFile.id).Nodup)
    {found : Option IdentityMatchResult} :
    ShowsMissing repos.files
        (afterMbid config repos exclusionsByIdentity titleScore identity artist found) ↔
      ∃ result, found = some result ∧ ShowsMissing repos.files result ∧
        (result.status = .autoMatched ∨
          ∀ other ∈ nameCandidates repos exclusionsByIdentity identity artist,
            (scoringOf config titleScore identity).score other ≤ result.confidenceScore) := by
  constructor
  · intro hshows
    unfold afterMbid at hshows
    split at hshows
    next result hmatched =>
      obtain ⟨hfound, hstatus⟩ := Option.filter_eq_some_iff.mp hmatched
      exact ⟨result, hfound, hshows, .inl (by simpa using hstatus)⟩
    next =>
      cases hbest : betterOf found
          (nameResult config repos exclusionsByIdentity titleScore identity artist) with
      | none =>
          rw [hbest] at hshows
          exact absurd hshows (not_showsMissing_of_no_file rfl)
      | some result =>
          rw [hbest] at hshows
          obtain ⟨hfound, hscores⟩ := of_showsMissing_betterOf (nodup_nameCandidates hfiles) hshows
            (fun second hsecond => nameResult_present hfiles hsecond) hbest
          exact ⟨result, hfound, hshows, .inr hscores⟩
  · rintro ⟨result, rfl, hshows, hkept⟩
    unfold afterMbid
    split
    next other hmatched =>
      rwa [← Option.some.inj (Option.filter_eq_some_iff.mp hmatched).1]
    next hunmatched =>
      rcases hkept with hstatus | hscores
      · simp [Option.filter, hstatus] at hunmatched
      · have hbest : betterOf (some result)
            (nameResult config repos exclusionsByIdentity titleScore identity artist) =
            some result :=
          betterOf_eq_left (score_le_of_best (nodup_nameCandidates hfiles) hscores)
        rwa [hbest]

/-- What Step B adds to Step A's result, when it runs. -/
theorem mbidPlan_resultOn :
    (mbidPlan config repos exclusionsByIdentity titleScore identity artist mbid).resultOn
        recordings =
      afterMbid config repos exclusionsByIdentity titleScore identity artist
        (if !(mbidResult config repos exclusionsByIdentity titleScore identity artist mbid).any
            (·.status = .autoMatched) && reaches config repos artist mbid then
          betterOf (mbidResult config repos exclusionsByIdentity titleScore identity artist mbid)
            (searchResult config repos exclusionsByIdentity titleScore identity artist recordings)
        else mbidResult config repos exclusionsByIdentity titleScore identity artist mbid) := by
  unfold mbidPlan
  dsimp only
  split
  · rfl
  · rfl

theorem missingLeads_of_showsMissing (hfiles : (repos.files.map LibraryFile.id).Nodup)
    (hshows : ShowsMissing repos.files
      ((mbidPlan config repos exclusionsByIdentity titleScore identity artist mbid).resultOn
        recordings)) :
    ∃ file, MissingLeads config repos exclusionsByIdentity titleScore identity artist mbid
      recordings file := by
  rw [mbidPlan_resultOn, showsMissing_afterMbid_iff hfiles] at hshows
  obtain ⟨result, hmerged, hshows, hnames⟩ := hshows
  have hfound : mbidResult config repos exclusionsByIdentity titleScore identity artist mbid =
        some result ∧
      (result.status = .autoMatched ∨ (reaches config repos artist mbid →
        ∀ other ∈ searchCandidates repos exclusionsByIdentity identity artist recordings,
          (scoringOf config titleScore identity).score other ≤ result.confidenceScore)) := by
    split at hmerged
    next =>
      obtain ⟨hfound, hscores⟩ := of_showsMissing_betterOf (nodup_searchCandidates recordings)
        hshows (fun second hsecond => searchResult_present hfiles hsecond) hmerged
      exact ⟨hfound, .inr fun _ => hscores⟩
    next hasks =>
      refine ⟨hmerged, ?_⟩
      rw [hmerged] at hasks
      by_cases hstatus : result.status = .autoMatched
      · exact .inl hstatus
      · exact .inr fun hreaches => absurd (by simp [hstatus, hreaches]) hasks
  obtain ⟨hfound, hsearch⟩ := hfound
  obtain ⟨file, hscored⟩ := Scoring.scoredFrom_of_best (nodup_mbidCandidates hfiles mbid) hfound
  obtain ⟨other, hother, hmissing, hstatus, hshown⟩ := hshows
  have hmem : file ∈ repos.files :=
    (mem_getByArtistMbid.mp (mem_allowedOf.mp hscored.leads.1).1).1
  obtain rfl : other = file := List.inj_on_of_nodup_map hfiles hother hmem
    (Option.some.inj (hshown.symm.trans hscored.fileId))
  refine ⟨other, hscored.leads, hmissing, ?_⟩
  by_cases hwins : (scoringOf config titleScore identity).WinsOutright
      (mbidCandidates repos exclusionsByIdentity identity artist mbid) other
  · exact .inl hwins
  · have hunmatched := mt hscored.matched.mp hwins
    rw [← hscored.score]
    refine .inr ⟨?_, hnames.resolve_left hunmatched, hsearch.resolve_left hunmatched⟩
    rw [hscored.score]
    exact not_lt.mp fun hlow => hstatus (hscored.rejected.mpr ⟨hwins, hlow⟩)

theorem showsMissing_of_missingLeads (hfiles : (repos.files.map LibraryFile.id).Nodup)
    {file : LibraryFile}
    (hleads : MissingLeads config repos exclusionsByIdentity titleScore identity artist mbid
      recordings file) :
    ShowsMissing repos.files
      ((mbidPlan config repos exclusionsByIdentity titleScore identity artist mbid).resultOn
        recordings) := by
  have hids : ((mbidCandidates repos exclusionsByIdentity identity artist mbid).map
      LibraryFile.id).Nodup := nodup_mbidCandidates hfiles mbid
  obtain ⟨result, hfound⟩ : ∃ result,
      mbidResult config repos exclusionsByIdentity titleScore identity artist mbid = some result :=
    Scoring.best_isSome (List.ne_nil_of_mem hleads.leads.1)
  obtain ⟨leader, hscored⟩ := Scoring.scoredFrom_of_best hids hfound
  obtain rfl := hscored.leads.unique hids hleads.leads
  have hmem : leader ∈ repos.files :=
    (mem_getByArtistMbid.mp (mem_allowedOf.mp hscored.leads.1).1).1
  rw [mbidPlan_resultOn, hfound, showsMissing_afterMbid_iff hfiles]
  rcases hleads.shown with hwins | ⟨hhigh, hnames, hsearch⟩
  · have hstatus := hscored.matched.mpr hwins
    refine ⟨result, by simp [hstatus], ⟨leader, hmem, hleads.missing, ?_, hscored.fileId⟩,
      .inl hstatus⟩
    simp [hstatus]
  · refine ⟨result, ?_, ⟨leader, hmem, hleads.missing, ?_, hscored.fileId⟩, .inr ?_⟩
    · split
      next hasks =>
        have hreaches : reaches config repos artist mbid := by
          simp only [Bool.and_eq_true] at hasks
          exact hasks.2
        refine betterOf_eq_left (score_le_of_best (nodup_searchCandidates recordings) ?_)
        rw [hscored.score]
        exact hsearch hreaches
      next => rfl
    · exact fun hrejected => not_lt.mpr hhigh (hscored.rejected.mp hrejected).2
    · rw [hscored.score]
      exact hnames

/-! ## The plan and its search -/

/-- Step A does not match the song, and Step B could add a file. -/
def AsksMusicBrainz (config : EngineConfig) (repos : IdentityMatchingRepos)
    (exclusionsByIdentity : ExclusionsByIdentity) (titleScore : Option TitleScore)
    (identity : BroadcastTrackIdentity) (artist : BroadcastArtist) (mbid : String) : Prop :=
  reaches config repos artist mbid ∧
    ∀ file, (scoringOf config titleScore identity).Leads
        (mbidCandidates repos exclusionsByIdentity identity artist mbid) file →
      ¬ (scoringOf config titleScore identity).WinsOutright
        (mbidCandidates repos exclusionsByIdentity identity artist mbid) file

theorem mbidPlan_asks_iff (hfiles : (repos.files.map LibraryFile.id).Nodup) :
    (mbidPlan config repos exclusionsByIdentity titleScore identity artist mbid).asks ↔
      AsksMusicBrainz config repos exclusionsByIdentity titleScore identity artist mbid := by
  have hmatched : (mbidResult config repos exclusionsByIdentity titleScore identity artist mbid).any
        (·.status = .autoMatched) ↔ ∃ file, (scoringOf config titleScore identity).Leads
          (mbidCandidates repos exclusionsByIdentity identity artist mbid) file ∧
        (scoringOf config titleScore identity).WinsOutright
          (mbidCandidates repos exclusionsByIdentity identity artist mbid) file := by
    have hids : ((mbidCandidates repos exclusionsByIdentity identity artist mbid).map
        LibraryFile.id).Nodup := nodup_mbidCandidates hfiles mbid
    cases hfound : mbidResult config repos exclusionsByIdentity titleScore identity artist mbid with
    | none =>
        simp only [Option.any_none, Bool.false_eq_true, false_iff]
        rintro ⟨file, hleads, -⟩
        rw [Scoring.best_eq_none_iff.mp hfound] at hleads
        exact absurd hleads.1 (by simp)
    | some result =>
        obtain ⟨leader, hscored⟩ := Scoring.scoredFrom_of_best hids hfound
        simp only [Option.any_some, decide_eq_true_eq, hscored.matched]
        refine ⟨fun hwins => ⟨leader, hscored.leads, hwins⟩, ?_⟩
        rintro ⟨file, hleads, hwins⟩
        rwa [hscored.leads.unique hids hleads]
  have hasks : (mbidPlan config repos exclusionsByIdentity titleScore identity artist mbid).asks =
      (!(mbidResult config repos exclusionsByIdentity titleScore identity artist mbid).any
        (·.status = .autoMatched) && reaches config repos artist mbid) := by
    unfold mbidPlan
    dsimp only
    split
    next hasks => simp [Plan.asks, hasks]
    next hasks => simp only [Plan.asks, Bool.not_eq_true _ |>.mp hasks]
  rw [hasks, Bool.and_eq_true, Bool.not_eq_true', ← Bool.not_eq_true, hmatched, and_comm]
  simp only [AsksMusicBrainz, not_exists, not_and]

/-- A plan asks once, for the recordings it decides from. -/
theorem outcome_run (plan : Plan) (title : String) (search : RecordingSearch) :
    outcome (plan.run config title) search =
      match plan with
      | .decided result => (.ok result, search)
      | .searches mbid decide =>
        ((search.search config.mbClient mbid title).1.map decide,
          (search.search config.mbClient mbid title).2) := by
  cases plan with
  | decided result => rfl
  | searches mbid decide =>
      simp only [Plan.run, searchOnly, outcome_bind, outcome_get, outcome_set]
      cases (search.search config.mbClient mbid title).1 with
      | ok recordings => rfl
      | error error => rfl

end

namespace RecordingSearch

variable {client : MusicBrainzClient} {search : RecordingSearch} {mbid title : String}
  {recordings : List MbRecording}

theorem search_answers : (search.search client mbid title).2.answers.isSome =
    search.answers.isSome := by
  unfold RecordingSearch.search
  split
  · rfl
  · split
    · rfl
    · dsimp only
      split
      · rfl
      · rfl
      · simp

theorem search_kept (hanswers : search.answers.isSome)
    (hsearch : (search.search client mbid title).1 = .ok recordings) :
    (search.search client mbid title).2.failures = 0 ∧
      ∃ kept, (search.search client mbid title).2.answers = some kept ∧
        kept.get? (mbid, title) = some recordings := by
  obtain ⟨answers, hanswers⟩ := Option.isSome_iff_exists.mp hanswers
  unfold RecordingSearch.search at hsearch ⊢
  rw [hanswers] at hsearch ⊢
  split at hsearch
  · cases hsearch
  next hcut =>
    rw [if_neg hcut]
    split at hsearch
    next kept hget =>
      obtain rfl := Except.ok.inj hsearch
      exact ⟨rfl, answers, rfl, hget⟩
    next =>
      dsimp only at hsearch ⊢
      split at hsearch
      · cases hsearch
      · cases hsearch
      next =>
        obtain rfl := Except.ok.inj hsearch
        exact ⟨rfl, answers.set (mbid, title) _, rfl, by rw [Dict.get?_set, if_pos rfl]⟩

/-- A run that remembers its answers gives an answer again. -/
theorem search_again (hanswers : search.answers.isSome)
    (hsearch : (search.search client mbid title).1 = .ok recordings) :
    ((search.search client mbid title).2.search client mbid title).1 = .ok recordings := by
  obtain ⟨hfailures, kept, hkept, hget⟩ := search_kept hanswers hsearch
  generalize (search.search client mbid title).2 = later at hfailures hkept ⊢
  simp [RecordingSearch.search, cutOff, hfailures, SONG_MB_FAILURE_CUTOFF, hkept, hget]

end RecordingSearch

/-! ## What the engines decide -/

section

variable {config : EngineConfig} {repos : IdentityMatchingRepos}
  {exclusionsByIdentity : ExclusionsByIdentity} {titleScore : Option TitleScore}
  {identity : BroadcastTrackIdentity} {artist : BroadcastArtist} {recordings : List MbRecording}

/-- The first rule that applies to the song names a file that is not on disk. -/
def RuleNamesMissing (config : EngineConfig) (repos : IdentityMatchingRepos)
    (exclusionsByIdentity : ExclusionsByIdentity) (identity : BroadcastTrackIdentity) : Prop :=
  ∃ file, repos.rules.findSome? (ruleFor config repos exclusionsByIdentity identity) = some file ∧
    file.fileStatus ≠ .present

theorem ruleFor_mem {rule : MappingRule} {file : LibraryFile}
    (hfor : ruleFor config repos exclusionsByIdentity identity rule = some file) :
    file ∈ repos.files := by
  unfold ruleFor at hfor
  split at hfor
  · cases hfor
  · split at hfor
    · cases hfor
    · have hnamed := (Option.filter_eq_some_iff.mp hfor).1
      unfold ruleFile at hnamed
      split at hnamed
      · exact List.mem_of_find?_eq_some hnamed
      · exact List.mem_of_find?_eq_some hnamed

theorem chainPlan_searches {mbid : String} {decide : List MbRecording → IdentityMatchResult}
    (hplan : chainPlan config repos exclusionsByIdentity titleScore identity artist =
      .searches mbid decide) :
    identityMappingRule config repos exclusionsByIdentity identity = none ∧ isResolved artist ∧
      artistTarget repos artist = .ok (some mbid) := by
  unfold chainPlan at hplan
  split at hplan
  · cases hplan
  next hrule =>
    split at hplan
    next hresolved =>
      split at hplan
      · cases hplan
      · cases hplan
      next target htarget =>
        unfold mbidPlan at hplan
        dsimp only at hplan
        split at hplan
        · obtain ⟨rfl, -⟩ := Plan.searches.inj hplan
          exact ⟨hrule, hresolved, htarget⟩
        · cases hplan
    · cases hplan

/-- A chain shows a missing file for two reasons. -/
theorem chainPlan_showsMissing_iff (hfiles : (repos.files.map LibraryFile.id).Nodup) :
    ShowsMissing repos.files
        ((chainPlan config repos exclusionsByIdentity titleScore identity artist).resultOn
          recordings) ↔
      RuleNamesMissing config repos exclusionsByIdentity identity ∨
        repos.rules.findSome? (ruleFor config repos exclusionsByIdentity identity) = none ∧
          isResolved artist ∧ ∃ mbid file, artistTarget repos artist = .ok (some mbid) ∧
            MissingLeads config repos exclusionsByIdentity titleScore identity artist
              mbid recordings
              file := by
  unfold chainPlan identityMappingRule RuleNamesMissing
  cases hrule : repos.rules.findSome? (ruleFor config repos exclusionsByIdentity identity) with
  | some file =>
      obtain ⟨rule, -, hfor⟩ := List.exists_of_findSome?_eq_some hrule
      simp only [Option.map_some, Plan.resultOn, Option.some.injEq, exists_eq_left', reduceCtorEq,
        false_and, or_false]
      constructor
      · rintro ⟨other, hother, hmissing, -, hshown⟩
        rwa [List.inj_on_of_nodup_map hfiles (ruleFor_mem hfor) hother (Option.some.inj hshown)]
      · exact fun hmissing => ⟨file, ruleFor_mem hfor, hmissing, by simp, rfl⟩
  | none =>
      simp only [Option.map_none, reduceCtorEq, false_and, exists_false, false_or, true_and]
      split
      next hresolved =>
        simp only [hresolved, true_and]
        cases htarget : artistTarget repos artist with
        | error detail =>
            simp only [reduceCtorEq, false_and, exists_false, iff_false]
            exact not_showsMissing_of_no_file rfl
        | ok target =>
            cases target with
            | none =>
                simp only [Except.ok.injEq, reduceCtorEq, false_and, exists_false, iff_false]
                change ¬ ShowsMissing repos.files (afterMbid config repos exclusionsByIdentity
                  titleScore identity artist none)
                rw [showsMissing_afterMbid_iff hfiles]
                simp
            | some mbid =>
                simp only [Except.ok.injEq, Option.some.injEq]
                constructor
                · intro hshows
                  obtain ⟨file, hleads⟩ := missingLeads_of_showsMissing hfiles hshows
                  exact ⟨mbid, file, rfl, hleads⟩
                · rintro ⟨_, file, rfl, hleads⟩
                  exact showsMissing_of_missingLeads hfiles hleads
      next hresolved =>
        simp only [hresolved, Bool.false_eq_true, false_and, iff_false]
        cases hname : nameResult config repos exclusionsByIdentity titleScore identity artist with
        | none => exact not_showsMissing_of_no_file rfl
        | some result => exact nameResult_present hfiles hname

end

namespace SongEngines

variable {engines : SongEngines} {identity : BroadcastTrackIdentity} {artist : BroadcastArtist}
  {search : RecordingSearch} {recordings : List MbRecording}

def plan (engines : SongEngines) (identity : BroadcastTrackIdentity) (artist : BroadcastArtist)
    (titleScore : Option TitleScore) : Plan :=
  chainPlan engines.config engines.repos engines.exclusionsByIdentity titleScore identity artist

/-- The song's result when MusicBrainz answers `recordings`. -/
def resultOn (engines : SongEngines) (identity : BroadcastTrackIdentity) (artist : BroadcastArtist)
    (recordings : List MbRecording) : IdentityMatchResult :=
  match engines.config.trialTitleScore with
  | some titleScore => trialResult ((engines.plan identity artist none).resultOn recordings)
      ((engines.plan identity artist (some titleScore)).resultOn recordings)
  | none => (engines.plan identity artist none).resultOn recordings

/-- Where a chain of the song asks MusicBrainz, the answer is `recordings`. -/
def Answered (engines : SongEngines) (identity : BroadcastTrackIdentity) (artist : BroadcastArtist)
    (search : RecordingSearch) (recordings : List MbRecording) : Prop :=
  ∀ mbid decide, (engines.plan identity artist none = .searches mbid decide ∨
      engines.plan identity artist engines.config.trialTitleScore = .searches mbid decide) →
    (search.search engines.config.mbClient mbid
      (engines.config.searchTitle identity.originalTitle)).1 = .ok recordings

/-- In trial mode V11.1's chain alone decides which file is shown, and whether one is. -/
theorem resultOn_showsMissing_iff {files : List LibraryFile} :
    ShowsMissing files (engines.resultOn identity artist recordings) ↔
      ShowsMissing files
        ((engines.plan identity artist engines.config.trialTitleScore).resultOn recordings) := by
  unfold resultOn
  cases engines.config.trialTitleScore with
  | none => exact Iff.rfl
  | some titleScore =>
      dsimp only
      generalize (engines.plan identity artist none).resultOn recordings = today
      generalize (engines.plan identity artist (some titleScore)).resultOn recordings = trial
      unfold ShowsMissing IdentityMatchResult.Shows trialResult
      split
      next hrejected => simp [hrejected.1, hrejected.2]
      next hshown =>
        dsimp only
        split
        next hagree => rw [hagree.1.1, hagree.1.2]
        · split
          next hagree =>
            have htrial : trial.status ≠ .autoRejected := fun hrejected =>
              hshown ⟨hagree.1.trans hrejected, hrejected⟩
            simp [htrial]
          next =>
            by_cases htrial : trial.status = .autoRejected
            · simp [htrial]
            · simp [htrial]

theorem answered_iff : engines.Answered identity artist search recordings ↔
    (∀ mbid decide, engines.plan identity artist none = .searches mbid decide →
      (search.search engines.config.mbClient mbid
        (engines.config.searchTitle identity.originalTitle)).1 = .ok recordings) ∧
    ∀ mbid decide, engines.plan identity artist engines.config.trialTitleScore =
        .searches mbid decide →
      (search.search engines.config.mbClient mbid
        (engines.config.searchTitle identity.originalTitle)).1 = .ok recordings :=
  ⟨fun h => ⟨fun mbid decide hplan => h mbid decide (.inl hplan),
    fun mbid decide hplan => h mbid decide (.inr hplan)⟩,
  fun h mbid decide hplan => hplan.elim (h.1 mbid decide) (h.2 mbid decide)⟩

/-- Both chains of a song ask for the recordings of one artist. -/
theorem plan_searches_same {first second : Option TitleScore} {mbid mbid' : String}
    {decide decide' : List MbRecording → IdentityMatchResult}
    (hfirst : engines.plan identity artist first = .searches mbid decide)
    (hsecond : engines.plan identity artist second = .searches mbid' decide') : mbid' = mbid := by
  have htarget := (chainPlan_searches hfirst).2.2
  rw [(chainPlan_searches hsecond).2.2] at htarget
  exact Option.some.inj (Except.ok.inj htarget)

/-- The engines decide from one answer of MusicBrainz, if any chain asks: a second
chain finds it remembered. -/
theorem decide_eq_ok_iff (hanswers : search.answers.isSome = engines.config.trialTitleScore.isSome)
    {result : IdentityMatchResult} :
    (outcome (engines.decide identity artist) search).1 = .ok result ↔
      ∃ recordings, engines.Answered identity artist search recordings ∧
        result = engines.resultOn identity artist recordings := by
  have hsame := fun first second mbid mbid' decide decide' => @plan_searches_same engines identity
    artist first second mbid mbid' decide decide'
  simp only [answered_iff]
  unfold decide resultOn
  simp only [plan] at hsame ⊢
  simp only [outcome_bind, outcome_run]
  generalize engines.config.searchTitle identity.originalTitle = title
  -- Without a trial one chain runs, with it a second one behind the first.
  cases htrial : engines.config.trialTitleScore with
  | none =>
      cases htoday : chainPlan engines.config engines.repos engines.exclusionsByIdentity
        none identity
        artist with
      | decided today => simp [Plan.resultOn, eq_comm]
      | searches mbid decide =>
          cases hsearch : (search.search engines.config.mbClient mbid title).1 with
          | error error => simp [hsearch, Except.map]
          | ok recordings => simp [hsearch, Except.map, Plan.resultOn, eq_comm]
  | some titleScore =>
      rw [htrial] at hanswers
      cases htoday : chainPlan engines.config engines.repos engines.exclusionsByIdentity
        none identity
        artist with
      | decided today =>
          cases hsecond : chainPlan engines.config engines.repos engines.exclusionsByIdentity
            (some titleScore) identity artist with
          | decided trial =>
              simp [Plan.resultOn, outcome_map, outcome_run, hsecond, Except.map, eq_comm]
          | searches mbid decide =>
              cases hsearch : (search.search engines.config.mbClient mbid title).1 with
              | error error =>
                  simp [outcome_map, outcome_run, hsecond, hsearch, Except.map]
              | ok recordings =>
                  simp [Plan.resultOn, outcome_map, outcome_run, hsecond, hsearch, Except.map,
                    eq_comm]
      | searches mbid decide =>
          cases hsearch : (search.search engines.config.mbClient mbid title).1 with
          | error error => simp [hsearch, Except.map]
          | ok recordings =>
              have hagain := RecordingSearch.search_again hanswers hsearch
              cases hsecond : chainPlan engines.config engines.repos engines.exclusionsByIdentity
                (some titleScore) identity artist with
              | decided trial =>
                  simp [Plan.resultOn, outcome_map, outcome_run, hsecond, hsearch, Except.map,
                    eq_comm]
              | searches mbid' decide' =>
                  obtain rfl := hsame _ _ _ _ _ _ htoday hsecond
                  simp [Plan.resultOn, outcome_map, outcome_run, hsecond, hsearch, hagain,
                    Except.map, eq_comm]

/-- Where a missing file tagged with the artist's MBID wins a song. -/
structure ArtistMbidNamesMissing (engines : SongEngines) (identity : BroadcastTrackIdentity)
    (artist : BroadcastArtist) (search : RecordingSearch) (mbid : String)
    (recordings : List MbRecording) (file : LibraryFile) : Prop where
  rule : engines.repos.rules.findSome?
    (ruleFor engines.config engines.repos engines.exclusionsByIdentity identity) = none
  resolved : isResolved artist
  target : artistTarget engines.repos artist = .ok (some mbid)
  answered :
    (AsksMusicBrainz engines.config engines.repos engines.exclusionsByIdentity none identity artist
        mbid ∨
      AsksMusicBrainz engines.config engines.repos engines.exclusionsByIdentity
        engines.config.trialTitleScore identity artist mbid) →
    (search.search engines.config.mbClient mbid
      (engines.config.searchTitle identity.originalTitle)).1 = .ok recordings
  leads : MissingLeads engines.config engines.repos engines.exclusionsByIdentity
    engines.config.trialTitleScore identity artist mbid recordings file

/-- A missing file wins the song: the rule that applies to it names the file, or the
artist's MBID does, and nothing outscores it. -/
def MissingWins (engines : SongEngines) (identity : BroadcastTrackIdentity)
    (artist : BroadcastArtist) (search : RecordingSearch) : Prop :=
  RuleNamesMissing engines.config engines.repos engines.exclusionsByIdentity identity ∨
    ∃ mbid recordings file,
      engines.ArtistMbidNamesMissing identity artist search mbid recordings file

theorem answered_of_rule {result : IdentityMatchResult}
    (hrule : identityMappingRule engines.config engines.repos
      engines.exclusionsByIdentity identity =
      some result) (recordings : List MbRecording) :
    engines.Answered identity artist search recordings := by
  rintro mbid decide (hplan | hplan)
  all_goals simp [(chainPlan_searches hplan).1] at hrule

theorem answered_iff_asks (hfiles : (engines.repos.files.map LibraryFile.id).Nodup) {mbid : String}
    (hrule : identityMappingRule engines.config engines.repos
      engines.exclusionsByIdentity identity =
      none) (hresolved : isResolved artist)
    (htarget : artistTarget engines.repos artist = .ok (some mbid)) :
    engines.Answered identity artist search recordings ↔
      ((AsksMusicBrainz engines.config engines.repos engines.exclusionsByIdentity
        none identity artist
          mbid ∨
        AsksMusicBrainz engines.config engines.repos engines.exclusionsByIdentity
          engines.config.trialTitleScore identity artist mbid) →
      (search.search engines.config.mbClient mbid
        (engines.config.searchTitle identity.originalTitle)).1 = .ok recordings) := by
  have hplan : ∀ titleScore, (∃ decide, engines.plan identity artist titleScore =
        .searches mbid decide) ↔
      AsksMusicBrainz engines.config engines.repos engines.exclusionsByIdentity titleScore identity
        artist mbid := by
    intro titleScore
    rw [← mbidPlan_asks_iff hfiles, plan, chainPlan, hrule]
    simp only [hresolved, if_true, htarget]
    unfold mbidPlan
    dsimp only
    split <;> simp [Plan.asks]
  have hmbid : ∀ titleScore other decide, engines.plan identity artist titleScore =
      .searches other decide → other = mbid := by
    intro titleScore other decide hsearches
    have hother := (chainPlan_searches hsearches).2.2
    rw [htarget] at hother
    exact (Option.some.inj (Except.ok.inj hother)).symm
  rw [answered_iff]
  constructor
  · rintro ⟨htoday, htrial⟩ (hasks | hasks)
    · obtain ⟨decide, hsearches⟩ := (hplan none).mpr hasks
      exact htoday mbid decide hsearches
    · obtain ⟨decide, hsearches⟩ := (hplan _).mpr hasks
      exact htrial mbid decide hsearches
  · intro hasks
    refine ⟨fun other decide hsearches => ?_, fun other decide hsearches => ?_⟩
    · obtain rfl := hmbid _ _ _ hsearches
      exact hasks (.inl ((hplan none).mp ⟨decide, hsearches⟩))
    · obtain rfl := hmbid _ _ _ hsearches
      exact hasks (.inr ((hplan _).mp ⟨decide, hsearches⟩))

/-- The engines show a missing file exactly where one wins. -/
theorem decide_showsMissing_iff (hfiles : (engines.repos.files.map LibraryFile.id).Nodup)
    (hanswers : search.answers.isSome = engines.config.trialTitleScore.isSome) :
    (∃ result, (outcome (engines.decide identity artist) search).1 = .ok result ∧
        ShowsMissing engines.repos.files result) ↔
      engines.MissingWins identity artist search := by
  simp only [decide_eq_ok_iff hanswers]
  constructor
  · rintro ⟨result, ⟨recordings, hanswered, rfl⟩, hshows⟩
    rw [resultOn_showsMissing_iff, plan, chainPlan_showsMissing_iff hfiles] at hshows
    rcases hshows with hrule | ⟨hrule, hresolved, mbid, file, htarget, hleads⟩
    · exact .inl hrule
    · have hnone : identityMappingRule engines.config engines.repos engines.exclusionsByIdentity
          identity = none := by rw [identityMappingRule, hrule, Option.map_none]
      exact .inr ⟨mbid, recordings, file, hrule, hresolved, htarget,
        (answered_iff_asks hfiles hnone hresolved htarget).mp hanswered, hleads⟩
  · rintro (hrule | ⟨mbid, recordings, file, hwins⟩)
    · obtain ⟨file, hfound, hmissing⟩ := hrule
      obtain ⟨ruled, hrule⟩ : ∃ ruled, identityMappingRule engines.config engines.repos
          engines.exclusionsByIdentity identity = some ruled :=
        ⟨_, by rw [identityMappingRule, hfound, Option.map_some]⟩
      refine ⟨_, ⟨[], answered_of_rule hrule [], rfl⟩, ?_⟩
      rw [resultOn_showsMissing_iff, plan, chainPlan_showsMissing_iff hfiles]
      exact .inl ⟨file, hfound, hmissing⟩
    · have hnone : identityMappingRule engines.config engines.repos engines.exclusionsByIdentity
          identity = none := by rw [identityMappingRule, hwins.rule, Option.map_none]
      refine ⟨_, ⟨recordings, (answered_iff_asks hfiles hnone hwins.resolved hwins.target).mpr
        hwins.answered, rfl⟩, ?_⟩
      rw [resultOn_showsMissing_iff, plan, chainPlan_showsMissing_iff hfiles]
      exact .inr ⟨hwins.rule, hwins.resolved, mbid, file, hwins.target, hwins.leads⟩

/-- Asking keeps whether a run remembers its answers. -/
theorem decide_answers :
    (outcome (engines.decide identity artist) search).2.answers.isSome = search.answers.isSome := by
  have hrun : ∀ (plan : Plan) title search,
      (outcome (plan.run engines.config title) search).2.answers.isSome =
        search.answers.isSome := by
    intro plan title search
    rw [outcome_run]
    cases plan with
    | decided result => rfl
    | searches mbid decide => exact RecordingSearch.search_answers
  unfold decide
  rw [outcome_bind]
  generalize hfirst : outcome _ search = first
  have hkept := congrArg (fun done => done.2.answers.isSome) hfirst
  rw [hrun] at hkept
  obtain ⟨answer, later⟩ := first
  cases answer with
  | error error => exact hkept.symm
  | ok today =>
      dsimp only
      split
      · rw [bind_pure_comp, outcome_map]
        dsimp only
        rw [hrun]
        exact hkept.symm
      · exact hkept.symm

end SongEngines

end RetroStation.Matching
