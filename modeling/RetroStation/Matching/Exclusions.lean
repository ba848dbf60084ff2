import RetroStation.Matching.Plans
import RetroStation.Transition.Run

/-! # Exclusion and the artist lock

A song's result can come from four lookups, two chains and three merges. On every
route the one candidate gate stands: the file is neither rejected for the song nor
on the work of a rejected file, and unless a mapping rule chose it, it is the
artist's own.
-/

namespace RetroStation.Matching

open Library Effect

section

variable {config : EngineConfig} {repos : IdentityMatchingRepos}
  {exclusionsByIdentity : ExclusionsByIdentity} {titleScore : Option TitleScore}
  {identity : BroadcastTrackIdentity} {artist : BroadcastArtist}

/-! ## The gate -/

theorem mem_allowedOf {candidates : List LibraryFile} {file : LibraryFile} :
    file ∈ allowedOf exclusionsByIdentity identity artist candidates ↔
      file ∈ candidates ∧ file.audio.normalizedArtistName = some artist.normalizedName ∧
        (exclusionsFor exclusionsByIdentity identity).allows file := by
  simp only [allowedOf, eligible, filterToArtist, List.mem_filter, decide_eq_true_eq, and_assoc]

theorem nodup_allowedOf {candidates : List LibraryFile}
    (hids : (candidates.map LibraryFile.id).Nodup) :
    ((allowedOf exclusionsByIdentity identity artist candidates).map LibraryFile.id).Nodup :=
  nodup_filter_ids _ (nodup_filter_ids _ hids)

theorem mem_dedupById {seen : List Uuid} {files : List LibraryFile} {file : LibraryFile}
    (hfile : file ∈ dedupById seen files) : file ∈ files ∧ file.id ∉ seen := by
  induction files generalizing seen with
  | nil => simp [dedupById] at hfile
  | cons head rest ih =>
      unfold dedupById at hfile
      split at hfile
      · exact ⟨List.mem_cons_of_mem _ (ih hfile).1, (ih hfile).2⟩
      next hnew =>
        rcases List.mem_cons.mp hfile with rfl | hfile
        · exact ⟨by simp, hnew⟩
        · obtain ⟨hrest, hseen⟩ := ih hfile
          exact ⟨List.mem_cons_of_mem _ hrest, fun hmem => hseen (List.mem_cons_of_mem _ hmem)⟩

theorem nodup_dedupById (seen : List Uuid) (files : List LibraryFile) :
    ((dedupById seen files).map LibraryFile.id).Nodup := by
  induction files generalizing seen with
  | nil => exact .nil
  | cons head rest ih =>
      unfold dedupById
      split
      · exact ih seen
      · refine List.nodup_cons.mpr ⟨fun hmem => ?_, ih _⟩
        obtain ⟨file, hfile, hid⟩ := List.mem_map.mp hmem
        exact (mem_dedupById hfile).2 (hid ▸ List.mem_cons_self)

theorem mem_recordingFiles {recordings : List MbRecording} {file : LibraryFile}
    (hfile : file ∈ recordingFiles repos recordings) :
    file ∈ repos.files ∧ file.fileStatus = .present := by
  obtain ⟨mbid, -, hfound⟩ := List.mem_flatMap.mp (mem_dedupById hfile).1
  obtain ⟨hmem, -, hpresent⟩ := mem_getByRecordingMbid.mp hfound
  exact ⟨hmem, hpresent⟩

theorem nodup_mbidCandidates (hfiles : (repos.files.map LibraryFile.id).Nodup) (mbid : String) :
    ((mbidCandidates repos exclusionsByIdentity identity artist mbid).map LibraryFile.id).Nodup :=
  nodup_allowedOf (nodup_filter_ids _ hfiles)

theorem nodup_searchCandidates (recordings : List MbRecording) :
    ((searchCandidates repos exclusionsByIdentity identity artist recordings).map
      LibraryFile.id).Nodup := nodup_allowedOf (nodup_dedupById _ _)

theorem nodup_nameCandidates (hfiles : (repos.files.map LibraryFile.id).Nodup) :
    ((nameCandidates repos exclusionsByIdentity identity artist).map LibraryFile.id).Nodup := by
  refine nodup_allowedOf ?_
  unfold getByNormalizedArtistName
  split
  · exact .nil
  · exact (nodup_orderById (nodup_filter_ids _ hfiles)).sublist ((List.take_sublist _ _).map _)

/-! ## What every plan keeps -/

/-- The result's file, if it has one, went through the gate. -/
def Gated (repos : IdentityMatchingRepos) (exclusionsByIdentity : ExclusionsByIdentity)
    (identity : BroadcastTrackIdentity) (artist : BroadcastArtist) (result : IdentityMatchResult) :
    Prop :=
  ∀ fileId, result.libraryFileId = some fileId → ∃ file ∈ repos.files, file.id = fileId ∧
    file.audio.normalizedArtistName = some artist.normalizedName ∧
    (exclusionsFor exclusionsByIdentity identity).allows file

/-- Whatever MusicBrainz answers, the plan's result satisfies `good`. -/
def Plan.Gives (good : IdentityMatchResult → Prop) : Plan → Prop
  | .decided result => good result
  | .searches _ decide => ∀ recordings, good (decide recordings)

theorem gated_of_no_file {result : IdentityMatchResult} (hnone : result.libraryFileId = none) :
    Gated repos exclusionsByIdentity identity artist result := by
  intro fileId hfile
  simp [hnone] at hfile

/-- A merge of two results is one of them. -/
theorem betterOf_mem {mbidResult nameResult : Option IdentityMatchResult}
    {result : IdentityMatchResult} (hbest : betterOf mbidResult nameResult = some result) :
    mbidResult = some result ∨ nameResult = some result := by
  unfold betterOf at hbest
  split at hbest
  · exact .inl hbest
  · exact .inr hbest
  · split at hbest
    · exact .inr hbest
    · exact .inl hbest

/-- A plan's result is a rule's, the best of some candidates that passed the gate, or one
of the three that show no file. -/
theorem chainPlan_gives {good : IdentityMatchResult → Prop}
    (hfiles : (repos.files.map LibraryFile.id).Nodup)
    (hrule : ∀ result, identityMappingRule config repos exclusionsByIdentity identity =
      some result → good result)
    (hbest : ∀ candidates tier result, (∀ file ∈ candidates, file ∈ repos.files) →
      (candidates.map LibraryFile.id).Nodup →
      (scoringOf config titleScore identity).best
        (allowedOf exclusionsByIdentity identity artist candidates) tier = some result →
          good result)
    (hmissing : ∀ detail, good (missingMatchRecord detail)) (hlocal : good noLocalFiles)
    (hcandidates : good (noCandidates artist)) :
    (chainPlan config repos exclusionsByIdentity titleScore identity artist).Gives good := by
  have hname : ∀ result,
      nameResult config repos exclusionsByIdentity titleScore identity artist = some result →
      good result := by
    refine fun result hresult => hbest _ _ result
      (fun file hfile => (of_mem_getByNormalizedArtistName hfile).1) ?_ hresult
    unfold getByNormalizedArtistName
    split
    · exact .nil
    · exact (nodup_orderById (nodup_filter_ids _ hfiles)).sublist ((List.take_sublist _ _).map _)
  -- What the id gave is kept if it matched, else compared with what the name gives.
  have hafter : ∀ found : Option IdentityMatchResult,
    (∀ result, found = some result → good result) →
      good (afterMbid config repos exclusionsByIdentity titleScore identity artist found) := by
    intro found hfound
    unfold afterMbid
    split
    next result hmatched => exact hfound result (Option.filter_eq_some_iff.mp hmatched).1
    next =>
      cases hmerged : betterOf found
          (nameResult config repos exclusionsByIdentity titleScore identity artist) with
      | none => exact hlocal
      | some result => exact (betterOf_mem hmerged).elim (hfound result) (hname result)
  have hmbid : ∀ mbid result,
      mbidResult config repos exclusionsByIdentity titleScore identity artist mbid = some result →
      good result := fun mbid result =>
    hbest _ _ result (fun file hfile => (mem_getByArtistMbid.mp hfile).1)
      (nodup_filter_ids _ hfiles)
  have hsearch : ∀ recordings result,
      searchResult config repos exclusionsByIdentity titleScore identity artist recordings =
        some result → good result := fun recordings result =>
    hbest _ _ result (fun file hfile => (mem_recordingFiles hfile).1) (nodup_dedupById _ _)
  unfold chainPlan
  split
  next result hruled => exact hrule result hruled
  next =>
    split
    · split
      next detail _ => exact hmissing detail
      · exact hafter none (by simp)
      next mbid _ =>
        unfold mbidPlan
        dsimp only
        split
        · exact fun recordings => hafter _ fun result hresult =>
            (betterOf_mem hresult).elim (hmbid mbid result) (hsearch recordings result)
        · exact hafter _ (hmbid mbid)
    · cases hnamed : nameResult config repos exclusionsByIdentity titleScore identity artist with
      | none => exact hcandidates
      | some result => exact hname result hnamed

/-- Scoring gated candidates gives a gated result. -/
theorem gated_of_best {scoring : Scoring} {candidates : List LibraryFile} {tier : MatchTier}
    {result : IdentityMatchResult} (hcandidates : ∀ file ∈ candidates, file ∈ repos.files)
    (hids : (candidates.map LibraryFile.id).Nodup)
    (hbest : scoring.best (allowedOf exclusionsByIdentity identity artist candidates) tier =
      some result) : Gated repos exclusionsByIdentity identity artist result := by
  obtain ⟨file, hscored⟩ := Scoring.scoredFrom_of_best (nodup_allowedOf hids) hbest
  intro fileId hfile
  obtain ⟨hmem, hname, hallows⟩ := mem_allowedOf.mp hscored.leads.1
  rw [hscored.fileId] at hfile
  exact ⟨file, hcandidates file hmem, Option.some.inj hfile, hname, hallows⟩

/-- Without a mapping rule for the song, a chain's result went through the gate. -/
theorem chainPlan_gated (hfiles : (repos.files.map LibraryFile.id).Nodup)
    (hrule : identityMappingRule config repos exclusionsByIdentity identity = none) :
    (chainPlan config repos exclusionsByIdentity titleScore identity artist).Gives
      (Gated repos exclusionsByIdentity identity artist) :=
  chainPlan_gives hfiles (by simp [hrule])
    (fun _ _ _ hcandidates hids hbest => gated_of_best hcandidates hids hbest)
    (fun _ => gated_of_no_file rfl) (gated_of_no_file rfl) (gated_of_no_file rfl)

theorem Plan.gives_of_run {plan : Plan} {good : IdentityMatchResult → Prop}
    (hgives : plan.Gives good) {title : String} {search : RecordingSearch}
    {result : IdentityMatchResult}
    (hrun : (outcome (plan.run config title) search).1 = .ok result) :
    good result := by
  cases plan with
  | decided decided =>
      obtain rfl := Except.ok.inj hrun
      exact hgives
  | searches mbid decide =>
      rw [Plan.run, outcome_bind] at hrun
      generalize outcome (searchOnly config mbid title) search = answered at hrun
      obtain ⟨answer, later⟩ := answered
      cases answer with
      | error error => cases hrun
      | ok recordings =>
          obtain rfl := Except.ok.inj hrun
          exact hgives recordings

/-- Both chains show a file of one of them. -/
theorem trialResult_libraryFileId (today trial : IdentityMatchResult) :
    (trialResult today trial).libraryFileId = today.libraryFileId ∨
      (trialResult today trial).libraryFileId = trial.libraryFileId := by
  unfold trialResult
  split
  · exact .inl rfl
  · dsimp only
    split
    · exact .inl rfl
    · split
      · exact .inr rfl
      · exact .inr rfl

end

section

variable {engines : SongEngines} {identity : BroadcastTrackIdentity} {artist : BroadcastArtist}

theorem SongEngines.decide_of_rule {result : IdentityMatchResult}
    (hrule : identityMappingRule engines.config engines.repos
      engines.exclusionsByIdentity identity =
      some result) (search : RecordingSearch) :
    (outcome (engines.decide identity artist) search).1 = .ok result := by
  have hmatched : result.status = .autoMatched := by
    obtain ⟨file, -, rfl⟩ := Option.map_eq_some_iff.mp hrule
    rfl
  have hplan : ∀ titleScore, chainPlan engines.config engines.repos engines.exclusionsByIdentity
      titleScore identity artist = .decided result := fun titleScore => by
    rw [chainPlan, hrule]
  unfold decide
  simp only [hplan, Plan.run, pure_bind]
  cases engines.config.trialTitleScore with
  | none => rfl
  | some titleScore => simp [trialResult, hmatched]

/-- What both chains' results have, and their trial keeps, the engines' result has. -/
theorem SongEngines.decide_gives {good : IdentityMatchResult → Prop}
    (hplan : ∀ titleScore, (chainPlan engines.config engines.repos engines.exclusionsByIdentity
      titleScore identity artist).Gives good)
    (htrial : ∀ today trial, good today → good trial → good (trialResult today trial))
    {search : RecordingSearch} {result : IdentityMatchResult}
    (hresult : (outcome (engines.decide identity artist) search).1 = .ok result) :
    good result := by
  unfold decide at hresult
  rw [outcome_bind] at hresult
  generalize hfirst : outcome _ search = first at hresult
  obtain ⟨answer, later⟩ := first
  cases answer with
  | error error => cases hresult
  | ok today =>
      have htoday : good today := Plan.gives_of_run (hplan none) (congrArg Prod.fst hfirst)
      dsimp only at hresult
      split at hresult
      next titleScore _ =>
        rw [outcome_bind] at hresult
        generalize hsecond : outcome _ later = second at hresult
        obtain ⟨answer, last⟩ := second
        cases answer with
        | error error => cases hresult
        | ok trial =>
            obtain rfl := Except.ok.inj hresult
            exact htrial today trial htoday
              (Plan.gives_of_run (hplan (some titleScore)) (congrArg Prod.fst hsecond))
      next =>
        obtain rfl := Except.ok.inj hresult
        exact htoday

theorem SongEngines.decide_gated (hfiles : (engines.repos.files.map LibraryFile.id).Nodup)
    (hrule : identityMappingRule engines.config engines.repos
      engines.exclusionsByIdentity identity =
      none) {search : RecordingSearch} {result : IdentityMatchResult}
    (hresult : (outcome (engines.decide identity artist) search).1 = .ok result) :
    Gated engines.repos engines.exclusionsByIdentity identity artist result := by
  refine decide_gives (fun _ => chainPlan_gated hfiles hrule) ?_ hresult
  intro today trial htoday htrial fileId hfile
  rcases trialResult_libraryFileId today trial with hshown | hshown
  · exact htoday fileId (hshown ▸ hfile)
  · exact htrial fileId (hshown ▸ hfile)

end

/-! ## The rejections of a run -/

section

variable {songs : List BroadcastTrackIdentity} {files : List LibraryFile}
  {identity : BroadcastTrackIdentity}

/-- What the fold over the songs loads for one of them. -/
theorem get?_foldl_rejections (rejected : List LibraryFile) (exclusions : ExclusionsByIdentity)
    (key : Uuid) (hsongs : (songs.map BroadcastTrackIdentity.id).Nodup) :
    (songs.foldl (fun exclusions identity =>
        if identity.rejectedFileIds = [] then exclusions
        else exclusions.set identity.id (rejectionsOf rejected identity)) exclusions).get? key =
      match songs.find? fun song => song.id = key with
      | some song => if song.rejectedFileIds = [] then exclusions.get? key
        else some (rejectionsOf rejected song)
      | none => exclusions.get? key := by
  induction songs generalizing exclusions with
  | nil => rfl
  | cons song rest ih =>
      rw [List.map_cons, List.nodup_cons] at hsongs
      rw [List.foldl_cons, ih _ hsongs.2, List.find?_cons]
      by_cases hkey : song.id = key
      · have hrest : (rest.find? fun song => song.id = key) = none :=
          List.find?_eq_none.mpr fun other hother hid => hsongs.1
            (List.mem_map.mpr ⟨other, hother, by simpa [hkey] using hid⟩)
        simp only [hkey, decide_true, hrest]
        split
        · rfl
        · rw [Dict.get?_set, if_pos rfl]
      · have hset : (if song.rejectedFileIds = [] then exclusions
            else exclusions.set song.id (rejectionsOf rejected song)).get? key =
            exclusions.get? key := by
          split
          · rfl
          · exact Dict.get?_set_of_ne (Ne.symm hkey) _
        simp only [hkey, decide_false, hset]

/-- The gate of a run's engines turns away the song's rejected files and every
file now on the work of one of them. -/
theorem allows_loadExclusions (hsongs : (songs.map BroadcastTrackIdentity.id).Nodup)
    (hfiles : (files.map LibraryFile.id).Nodup) (hidentity : identity ∈ songs) {file : LibraryFile}
    (hallows : (exclusionsFor (loadExclusions songs files) identity).allows file) :
    file.id ∉ identity.rejectedFileIds ∧
      ∀ rejected ∈ files, rejected.id ∈ identity.rejectedFileIds →
        ∀ work, truthy rejected.workId = some work → truthy file.workId ≠ some work := by
  have hfind : (songs.find? fun song => song.id = identity.id) = some identity := by
    cases hfound : songs.find? fun song => song.id = identity.id with
    | none => simpa using List.find?_eq_none.mp hfound identity hidentity
    | some song =>
        rw [List.inj_on_of_nodup_map hsongs (List.mem_of_find?_eq_some hfound) hidentity
          (by simpa using List.find?_some hfound)]
  unfold exclusionsFor loadExclusions at hallows
  rw [get?_foldl_rejections _ _ _ hsongs, hfind] at hallows
  dsimp only at hallows
  split at hallows
  next hnone => simp [hnone]
  next =>
    unfold CandidateExclusions.allows at hallows
    split at hallows
    · cases hallows
    next hfile =>
      refine ⟨hfile, fun rejected hmem hrejected work hwork hsame => ?_⟩
      rw [hsame] at hallows
      simp only [decide_eq_true_eq] at hallows
      refine hallows (List.mem_filterMap.mpr ⟨rejected.id, hrejected, ?_⟩)
      have hget : getById (getByIds files (songs.flatMap (·.rejectedFileIds))) rejected.id =
          some rejected := by
        refine getById_of_mem (nodup_filter_ids _ hfiles) ?_
        simp only [getByIds, List.mem_filter, decide_eq_true_eq]
        exact ⟨hmem, List.mem_flatMap.mpr ⟨identity, hidentity, hrejected⟩⟩
      rw [hget]
      exact hwork

end

/-! ## Every result of a run -/

/-- The engines of one run, asked for its songs in any order and as often as one likes. -/
def songMachine (engines : SongEngines) (songs : List BroadcastTrackIdentity)
    (artists : List BroadcastArtist) :
    Transition.Machine EngineState (BroadcastTrackIdentity × BroadcastArtist)
      (Except SongError (Option IdentityMatchResult)) where
  step state call :=
    if call.1 ∈ songs ∧ call.2 ∈ artists then
      let (answer, later) := outcome (engines.resolve call.1 call.2) state
      some (later, answer)
    else none

theorem songMachine_step {engines : SongEngines} {songs : List BroadcastTrackIdentity}
    {artists : List BroadcastArtist} {state later : EngineState}
    {call : BroadcastTrackIdentity × BroadcastArtist}
    {answer : Except SongError (Option IdentityMatchResult)}
    (hartists : (artists.map BroadcastArtist.id).Nodup)
    (hstate : StateOk engines.repos artists state)
    (hstep : (songMachine engines songs artists).step state call = some (later, answer)) :
    call.1 ∈ songs ∧ StateOk engines.repos artists later ∧
      answer = ((outcome (engines.decide call.1 call.2) state.recordingSearch).1).map some := by
  simp only [songMachine] at hstep
  split at hstep
  next hcall =>
    obtain ⟨rfl, rfl⟩ := Prod.mk.inj (Option.some.inj hstep)
    obtain ⟨hanswer, -, hlater⟩ :=
      @SongEngines.resolve_simulates call.1 call.2 artists engines hartists hcall.2 state hstate
    rw [outcome_map] at hanswer
    exact ⟨hcall.1, hlater, hanswer⟩
  next => cases hstep

/-- A rule's result is of a file that passed the song's exclusions. -/
theorem of_identityMappingRule {config : EngineConfig} {repos : IdentityMatchingRepos}
    {exclusionsByIdentity : ExclusionsByIdentity} {identity : BroadcastTrackIdentity}
    {result : IdentityMatchResult}
    (hrule : identityMappingRule config repos exclusionsByIdentity identity = some result) :
    ∃ file ∈ repos.files, result.libraryFileId = some file.id ∧
      (exclusionsFor exclusionsByIdentity identity).allows file := by
  obtain ⟨file, hfound, rfl⟩ := Option.map_eq_some_iff.mp hrule
  obtain ⟨rule, -, hfor⟩ := List.exists_of_findSome?_eq_some hfound
  unfold ruleFor at hfor
  split at hfor
  · cases hfor
  · split at hfor
    · cases hfor
    · obtain ⟨hnamed, hallows⟩ := Option.filter_eq_some_iff.mp hfor
      refine ⟨file, ?_, rfl, hallows⟩
      unfold ruleFile at hnamed
      split at hnamed
      · exact List.mem_of_find?_eq_some hnamed
      · exact List.mem_of_find?_eq_some hnamed

/-- The file of every result is neither rejected for the song nor on the work of
one that is; and a mapping rule chose it, or it is the artist's own. -/
theorem resolve_keeps_exclusions (config : EngineConfig) (repos : IdentityMatchingRepos)
    (songs : List BroadcastTrackIdentity) (artists : List BroadcastArtist)
    (hsongs : (songs.map BroadcastTrackIdentity.id).Nodup)
    (hartists : (artists.map BroadcastArtist.id).Nodup)
    (hfiles : (repos.files.map LibraryFile.id).Nodup)
    {trace : List ((BroadcastTrackIdentity × BroadcastArtist) ×
      Except SongError (Option IdentityMatchResult))} {state : EngineState}
    (hrun : (songMachine (buildSongEngines config songs repos) songs artists).Run (.start config)
      trace state) :
    ∀ identity artist result fileId, ((identity, artist), .ok (some result)) ∈ trace →
      result.libraryFileId = some fileId →
      ∃ file ∈ repos.files, file.id = fileId ∧ fileId ∉ identity.rejectedFileIds ∧
        (∀ rejected ∈ repos.files, rejected.id ∈ identity.rejectedFileIds →
          ∀ work, truthy rejected.workId = some work → truthy file.workId ≠ some work) ∧
        (identityMappingRule config repos (loadExclusions songs repos.files) identity =
          some result ∨
          file.audio.normalizedArtistName = some artist.normalizedName) := by
  intro identity artist result fileId hentry hfile
  have hkeep : (songMachine (buildSongEngines config songs repos) songs artists).Preserves
      (StateOk repos artists) := fun _ _ _ _ hstate hstep =>
        (songMachine_step hartists hstate hstep).2.1
  obtain ⟨before, after, rfl⟩ := List.append_of_mem hentry
  obtain ⟨current, later, hbefore, hstep, -⟩ := hrun.split
  have hcurrent := hbefore.invariant hkeep (stateOk_start config repos artists)
  obtain ⟨hidentity, -, hanswer⟩ := songMachine_step hartists hcurrent hstep
  have hdecided : (outcome ((buildSongEngines config songs repos).decide identity artist)
      current.recordingSearch).1 = .ok result := by
    generalize (outcome ((buildSongEngines config songs repos).decide identity artist)
      current.recordingSearch).1 = decided at hanswer
    cases decided with
    | error error => cases hanswer
    | ok decided =>
        cases hanswer
        rfl
  cases hrule : identityMappingRule config repos (loadExclusions songs repos.files) identity with
  | some ruled =>
      obtain rfl := Except.ok.inj
        ((@SongEngines.decide_of_rule (buildSongEngines config songs repos)
        identity artist ruled hrule current.recordingSearch).symm.trans hdecided)
      obtain ⟨file, hmem, hid, hallows⟩ := of_identityMappingRule hrule
      obtain rfl : file.id = fileId := Option.some.inj (hid.symm.trans hfile)
      obtain ⟨hrejected, hworks⟩ := allows_loadExclusions hsongs hfiles hidentity hallows
      exact ⟨file, hmem, rfl, hrejected, hworks, .inl rfl⟩
  | none =>
      obtain ⟨file, hmem, rfl, hname, hallows⟩ :=
        @SongEngines.decide_gated (buildSongEngines config songs repos) identity artist hfiles hrule
          _ result hdecided fileId hfile
      obtain ⟨hrejected, hworks⟩ := allows_loadExclusions hsongs hfiles hidentity hallows
      exact ⟨file, hmem, rfl, hrejected, hworks, .inr hname⟩

/-- One song of which the better copy was rejected. -/
def rejectedCopySong : BroadcastTrackIdentity where
  id := 1
  broadcastArtistId := 1
  originalTitle := "Dancing Queen"
  normalizedSignature := "abba|dancing queen"
  rejectedFileIds := [1]

def abba : BroadcastArtist where
  id := 1
  originalName := "ABBA"
  normalizedName := "abba"

/-- Two present files of the artist, each on its work. -/
def twoCopies : IdentityMatchingRepos where
  rules := []
  files := [
    { id := 1, filePath := "/a.flac", workId := some "W1",
      audio := { normalizedArtistName := some "abba" } },
    { id := 2, filePath := "/b.flac", workId := some "W2",
      audio := { normalizedArtistName := some "abba" } }]
  matchRows := []
  catalog := []

/-- Every title is a literal match, and MusicBrainz knows nothing. -/
def literalConfig : EngineConfig where
  strongMatchThreshold := 85
  candidateScores := fun _ _ _ => (100, 100)
  trialTitleScore := none
  searchTitle := id
  fullmatch := fun _ _ => false
  parseUuid := fun _ => none
  mbClient := fun _ _ _ => .ok []
  recordingSearchReach := true

theorem resolve_keeps_exclusions_other_copy :
    ∃ file ∈ twoCopies.files, file.id = 2 ∧ 2 ∉ rejectedCopySong.rejectedFileIds ∧
      (∀ rejected ∈ twoCopies.files, rejected.id ∈ rejectedCopySong.rejectedFileIds →
        ∀ work, truthy rejected.workId = some work → truthy file.workId ≠ some work) ∧
      (identityMappingRule literalConfig twoCopies
          (loadExclusions [rejectedCopySong] twoCopies.files) rejectedCopySong = some {
            status := .autoMatched, tier := .localFileFuzzy, confidenceScore := 100,
            libraryFileId := some 2, workId := some "W2" } ∨
        file.audio.normalizedArtistName = some abba.normalizedName) :=
  resolve_keeps_exclusions literalConfig twoCopies [rejectedCopySong] [abba] (by decide) (by decide)
    (by decide) (@Transition.Machine.Run.single _ _ _ _ _ _ (rejectedCopySong, abba) _ rfl)
    rejectedCopySong abba _ 2 List.mem_cons_self rfl

end RetroStation.Matching
