import RetroStation.Enrichment.Untagged

/-! # What becomes of untagged files

A pick is confident exactly where one candidate alone fits, whatever the order of the hits.
Every candidate of the pass is in one pair, and every file of a pair is enriched, skipped or
failed with its recording's lookup.
-/

namespace RetroStation.Enrichment

open Library

section

variable (config : UntaggedConfig) (file : LibraryFile) (artistMbid : String)
  (hits : List MbRecording) (tolerance : Int)

/-- A candidate among the hits that fits by its length or, where the file's duration is not
known, by being the only one. -/
structure Qualifies (hit : MbRecording) : Prop where
  mem : hit ∈ hits
  candidate : isCandidate config file artistMbid hit = true
  within : ∀ duration, file.audio.durationMs = some duration →
    ∃ length, hit.length = some length ∧ |length - duration| ≤ tolerance
  only : file.audio.durationMs = none →
    ∀ other ∈ hits, isCandidate config file artistMbid other = true → other = hit

/-- No two hits have one id; a hit may have none. -/
def DistinctIds : Prop := (hits.filterMap fun hit => truthy hit.id).Nodup

/-- The candidates that fit. -/
def chosen : List MbRecording :=
  chosenOf file.audio.durationMs tolerance (hits.filter (isCandidate config file artistMbid))

variable {config file artistMbid hits tolerance} {hit other : MbRecording}

theorem isCandidate_id (hcandidate : isCandidate config file artistMbid hit = true) :
    ∃ mbid, hit.id = some mbid ∧ truthy hit.id = some mbid := by
  simp only [isCandidate, Bool.and_eq_true] at hcandidate
  obtain ⟨mbid, hmbid⟩ := Option.isSome_iff_exists.mp hcandidate.1.1.1
  exact ⟨mbid, (truthy_eq_some.mp hmbid).1, hmbid⟩

theorem lengthWithin_iff {duration : Int} : lengthWithin tolerance duration hit = true ↔
    ∃ length, hit.length = some length ∧ |length - duration| ≤ tolerance := by
  cases hlength : hit.length <;> simp [lengthWithin, hlength]

/-- With distinct ids no candidate comes twice. -/
theorem nodup_candidates (hdistinct : DistinctIds hits) :
    (hits.filter (isCandidate config file artistMbid)).Nodup := by
  rw [DistinctIds, List.Nodup, List.pairwise_filterMap] at hdistinct
  refine (hdistinct.sublist List.filter_sublist).imp_of_mem ?_
  intro first second hfirst _ hids hsame
  obtain ⟨mbid, -, hmbid⟩ := isCandidate_id (List.mem_filter.mp hfirst).2
  exact hids mbid hmbid mbid (hsame ▸ hmbid) rfl

theorem nodup_eq_singleton {Item : Type} {items : List Item} (hnodup : items.Nodup) (item : Item) :
    items = [item] ↔ item ∈ items ∧ ∀ other ∈ items, other = item := by
  constructor
  · rintro rfl
    exact ⟨List.mem_singleton_self item, fun other => List.mem_singleton.mp⟩
  · rintro ⟨hmem, hall⟩
    match items with
    | [] => cases hmem
    | [first] => rw [hall first (List.mem_singleton_self first)]
    | first :: second :: rest =>
      refine absurd ?_ (List.nodup_cons.mp hnodup).1
      rw [hall first (by simp), ← hall second (by simp)]
      exact List.mem_cons_self

theorem mem_chosen (hdistinct : DistinctIds hits) :
    hit ∈ chosen config file artistMbid hits tolerance ↔
      Qualifies config file artistMbid hits tolerance hit := by
  have hnodup := @nodup_candidates config file artistMbid _ hdistinct
  unfold chosen chosenOf
  cases hduration : file.audio.durationMs with
  | none =>
    constructor
    · intro hmem
      dsimp only at hmem
      split at hmem
      next hone =>
        obtain ⟨only, honly⟩ := List.length_eq_one_iff.mp hone
        obtain ⟨hhit, hcandidate⟩ := List.mem_filter.mp hmem
        refine ⟨hhit, hcandidate, fun _ hnone => by simp [hduration] at hnone, ?_⟩
        intro _ other hother hfits
        have hothers := List.mem_filter.mpr ⟨hother, hfits⟩
        rw [honly, List.mem_singleton] at hothers hmem
        rw [hothers, hmem]
      · cases hmem
    · intro hqualifies
      have hsingle : hits.filter (isCandidate config file artistMbid) = [hit] := by
        rw [nodup_eq_singleton hnodup]
        refine ⟨List.mem_filter.mpr ⟨hqualifies.mem, hqualifies.candidate⟩, fun other hother => ?_⟩
        exact hqualifies.only hduration other (List.mem_filter.mp hother).1
          (List.mem_filter.mp hother).2
      simp [hsingle]
  | some duration =>
    rw [List.mem_filter, List.mem_filter, lengthWithin_iff]
    constructor
    · rintro ⟨⟨hhit, hcandidate⟩, hwithin⟩
      refine ⟨hhit, hcandidate, fun other hother => ?_, fun hnone => by simp [hduration] at hnone⟩
      obtain rfl : duration = other := by simpa [hduration] using hother
      exact hwithin
    · intro hqualifies
      exact ⟨⟨hqualifies.mem, hqualifies.candidate⟩, hqualifies.within duration hduration⟩

theorem chosen_sublist : (chosen config file artistMbid hits tolerance).Sublist
    (hits.filter (isCandidate config file artistMbid)) := by
  unfold chosen chosenOf
  split
  · split
    · exact List.Sublist.refl _
    · exact List.nil_sublist _
  · exact List.filter_sublist

/-- The candidates that fit do not depend on the order of the hits. -/
theorem chosen_perm {others : List MbRecording} (hperm : others.Perm hits) :
    (chosen config file artistMbid others tolerance).Perm
      (chosen config file artistMbid hits tolerance) := by
  have hcandidates := hperm.filter (isCandidate config file artistMbid)
  unfold chosen chosenOf
  split
  · rw [hcandidates.length_eq]
    split
    · exact hcandidates
    · exact List.Perm.nil
  · exact hcandidates.filter _

/-- A pick says which hit it is exactly where one alone was chosen. -/
theorem pickRecording_mbid {mbid : String} :
    (pickRecording config file artistMbid hits tolerance).recordingMbid = some mbid ↔
      ∃ hit, chosen config file artistMbid hits tolerance = [hit] ∧ hit.id = some mbid := by
  unfold pickRecording
  dsimp only
  split
  next hnone =>
    refine iff_of_false (by simp) ?_
    rintro ⟨hit, hchosen, -⟩
    have hsublist := @chosen_sublist config file artistMbid hits tolerance
    rw [hchosen, hnone] at hsublist
    cases hsublist
  next =>
    split
    next hit hchosen => simp [chosen, hchosen]
    next hmany =>
      refine iff_of_false (by simp) ?_
      rintro ⟨hit, hchosen, -⟩
      exact hmany hit hchosen

theorem pickRecording_confident :
    (pickRecording config file artistMbid hits tolerance).outcome = .confident ↔
      (pickRecording config file artistMbid hits tolerance).recordingMbid.isSome := by
  unfold pickRecording
  dsimp only
  split
  · simp
  · split
    next hit hchosen =>
      have hmem : hit ∈ chosen config file artistMbid hits tolerance := by
        rw [chosen, hchosen]
        exact List.mem_singleton_self hit
      obtain ⟨mbid, hid, -⟩ := isCandidate_id (List.mem_filter.mp (chosen_sublist.subset hmem)).2
      simp [hid]
    · simp

/-- The outcome and the pick do not depend on the order of the hits. -/
theorem pickRecording_perm {others : List MbRecording} (hperm : others.Perm hits) :
    (pickRecording config file artistMbid others tolerance).outcome =
        (pickRecording config file artistMbid hits tolerance).outcome ∧
      (pickRecording config file artistMbid others tolerance).recordingMbid =
        (pickRecording config file artistMbid hits tolerance).recordingMbid := by
  have hchosen := @chosen_perm config file artistMbid _ tolerance _ hperm
  have hnone : others.filter (isCandidate config file artistMbid) = [] ↔
      hits.filter (isCandidate config file artistMbid) = [] := by
    rw [← List.length_eq_zero_iff, (hperm.filter _).length_eq, List.length_eq_zero_iff]
  unfold pickRecording
  dsimp only
  by_cases hempty : hits.filter (isCandidate config file artistMbid) = []
  · rw [if_pos hempty, if_pos (hnone.mpr hempty)]
    exact ⟨rfl, rfl⟩
  · rw [if_neg hempty, if_neg (mt hnone.mp hempty)]
    unfold chosen at hchosen
    split
    next hit hone =>
      rw [hone, List.singleton_perm] at hchosen
      rw [← hchosen]
      exact ⟨rfl, rfl⟩
    next hmany =>
      split
      next hit hone =>
        rw [hone, List.perm_singleton] at hchosen
        exact absurd hchosen (hmany hit)
      · exact ⟨rfl, rfl⟩

end

/-! ## The files of a pair -/

section

variable (config : UntaggedConfig) (client : SearchClient) (artistMbid : String)
  (hits : List MbRecording)

/-- The recording a file is taken for. -/
def mbidOf (file : LibraryFile) : Option String :=
  (pickOf config artistMbid hits file).recordingMbid

def skippedOf (file : LibraryFile) : SkippedFile where
  filePath := file.filePath
  outcome := (pickOf config artistMbid hits file).outcome
  candidateMbids := (pickOf config artistMbid hits file).candidateMbids

/-- The files a recording is picked for are grouped by it, the others are skipped. -/
theorem placeFiles_eq (files : List LibraryFile) :
    placeFiles config artistMbid hits files =
      (Dict.group (fun file => (mbidOf config artistMbid hits file).getD "")
          (files.filter fun file => (mbidOf config artistMbid hits file).isSome),
        (files.filter fun file => (mbidOf config artistMbid hits file).isNone).map
          (skippedOf config artistMbid hits)) := by
  induction files using List.reverseRecOn with
  | nil => rfl
  | append_singleton files file ih =>
      rw [placeFiles, List.foldl_append, ← placeFiles, ih]
      cases hpick : mbidOf config artistMbid hits file with
      | none =>
        have hplace := hpick
        unfold mbidOf at hplace
        simp [placeFile, hplace, hpick, skippedOf]
      | some mbid =>
        have hplace := hpick
        unfold mbidOf at hplace
        simp [placeFile, hplace, hpick, Dict.group_snoc]

/-- The lookup of a recording fails: its id is malformed, or MusicBrainz does not answer. -/
def lookupFails (recordingMbid : String) : Bool :=
  !config.isMbid recordingMbid || (client.lookupRecording recordingMbid).isNone

variable {config client artistMbid hits}

/-- A recording's files are all enriched, or none if its lookup fails. -/
theorem enrichFilesByRecording_count {db stored : Database} {recordingMbid : String}
    {files : List LibraryFile} {enriched : Nat}
    (henriched : enrichFilesByRecording config.toEnrichmentConfig client.toMbClient db recordingMbid
      files = some (enriched, stored)) :
    enriched = if !lookupFails config client recordingMbid then files.length else 0 := by
  unfold enrichFilesByRecording at henriched
  unfold lookupFails
  split at henriched
  next hmalformed => simp_all
  next hwell =>
    split at henriched
    next hnone => simp_all
    next data hdata =>
      simp only [Option.bind_eq_bind, Option.bind_eq_some_iff] at henriched
      obtain ⟨_, -, _, -, hsame⟩ := henriched
      simp_all

theorem enrichRecordings_count {entries : List (String × List LibraryFile)} :
    ∀ {db stored : Database} {enriched : Nat},
      enrichRecordings config client db entries = some (enriched, stored) →
      enriched = (entries.map fun entry =>
        if !lookupFails config client entry.1 then entry.2.length else 0).sum := by
  induction entries with
  | nil =>
      intro db stored enriched henriched
      obtain ⟨rfl, -⟩ := Prod.mk.inj (Option.some.inj henriched)
      rfl
  | cons entry rest ih =>
      intro db stored enriched henriched
      simp only [enrichRecordings, Option.bind_eq_bind, Option.bind_eq_some_iff] at henriched
      obtain ⟨⟨first, middle⟩, hfirst, ⟨later, last⟩, hlater, hsame⟩ := henriched
      obtain ⟨rfl, -⟩ := Prod.mk.inj (Option.some.inj hsame)
      rw [List.map_cons, List.sum_cons, ← enrichFilesByRecording_count hfirst, ← ih hlater]

/-- The files whose recording's lookup fails. -/
def countFailed (config : UntaggedConfig) (client : SearchClient) (artistMbid : String)
    (hits : List MbRecording) (files : List LibraryFile) : Nat :=
  files.countP fun file => (mbidOf config artistMbid hits file).any (lookupFails config client)

/-- Each file is handed to its own recording's enrichment, or skipped. -/
theorem placeFiles_partition (files : List LibraryFile) :
    ((placeFiles config artistMbid hits files).1.values.flatten ++
        files.filter fun file => (mbidOf config artistMbid hits file).isNone).Perm files ∧
      (∀ mbid group, (placeFiles config artistMbid hits files).1.get? mbid = some group ↔
        group = files.filter (fun file => mbidOf config artistMbid hits file = some mbid) ∧
          group ≠ []) := by
  rw [placeFiles_eq]
  refine ⟨?_, fun mbid group => ?_⟩
  · have hnot : ∀ file, (mbidOf config artistMbid hits file).isNone =
        !(mbidOf config artistMbid hits file).isSome := fun file => (Option.not_isSome _).symm
    simp only [hnot]
    exact ((Dict.flatten_values_group _ _).append_right _).trans (List.filter_append_perm _ files)
  · rw [Dict.get?_eq_some_iff, Dict.mem_group_entries, List.filter_filter]
    have hsame : ∀ file, (decide ((mbidOf config artistMbid hits file).getD "" = mbid) &&
        (mbidOf config artistMbid hits file).isSome) =
          decide (mbidOf config artistMbid hits file = some mbid) := by
      intro file
      cases mbidOf config artistMbid hits file <;> simp
    simp only [hsame]

theorem count_outcomes (files : List LibraryFile) :
    ((files.filter fun file => (mbidOf config artistMbid hits file).isSome).countP fun file =>
          !lookupFails config client ((mbidOf config artistMbid hits file).getD "")) +
        (files.countP fun file => (mbidOf config artistMbid hits file).isNone) +
        (files.countP fun file =>
          (mbidOf config artistMbid hits file).any (lookupFails config client)) = files.length := by
  induction files with
  | nil => rfl
  | cons file rest ih =>
      rw [List.filter_cons, List.length_cons, ← ih]
      cases hmbid : mbidOf config artistMbid hits file with
      | none =>
        simp only [Option.isSome_none, Bool.false_eq_true, ↓reduceIte, List.countP_cons, hmbid,
          Option.isNone_none, Option.any_none]
        omega
      | some mbid =>
        cases hfails : lookupFails config client mbid
        all_goals
          simp only [Option.isSome_some, ↓reduceIte, List.countP_cons, hmbid,
            Option.getD_some, hfails,
            Option.isNone_some, Option.any_some, Bool.not_false, Bool.not_true, Bool.false_eq_true]
          omega

theorem enrichUntaggedPair_count {db stored : Database} {pair : UntaggedPair}
    {outcome : PairOutcome}
    (henriched : enrichUntaggedPair config client db pair = some (outcome, stored)) :
    let hits := client.searchRecording pair.artistMbid pair.title
    outcome.skipped = (pair.files.filter fun file =>
        (mbidOf config pair.artistMbid hits file).isNone).map
          (skippedOf config pair.artistMbid hits) ∧
      outcome.enriched + outcome.skipped.length +
        countFailed config client pair.artistMbid hits pair.files = pair.files.length := by
  intro hits
  unfold enrichUntaggedPair at henriched
  dsimp only at henriched
  rw [placeFiles_eq] at henriched
  simp only [Option.map_eq_some_iff, Prod.mk.injEq] at henriched
  obtain ⟨⟨enriched, db'⟩, hcount, rfl, rfl⟩ := henriched
  refine ⟨rfl, ?_⟩
  rw [enrichRecordings_count hcount, List.length_map, ← List.countP_eq_length_filter, countFailed,
    Dict.sum_group _ _ fun mbid => !lookupFails config client mbid]
  exact count_outcomes pair.files

end

/-! ## The pairs of a pass -/

section

variable (config : UntaggedConfig)

/-- The candidates of one artist and title. -/
def groupOf (key : String × String) (candidates : List UntaggedCandidate) :
    List UntaggedCandidate :=
  candidates.filter fun candidate => candidate.artistMbid = key.1 ∧
    searchTitle config (candidate.file.audio.trackTitle.getD "") = key.2 ∧ key.2 ≠ ""

/-- A group sends its first file's title. -/
def entryOf : List UntaggedCandidate → Option (String × List LibraryFile)
  | [] => none
  | first :: rest => some (queryTitle config (first.file.audio.trackTitle.getD ""),
      (first :: rest).map UntaggedCandidate.file)

theorem entryOf_snoc (group : List UntaggedCandidate) (candidate : UntaggedCandidate) :
    let before := (entryOf config group).getD
      (queryTitle config (candidate.file.audio.trackTitle.getD ""), [])
    entryOf config (group ++ [candidate]) = some (before.1, before.2 ++ [candidate.file]) := by
  cases group <;> simp [entryOf]

theorem groupOf_snoc (key : String × String) (candidates : List UntaggedCandidate)
    (candidate : UntaggedCandidate) :
    groupOf config key (candidates ++ [candidate]) = groupOf config key candidates ++
      if candidate.artistMbid = key.1 ∧
          searchTitle config (candidate.file.audio.trackTitle.getD "") = key.2 ∧ key.2 ≠ "" then
        [candidate]
      else [] := by
  rw [groupOf, List.filter_append, ← groupOf, List.filter_cons, List.filter_nil]
  simp only [decide_eq_true_eq]

theorem get?_groups (candidates : List UntaggedCandidate) (key : String × String) :
    (candidates.foldl (addCandidate config) .empty).get? key =
      entryOf config (groupOf config key candidates) := by
  induction candidates using List.reverseRecOn with
  | nil => rfl
  | append_singleton candidates candidate ih =>
      rw [List.foldl_append, List.foldl_cons, List.foldl_nil, addCandidate, groupOf_snoc]
      dsimp only
      split
      next huntitled =>
        rw [ih, if_neg fun hkey => hkey.2.2 (hkey.2.1 ▸ huntitled), List.append_nil]
      next htitled =>
        rw [Dict.get?_set]
        split
        next hkey =>
          subst hkey
          rw [ih, if_pos ⟨rfl, rfl, htitled⟩, entryOf_snoc]
        next hother =>
          rw [ih, if_neg fun hkey => hother (Prod.ext hkey.1.symm hkey.2.1.symm), List.append_nil]

/-- The pairs are those of the keys that some candidates have, with their files. -/
theorem mem_untaggedPairs {candidates : List UntaggedCandidate} {pair : UntaggedPair} :
    pair ∈ untaggedPairs config candidates ↔
      entryOf config (groupOf config (pair.artistMbid, pair.normalizedTitle) candidates) =
        some (pair.title, pair.files) := by
  rw [← get?_groups, Dict.get?_eq_some_iff, untaggedPairs, List.mem_map]
  constructor
  · rintro ⟨entry, hentry, rfl⟩
    exact hentry
  · intro hentry
    exact ⟨_, hentry, rfl⟩

/-- What a pair is searched by. -/
def UntaggedPair.key (pair : UntaggedPair) : String × String :=
  (pair.artistMbid, pair.normalizedTitle)

/-- No two pairs, wherever they stand, are searched by the same. -/
theorem nodup_untaggedPairs (candidates : List UntaggedCandidate) :
    ((untaggedPairs config candidates).map UntaggedPair.key).Nodup := by
  rw [untaggedPairs, List.map_map]
  exact (candidates.foldl (addCandidate config) .empty).nodup

theorem untaggedPairs_files {candidates : List UntaggedCandidate} {pair : UntaggedPair}
    (hpair : pair ∈ untaggedPairs config candidates) :
    pair.files = (groupOf config (pair.artistMbid, pair.normalizedTitle) candidates).map
        UntaggedCandidate.file ∧ pair.files ≠ [] := by
  rw [mem_untaggedPairs] at hpair
  cases hgroup : groupOf config (pair.artistMbid, pair.normalizedTitle) candidates with
  | nil =>
    rw [hgroup] at hpair
    cases hpair
  | cons first rest =>
    rw [hgroup, entryOf, Option.some.injEq, Prod.mk.injEq] at hpair
    rw [← hpair.2]
    exact ⟨rfl, List.cons_ne_nil _ _⟩

/-- A candidate with a title to search is in one pair, and in no other. -/
theorem untaggedPairs_unique {candidates : List UntaggedCandidate} {candidate : UntaggedCandidate}
    (hcandidate : candidate ∈ candidates)
    (htitle : searchTitle config (candidate.file.audio.trackTitle.getD "") ≠ "") :
    ∃! pair, pair ∈ untaggedPairs config candidates ∧ pair.artistMbid = candidate.artistMbid ∧
      pair.normalizedTitle = searchTitle config (candidate.file.audio.trackTitle.getD "") := by
  have hmem : candidate ∈ groupOf config (candidate.artistMbid,
      searchTitle config (candidate.file.audio.trackTitle.getD "")) candidates :=
    List.mem_filter.mpr ⟨hcandidate, decide_eq_true ⟨rfl, rfl, htitle⟩⟩
  obtain ⟨title, files, hentry⟩ : ∃ title files, entryOf config (groupOf config
      (candidate.artistMbid, searchTitle config (candidate.file.audio.trackTitle.getD ""))
        candidates) = some (title, files) := by
    cases hgroup : groupOf config (candidate.artistMbid,
        searchTitle config (candidate.file.audio.trackTitle.getD "")) candidates with
    | nil =>
      rw [hgroup] at hmem
      cases hmem
    | cons first rest => exact ⟨_, _, rfl⟩
  refine ⟨{ artistMbid := candidate.artistMbid
            title
            normalizedTitle := searchTitle config (candidate.file.audio.trackTitle.getD "")
            files }, ⟨(mem_untaggedPairs config).mpr hentry, rfl, rfl⟩, ?_⟩
  rintro ⟨otherArtist, otherTitle, otherNormalized, otherFiles⟩ ⟨hother, rfl, rfl⟩
  rw [mem_untaggedPairs] at hother
  obtain ⟨rfl, rfl⟩ := Prod.mk.inj (Option.some.inj (hother.symm.trans hentry))
  rfl

end

/-! ## The whole pass -/

section

variable (config : UntaggedConfig) (client : SearchClient)

end

def plainConfig : UntaggedConfig where
  saysLive _ := false
  versionOfTitle _ := .original
  normalizeArtist := id
  isMbid _ := true
  newId _ := "new"
  baseOfTitle := id
  normalizeTitle := id

def longerHit : MbRecording where
  id := some "longer"
  title := some "Song"
  length := some 260000
  artistCredit := [⟨some { id := some "artist" }⟩]

def nearHit : MbRecording := { longerHit with id := some "near", length := some 201000 }

/-- A client that finds two recordings of the title, and answers no lookup. -/
def twoHitsClient : SearchClient where
  lookupRelease _ := none
  lookupRecording _ := none
  searchRecordingsByMbids _ _ := none
  searchRecording _ _ := [longerHit, nearHit]

def untaggedFile : LibraryFile where
  id := 1
  filePath := "song.flac"
  audio := { trackTitle := some "Song", durationMs := some 200000 }

def untaggedPair : UntaggedPair := ⟨"artist", "Song", "Song", [untaggedFile]⟩

end RetroStation.Enrichment
