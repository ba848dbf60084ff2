import RetroStation.Grouping.AssignWork

/-! # Grouping keeps parts apart

A file is only ever put on a work of its own artist whose title carries its own part
number, and no work is made beside one of the same artist and the same title.
-/

namespace RetroStation.Grouping

open Library Matching

section

variable {rules : TitleRules} {db stored : Database} {file : LibraryFile} {ids : NewIds}

/-! ## One call -/

/-- The work is of the artist of the name. -/
def OfArtist (db : Database) (work : Work) (normalizedName : String) : Prop :=
  ∃ artist ∈ db.catalog, artist.id = work.artistId ∧
    artist.normalizedName = some normalizedName

/-- The work is one the file may be put on. -/
structure Fits (rules : TitleRules) (db : Database) (file : LibraryFile) (workId : String) :
    Prop where
  fits : ∃ work ∈ db.works, work.id = workId ∧
    rules.partOf work.title = rules.partOf (rules.baseTitle file) ∧
      OfArtist db work (rules.artistOf file)

/-- What one call adds: at most one work, with an id of its own, and beside no work of the
same artist and the same title. -/
structure Grows (rules : TitleRules) (db stored : Database) : Prop where
  catalog : db.catalog ⊆ stored.catalog
  works : stored.works = db.works ∨ ∃ work, stored.works = db.works ++ [work] ∧
    ∀ old ∈ db.works, old.id ≠ work.id ∧ (old.artistId = work.artistId →
      rules.normalizeTitle old.title ≠ rules.normalizeTitle work.title)

theorem Grows.refl (rules : TitleRules) (db : Database) : Grows rules db db :=
  ⟨List.Subset.refl _, .inl rfl⟩

theorem Grows.subset (hgrows : Grows rules db stored) : db.works ⊆ stored.works := by
  rcases hgrows.works with hsame | ⟨work, hnew, -⟩
  · rw [hsame]
    exact List.Subset.refl _
  · rw [hnew]
    exact List.subset_append_left ..

theorem Fits.grows {workId : String} (hfits : Fits rules db file workId)
    (hgrows : Grows rules db stored) : Fits rules stored file workId := by
  obtain ⟨work, hwork, hid, hpart, artist, hartist, howner, hname⟩ := hfits.fits
  exact ⟨work, hgrows.subset hwork, hid, hpart, artist, hgrows.catalog hartist, howner, hname⟩

/-- A candidate is taken only with the part number that is looked for. -/
theorem consider_cases (normBase : String) (best : Best) (candidate : String × String) :
    consider rules normBase best candidate = best ∨
      rules.partOf candidate.2 = titlePartNumber normBase ∧
        (consider rules normBase best candidate).workId = some candidate.1 := by
  unfold consider
  by_cases hpart : titlePartNumber (rules.canonicalTitle candidate.2) = titlePartNumber normBase
  · simp only [hpart, ne_eq, not_true_eq_false, if_false]
    split_ifs
    · exact .inr ⟨hpart, rfl⟩
    · exact .inl rfl
    · exact .inr ⟨hpart, rfl⟩
    · exact .inl rfl
  · simp only [hpart, ne_eq, not_false_eq_true, if_true]
    exact .inl trivial

theorem foldl_consider_mem {normBase : String} {candidates : List (String × String)} :
    ∀ workId, (candidates.foldl (consider rules normBase) {}).workId = some workId →
      ∃ title, (workId, title) ∈ candidates ∧ rules.partOf title = titlePartNumber normBase := by
  refine List.foldlRecOn (motive := fun best : Best => ∀ workId, best.workId = some workId →
    ∃ title, (workId, title) ∈ candidates ∧ rules.partOf title = titlePartNumber normBase)
    candidates _ (fun _ hnone => nomatch hnone) ?_
  intro best hbest candidate hcandidate workId hworkId
  rcases consider_cases normBase best candidate with hsame | ⟨hpart, htaken⟩
  · exact hbest workId (hsame ▸ hworkId)
  · obtain rfl := Option.some.inj (htaken.symm.trans hworkId)
    exact ⟨candidate.2, hcandidate, hpart⟩

theorem fuzzyMatchWork_fits {workId : String}
    (hmatch : fuzzyMatchWork rules db (rules.normalizeTitle (rules.baseTitle file))
      (rules.artistOf file) = some workId) : Fits rules db file workId := by
  unfold fuzzyMatchWork at hmatch
  dsimp only at hmatch
  split at hmatch
  · cases hmatch
  split at hmatch
  · obtain ⟨title, hcandidate, hpart⟩ := foldl_consider_mem workId hmatch
    obtain ⟨work, hwork, heq⟩ := List.mem_map.mp hcandidate
    obtain ⟨rfl, rfl⟩ := Prod.mk.inj heq
    have hjoined := (List.mem_insertionSort _).mp (List.mem_of_mem_take hwork)
    obtain ⟨hin, hartist⟩ := List.mem_filter.mp hjoined
    obtain ⟨artist, hartistIn, hboth⟩ := List.any_eq_true.mp hartist
    simp only [decide_eq_true_eq] at hboth
    exact ⟨work, hin, rfl, hpart, artist, hartistIn, hboth.1, hboth.2⟩
  · cases hmatch

theorem upsertLocalArtist_spec {newId normalizedName artistId : String}
    (hupsert : upsertLocalArtist db newId normalizedName = some (stored, artistId)) :
    Grows rules db stored ∧ stored.works = db.works ∧ ∃ artist ∈ stored.catalog,
      artist.id = artistId ∧ artist.normalizedName = some normalizedName := by
  unfold upsertLocalArtist at hupsert
  split at hupsert
  next artist hartist =>
    obtain ⟨rfl, rfl⟩ := Prod.mk.inj (Option.some.inj hupsert)
    exact ⟨.refl rules db, rfl, artist, List.mem_of_find?_eq_some hartist, rfl,
      by simpa using List.find?_some hartist⟩
  next =>
    split at hupsert
    · cases hupsert
    · obtain ⟨rfl, rfl⟩ := Prod.mk.inj (Option.some.inj hupsert)
      exact ⟨⟨List.subset_append_left .., .inl rfl⟩, rfl, ⟨newId, none, some normalizedName⟩,
        by simp, rfl, rfl⟩

theorem createLocalWork_spec {workId : String}
    (hcreate : createLocalWork rules db file ids (rules.baseTitle file) (rules.artistOf file) =
      some (stored, workId)) : Grows rules db stored ∧ Fits rules stored file workId := by
  unfold createLocalWork at hcreate
  obtain ⟨⟨middle, artistId⟩, hupsert, hcreate⟩ := Option.bind_eq_some_iff.mp hcreate
  obtain ⟨hgrows, hworks, artist, hartist, howner, hname⟩ :=
    @upsertLocalArtist_spec rules _ _ _ _ _ hupsert
  dsimp only at hcreate
  split at hcreate
  next existing hexisting =>
    obtain ⟨rfl, rfl⟩ := Prod.mk.inj (Option.some.inj hcreate)
    obtain ⟨hin, hartistId⟩ := List.mem_filter.mp (List.mem_of_find?_eq_some hexisting)
    have htitle : rules.normalizeTitle existing.title =
        rules.normalizeTitle (rules.baseTitle file) := by simpa using List.find?_some hexisting
    refine ⟨hgrows, existing, hin, rfl, ?_, artist, hartist, ?_, hname⟩
    · rw [TitleRules.partOf, TitleRules.partOf, TitleRules.canonicalTitle,
        TitleRules.canonicalTitle, htitle]
    · rw [howner, of_decide_eq_true hartistId]
  next hnone =>
    obtain ⟨made, hmade, hcreate⟩ := Option.bind_eq_some_iff.mp hcreate
    obtain ⟨rfl, rfl⟩ := Prod.mk.inj (Option.some.inj hcreate)
    unfold Curation.createLocalWork at hmade
    split at hmade
    · cases hmade
    next hfresh =>
      obtain rfl := Option.some.inj hmade
      set work : Work := { id := ids.workId, title := rules.baseTitle file, artistId := artistId }
      refine ⟨⟨hgrows.catalog, .inr ⟨work, ?_, fun old hold => ⟨fun hid => ?_, fun howns htitle =>
        ?_⟩⟩⟩, work, ?_, rfl, rfl, artist, hartist, howner, hname⟩
      · rw [← hworks]
        rfl
      · exact hfresh (List.any_eq_true.mpr ⟨old, hworks ▸ hold, by simpa using hid⟩)
      · have hnot := List.find?_eq_none.mp hnone old
          (List.mem_filter.mpr ⟨hworks ▸ hold, by simpa using howns⟩)
        exact hnot (by simpa using htitle)
      · exact List.mem_append_right _ (List.mem_singleton_self work)

theorem findOrCreateWork_spec {workId : String}
    (hfound : findOrCreateWork rules db file ids = some (stored, workId)) :
    Grows rules db stored ∧ Fits rules stored file workId := by
  unfold findOrCreateWork at hfound
  dsimp only at hfound
  split at hfound
  next hmatch =>
    obtain ⟨rfl, rfl⟩ := Prod.mk.inj (Option.some.inj hfound)
    exact ⟨.refl rules db, fuzzyMatchWork_fits hmatch⟩
  · exact createLocalWork_spec hfound

theorem getOrCreateLocal_spec {newId workId recordingId title : String} {version : VersionType}
    (hrecording : getOrCreateLocal db newId workId version title = some (stored, recordingId)) :
    stored.works = db.works ∧ stored.catalog = db.catalog := by
  unfold getOrCreateLocal at hrecording
  split at hrecording
  · obtain ⟨rfl, -⟩ := Prod.mk.inj (Option.some.inj hrecording)
    exact ⟨rfl, rfl⟩
  · split at hrecording
    · cases hrecording
    · obtain ⟨rfl, -⟩ := Prod.mk.inj (Option.some.inj hrecording)
      exact ⟨rfl, rfl⟩

/-- A call without a shortcut puts the file on a work that fits it. -/
theorem assignWork_spec {result : Option GroupingResult}
    (hassign : assignWork rules db file ids = some (stored, result)) :
    Grows rules db stored ∧ (tryAudioHashShortcut db file = none → tryMbidShortcut db file = none →
      ∀ placed, result = some placed → Fits rules stored file placed.workId) := by
  unfold assignWork at hassign
  dsimp only at hassign
  split at hassign
  · obtain ⟨rfl, rfl⟩ := Prod.mk.inj (Option.some.inj hassign)
    exact ⟨.refl rules db, fun _ _ _ hnone => nomatch hnone⟩
  split at hassign
  next shortcut hshortcut =>
    obtain ⟨rfl, rfl⟩ := Prod.mk.inj (Option.some.inj hassign)
    refine ⟨.refl rules db, fun haudio hmbid => ?_⟩
    rw [haudio, hmbid] at hshortcut
    cases hshortcut
  next =>
    obtain ⟨⟨middle, workId⟩, hfound, hassign⟩ := Option.bind_eq_some_iff.mp hassign
    obtain ⟨⟨last, recordingId⟩, hrecording, hassign⟩ := Option.bind_eq_some_iff.mp hassign
    obtain ⟨rfl, rfl⟩ := Prod.mk.inj (Option.some.inj hassign)
    obtain ⟨hgrows, hfits⟩ := findOrCreateWork_spec hfound
    obtain ⟨hworks, hcatalog⟩ := getOrCreateLocal_spec hrecording
    have hstored : Grows rules middle last :=
      ⟨hcatalog ▸ List.Subset.refl _, .inl hworks⟩
    refine ⟨⟨hcatalog ▸ hgrows.catalog, hworks ▸ hgrows.works⟩, fun _ _ placed hplaced => ?_⟩
    obtain rfl := Option.some.inj hplaced
    exact hfits.grows hstored

end

/-! ## Every run -/

/-- What a call without a shortcut said: the file is on a work that fits it. -/
def Said (rules : TitleRules) (db : Database) : GroupingAction → Option GroupingResult → Prop
  | .assign file _, some placed => Fits rules db file placed.workId
  | _, _ => True

section

variable {rules : TitleRules} {start db next : Database}
  {trace : List (GroupingAction × Option GroupingResult)}

theorem grouping_step {action : GroupingAction} {result : Option GroupingResult}
    (hstep : (groupingMachine rules).step db action = some (next, result)) :
    Grows rules db next ∧ (NoShortcut db action → Said rules next action result) := by
  cases action with
  | assign file ids =>
      obtain ⟨hgrows, hfits⟩ := assignWork_spec hstep
      refine ⟨hgrows, fun hnone => ?_⟩
      cases result with
      | none => trivial
      | some placed => exact hfits hnone.1 hnone.2 placed rfl
  | changeFiles files =>
      obtain ⟨rfl, rfl⟩ := Prod.mk.inj (Option.some.inj hstep)
      exact ⟨⟨List.Subset.refl _, .inl rfl⟩, fun _ => trivial⟩

theorem Said.grows {action : GroupingAction} {result : Option GroupingResult}
    (hsaid : Said rules db action result) (hgrows : Grows rules db next) :
    Said rules next action result := by
  cases action with
  | assign file ids =>
      cases result with
      | none => trivial
      | some placed => exact Fits.grows hsaid hgrows
  | changeFiles files => trivial

/-- What a run made of the works it started from. -/
structure Made (rules : TitleRules) (start db : Database) : Prop where
  ids : Table.UniqueBy Work.id db.works
  apart : ∀ first ∈ db.works, ∀ second ∈ db.works, first ∉ start.works → second ∉ start.works →
    first ≠ second → first.artistId = second.artistId →
      rules.normalizeTitle first.title ≠ rules.normalizeTitle second.title

theorem Made.grows (hmade : Made rules start db) (hgrows : Grows rules db next) :
    Made rules start next := by
  rcases hgrows.works with hsame | ⟨work, hnew, hbeside⟩
  · exact ⟨hsame ▸ hmade.ids, hsame ▸ hmade.apart⟩
  constructor
  case ids =>
    rw [hnew]
    exact hmade.ids.append fun old hold => (hbeside old hold).1
  case apart =>
    intro first hfirst second hsecond hfirstNew hsecondNew hne howns
    rw [hnew, List.mem_append, List.mem_singleton] at hfirst hsecond
    rcases hfirst with hfirst | rfl <;> rcases hsecond with hsecond | rfl
    · exact hmade.apart first hfirst second hsecond hfirstNew hsecondNew hne howns
    · exact (hbeside first hfirst).2 howns
    · exact ((hbeside second hsecond).2 howns.symm).symm
    · exact absurd rfl hne

theorem grouping_run (hids : Table.UniqueBy Work.id start.works)
    (hrun : (groupingMachine rules).Run start trace db)
    (hmeets : (groupingMachine rules).Meets NoShortcut start trace) :
    Made rules start db ∧ ∀ entry ∈ trace, Said rules db entry.1 entry.2 := by
  induction hrun with
  | nil => exact ⟨⟨hids, fun first hfirst _ _ hnew => absurd hfirst hnew⟩, by simp⟩
  | @snoc trace db next action result hrun hstep ih =>
      obtain ⟨hmade, hsaid⟩ := ih hmeets.left
      obtain ⟨hgrows, hlast⟩ := grouping_step hstep
      refine ⟨hmade.grows hgrows, fun entry hentry => ?_⟩
      rcases List.mem_append.mp hentry with hentry | hentry
      · exact (hsaid entry hentry).grows hgrows
      · obtain rfl := List.mem_singleton.mp hentry
        exact hlast (hmeets.last hrun)

/-- However the calls follow one another, as long as no shortcut places a file: every file is
on a work of its artist with its own part number, files on one work have one part number, and
no two works made for one artist have one normalized title. -/
theorem grouping_keeps_parts (hids : Table.UniqueBy Work.id start.works)
    (hrun : (groupingMachine rules).Run start trace db)
    (hmeets : (groupingMachine rules).Meets NoShortcut start trace) :
    (∀ file ids placed, (GroupingAction.assign file ids, some placed) ∈ trace →
      ∃ work ∈ db.works, work.id = placed.workId ∧
        rules.partOf work.title = rules.partOf (rules.baseTitle file) ∧
        ∃ artist ∈ db.catalog, artist.id = work.artistId ∧
          artist.normalizedName = some (rules.artistOf file)) ∧
    (∀ file ids placed file' ids' placed', (GroupingAction.assign file ids, some placed) ∈ trace →
      (GroupingAction.assign file' ids', some placed') ∈ trace → placed.workId = placed'.workId →
        rules.partOf (rules.baseTitle file) = rules.partOf (rules.baseTitle file')) ∧
    ∀ first ∈ db.works, ∀ second ∈ db.works, first ∉ start.works → second ∉ start.works →
      first ≠ second → first.artistId = second.artistId →
        rules.normalizeTitle first.title ≠ rules.normalizeTitle second.title := by
  obtain ⟨hmade, hsaid⟩ := grouping_run hids hrun hmeets
  have hfits : ∀ file ids placed, (GroupingAction.assign file ids, some placed) ∈ trace →
      Fits rules db file placed.workId := fun file ids placed hentry => hsaid _ hentry
  refine ⟨fun file ids placed hentry => (hfits file ids placed hentry).fits, ?_, hmade.apart⟩
  intro file ids placed file' ids' placed' hentry hentry' hsame
  obtain ⟨work, hwork, hid, hpart, -⟩ := (hfits file ids placed hentry).fits
  obtain ⟨work', hwork', hid', hpart', -⟩ := (hfits file' ids' placed' hentry').fits
  -- One work has one title, so both files have that title's part.
  obtain rfl := hmade.ids.eq hwork hwork' (hid.trans (hsame.trans hid'.symm))
  exact hpart.symm.trans hpart'

end

/-- Titles and names as they are spelled, and all of them alike. -/
def plainRules : TitleRules where
  normalizeArtist := id
  normalizeTitle := id
  extractVersionInfo title := (title, .original)
  ratio _ _ := 100
  partialRatio _ _ := 100

def partFile (id : Uuid) (title : String) : LibraryFile :=
  { id := id, filePath := title,
    audio := { artistName := some "artist", trackTitle := some title } }

/-- Two parts of one song, and the first once more, spelled another way. -/
theorem grouping_keeps_parts_two : ∃ trace db, (groupingMachine plainRules).Run {} trace db ∧
    db.works.map Work.title = ["song pt i", "song part ii"] ∧ ∃ work ∈ db.works,
      work.id = "w" ∧ plainRules.partOf work.title = plainRules.partOf "song part 1" := by
  obtain ⟨hrun, hmeets⟩ := Transition.Machine.Run.of_guarded
    (Transition.Machine.run_of_exec (rfl :
      ((groupingMachine plainRules).guarded NoShortcut).exec {}
        [.assign (partFile 1 "song pt i") ⟨"a", "w", "r"⟩,
          .assign (partFile 2 "song part ii") ⟨"b", "v", "s"⟩,
          .assign (partFile 3 "song part 1") ⟨"c", "u", "t"⟩] = some (_, _)))
  obtain ⟨work, hwork, hid, hpart, -⟩ := (grouping_keeps_parts (by decide) hrun hmeets).1
    (partFile 3 "song part 1") ⟨"c", "u", "t"⟩ ⟨"w", some "r"⟩
    (.tail _ (.tail _ (.head _)))
  exact ⟨_, _, hrun, rfl, work, hwork, hid, hpart⟩

end RetroStation.Grouping
