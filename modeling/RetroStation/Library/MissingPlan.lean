import RetroStation.Library.MissingFiles

/-! # The plan for the missing files

Every missing row is paired, called ambiguous or left unmatched; no successor takes over
two rows, and no order of rows or candidates changes the plan.
-/

namespace RetroStation.Library

section

variable {spelling : Spelling} {missing successor : LibraryFile} {ready ready' : List LibraryFile}

/-! ## Choosing a successor -/

theorem pick_perm {candidates candidates' : List LibraryFile}
    (hperm : candidates.Perm candidates') :
    pick spelling missing candidates = pick spelling missing candidates' := by
  unfold pick
  rw [onlyOf_perm hperm, onlyOf_perm (hperm.filter _)]

theorem chooseSuccessor_perm (hperm : ready.Perm ready') :
    chooseSuccessor spelling missing ready = chooseSuccessor spelling missing ready' := by
  have haudio : (ready.filter (sameAudio missing)).Perm (ready'.filter (sameAudio missing)) :=
    hperm.filter _
  have hnone : ready.filter (sameAudio missing) = [] ↔ ready'.filter (sameAudio missing) = [] :=
    ⟨fun hnil => (hnil ▸ haudio).nil_eq.symm, fun hnil => (hnil ▸ haudio).eq_nil⟩
  have hawaiting : ready.any awaitingFingerprint = ready'.any awaitingFingerprint := hperm.any_eq
  unfold chooseSuccessor
  simp only [hawaiting, ne_eq, hnone]
  split
  · rfl
  · split
    · exact pick_perm haudio
    · exact pick_perm hperm

theorem pick_mem {candidates : List LibraryFile}
    (hpick : pick spelling missing candidates = some successor) : successor ∈ candidates := by
  rcases Option.or_eq_some_iff.mp hpick with honly | ⟨-, honly⟩
  · exact onlyOf_mem honly
  · exact List.mem_of_mem_filter (onlyOf_mem honly)

theorem chooseSuccessor_mem (hchosen : chooseSuccessor spelling missing ready = some successor) :
    successor ∈ ready := by
  unfold chooseSuccessor at hchosen
  dsimp only at hchosen
  split at hchosen
  · cases hchosen
  · have hmem := pick_mem hchosen
    split at hmem
    · exact List.mem_of_mem_filter hmem
    · exact hmem

/-- An audio match is only ever passed over while a fingerprint is still awaited. -/
theorem chooseSuccessor_audio (hchosen : chooseSuccessor spelling missing ready = some successor)
    {twin : LibraryFile} (htwin : twin ∈ ready) (haudio : sameAudio missing twin = true) :
    sameAudio missing successor = true ∧ ∀ row ∈ ready, awaitingFingerprint row = false := by
  have hsome : ready.filter (sameAudio missing) ≠ [] :=
    List.ne_nil_of_mem (List.mem_filter.mpr ⟨htwin, haudio⟩)
  unfold chooseSuccessor at hchosen
  simp only [hsome, ne_eq, not_false_eq_true, true_and, if_true] at hchosen
  split at hchosen
  · cases hchosen
  next hnone =>
    refine ⟨(List.mem_filter.mp (pick_mem hchosen)).2, fun row hrow => ?_⟩
    by_contra hawaits
    exact hnone (List.any_eq_true.mpr ⟨row, hrow, by simpa using hawaits⟩)

end

/-! ## Planning -/

section

variable {spelling : Spelling} {candidatesFor candidatesFor' : LibraryFile → List LibraryFile}
  {rows rows' done : List LibraryFile} {planning : Planning} {missing : LibraryFile}

/-- What is known of a plan once the rows of `done` are settled. -/
structure PlanOk (spelling : Spelling) (candidatesFor : LibraryFile → List LibraryFile)
    (done : List LibraryFile) (planning : Planning) : Prop where
  places : (planning.plan.moves.map MissingFileMove.missingPath ++ planning.plan.ambiguous ++
    planning.plan.unmatched).Perm (done.map LibraryFile.filePath)
  claimed : planning.claimed = planning.plan.moves.map MissingFileMove.successorId
  nodup : planning.claimed.Nodup
  moves : ∀ move ∈ planning.plan.moves, ∃ missing ∈ done, ∃ successor : LibraryFile,
    move = moveTo missing successor ∧ chooseSuccessor spelling missing
      (readySuccessors spelling missing (candidatesFor missing)) = some successor
  ambiguous : ∀ path ∈ planning.plan.ambiguous, ∃ missing ∈ done, missing.filePath = path ∧
    readySuccessors spelling missing (candidatesFor missing) ≠ []

theorem planRow_ok (hok : PlanOk spelling candidatesFor done planning) (missing : LibraryFile) :
    PlanOk spelling candidatesFor (done ++ [missing])
      (planRow spelling candidatesFor planning missing) := by
  have hlater : ∀ {p : LibraryFile → Prop}, (∃ row ∈ done, p row) →
    ∃ row ∈ done ++ [missing], p row :=
    fun ⟨row, hrow, hp⟩ => ⟨row, List.mem_append_left _ hrow, hp⟩
  have hplaces := hok.places
  -- a row left alone adds its path to one of the two lists
  have hambiguous (hready : readySuccessors spelling missing (candidatesFor missing) ≠ []) :
      PlanOk spelling candidatesFor (done ++ [missing]) { planning with
        plan := { planning.plan with
          ambiguous := planning.plan.ambiguous ++ [missing.filePath] } } := by
    refine ⟨?_, hok.claimed, hok.nodup, fun move hmove => hlater (hok.moves move hmove), ?_⟩
    · rw [List.map_append, List.map_singleton]
      refine List.Perm.trans ?_ (hplaces.append_right [missing.filePath])
      simp only [List.append_assoc]
      exact (List.perm_append_comm.append_left _).append_left _
    · intro path hpath
      rcases List.mem_append.mp hpath with hold | hnew
      · exact hlater (hok.ambiguous path hold)
      · exact ⟨missing, by simp, (List.mem_singleton.mp hnew).symm, hready⟩
  unfold planRow
  dsimp only
  split
  · refine ⟨?_, hok.claimed, hok.nodup, fun move hmove => hlater (hok.moves move hmove),
      fun path hpath => hlater (hok.ambiguous path hpath)⟩
    rw [List.map_append, List.map_singleton, ← List.append_assoc]
    exact hplaces.append_right _
  next hready =>
    split
    · exact hambiguous hready
    -- A chosen successor is taken only by the first row that names it.
    next successor hchosen =>
      split
      · exact hambiguous hready
      next hfree =>
        constructor
        case places =>
          simp only [List.map_append, List.map_singleton, moveTo]
          refine List.Perm.trans ?_ (hplaces.append_right [missing.filePath])
          simp only [List.append_assoc]
          refine List.Perm.append_left _ ?_
          rw [← List.append_assoc planning.plan.ambiguous]
          exact List.perm_append_comm
        case claimed => simp [hok.claimed, moveTo]
        case nodup =>
          refine List.nodup_append.mpr ⟨hok.nodup, List.nodup_singleton _, ?_⟩
          rintro id hid _ hnew rfl
          exact hfree (List.mem_singleton.mp hnew ▸ hid)
        case moves =>
          intro move hmove
          rcases List.mem_append.mp hmove with hold | hnew
          · exact hlater (hok.moves move hold)
          · exact ⟨missing, by simp, successor, List.mem_singleton.mp hnew, hchosen⟩
        case ambiguous => exact fun path hpath => hlater (hok.ambiguous path hpath)

theorem foldl_planRow_ok (hok : PlanOk spelling candidatesFor done planning) :
    PlanOk spelling candidatesFor (done ++ rows)
      (rows.foldl (planRow spelling candidatesFor) planning) := by
  induction rows generalizing done planning with
  | nil => simpa using hok
  | cons row rest ih => simpa using ih (planRow_ok hok row)

theorem planMissingFileMoves_ok (spelling : Spelling)
    (candidatesFor : LibraryFile → List LibraryFile) (rows : List LibraryFile) :
    ∃ planning, planMissingFileMoves spelling rows candidatesFor = planning.plan ∧
      PlanOk spelling candidatesFor (orderByPath rows) planning :=
  ⟨_, rfl, @foldl_planRow_ok spelling candidatesFor (orderByPath rows) [] {}
    ⟨by simp, rfl, List.nodup_nil, by simp, by simp⟩⟩

/-! ## Order -/

theorem planRow_congr (hready : (readySuccessors spelling missing (candidatesFor missing)).Perm
    (readySuccessors spelling missing (candidatesFor' missing))) (planning : Planning) :
    planRow spelling candidatesFor planning missing =
      planRow spelling candidatesFor' planning missing := by
  have hnone : readySuccessors spelling missing (candidatesFor missing) = [] ↔
      readySuccessors spelling missing (candidatesFor' missing) = [] :=
    ⟨fun hnil => (hnil ▸ hready).nil_eq.symm, fun hnil => (hnil ▸ hready).eq_nil⟩
  unfold planRow
  dsimp only
  rw [chooseSuccessor_perm hready]
  by_cases hnil : readySuccessors spelling missing (candidatesFor' missing) = []
  · rw [if_pos hnil, if_pos (hnone.mpr hnil)]
  · rw [if_neg hnil, if_neg (hnone.not.mpr hnil)]

theorem planMissingFileMoves_perm (hpaths : Table.UniqueBy LibraryFile.filePath rows)
    (hperm : rows.Perm rows')
    (hready : ∀ missing ∈ rows, (readySuccessors spelling missing (candidatesFor missing)).Perm
      (readySuccessors spelling missing (candidatesFor' missing))) :
    planMissingFileMoves spelling rows candidatesFor =
      planMissingFileMoves spelling rows' candidatesFor' := by
  have hsorted := orderByPath_perm hpaths hperm
  have hall : ∀ missing ∈ orderByPath rows',
      (readySuccessors spelling missing (candidatesFor missing)).Perm
        (readySuccessors spelling missing (candidatesFor' missing)) := fun missing hmissing =>
    hready missing (hperm.mem_iff.mpr (mem_orderByPath.mp hmissing))
  have hfold : ∀ (more : List LibraryFile) (planning : Planning), (∀ missing ∈ more,
      (readySuccessors spelling missing (candidatesFor missing)).Perm
        (readySuccessors spelling missing (candidatesFor' missing))) →
      more.foldl (planRow spelling candidatesFor) planning =
        more.foldl (planRow spelling candidatesFor') planning := by
    intro more
    induction more with
    | nil => exact fun _ _ => rfl
    | cons row rest ih =>
        intro planning hmore
        rw [List.foldl_cons, List.foldl_cons, planRow_congr (hmore row List.mem_cons_self)]
        exact ih _ fun missing hmissing => hmore missing (List.mem_cons_of_mem _ hmissing)
  unfold planMissingFileMoves
  rw [hsorted, hfold _ _ hall]

/-- Looking the candidates up plans what considering every row would. -/
theorem planForLibrary_eq {files : List LibraryFile} (hids : Table.UniqueBy LibraryFile.id files)
    (hpaths : Table.UniqueBy LibraryFile.filePath files) :
    planForLibrary spelling files =
      planMissingFileMoves spelling (getMissing files) fun _ => files := by
  have hmissing : Table.UniqueBy LibraryFile.filePath (getMissing files) :=
    ((List.perm_insertionSort _ _).map _).nodup_iff.mpr
      (hpaths.sublist (List.filter_sublist.map _))
  exact planMissingFileMoves_perm hmissing (.refl _) fun _ _ => readySuccessors_perm hids

end

/-! ## The plan as a whole -/

/-- Every missing row is settled in one way; a move pairs it with a present, grouped row of its
track, an audio match if one is ready, and no row takes over two; and the plan depends neither
on an order nor on how the candidates are looked up. -/
theorem plan_pairs (spelling : Spelling) {missingRows : List LibraryFile}
    (candidatesFor : LibraryFile → List LibraryFile)
    (hpaths : Table.UniqueBy LibraryFile.filePath missingRows) :
    let plan := planMissingFileMoves spelling missingRows candidatesFor
    (plan.moves.map MissingFileMove.missingPath ++ plan.ambiguous ++ plan.unmatched).Perm
      (missingRows.map LibraryFile.filePath) ∧
    (plan.moves.map MissingFileMove.successorId).Nodup ∧
    (∀ move ∈ plan.moves, ∃ missing ∈ missingRows, ∃ successor ∈ candidatesFor missing,
      move = moveTo missing successor ∧ successor.id ≠ missing.id ∧
      successor.fileStatus = .present ∧ successor.workId.isSome ∧
      isSameTrack spelling missing successor ∧
      ∀ twin ∈ readySuccessors spelling missing (candidatesFor missing), sameAudio missing twin →
        sameAudio missing successor ∧
        ∀ row ∈ readySuccessors spelling missing (candidatesFor missing),
          awaitingFingerprint row = false) ∧
    (∀ rows' candidatesFor', missingRows.Perm rows' →
      (∀ missing ∈ missingRows, (candidatesFor missing).Perm (candidatesFor' missing)) →
      planMissingFileMoves spelling rows' candidatesFor' = plan) ∧
    ∀ files, Table.UniqueBy LibraryFile.id files → Table.UniqueBy LibraryFile.filePath files →
      planForLibrary spelling files =
        planMissingFileMoves spelling (getMissing files) fun _ => files := by
  intro plan
  obtain ⟨planning, hplan, hok⟩ := planMissingFileMoves_ok spelling candidatesFor missingRows
  have hplanning : plan = planning.plan := hplan
  refine ⟨?_, ?_, ?_, ?_, fun files hids hfiles => planForLibrary_eq hids hfiles⟩
  · rw [hplanning]
    exact hok.places.trans ((List.perm_insertionSort _ missingRows).map _)
  · rw [hplanning, ← hok.claimed]
    exact hok.nodup
  · intro move hmove
    obtain ⟨missing, hmissing, successor, hmoveEq, hchosen⟩ :=
      hok.moves move (hplanning ▸ hmove)
    obtain ⟨hcandidate, hready⟩ := List.mem_filter.mp (chooseSuccessor_mem hchosen)
    simp only [decide_eq_true_eq] at hready
    exact ⟨missing, mem_orderByPath.mp hmissing, successor, hcandidate, hmoveEq, hready.1,
      hready.2.1, hready.2.2.1, hready.2.2.2, fun twin htwin haudio =>
        chooseSuccessor_audio hchosen htwin haudio⟩
  · intro rows' candidatesFor' hperm hcandidates
    exact (planMissingFileMoves_perm hpaths hperm fun missing hmissing =>
      (hcandidates missing hmissing).filter _).symm

/-- Letters of either case are the same, and a name is what follows the last slash. -/
def plainSpelling : Spelling where
  casefold char := [char.toLower]
  isAlnum := Char.isAlphanum
  fileName path := String.ofList (path.toList.reverse.takeWhile (· ≠ '/')).reverse

def songRow (id : Uuid) (filePath : String) (workId : Option String) (audioHash : String) :
    LibraryFile :=
  { id, filePath, workId, audioHash,
    audio := { recordingMbid := some "r", durationMs := some 1000 } }

/-- A missing row with an audio match and a row of its recording, and one with a row of its
recording only. -/
def twoMissing : List LibraryFile :=
  [{ songRow 1 "/old/song.flac" (some "w") "flac-md5:1" with fileStatus := .missing },
    songRow 2 "/new/song.flac" (some "w") "flac-md5:1",
    songRow 3 "/other/song.flac" (some "w") "flac-md5:2",
    { id := 4, filePath := "/old/tune.flac", fileStatus := .missing, workId := some "v",
      audioHash := some "flac-md5:4",
      audio := { recordingMbid := some "s", durationMs := some 2000 } },
    { id := 5, filePath := "/new/tune.flac", workId := some "v", audioHash := some "flac-md5:5",
      audio := { recordingMbid := some "s", durationMs := some 2000 } }]

theorem plan_pairs_twoMissing :
    let plan := planForLibrary plainSpelling twoMissing
    plan.moves.map (fun move => (move.missingId, move.successorId)) = [(1, 2), (4, 5)] ∧
    (plan.moves.map MissingFileMove.missingPath ++ plan.ambiguous ++ plan.unmatched).Perm
      ["/old/song.flac", "/old/tune.flac"] ∧
    (plan.moves.map MissingFileMove.successorId).Nodup ∧
    planMissingFileMoves plainSpelling (getMissing twoMissing).reverse
      (successorCandidates plainSpelling twoMissing) = plan :=
  have hpairs := @plan_pairs plainSpelling (getMissing twoMissing)
    (successorCandidates plainSpelling twoMissing) (by decide)
  ⟨by decide, hpairs.1, hpairs.2.1, hpairs.2.2.2.1 _ _ (List.reverse_perm _).symm
    fun _ _ => .refl _⟩

/-! ## A twin that is not grouped -/

/-- A missing row, its audio twin that no work has yet, and a present row of its recording. -/
def ungroupedTwin : List LibraryFile :=
  [{ songRow 1 "/old/song.flac" (some "w") "flac-md5:1" with fileStatus := .missing },
    songRow 2 "/new/song.flac" none "flac-md5:1",
    songRow 3 "/other/song.flac" (some "w") "flac-md5:2"]

/-- The row's audio match is passed over for a row that is none, since it has no work. -/
theorem plan_passes_audio_match :
    ¬ ∀ (files : List LibraryFile), Table.UniqueBy LibraryFile.id files →
      Table.UniqueBy LibraryFile.filePath files →
      ∀ move ∈ (planForLibrary plainSpelling files).moves, ∀ missing ∈ files,
        missing.id = move.missingId → ∀ successor ∈ files, successor.id = move.successorId →
        ∀ twin ∈ files, twin.id ≠ missing.id → twin.fileStatus = .present →
          sameAudio missing twin → sameAudio missing successor := by
  intro hclaim
  have hplan : (planForLibrary plainSpelling ungroupedTwin).moves =
      [moveTo ungroupedTwin[0] ungroupedTwin[2]] := by decide
  have haudio := hclaim ungroupedTwin (by decide) (by decide) _ (hplan ▸ List.mem_singleton_self _)
    ungroupedTwin[0] (by simp [ungroupedTwin]) rfl ungroupedTwin[2] (by simp [ungroupedTwin]) rfl
    ungroupedTwin[1] (by simp [ungroupedTwin]) (by decide) rfl (by decide)
  exact absurd haudio (by decide)

end RetroStation.Library
