import RetroStation.Cues.Precompute

/-! # What one batch does

A batch reads a source forward, checks and analyses a part of what it read, records what was
analysed, and puts the rest of that part back.
-/

namespace RetroStation.Cues

open Library

variable {config : CueRunConfig} {work : CueWork} {answers : BatchAnswers} {run : Run}
  {batch : List CueCandidate} {candidate : CueCandidate}

/-- A file that passes the check before analysis, wherever it stands in the batch. -/
def PassesFirst (answers : BatchAnswers) (candidate : CueCandidate) : Prop :=
  ∀ index, statProblem (answers.first index candidate) candidate = none

/-- A file that passes the check after analysis and still carries its hash. -/
def PassesSecond (answers : BatchAnswers) (candidate : CueCandidate) : Prop :=
  statProblem (answers.second candidate) candidate = none ∧ answers.current candidate = true

/-! ## What is recorded -/

/-- Recording analysed files adds one outcome for each, and the audio of those stored. -/
theorem recordBatch_eq (analysed : List Autocued) : ∃ outcomes hashes,
    (recordBatch config answers run analysed).backlog = run.backlog ∧
    (recordBatch config answers run analysed).tried = run.tried ∧
    (recordBatch config answers run analysed).outcomes = run.outcomes ++ outcomes ∧
    outcomes.map Prod.fst = analysed.map (fun autocued => autocued.candidate.fileId) ∧
    (recordBatch config answers run analysed).recorded = run.recorded ++ hashes ∧
    hashes.Sublist (analysed.map fun autocued => autocued.candidate.audioHash) ∧
    ∀ audioHash, audioHash ∈ (recordBatch config answers run analysed).rows.map
        CueAnalysis.audioHash ↔
      audioHash ∈ run.rows.map CueAnalysis.audioHash ∨ audioHash ∈ hashes := by
  induction analysed generalizing run with
  | nil => exact ⟨[], [], by simp [recordBatch]⟩
  | cons autocued rest ih =>
      have hone : ∀ audioHash, audioHash ∈ (recordOne config answers run.rows autocued).2.map
            CueAnalysis.audioHash ↔
          audioHash ∈ run.rows.map CueAnalysis.audioHash ∨
            (recordOne config answers run.rows autocued).1.stored = true ∧
              audioHash = autocued.candidate.audioHash := by
        intro audioHash
        unfold recordOne
        split
        next problem hproblem => simp [(statProblem_not_stored hproblem).1]
        next => exact recordAnalysis_hashes audioHash
      rw [recordBatch]
      cases hrecord : recordOne config answers run.rows autocued with
      | mk outcome rows =>
          rw [hrecord] at hone
          obtain ⟨outcomes, hashes, hbacklog, htried, houtcomes, hids, hrecorded, hsub, hrows⟩ :=
            @ih { run with
              outcomes := run.outcomes ++ [(autocued.candidate.fileId, outcome)]
              recorded := if outcome.stored then run.recorded ++ [autocued.candidate.audioHash]
                else run.recorded
              rows := rows }
          refine ⟨(autocued.candidate.fileId, outcome) :: outcomes,
            (if outcome.stored then [autocued.candidate.audioHash] else []) ++ hashes, hbacklog,
            htried, ?_, ?_, ?_, ?_, fun audioHash => ?_⟩
          · rw [houtcomes, List.append_assoc]
            rfl
          · rw [List.map_cons, List.map_cons, hids]
          · rw [hrecorded]
            cases outcome.stored <;> simp
          · rw [List.map_cons]
            cases outcome.stored with
            | true => exact hsub.cons_cons _
            | false => exact hsub.cons _
          · rw [hrows, hone]
            cases outcome.stored <;> simp [or_assoc]

/-- What was recorded or given an outcome before stays so. -/
theorem recordBatch_grows (analysed : List Autocued) :
    run.recorded ⊆ (recordBatch config answers run analysed).recorded ∧
      run.outcomes ⊆ (recordBatch config answers run analysed).outcomes := by
  obtain ⟨outcomes, hashes, -, -, houtcomes, -, hrecorded, -⟩ :=
    @recordBatch_eq config answers run analysed
  rw [houtcomes, hrecorded]
  exact ⟨List.subset_append_left _ _, List.subset_append_left _ _⟩

/-- An analysed file that is still current has its audio stored, or no duration to store. -/
theorem recordBatch_current {analysed : List Autocued} {autocued : Autocued}
    (hmem : autocued ∈ analysed) (hcurrent : PassesSecond answers autocued.candidate) :
    autocued.candidate.audioHash ∈ (recordBatch config answers run analysed).recorded ∨
      (autocued.candidate.fileId, .noDuration) ∈
        (recordBatch config answers run analysed).outcomes := by
  induction analysed generalizing run with
  | nil => cases hmem
  | cons first rest ih =>
      rw [recordBatch]
      dsimp only
      rcases List.mem_cons.mp hmem with rfl | hrest
      · have hone : recordOne config answers run.rows autocued =
            recordAnalysis config.toCueReader run.rows true autocued := by
          rw [recordOne, hcurrent.1, hcurrent.2]
        rw [hone]
        rcases @recordAnalysis_current config.toCueReader run.rows autocued with hstored | hnone
        · refine .inl ((recordBatch_grows rest).1 ?_)
          rw [hstored]
          exact List.mem_append_right _ (List.mem_singleton_self _)
        · refine .inr ((recordBatch_grows rest).2 ?_)
          rw [hnone]
          exact List.mem_append_right _ (List.mem_singleton_self _)
      · exact ih hrest

/-! ## What a batch leaves -/

theorem map_candidate_autocued (analysis : BatchAnalysis) (ready : List CueCandidate) :
    (ready.mapIdx (autocuedAt analysis)).map Autocued.candidate = ready := by
  refine List.ext_getElem? fun index => ?_
  rw [List.getElem?_map, List.getElem?_mapIdx, Option.map_map]
  exact Option.map_id'

theorem stalledAt_lt {count index : Nat} {analysis : BatchAnalysis}
    (hstalled : stalledAt count analysis = some index) : index < count :=
  List.mem_range.mp (List.mem_of_find?_eq_some hstalled)

/-- A batch records its files up to the first without an outcome, with it, and puts the rest
back, untried. -/
theorem runBatch_eq (run : Run) (batch : List CueCandidate) : ∃ count analysed base,
    runBatch config answers run batch = recordBatch config answers base analysed ∧
    analysed.map Autocued.candidate = (readyOf answers run batch).take count ∧
    base.outcomes = run.outcomes ++ (problemsOf answers (unseenOf run batch)).entries ∧
    base.recorded = run.recorded ∧ base.rows = run.rows ∧
    (∀ fileId, fileId ∈ base.tried ↔
      (fileId ∈ run.tried ∨ fileId ∈ (unseenOf run batch).map CueCandidate.fileId) ∧
        fileId ∉ ((readyOf answers run batch).drop count).map CueCandidate.fileId) ∧
    ((readyOf answers run batch).drop count = [] ∧ base.backlog = run.backlog ∨
      ∃ stalled, ((readyOf answers run batch).take count).getLast? = some stalled ∧
        base.backlog =
          run.backlog.putBack stalled ((readyOf answers run batch).drop count)) := by
  unfold runBatch
  dsimp only
  split
  next =>
    refine ⟨(readyOf answers run batch).length, _, _, rfl, ?_, rfl, rfl, rfl, fun fileId => ?_,
      .inl ⟨List.drop_length, rfl⟩⟩
    · rw [map_candidate_autocued, List.take_length]
    · simp
  next index hindex =>
    split
    next hnone =>
      exact absurd (stalledAt_lt hindex) (Nat.not_lt.mpr (List.getElem?_eq_none_iff.mp hnone))
    next stalled hstalled =>
      have htake : (readyOf answers run batch).take (index + 1) =
          (readyOf answers run batch).take index ++ [stalled] := by
        rw [List.take_add_one, hstalled]
        rfl
      refine ⟨index + 1, _, _, rfl, ?_, rfl, rfl, rfl, fun fileId => ?_, .inr ⟨stalled, ?_, rfl⟩⟩
      · rw [List.map_append, map_candidate_autocued, htake]
        rfl
      · simp only [List.mem_filter, List.mem_append, decide_eq_true_eq]
      · rw [htake, List.getLast?_concat]

/-- What a batch does: its problems and the files up to `count` get outcomes, and the rest of
what was ready goes back. -/
structure Batched (answers : BatchAnswers) (run : Run) (batch : List CueCandidate) (next : Run)
    (count : Nat) (outcomes : List (Uuid × Outcome)) (hashes : List AudioHash) : Prop where
  outcomes_eq : next.outcomes =
    run.outcomes ++ (problemsOf answers (unseenOf run batch)).entries ++ outcomes
  outcomes_files : outcomes.map Prod.fst =
    ((readyOf answers run batch).take count).map CueCandidate.fileId
  recorded_eq : next.recorded = run.recorded ++ hashes
  hashes_sublist : hashes.Sublist
    (((readyOf answers run batch).take count).map CueCandidate.audioHash)
  rows : ∀ audioHash, audioHash ∈ next.rows.map CueAnalysis.audioHash ↔
    audioHash ∈ run.rows.map CueAnalysis.audioHash ∨ audioHash ∈ hashes
  tried : ∀ fileId, fileId ∈ next.tried ↔
    (fileId ∈ run.tried ∨ fileId ∈ (unseenOf run batch).map CueCandidate.fileId) ∧
      fileId ∉ ((readyOf answers run batch).drop count).map CueCandidate.fileId
  backlog : (readyOf answers run batch).drop count = [] ∧ next.backlog = run.backlog ∨
    ∃ stalled, ((readyOf answers run batch).take count).getLast? = some stalled ∧
      next.backlog = run.backlog.putBack stalled ((readyOf answers run batch).drop count)
  current : ∀ candidate ∈ (readyOf answers run batch).take count,
    PassesSecond answers candidate → candidate.audioHash ∈ next.recorded ∨
      (candidate.fileId, .noDuration) ∈ next.outcomes

theorem runBatch_batched (run : Run) (batch : List CueCandidate) : ∃ count outcomes hashes,
    Batched answers run batch (runBatch config answers run batch) count outcomes hashes := by
  obtain ⟨count, analysed, base, hrun, hanalysed, houtcomes, hrecorded, hrows, htried, hbacklog⟩ :=
    @runBatch_eq config answers run batch
  obtain ⟨added, hashes, hkept, hkeptTried, hadded, hfiles, haudio, hsub, hstored⟩ :=
    @recordBatch_eq config answers base analysed
  have hmap : ∀ {Value : Type} (read : CueCandidate → Value),
      analysed.map (fun autocued => read autocued.candidate) =
        ((readyOf answers run batch).take count).map read := by
    intro Value read
    rw [← hanalysed, List.map_map]
    rfl
  refine ⟨count, added, hashes, ?_, ?_, ?_, ?_, ?_, ?_, ?_, ?_⟩
  · rw [hrun, hadded, houtcomes]
  · rw [hfiles, hmap]
  · rw [hrun, haudio, hrecorded]
  · rwa [hmap] at hsub
  · rwa [hrun, ← hrows]
  · rwa [hrun, hkeptTried]
  · rwa [hrun, hkept]
  · intro candidate hmem hcurrent
    rw [← hanalysed] at hmem
    obtain ⟨autocued, hautocued, rfl⟩ := List.mem_map.mp hmem
    rw [hrun]
    exact recordBatch_current hautocued hcurrent

theorem mem_unseenOf : candidate ∈ unseenOf run batch ↔
    candidate ∈ batch ∧ candidate.fileId ∉ run.tried ∧ candidate.audioHash ∉ run.recorded := by
  simp [unseenOf]

theorem readyOf_sublist : (readyOf answers run batch).Sublist (passedOf answers run batch) :=
  Firsts.firsts_sublist

theorem mem_passedOf : candidate ∈ passedOf answers run batch ↔
    candidate ∈ unseenOf run batch ∧
      candidate.fileId ∉ (problemsOf answers (unseenOf run batch)).keys := by
  simp [passedOf]

theorem readyOf_sublist_batch : (readyOf answers run batch).Sublist batch :=
  readyOf_sublist.trans (List.filter_sublist.trans List.filter_sublist)

/-- A problem is that of an unseen file. -/
theorem problemsOf_keys {unseen : List CueCandidate} {fileId : Uuid}
    (hkey : fileId ∈ (problemsOf answers unseen).keys) : ∃ candidate ∈ unseen,
      candidate.fileId = fileId ∧ ¬ PassesFirst answers candidate := by
  obtain ⟨pair, hpair, rfl⟩ := List.mem_map.mp (Dict.mem_keys_ofList.mp hkey)
  obtain ⟨⟨candidate, index⟩, hmem, hfound⟩ := List.mem_filterMap.mp hpair
  have hchecked : (statProblem (answers.first index candidate) candidate).map
      (candidate.fileId, ·) = some pair := hfound
  obtain ⟨problem, hproblem, rfl⟩ := Option.map_eq_some_iff.mp hchecked
  refine ⟨candidate, List.fst_mem_of_mem_zipIdx hmem, rfl, fun hpasses => ?_⟩
  rw [hpasses index] at hproblem
  cases hproblem

end RetroStation.Cues
