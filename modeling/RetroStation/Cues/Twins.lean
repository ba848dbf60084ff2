import RetroStation.Cues.Runs

/-! # Twins

Files with one audio share its row, so a batch analyses the first of them that passes the check
before analysis. The check after it comes too late for the others:

* `good_twin_not_hidden` — a run that is not paused stores the audio of a file that passes every
  check, unless in some batch another file with that audio stood for it and failed one.
-/

namespace RetroStation.Cues

open Library

/-- A file that is readable, and as it was hashed, at every check of the run. -/
def Good (answers : Nat → BatchAnswers) (candidate : CueCandidate) : Prop :=
  ∀ number, PassesFirst (answers number) candidate ∧ PassesSecond (answers number) candidate

/-- In the batch a good file has a good one stand for its audio. -/
def KeepsGood (answers : Nat → BatchAnswers) (number : Nat) (run : Run)
    (batch : List CueCandidate) : Prop :=
  ∀ candidate ∈ passedOf (answers number) run batch, Good answers candidate → ∀ keeper,
    ((passedOf (answers number) run batch).find? fun other =>
      other.audioHash = candidate.audioHash) = some keeper → Good answers keeper

/-- The audio is stored, or a file with it gave no duration to store. -/
def Stored (work : CueWork) (held : List CueAnalysis) (run : Run) (audioHash : AudioHash) : Prop :=
  audioHash ∈ run.recorded ∨ ∃ candidate, work.Holds held candidate ∧
    candidate.audioHash = audioHash ∧ (candidate.fileId, Outcome.noDuration) ∈ run.outcomes

variable {config : CueRunConfig} {work : CueWork} {answers : Nat → BatchAnswers} {run next : Run}
  {batch : List CueCandidate} {backlog : Backlog} {candidate : CueCandidate}
  {held rows : List CueAnalysis} {timeUp : Nat → Bool} {fuel number : Nat} {final : Run}
  {audioHash : AudioHash}

theorem Batched.stored {count : Nat} {outcomes : List (Uuid × Outcome)} {hashes : List AudioHash}
    {answers : BatchAnswers}
    (hnext : Batched answers { run with backlog } batch next count outcomes hashes)
    (hstored : Stored work held run audioHash) : Stored work held next audioHash := by
  rcases hstored with hrecorded | ⟨candidate, hholds, haudio, houtcome⟩
  · refine .inl ?_
    rw [hnext.recorded_eq]
    exact List.mem_append_left _ hrecorded
  · refine .inr ⟨candidate, hholds, haudio, ?_⟩
    rw [hnext.outcomes_eq]
    exact List.mem_append_left _ (List.mem_append_left _ houtcome)

/-- A good file's audio is stored, or a good file with it is still to be read. -/
theorem Batched.stored_or_pending {count : Nat} {outcomes : List (Uuid × Outcome)}
    {hashes : List AudioHash} (hok : RunOk work held run)
    (htake : run.backlog.take work run.rows config.batchSize = (batch, backlog))
    (hsome : batch ≠ []) (hkeeps : KeepsGood answers number { run with backlog } batch)
    (hnext : Batched (answers number) { run with backlog } batch next count outcomes hashes)
    (hcovered : Stored work held run audioHash ∨ ∃ candidate, work.Holds held candidate ∧
      candidate.audioHash = audioHash ∧ Good answers candidate ∧ Pending work held run candidate) :
    Stored work held next audioHash ∨ ∃ candidate, work.Holds held candidate ∧
      candidate.audioHash = audioHash ∧ Good answers candidate ∧
        Pending work held next candidate := by
  rcases hcovered with hstored | ⟨candidate, hholds, rfl, hgood, hpending⟩
  · exact .inl (hnext.stored hstored)
  rcases pending_batch hok htake hsome hnext hholds hpending with
    hstays | hrecorded | ⟨hfails, -⟩ | ⟨keeper, hfirst, hpassed, haudio, hkeeper, hread⟩
  · exact .inr ⟨candidate, hholds, rfl, hgood, hstays⟩
  · exact .inl (hnext.stored (.inl hrecorded))
  · exact (hfails (hgood number).1).elim
  have hstands := hkeeps candidate hpassed hgood keeper hfirst
  rcases hread with hstays | hanalysed
  · exact .inr ⟨keeper, hkeeper, haudio, hstands, hstays⟩
  · refine .inl ((hnext.current keeper hanalysed (hstands number).2).imp (haudio ▸ ·) ?_)
    exact fun houtcome => ⟨keeper, hkeeper, haudio, houtcome⟩

/-- A run that is not paused ends with a row for the audio of every good file, or without a
duration to store for a file with it, when no file that fails a check stands for it. -/
theorem good_twin_not_hidden
    (hrun : runBatches config work answers timeUp fuel 0 (startRun config work rows) =
      some (false, final))
    (hkeeps : EveryBatch config work answers timeUp (KeepsGood answers) fuel 0
      (startRun config work rows))
    (hholds : work.Holds (startRun config work rows).rows candidate)
    (hgood : Good answers candidate) :
    candidate.audioHash ∈ final.rows.map CueAnalysis.audioHash ∨
      ∃ other, work.Holds (startRun config work rows).rows other ∧
        other.audioHash = candidate.audioHash ∧
        (other.fileId, Outcome.noDuration) ∈ final.outcomes := by
  obtain ⟨last, hok, hcovered, houtcomes, -, hrows, hend⟩ :=
    runBatches_invariant (motive := fun run =>
        Stored work (startRun config work rows).rows run candidate.audioHash ∨
          ∃ other, work.Holds (startRun config work rows).rows other ∧
            other.audioHash = candidate.audioHash ∧ Good answers other ∧
            Pending work (startRun config work rows).rows run other)
      (fun number run batch backlog count outcomes hashes next hok hcovered htake hsome hkeeps
        hnext => hnext.stored_or_pending hok htake hsome hkeeps hcovered)
      (startRun_ok config work rows)
      (.inr ⟨candidate, hholds, rfl, hgood, startRun_pending hholds⟩) hkeeps hrun
  obtain ⟨backlog, htake⟩ := hend rfl
  rw [hrows, houtcomes, hok.rows]
  rcases hcovered with (hrecorded | houtcome) | ⟨other, -, haudio, -, hpending⟩
  · exact .inl (.inr hrecorded)
  · exact .inr houtcome
  · exact .inl (.inr (haudio ▸ pending_end hok hpending htake))

/-! ## A twin that changes while it is analysed -/

def plainConfig : CueRunConfig where
  analyserVersion := 1
  defaultFadeOutMs := 0
  autocuePoints := fun _ => .unusable "liq_cue_in"
  batchSize_pos := by decide

def twin (fileId : Uuid) (path : String) : CueCandidate where
  fileId := fileId
  path := path
  audioHash := "song"
  durationMs := some 1000
  fileSize := some 1
  fileMtimeNs := some 1

/-- Two files with one audio in the library. -/
def twins : CueWork where
  priority := []
  library := [twin 1 "a", twin 2 "b"]
  byPath := by decide
  sameFile := by decide

/-- The stat that is stored of a file, or one of a larger file. -/
def storedStat (candidate : CueCandidate) (changed : Bool) : DiskStat where
  size := candidate.fileSize.getD 0 + if changed then 1 else 0
  mtimeNs := candidate.fileMtimeNs.getD 0

/-- Every file is as it was hashed, but for those that change while they are analysed. -/
def changing (changed : Uuid → Bool) : BatchAnswers where
  first := fun _ candidate => some (storedStat candidate false)
  second := fun candidate => some (storedStat candidate (changed candidate.fileId))
  current := fun _ => true
  analysis := { metadata := fun _ => some [] }

theorem good_of_unchanged {changed : Uuid → Bool} (hsame : changed candidate.fileId = false) :
    Good (fun _ => changing changed) candidate := by
  have hstat : statProblem (some (storedStat candidate false)) candidate = none := by
    unfold statProblem storedStat
    cases candidate.fileSize <;> cases candidate.fileMtimeNs <;> simp
  refine fun _ => ⟨fun _ => hstat, ?_, rfl⟩
  unfold changing
  dsimp only
  rw [hsame, hstat]

/-- The first twin changes while it stands for the second, which is not tried again. -/
theorem changed_twin_hides_good :
    Good (fun _ => changing (· = 1)) (twin 2 "b") ∧
    twins.Holds (startRun plainConfig twins []).rows (twin 2 "b") ∧
    ((runBatches plainConfig twins (fun _ => changing (· = 1)) (fun _ => false) 3 0
      (startRun plainConfig twins [])).map fun ended =>
        (ended.1, ended.2.rows, ended.2.outcomes)) = some (false, [], [(1, .changed)]) :=
  ⟨good_of_unchanged rfl, .inr (by decide), by decide⟩

theorem good_twin_not_hidden_unchanged : ∃ final,
    runBatches plainConfig twins (fun _ => changing fun _ => false) (fun _ => false) 3 0
        (startRun plainConfig twins []) = some (false, final) ∧
      ("song" ∈ final.rows.map CueAnalysis.audioHash ∨ ∃ other,
        twins.Holds (startRun plainConfig twins []).rows other ∧ other.audioHash = "song" ∧
          (other.fileId, Outcome.noDuration) ∈ final.outcomes) := by
  have hgood : ∀ candidate, Good (fun _ => changing fun _ => false) candidate :=
    fun _ => good_of_unchanged rfl
  have hholds : twins.Holds (startRun plainConfig twins []).rows (twin 2 "b") := .inr (by decide)
  have hends : (runBatches plainConfig twins (fun _ => changing fun _ => false) (fun _ => false) 3 0
      (startRun plainConfig twins [])).map Prod.fst = some false := by decide
  obtain ⟨⟨paused, final⟩, hrun, hpaused⟩ := Option.map_eq_some_iff.mp hends
  obtain rfl : paused = false := hpaused
  exact ⟨final, hrun, good_twin_not_hidden hrun
    (everyBatch_of_forall (fun _ _ _ _ _ _ keeper _ => hgood keeper) _ _ _) hholds (hgood _)⟩

end RetroStation.Cues
