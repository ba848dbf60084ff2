import RetroStation.Cues.Batches

/-! # A cue run

Every batch consumes a file of the priority set or moves the cursor on, so a run ends:

* `cue_run_ends` — a run ends, gives no file two outcomes and stores no audio twice; and a run
  that is not paused ends with an outcome for the audio of every candidate.
-/

namespace RetroStation.Cues

open Library

variable {config : CueRunConfig} {work : CueWork} {answers : BatchAnswers} {run : Run}
  {batch : List CueCandidate} {backlog : Backlog} {candidate : CueCandidate}
  {held rows : List CueAnalysis}

/-- The candidates of a run: the priority set, and the library's files whose audio has no row
when it begins. -/
def CueWork.Holds (work : CueWork) (rows : List CueAnalysis) (candidate : CueCandidate) : Prop :=
  candidate ∈ work.priority ∨ candidate ∈ work.library ∧ needsAnalysis rows candidate

theorem CueWork.Holds.mem (hholds : work.Holds rows candidate) :
    candidate ∈ work.priority ++ work.library :=
  List.mem_append.mpr (hholds.imp_right And.left)

theorem needsAnalysis_iff : needsAnalysis rows candidate ↔
    candidate.audioHash ∉ rows.map CueAnalysis.audioHash := by
  simp only [needsAnalysis, List.all_eq_true, decide_eq_true_eq, List.mem_map, not_exists, not_and]

/-! ## Reading a batch -/

/-- A batch is read off the priority set, or else off the library behind the cursor. -/
theorem take_cases (htake : run.backlog.take work rows config.batchSize = (batch, backlog))
    (hsome : batch ≠ []) :
    (backlog.lastFromLibrary = false ∧ backlog.cursor = run.backlog.cursor ∧
      backlog.libraryDone = run.backlog.libraryDone ∧
      run.backlog.priority = batch ++ backlog.priority) ∨
    backlog.lastFromLibrary = true ∧ run.backlog.priority = [] ∧ backlog.priority = [] ∧
      backlog.libraryDone = run.backlog.libraryDone ∧ ∃ last rest,
      batch.getLast? = some last ∧ backlog.cursor = some last.path ∧
      (work.library.filter fun candidate => needsAnalysis rows candidate &&
        isAfter run.backlog.cursor candidate.path) = batch ++ rest := by
  unfold Backlog.take at htake
  split at htake
  next hpriority =>
    obtain ⟨rfl, rfl⟩ := Prod.mk.inj htake
    exact .inl ⟨rfl, rfl, rfl, (List.take_append_drop _ _).symm⟩
  next hpriority =>
    split at htake
    next => exact (hsome (Prod.mk.inj htake).1.symm).elim
    next =>
      dsimp only at htake
      split at htake
      next => exact (hsome (Prod.mk.inj htake).1.symm).elim
      next last hlast =>
        obtain ⟨rfl, rfl⟩ := Prod.mk.inj htake
        have hempty := not_not.mp hpriority
        exact .inr ⟨rfl, hempty, hempty, rfl, last, _, hlast, rfl,
          (List.take_append_drop _ _).symm⟩

/-- Nothing is left to read. -/
theorem take_eq_nil (hopen : run.backlog.libraryDone = false)
    (htake : run.backlog.take work rows config.batchSize = ([], backlog)) :
    run.backlog.priority = [] ∧ ∀ candidate ∈ work.library, needsAnalysis rows candidate →
      ¬ isAfter run.backlog.cursor candidate.path := by
  unfold Backlog.take at htake
  split at htake
  next hpriority =>
    have hnil := (Prod.mk.inj htake).1
    rw [List.take_eq_nil_iff] at hnil
    exact (hnil.elim (fun hsize => absurd config.batchSize_pos (by omega)) hpriority).elim
  next hpriority =>
    refine ⟨not_not.mp hpriority, ?_⟩
    rw [if_neg (by simp [hopen])] at htake
    dsimp only at htake
    split at htake
    next hnone =>
      rw [List.getLast?_eq_none_iff, CueWork.libraryAfter, List.take_eq_nil_iff] at hnone
      have hempty := hnone.resolve_left fun hsize => absurd config.batchSize_pos (by omega)
      intro candidate hmem hneeds hafter
      have := List.filter_eq_nil_iff.mp hempty candidate hmem
      simp [hneeds, hafter] at this
    next last hlast =>
      rw [(Prod.mk.inj htake).1] at hlast
      cases hlast

/-! ## Progress -/

/-- A path behind the last one read, or behind a stall, is behind the old cursor too. -/
theorem isAfter_trans {cursor : Option String} {first second : String}
    (hfirst : isAfter cursor first) (hless : first < second) : isAfter cursor second := by
  cases cursor with
  | none => rfl
  | some after => exact decide_eq_true (String.lt_trans (of_decide_eq_true hfirst) hless)

/-- How a batch moves on: it takes files off the priority set, or the cursor forward. -/
def MovesOn (work : CueWork) (run next : Run) : Prop :=
  (next.backlog.priority.length < run.backlog.priority.length ∧
      next.backlog.cursor = run.backlog.cursor) ∨
    next.backlog.priority = run.backlog.priority ∧ ∃ last ∈ work.library,
      next.backlog.cursor = some last.path ∧ isAfter run.backlog.cursor last.path

/-- The files behind a stall are fewer than those of the batch. -/
theorem untried_length {count : Nat} {stalled : CueCandidate}
    (hstalled : ((readyOf answers run batch).take count).getLast? = some stalled) :
    stalled ∈ readyOf answers run batch ∧
      ((readyOf answers run batch).drop count).length < batch.length := by
  have hmem := List.mem_of_getLast? hstalled
  refine ⟨List.mem_of_mem_take hmem, ?_⟩
  have hready := (@readyOf_sublist_batch answers run batch).length_le
  have htaken := List.length_pos_of_mem hmem
  rw [List.length_take] at htaken
  rw [List.length_drop]
  omega

theorem runBatch_movesOn (htake : run.backlog.take work run.rows config.batchSize =
    (batch, backlog))
    (hsome : batch ≠ []) : MovesOn work run
      (runBatch config answers { run with backlog } batch) := by
  obtain ⟨count, _, _, hbatched⟩ := @runBatch_batched config answers { run with backlog } batch
  have hbacklog := hbatched.backlog
  have hlength := List.length_pos_iff.mpr hsome
  rcases take_cases htake hsome with ⟨hpriority, hcursor, -, hsplit⟩ |
    ⟨hlibrary, hempty, hempty', -, last, rest, hlast, hcursor, hsplit⟩
  · refine .inl ?_
    rcases hbacklog with ⟨-, hbacklog⟩ | ⟨stalled, hstalled, hbacklog⟩
    · rw [hbacklog, hsplit, List.length_append]
      exact ⟨Nat.lt_add_of_pos_left hlength, hcursor⟩
    · have huntried := (untried_length hstalled).2
      rw [hbacklog, Backlog.putBack, hpriority, hsplit, if_neg Bool.false_ne_true,
        List.length_append, List.length_append]
      exact ⟨Nat.add_lt_add_right huntried _, hcursor⟩
  · have hread : ∀ candidate ∈ batch, candidate ∈ work.library ∧
        isAfter run.backlog.cursor candidate.path := by
      intro candidate hmem
      have hfiltered := hsplit ▸ List.mem_append_left rest hmem
      obtain ⟨hmem, hneeds⟩ := List.mem_filter.mp hfiltered
      exact ⟨hmem, (Bool.and_eq_true_iff.mp hneeds).2⟩
    rcases hbacklog with ⟨-, hbacklog⟩ | ⟨stalled, hstalled, hbacklog⟩
    · obtain ⟨hmem, hafter⟩ := hread last (List.mem_of_getLast? hlast)
      refine .inr ⟨?_, last, hmem, ?_, hafter⟩ <;> rw [hbacklog]
      · exact hempty'.trans hempty.symm
      · exact hcursor
    · obtain ⟨hmem, hafter⟩ :=
        hread stalled (readyOf_sublist_batch.subset (untried_length hstalled).1)
      refine .inr ⟨?_, stalled, hmem, ?_, hafter⟩ <;>
        rw [hbacklog, Backlog.putBack, hlibrary, if_pos rfl]
      exact hempty'.trans hempty.symm

/-- How much is left to read. -/
def unreadCount (work : CueWork) (run : Run) : Nat :=
  run.backlog.priority.length +
    (work.library.filter fun candidate => isAfter run.backlog.cursor candidate.path).length

theorem MovesOn.unreadCount_lt {next : Run} (hmoves : MovesOn work run next) :
    unreadCount work next < unreadCount work run := by
  unfold unreadCount
  rcases hmoves with ⟨hless, hcursor⟩ | ⟨hsame, last, hmem, hcursor, hafter⟩
  · rw [hcursor]
    omega
  · rw [hsame, hcursor]
    have hbehind : (work.library.filter fun candidate =>
          isAfter (some last.path) candidate.path).length <
        (work.library.filter fun candidate =>
          isAfter run.backlog.cursor candidate.path).length := by
      have hsub : (work.library.filter fun candidate =>
            isAfter (some last.path) candidate.path) =
          (work.library.filter fun candidate => isAfter run.backlog.cursor candidate.path).filter
            fun candidate => isAfter (some last.path) candidate.path := by
        rw [List.filter_filter]
        refine List.filter_congr fun candidate _ => ?_
        cases hbehind : isAfter (some last.path) candidate.path with
        | false => rfl
        | true => rw [isAfter_trans hafter (of_decide_eq_true hbehind)]; rfl
      rw [hsub, List.length_filter_lt_length_iff_exists]
      refine ⟨last, List.mem_filter.mpr ⟨hmem, hafter⟩, ?_⟩
      exact fun hself => String.lt_irrefl _ (of_decide_eq_true hself)
    omega

/-! ## The invariant of a run -/

/-- A file of the sources with the audio has an outcome. -/
def Answered (work : CueWork) (run : Run) (audioHash : AudioHash) : Prop :=
  ∃ candidate ∈ work.priority ++ work.library, candidate.audioHash = audioHash ∧
    candidate.fileId ∈ run.outcomes.map Prod.fst

/-- Every file tried once, every audio stored once. -/
structure RunOk (work : CueWork) (held : List CueAnalysis) (run : Run) : Prop where
  libraryOpen : run.backlog.libraryDone = false
  priority : run.backlog.priority ⊆ work.priority
  tried : run.outcomes.map Prod.fst ⊆ run.tried
  outcomes : (run.outcomes.map Prod.fst).Nodup
  recorded : run.recorded.Nodup
  rows : ∀ audioHash, audioHash ∈ run.rows.map CueAnalysis.audioHash ↔
    audioHash ∈ held.map CueAnalysis.audioHash ∨ audioHash ∈ run.recorded
  answered : ∀ audioHash ∈ run.recorded, Answered work run audioHash

/-- A file still to be read, and not tried. -/
def Pending (work : CueWork) (held : List CueAnalysis) (run : Run) (candidate : CueCandidate) :
    Prop :=
  candidate.fileId ∉ run.tried ∧
    (candidate ∈ run.backlog.priority ∨ candidate ∈ work.library ∧
      needsAnalysis held candidate ∧ isAfter run.backlog.cursor candidate.path)

section

variable (hok : RunOk work held run)
  (htake : run.backlog.take work run.rows config.batchSize = (batch, backlog)) (hsome : batch ≠ [])

include hok htake hsome

/-- A batch is of the sources, and of the files that the run holds. -/
theorem batch_sources : (∀ candidate ∈ batch, candidate ∈ work.priority ++ work.library) ∧
    (backlog.lastFromLibrary = false → batch ⊆ work.priority) ∧
    (backlog.lastFromLibrary = true → ∀ candidate ∈ batch,
      candidate ∈ work.library ∧ needsAnalysis held candidate) ∧
    backlog.priority ⊆ work.priority ∧ backlog.libraryDone = false := by
  have hneeds : ∀ candidate, needsAnalysis run.rows candidate → needsAnalysis held candidate := by
    intro candidate
    rw [needsAnalysis_iff, needsAnalysis_iff, hok.rows]
    exact fun hnone hheld => hnone (.inl hheld)
  rcases take_cases htake hsome with ⟨hpriority, -, hdone, hsplit⟩ |
    ⟨hlibrary, -, hempty, hdone, -, rest, -, -, hsplit⟩
  · have hsub : batch ++ backlog.priority ⊆ work.priority := hsplit ▸ hok.priority
    refine ⟨fun candidate hmem => List.mem_append_left _ (hsub (List.mem_append_left _ hmem)),
      fun _ candidate hmem => hsub (List.mem_append_left _ hmem), fun hlibrary => ?_,
      fun candidate hmem => hsub (List.mem_append_right _ hmem),
      hdone.trans hok.libraryOpen⟩
    rw [hpriority] at hlibrary
    cases hlibrary
  · have hread : ∀ candidate ∈ batch, candidate ∈ work.library ∧ needsAnalysis held candidate := by
      intro candidate hmem
      obtain ⟨hmem, hreads⟩ := List.mem_filter.mp (hsplit ▸ List.mem_append_left rest hmem)
      exact ⟨hmem, hneeds candidate (Bool.and_eq_true_iff.mp hreads).1⟩
    refine ⟨fun candidate hmem => List.mem_append_right _ (hread candidate hmem).1,
      fun hpriority => ?_, fun _ => hread, ?_, hdone.trans hok.libraryOpen⟩
    · rw [hlibrary] at hpriority
      cases hpriority
    · rw [hempty]
      exact List.nil_subset _

/-- Of the files that are ready no two are one file. -/
theorem readyOf_nodup : ((readyOf answers { run with backlog } batch).map
    CueCandidate.fileId).Nodup := by
  have haudio : ((readyOf answers { run with backlog } batch).map CueCandidate.audioHash).Nodup :=
    Firsts.nodup_firsts
  refine List.Nodup.map_on ?_ haudio.of_map
  intro first hfirst second hsecond hsame
  have hsources := (batch_sources hok htake hsome).1
  exact work.sameFile first (hsources first (readyOf_sublist_batch.subset hfirst)) second
    (hsources second (readyOf_sublist_batch.subset hsecond)) hsame

/-- A batch keeps the invariant. -/
theorem RunOk.batched {next : Run} {count : Nat} {outcomes : List (Uuid × Outcome)}
    {hashes : List AudioHash}
    (hnext : Batched answers { run with backlog } batch next count outcomes hashes) :
    RunOk work held next := by
  obtain ⟨hsources, hfromPriority, -, hpriority, hopen⟩ := batch_sources hok htake hsome
  have hready := @readyOf_sublist_batch answers { run with backlog } batch
  have hnodup := @readyOf_nodup _ _ answers _ _ _ _ hok htake hsome
  have hunseen : ∀ candidate ∈ readyOf answers { run with backlog } batch,
      candidate ∈ unseenOf { run with backlog } batch ∧ candidate.fileId ∉
        (problemsOf answers (unseenOf { run with backlog } batch)).keys := fun candidate hmem =>
    mem_passedOf.mp (readyOf_sublist.subset hmem)
  have hproblems : ∀ fileId ∈ (problemsOf answers (unseenOf { run with backlog } batch)).keys,
      fileId ∉ run.tried ∧
        fileId ∈ (unseenOf { run with backlog } batch).map CueCandidate.fileId := by
    intro fileId hkey
    obtain ⟨candidate, hmem, rfl, -⟩ := problemsOf_keys hkey
    exact ⟨(mem_unseenOf.mp hmem).2.1, List.mem_map_of_mem hmem⟩
  have hfiles : next.outcomes.map Prod.fst = run.outcomes.map Prod.fst ++
      (problemsOf answers (unseenOf { run with backlog } batch)).keys ++
        ((readyOf answers { run with backlog } batch).take count).map CueCandidate.fileId := by
    rw [hnext.outcomes_eq, List.map_append, List.map_append, hnext.outcomes_files]
    rfl
  -- The backlog that is left, what was tried, the outcomes, and what was recorded and stored.
  refine ⟨?_, ?_, ?_, ?_, ?_, ?_, ?_⟩
  · rcases hnext.backlog with ⟨-, hbacklog⟩ | ⟨stalled, -, hbacklog⟩
    · rw [hbacklog]
      exact hopen
    · rw [hbacklog, Backlog.putBack]
      split <;> exact hopen
  · rcases hnext.backlog with ⟨-, hbacklog⟩ | ⟨stalled, -, hbacklog⟩
    · rw [hbacklog]
      exact hpriority
    · rw [hbacklog, Backlog.putBack]
      split
      next => exact hpriority
      next hlast =>
        refine List.append_subset.mpr ⟨fun candidate hmem => ?_, hpriority⟩
        exact hfromPriority (Bool.eq_false_of_not_eq_true hlast)
          (hready.subset (List.mem_of_mem_drop hmem))
  · rw [hfiles]
    intro fileId hmem
    refine (hnext.tried fileId).mpr ?_
    rcases List.mem_append.mp hmem with hmem | hanalysed
    · rcases List.mem_append.mp hmem with hold | hproblem
      · refine ⟨.inl (hok.tried hold), fun hbehind => ?_⟩
        obtain ⟨candidate, hdrop, rfl⟩ := List.mem_map.mp hbehind
        exact (mem_unseenOf.mp (hunseen candidate (List.mem_of_mem_drop hdrop)).1).2.1
          (hok.tried hold)
      · refine ⟨.inr (hproblems fileId hproblem).2, fun hbehind => ?_⟩
        obtain ⟨candidate, hdrop, rfl⟩ := List.mem_map.mp hbehind
        exact (hunseen candidate (List.mem_of_mem_drop hdrop)).2 hproblem
    -- A file analysed in this batch stands before the stalled ones, which stay untried.
    · obtain ⟨candidate, htaken, rfl⟩ := List.mem_map.mp hanalysed
      refine ⟨.inr (List.mem_map_of_mem (hunseen candidate (List.mem_of_mem_take htaken)).1), ?_⟩
      rw [← List.take_append_drop count (readyOf answers { run with backlog } batch),
        List.map_append] at hnodup
      exact fun hbehind => (List.nodup_append.mp hnodup).2.2 _ hanalysed _ hbehind rfl
  · rw [hfiles, List.nodup_append, List.nodup_append]
    refine ⟨⟨hok.outcomes, (problemsOf answers _).nodup, fun old hold new hnew heq => ?_⟩,
      ((List.take_sublist count _).map _).nodup hnodup, fun old hold new hnew heq => ?_⟩
    · exact (hproblems new hnew).1 (heq ▸ hok.tried hold)
    · obtain ⟨candidate, htaken, rfl⟩ := List.mem_map.mp hnew
      obtain ⟨hmem, hpasses⟩ := hunseen candidate (List.mem_of_mem_take htaken)
      rcases List.mem_append.mp hold with hold | hproblem
      · exact (mem_unseenOf.mp hmem).2.1 (heq ▸ hok.tried hold)
      · exact hpasses (heq ▸ hproblem)
  · rw [hnext.recorded_eq, List.nodup_append]
    have haudio : ((readyOf answers { run with backlog } batch).map
        CueCandidate.audioHash).Nodup := Firsts.nodup_firsts
    refine ⟨hok.recorded,
      (hnext.hashes_sublist.trans ((List.take_sublist count _).map _)).nodup haudio, ?_⟩
    rintro old hold new hnew rfl
    obtain ⟨candidate, htaken, rfl⟩ := List.mem_map.mp (hnext.hashes_sublist.subset hnew)
    exact (mem_unseenOf.mp (hunseen candidate (List.mem_of_mem_take htaken)).1).2.2 hold
  · intro audioHash
    rw [hnext.rows, hnext.recorded_eq, List.mem_append, ← or_assoc, ← hok.rows]
  · intro audioHash hmem
    rw [hnext.recorded_eq] at hmem
    rcases List.mem_append.mp hmem with hold | hnew
    · obtain ⟨candidate, hsource, haudio, hanswered⟩ := hok.answered audioHash hold
      refine ⟨candidate, hsource, haudio, ?_⟩
      rw [hfiles]
      exact List.mem_append_left _ (List.mem_append_left _ hanswered)
    · obtain ⟨candidate, htaken, rfl⟩ := List.mem_map.mp (hnext.hashes_sublist.subset hnew)
      refine ⟨candidate, hsources candidate (hready.subset (List.mem_of_mem_take htaken)), rfl, ?_⟩
      rw [hfiles]
      exact List.mem_append_right _ (List.mem_map_of_mem htaken)

theorem batch_holds (hmem : candidate ∈ batch) : work.Holds held candidate := by
  obtain ⟨-, hfromPriority, hfromLibrary, -⟩ := batch_sources hok htake hsome
  cases hlast : backlog.lastFromLibrary with
  | false => exact .inl (hfromPriority hlast hmem)
  | true => exact .inr (hfromLibrary hlast candidate hmem)

/-- A file that is not in the batch is still to be read after it, or its audio is stored. -/
theorem pending_of_not_mem {next : Run} {count : Nat} {outcomes : List (Uuid × Outcome)}
    {hashes : List AudioHash}
    (hnext : Batched answers { run with backlog } batch next count outcomes hashes)
    (hholds : work.Holds held candidate) (hpending : Pending work held run candidate)
    (hmem : candidate ∉ batch) :
    Pending work held next candidate ∨ candidate.audioHash ∈ run.recorded := by
  obtain ⟨huntried, hread⟩ := hpending
  have hstays : candidate.fileId ∉ next.tried := by
    intro htried
    rcases ((hnext.tried _).mp htried).1 with hold | hunseen
    · exact huntried hold
    · obtain ⟨other, hother, hsame⟩ := List.mem_map.mp hunseen
      have hbatch := (mem_unseenOf.mp hother).1
      have hsource := (batch_sources hok htake hsome).1 other hbatch
      exact hmem (work.sameFile other hsource candidate hholds.mem hsame ▸ hbatch)
  rcases take_cases htake hsome with ⟨hpriority, hcursor, -, hsplit⟩ |
    ⟨hlibrary, hempty, -, -, last, rest, hlast, hcursor, hsplit⟩
  · have hkept : backlog.priority ⊆ next.backlog.priority ∧
        next.backlog.cursor = run.backlog.cursor := by
      rcases hnext.backlog with ⟨-, hbacklog⟩ | ⟨stalled, -, hbacklog⟩
      · rw [hbacklog]
        exact ⟨List.Subset.refl _, hcursor⟩
      · rw [hbacklog, Backlog.putBack, hpriority, if_neg Bool.false_ne_true]
        exact ⟨List.subset_append_right _ _, hcursor⟩
    refine .inl ⟨hstays, hread.imp (fun hold => ?_) fun hold => ?_⟩
    · rw [hsplit] at hold
      exact hkept.1 ((List.mem_append.mp hold).resolve_left hmem)
    · rwa [hkept.2]
  · rw [hempty] at hread
    obtain ⟨hfile, hneeds, hafter⟩ := hread.resolve_left List.not_mem_nil
    by_cases hstill : needsAnalysis run.rows candidate
    · refine .inl ⟨hstays, .inr ⟨hfile, hneeds, ?_⟩⟩
      have hbehind : candidate ∈ rest := by
        have hfiltered : candidate ∈ work.library.filter fun candidate =>
            needsAnalysis run.rows candidate && isAfter run.backlog.cursor candidate.path :=
          List.mem_filter.mpr ⟨hfile, Bool.and_eq_true_iff.mpr ⟨hstill, hafter⟩⟩
        rw [hsplit] at hfiltered
        exact (List.mem_append.mp hfiltered).resolve_left hmem
      have hsorted := work.byPath.sublist (hsplit ▸ List.filter_sublist)
      have hpath : ∀ read ∈ batch, isAfter (some read.path) candidate.path := fun read hread =>
        decide_eq_true ((List.pairwise_append.mp hsorted).2.2 read hread candidate hbehind)
      rcases hnext.backlog with ⟨-, hbacklog⟩ | ⟨stalled, hstalled, hbacklog⟩
      · rw [hbacklog, hcursor]
        exact hpath last (List.mem_of_getLast? hlast)
      · rw [hbacklog, Backlog.putBack, hlibrary, if_pos rfl]
        exact hpath stalled (readyOf_sublist_batch.subset (untried_length hstalled).1)
    · rw [needsAnalysis_iff, not_not, hok.rows] at hstill
      exact .inr (hstill.resolve_left (needsAnalysis_iff.mp hneeds))

/-- A file behind a stall goes back, untried. -/
theorem pending_of_behind {next : Run} {count : Nat} {outcomes : List (Uuid × Outcome)}
    {hashes : List AudioHash}
    (hnext : Batched answers { run with backlog } batch next count outcomes hashes)
    (hmem : candidate ∈ (readyOf answers { run with backlog } batch).drop count) :
    Pending work held next candidate := by
  refine ⟨fun htried => ((hnext.tried _).mp htried).2 (List.mem_map_of_mem hmem), ?_⟩
  rcases hnext.backlog with ⟨hnone, -⟩ | ⟨stalled, hstalled, hbacklog⟩
  · rw [hnone] at hmem
    cases hmem
  rw [hbacklog, Backlog.putBack]
  have hready := @readyOf_sublist_batch answers { run with backlog } batch
  split
  next hlibrary =>
    obtain ⟨hfile, hneeds⟩ := (batch_sources hok htake hsome).2.2.1 hlibrary candidate
      (hready.subset (List.mem_of_mem_drop hmem))
    refine .inr ⟨hfile, hneeds, decide_eq_true ?_⟩
    rcases take_cases htake hsome with ⟨hpriority, -⟩ | ⟨-, -, -, -, -, rest, -, -, hsplit⟩
    · rw [hlibrary] at hpriority
      cases hpriority
    · have hsorted := (work.byPath.sublist
        (hsplit ▸ List.filter_sublist)).sublist (hready.trans (List.sublist_append_left batch rest))
      rw [← List.take_append_drop count (readyOf answers { run with backlog } batch)] at hsorted
      exact (List.pairwise_append.mp hsorted).2.2 stalled (List.mem_of_getLast? hstalled)
        candidate hmem
  next => exact .inl (List.mem_append_left _ hmem)

/-- What becomes of a file that is still to be read: it stays so, or its audio is stored, or it
fails the check before analysis, or the first file of its audio in the batch stands for it: that
one is analysed, or goes back. -/
theorem pending_batch {next : Run} {count : Nat} {outcomes : List (Uuid × Outcome)}
    {hashes : List AudioHash}
    (hnext : Batched answers { run with backlog } batch next count outcomes hashes)
    (hholds : work.Holds held candidate) (hpending : Pending work held run candidate) :
    Pending work held next candidate ∨ candidate.audioHash ∈ run.recorded ∨
      (¬ PassesFirst answers candidate ∧ candidate.fileId ∈ next.outcomes.map Prod.fst) ∨
      ∃ keeper, (passedOf answers { run with backlog } batch).find? (fun other =>
          other.audioHash = candidate.audioHash) = some keeper ∧
        candidate ∈ passedOf answers { run with backlog } batch ∧
        keeper.audioHash = candidate.audioHash ∧ work.Holds held keeper ∧
        (Pending work held next keeper ∨
          keeper ∈ (readyOf answers { run with backlog } batch).take count) := by
  by_cases hmem : candidate ∈ batch
  swap
  · exact (pending_of_not_mem hok htake hsome hnext hholds hpending hmem).imp_right .inl
  by_cases hrecorded : candidate.audioHash ∈ run.recorded
  · exact .inr (.inl hrecorded)
  have hunseen : candidate ∈ unseenOf { run with backlog } batch :=
    mem_unseenOf.mpr ⟨hmem, hpending.1, hrecorded⟩
  by_cases hproblem : candidate.fileId ∈
      (problemsOf answers (unseenOf { run with backlog } batch)).keys
  · obtain ⟨other, hother, hsame, hfails⟩ := problemsOf_keys hproblem
    have hsource := (batch_sources hok htake hsome).1 other (mem_unseenOf.mp hother).1
    obtain rfl := work.sameFile other hsource candidate hholds.mem hsame
    refine .inr (.inr (.inl ⟨hfails, ?_⟩))
    rw [hnext.outcomes_eq, List.map_append, List.map_append]
    exact List.mem_append_left _ (List.mem_append_right _ hproblem)
  · have hpassed := mem_passedOf.mpr ⟨hunseen, hproblem⟩
    obtain ⟨keeper, hfirst, hready, haudio⟩ := 
      @Firsts.exists_first _ _ _ CueCandidate.audioHash _ _ hpassed
    refine .inr (.inr (.inr ⟨keeper, hfirst, hpassed, haudio,
      batch_holds hok htake hsome (readyOf_sublist_batch.subset hready), ?_⟩))
    have hsplit : keeper ∈ (readyOf answers { run with backlog } batch).take count ++
        (readyOf answers { run with backlog } batch).drop count := by
      rw [List.take_append_drop]
      exact hready
    exact ((List.mem_append.mp hsplit).imp_right
      (pending_of_behind hok htake hsome hnext)).symm

end

/-! ## Whole runs -/

section

variable {answers : Nat → BatchAnswers} {timeUp : Nat → Bool} {fuel number : Nat} {final : Run}
  {paused : Bool}

/-- A run ends once there is nothing left to read. -/
theorem runBatches_ends (hfuel : unreadCount work run < fuel) :
    ∃ paused final, runBatches config work answers timeUp fuel number run =
      some (paused, final) := by
  induction fuel generalizing number run with
  | zero => exact absurd hfuel (Nat.not_lt_zero _)
  | succ fuel ih =>
      rw [runBatches]
      split
      next => exact ⟨_, _, rfl⟩
      next batch backlog hsome htake =>
        dsimp only
        split
        · exact ⟨_, _, rfl⟩
        · have hmoves := (@runBatch_movesOn _ _ (answers number) _ _ _ htake hsome).unreadCount_lt
          exact ih (by omega)

/-- Every batch of a run satisfies `holds`. -/
def EveryBatch (config : CueRunConfig) (work : CueWork) (answers : Nat → BatchAnswers)
    (timeUp : Nat → Bool) (holds : Nat → Run → List CueCandidate → Prop) : Nat → Nat → Run → Prop
  | 0, _, _ => True
  | fuel + 1, number, run =>
    ∀ batch backlog, run.backlog.take work run.rows config.batchSize = (batch, backlog) →
      batch ≠ [] → holds number { run with backlog } batch ∧
        (timeUp number = false → EveryBatch config work answers timeUp holds fuel (number + 1)
          (runBatch config (answers number) { run with backlog } batch))

/-- What every batch keeps holds when a run ends: of a state in which, if it is not paused, there
is nothing left to read. -/
theorem runBatches_invariant {holds : Nat → Run → List CueCandidate → Prop} {motive : Run → Prop}
    (hstep : ∀ number run batch backlog count outcomes hashes next, RunOk work held run →
      motive run → run.backlog.take work run.rows config.batchSize = (batch, backlog) →
      batch ≠ [] → holds number { run with backlog } batch →
      Batched (answers number) { run with backlog } batch next count outcomes hashes → motive next)
    (hok : RunOk work held run) (hmotive : motive run)
    (hevery : EveryBatch config work answers timeUp holds fuel number run)
    (hrun : runBatches config work answers timeUp fuel number run = some (paused, final)) :
    ∃ last, RunOk work held last ∧ motive last ∧ final.outcomes = last.outcomes ∧
      final.recorded = last.recorded ∧ final.rows = last.rows ∧
      (paused = false → ∃ backlog,
        last.backlog.take work last.rows config.batchSize = ([], backlog)) := by
  induction fuel generalizing number run with
  | zero => cases hrun
  | succ fuel ih =>
      rw [runBatches] at hrun
      split at hrun
      next backlog htake =>
        obtain ⟨rfl, rfl⟩ := Prod.mk.inj (Option.some.inj hrun)
        exact ⟨run, hok, hmotive, rfl, rfl, rfl, fun _ => ⟨backlog, htake⟩⟩
      next batch backlog hsome htake =>
        obtain ⟨count, outcomes, hashes, hbatched⟩ :=
          @runBatch_batched config (answers number) { run with backlog } batch
        obtain ⟨hholds, hrest⟩ := hevery batch backlog htake hsome
        have hnext := hok.batched htake hsome hbatched
        have hkept := hstep number run batch backlog count outcomes hashes _ hok hmotive htake hsome
          hholds hbatched
        dsimp only at hrun
        split at hrun
        next =>
          obtain ⟨rfl, rfl⟩ := Prod.mk.inj (Option.some.inj hrun)
          exact ⟨_, hnext, hkept, rfl, rfl, rfl, nofun⟩
        next htime =>
          exact ih hnext hkept (hrest (Bool.eq_false_of_not_eq_true htime)) hrun

end

theorem everyBatch_of_forall {answers : Nat → BatchAnswers} {timeUp : Nat → Bool}
    {holds : Nat → Run → List CueCandidate → Prop}
    (hholds : ∀ number run batch, holds number run batch) (fuel number : Nat) (run : Run) :
    EveryBatch config work answers timeUp holds fuel number run := by
  induction fuel generalizing number run with
  | zero => trivial
  | succ fuel ih => exact fun _ _ _ _ => ⟨hholds _ _ _, fun _ => ih _ _⟩

theorem startRun_ok (config : CueRunConfig) (work : CueWork) (rows : List CueAnalysis) :
    RunOk work (startRun config work rows).rows (startRun config work rows) where
  libraryOpen := rfl
  priority := List.Subset.refl _
  tried := List.nil_subset _
  outcomes := List.nodup_nil
  recorded := List.nodup_nil
  rows := fun _ => ⟨.inl, fun hrows => hrows.resolve_right List.not_mem_nil⟩
  answered := nofun

theorem startRun_pending {rows : List CueAnalysis}
    (hholds : work.Holds (startRun config work rows).rows candidate) :
    Pending work (startRun config work rows).rows (startRun config work rows) candidate :=
  ⟨List.not_mem_nil, hholds.imp id fun hlibrary => ⟨hlibrary.1, hlibrary.2, rfl⟩⟩

/-- Nothing is pending at the end but files whose audio is stored. -/
theorem pending_end (hok : RunOk work held run) (hpending : Pending work held run candidate)
    (htake : run.backlog.take work run.rows config.batchSize = ([], backlog)) :
    candidate.audioHash ∈ run.recorded := by
  obtain ⟨hempty, hread⟩ := take_eq_nil hok.libraryOpen htake
  obtain ⟨-, hpriority | ⟨hfile, hneeds, hafter⟩⟩ := hpending
  · rw [hempty] at hpriority
    cases hpriority
  · have hstored := mt (hread candidate hfile) (not_not.mpr hafter)
    rw [needsAnalysis_iff, not_not, hok.rows] at hstored
    exact hstored.resolve_left (needsAnalysis_iff.mp hneeds)

/-! ## Every candidate is answered -/

/-- The audio of a candidate has an outcome, or a file with it is still to be read. -/
def Covered (work : CueWork) (held : List CueAnalysis) (run : Run) (audioHash : AudioHash) : Prop :=
  Answered work run audioHash ∨ ∃ candidate, work.Holds held candidate ∧
    candidate.audioHash = audioHash ∧ Pending work held run candidate

theorem Batched.answered {next : Run} {count : Nat} {outcomes : List (Uuid × Outcome)}
    {hashes : List AudioHash} {audioHash : AudioHash}
    (hnext : Batched answers { run with backlog } batch next count outcomes hashes)
    (hanswered : Answered work run audioHash) : Answered work next audioHash := by
  obtain ⟨candidate, hsource, haudio, hmem⟩ := hanswered
  refine ⟨candidate, hsource, haudio, ?_⟩
  rw [hnext.outcomes_eq, List.map_append, List.map_append]
  exact List.mem_append_left _ (List.mem_append_left _ hmem)

theorem Batched.covered {next : Run} {count : Nat} {outcomes : List (Uuid × Outcome)}
    {hashes : List AudioHash} {audioHash : AudioHash} (hok : RunOk work held run)
    (htake : run.backlog.take work run.rows config.batchSize = (batch, backlog))
    (hsome : batch ≠ [])
    (hnext : Batched answers { run with backlog } batch next count outcomes hashes)
    (hcovered : Covered work held run audioHash) : Covered work held next audioHash := by
  rcases hcovered with hanswered | ⟨candidate, hholds, rfl, hpending⟩
  · exact .inl (hnext.answered hanswered)
  rcases pending_batch hok htake hsome hnext hholds hpending with
    hstays | hstored | ⟨-, houtcome⟩ | ⟨keeper, -, -, haudio, hkeeper, hstays | hanalysed⟩
  · exact .inr ⟨candidate, hholds, rfl, hstays⟩
  · exact .inl (hnext.answered (hok.answered _ hstored))
  · exact .inl ⟨candidate, hholds.mem, rfl, houtcome⟩
  · exact .inr ⟨keeper, hkeeper, haudio, hstays⟩
  · refine .inl ⟨keeper, hkeeper.mem, haudio, ?_⟩
    rw [hnext.outcomes_eq, List.map_append, hnext.outcomes_files]
    exact List.mem_append_right _ (List.mem_map_of_mem hanalysed)

end RetroStation.Cues
