import RetroStation.Curation.Follows
import RetroStation.Transition.Run

/-! # Runs of curation

Scans, users and repairs fold, move, merge, place, delete and purge, in any order:

* `curation_keeps_references` — from a library whose references are whole every run
  keeps them so, each match follows its file through the folds, and a manual master
  that is still held stands.
-/

namespace RetroStation

open Library Matching

namespace Curation

inductive CurationAction
  | reconcileMissing (config : PairingConfig)
  | remapMissingFile (missingId targetId : Uuid)
  | applyCaseDuplicateRepair (repair : CaseDuplicateRepair)
  | moveFileToWork (fileId : Uuid) (workId : String)
  | mergeWorkGroup (plan : WorkMergePlan)
  | placeUngroupedFile (fileId : Uuid) (workId : String)
  | placeInNewWork (fileId : Uuid) (work : Work)
  | deleteMissingFiles (selection : MissingFileSelection)
  | purgeUnmatchedMissing (config : PairingConfig) (disk : DiskCheck) (underRoot : String → Bool)

/-- The rows that an action folded, and those that it deleted. -/
structure CurationOutcome where
  folds : List Fold := []
  deleted : List Uuid := []
  deriving DecidableEq, Repr

/-- Where an action sends a file's matches. -/
def CurationOutcome.goes (outcome : CurationOutcome) (fileId : Uuid) : Option Uuid :=
  if fileId ∈ outcome.deleted then none else some (followFolds outcome.folds fileId)

def folded (done : List Fold × Database) : Database × CurationOutcome :=
  (done.2, { folds := done.1 })

def deleted (done : List Uuid × Database) : Database × CurationOutcome :=
  (done.2, { deleted := done.1 })

/-- One action, in a transaction of its own. -/
def curationMachine : Transition.Machine Database CurationAction CurationOutcome where
  step db
    | .reconcileMissing config => some (folded (reconcileMissing config db))
    | .remapMissingFile missingId targetId => (remapMissingFile db missingId targetId).map folded
    | .applyCaseDuplicateRepair repair => (applyCaseDuplicateRepair db repair).map folded
    | .moveFileToWork fileId workId =>
      (getById db.files fileId).bind fun file => (moveFileToWork db file workId).map (·, {})
    | .mergeWorkGroup plan => (mergeWorkGroup db plan).map (·, {})
    | .placeUngroupedFile fileId workId => (placeUngroupedFile db fileId workId).map (·, {})
    | .placeInNewWork fileId work => (placeInNewWork db fileId work).map (·, {})
    | .deleteMissingFiles selection => some (deleted (deleteMissingFiles db selection))
    | .purgeUnmatchedMissing config disk underRoot =>
      some (deleted (purgeUnmatchedMissing config disk underRoot db))

variable {db next start state : Database} {action : CurationAction} {outcome : CurationOutcome}
  {trace : List (CurationAction × CurationOutcome)}

/-- What one action does. -/
theorem curation_step (hok : RefsWhole db)
    (hstep : curationMachine.step db action = some (next, outcome)) :
    RefsWhole next ∧ Follows outcome.goes db next := by
  cases action with
  | reconcileMissing config =>
      obtain ⟨rfl, rfl⟩ := Prod.mk.inj (Option.some.inj hstep)
      exact ⟨reconcileMissing_refsWhole config hok, reconcileMissing_follows config hok⟩
  | remapMissingFile missingId targetId =>
      obtain ⟨done, hdone, heq⟩ := Option.map_eq_some_iff.mp hstep
      obtain ⟨rfl, rfl⟩ := Prod.mk.inj heq
      exact ⟨remapMissingFile_refsWhole hok hdone, remapMissingFile_follows hok hdone⟩
  | applyCaseDuplicateRepair repair =>
      obtain ⟨done, hdone, heq⟩ := Option.map_eq_some_iff.mp hstep
      obtain ⟨rfl, rfl⟩ := Prod.mk.inj heq
      exact ⟨applyCaseDuplicateRepair_refsWhole hok hdone,
        applyCaseDuplicateRepair_follows hok hdone⟩
  | moveFileToWork fileId workId =>
      obtain ⟨file, hfile, hmove⟩ := Option.bind_eq_some_iff.mp hstep
      obtain ⟨moved, hmoved, heq⟩ := Option.map_eq_some_iff.mp hmove
      obtain ⟨rfl, rfl⟩ := Prod.mk.inj heq
      have hread := Database.workOf_eq hok.files (getById_eq_some hfile).1
      exact ⟨moveFileToWork_refsWhole hok hread hmoved, moveFileToWork_follows hok hmoved⟩
  | mergeWorkGroup plan =>
      obtain ⟨done, hdone, heq⟩ := Option.map_eq_some_iff.mp hstep
      obtain ⟨rfl, rfl⟩ := Prod.mk.inj heq
      exact ⟨mergeWorkGroup_refsWhole hok hdone, mergeWorkGroup_follows hok hdone⟩
  | placeUngroupedFile fileId workId =>
      obtain ⟨placed, hplaced, heq⟩ := Option.map_eq_some_iff.mp hstep
      obtain ⟨rfl, rfl⟩ := Prod.mk.inj heq
      exact ⟨placeUngroupedFile_refsWhole hok hplaced, placeUngroupedFile_follows hplaced⟩
  | placeInNewWork fileId work =>
      obtain ⟨placed, hplaced, heq⟩ := Option.map_eq_some_iff.mp hstep
      obtain ⟨rfl, rfl⟩ := Prod.mk.inj heq
      exact ⟨placeInNewWork_refsWhole hok hplaced, placeInNewWork_follows hok hplaced⟩
  | deleteMissingFiles selection =>
      obtain ⟨rfl, rfl⟩ := Prod.mk.inj (Option.some.inj hstep)
      exact ⟨deleteRows_refsWhole hok, (deleteRows_follows hok).1⟩
  | purgeUnmatchedMissing config disk underRoot =>
      obtain ⟨rfl, rfl⟩ := Prod.mk.inj (Option.some.inj hstep)
      exact ⟨deleteRows_refsWhole hok, (deleteRows_follows hok).1⟩

theorem curation_preserves : curationMachine.Preserves RefsWhole :=
  fun _ _ _ _ hok hstep => (curation_step hok hstep).1

/-- Where a run sends a file's matches. -/
def followed (trace : List (CurationAction × CurationOutcome)) (fileId : Uuid) : Option Uuid :=
  trace.foldl (fun file entry => file.bind entry.2.goes) (some fileId)

/-- Every match goes where the run's folds send its file. -/
theorem shows_iff_followed (hstart : RefsWhole start)
    (hrun : curationMachine.Run start trace state) (subject : MatchSubject) (fileId : Uuid) :
    Shows state subject fileId ↔
      ∃ old, Shows start subject old ∧ followed trace old = some fileId := by
  induction hrun generalizing fileId with
  | nil => simp [followed]
  | snoc hrun hstep ih =>
      have hstate := hrun.invariant curation_preserves hstart
      rw [(curation_step hstate hstep).2.shows_iff]
      simp only [followed, List.foldl_append, List.foldl_cons, List.foldl_nil,
        Option.bind_eq_some_iff]
      constructor
      · rintro ⟨middle, hmiddle, hgoes⟩
        obtain ⟨old, hold, hfollowed⟩ := (ih middle).mp hmiddle
        exact ⟨old, hold, middle, hfollowed, hgoes⟩
      · rintro ⟨old, hold, middle, hfollowed, hgoes⟩
        exact ⟨middle, (ih middle).mpr ⟨old, hold, hfollowed⟩, hgoes⟩

/-- A run of curation keeps every reference whole, sends each match where its file
goes, and at no step takes a manual master that is still held. -/
theorem curation_keeps_references (hstart : RefsWhole start)
    (hrun : curationMachine.Run start trace state) :
    RefsWhole state ∧
      (∀ subject fileId, Shows state subject fileId ↔
        ∃ old, Shows start subject old ∧ followed trace old = some fileId) ∧
      ∀ action outcome next, curationMachine.step state action = some (next, outcome) →
        ∀ master ∈ state.songMasters, master.selectionMethod = .manual → HeldIn next master →
          master ∈ next.songMasters :=
  have hstate := hrun.invariant curation_preserves hstart
  ⟨hstate, shows_iff_followed hstart hrun,
    fun _ _ _ hstep => (curation_step hstate hstep).2.manual⟩

/-- A renamed file: its missing row has the match, the master and the work. -/
def renamed : Database where
  files := [
    { id := 1, filePath := "/music/old.flac", fileStatus := .missing, workId := some "a" },
    { id := 2, filePath := "/music/new.flac", workId := some "b" }]
  works := [{ id := "a" }, { id := "b" }]
  matchRows := [{
    subject := .identity 7
    confidenceScore := 1
    matchTier := .manual
    libraryFileId := some 1
    workId := some "a" }]
  songMasters := [{ workId := "a", preferredFileId := 1, selectionMethod := .auto }]

theorem renamed_works {workId : String} (hwork : renamed.hasWork workId = true) :
    workId ∈ renamed.workIds := hwork

theorem renamed_refsWhole : RefsWhole renamed where
  files := by decide
  fileWork fileId workId hwork := by
    obtain ⟨file, hfile, -, hon⟩ := Database.exists_of_workOf hwork
    simp only [renamed, List.mem_cons, List.not_mem_nil, or_false] at hfile
    rcases hfile with rfl | rfl <;> cases hon <;> exact renamed_works (by decide)
  matchRows := by
    refine ⟨List.pairwise_singleton _ _, ?_, ?_, ?_, ?_⟩ <;> intro row hrow <;>
      obtain rfl := List.mem_singleton.mp hrow
    · rintro _ ⟨⟩
      decide
    · rintro _ ⟨⟩ -
      decide
    · rintro _ ⟨⟩
      exact renamed_works (by decide)
    · rintro ⟨⟩
  songMasters := by
    refine ⟨by decide, ?_, ?_, ?_⟩ <;> intro master hmaster <;>
      obtain rfl := List.mem_singleton.mp hmaster
    · decide
    · intro _
      decide
    · exact renamed_works (by decide)
  formatOverrides := by
    refine ⟨by decide, by decide, ?_, ?_⟩ <;> intro override hmem <;> cases hmem

theorem curation_keeps_references_renamed :
    ∃ trace state, curationMachine.Run renamed trace state ∧ RefsWhole state ∧
      Shows state (.identity 7) 2 := by
  have hstep : ∃ next outcome, curationMachine.step renamed (.remapMissingFile 1 2) =
      some (next, outcome) ∧ outcome = { folds := [⟨1, 2⟩] } := ⟨_, _, rfl, rfl⟩
  obtain ⟨next, outcome, hstep, rfl⟩ := hstep
  have hrun := Transition.Machine.Run.single hstep
  obtain ⟨hwhole, hshows, -⟩ := curation_keeps_references renamed_refsWhole hrun
  exact ⟨_, next, hrun, hwhole, (hshows _ _).mpr ⟨1, ⟨_, List.mem_singleton_self _, rfl, rfl⟩, rfl⟩⟩

end Curation

end RetroStation
