import RetroStation.Curation.Operations

/-! # Moves and merges keep the references

A file takes its matches to another work, and duplicate works give theirs to one of
them; the master and the overrides of each work concerned follow.
-/

namespace RetroStation

open Library Matching

/-! ## What a merge of recordings leaves alone -/

/-- The same references, to the same files and works. -/
structure SameRefs (db db' : Database) : Prop where
  matchRows : db'.matchRows = db.matchRows
  songMasters : db'.songMasters = db.songMasters
  formatOverrides : db'.formatOverrides = db.formatOverrides
  works : db'.works = db.works
  fileIds : db'.files.map LibraryFile.id = db.files.map LibraryFile.id
  workOf : db'.workOf = db.workOf

namespace SameRefs

variable {db db' db'' : Database}

theorem refl (db : Database) : SameRefs db db := ⟨rfl, rfl, rfl, rfl, rfl, rfl⟩

theorem trans (hfirst : SameRefs db db') (hsecond : SameRefs db' db'') : SameRefs db db'' :=
  ⟨hsecond.matchRows.trans hfirst.matchRows, hsecond.songMasters.trans hfirst.songMasters,
    hsecond.formatOverrides.trans hfirst.formatOverrides, hsecond.works.trans hfirst.works,
    hsecond.fileIds.trans hfirst.fileIds, hsecond.workOf.trans hfirst.workOf⟩

theorem foldl {Item : Type} {step : Database → Item → Database}
    (hstep : ∀ db item, SameRefs db (step db item)) (items : List Item) (db : Database) :
    SameRefs db (items.foldl step db) := by
  induction items generalizing db with
  | nil => exact refl db
  | cons item rest ih => exact (hstep db item).trans (ih _)

theorem handOverRecording (source target : String) (db : Database) :
    SameRefs db (db.handOverRecording source target) where
  matchRows := rfl
  songMasters := rfl
  formatOverrides := rfl
  works := rfl
  fileIds := Table.map_update_key fun _ => rfl
  workOf := by
    funext fileId
    unfold Database.workOf getById Database.handOverRecording
    dsimp only
    have hkey : ∀ file : LibraryFile,
        LibraryFile.id { file with recordingId := some target } = file.id := fun _ => rfl
    rw [Table.find?_update hkey, Option.map_map]
    congr 1
    funext file
    simp only [Function.comp_apply]
    split <;> rfl

theorem keepRecording (target : String) (sources : List String) (keeper : Recording)
    (db : Database) : SameRefs db (db.keepRecording target sources keeper) := by
  have hdupes := foldl (fun db (dupe : Recording) => handOverRecording dupe.id keeper.id db)
    (db.recordings.filter fun recording => Database.onWorks sources recording.workId ∧
      recording.versionType = keeper.versionType ∧ recording.id ≠ keeper.id) db
  exact ⟨hdupes.matchRows, hdupes.songMasters, hdupes.formatOverrides, hdupes.works,
    hdupes.fileIds, hdupes.workOf⟩

theorem mergeRecordings (target : String) (sources : List String) (db : Database) :
    SameRefs db (db.mergeRecordings target sources) :=
  (foldl (fun db (clash : String × String) => handOverRecording clash.1 clash.2 db) _ db).trans
    (foldl (fun db keeper => keepRecording target sources keeper db) _ _)

end SameRefs

namespace Curation

variable {db db' : Database} {fileId : Uuid} {workId : String}

theorem RefsOk.of_sameRefs (hok : RefsWhole db) (hsame : SameRefs db db') : RefsWhole db' := by
  have hworks : db'.workIds = db.workIds := by
    ext work
    simp only [Database.workIds, Database.hasWork, hsame.works]
  refine ⟨?_, fun fileId work hwork => ?_, ?_, ?_, ?_⟩
  · rw [Table.UniqueBy, hsame.fileIds]
    exact hok.files
  · rw [hworks]
    exact hok.fileWork fileId work (hsame.workOf ▸ hwork)
  · rw [hsame.matchRows, hsame.workOf, hworks]
    exact hok.matchRows
  · rw [hsame.songMasters, hsame.workOf, hworks]
    exact hok.songMasters
  · rw [hsame.formatOverrides, hsame.workOf, hworks]
    exact hok.formatOverrides

/-! ## Moves -/

/-- A master stored on a file of its work. -/
theorem RefsOk.storeMaster {yields : SongMaster → Bool} {master : SongMaster} (hok : RefsWhole db)
    (hon : db.workOf master.preferredFileId = some (some master.workId)) :
    RefsWhole (db.storeMaster yields master) := by
  refine ⟨hok.files, hok.fileWork, hok.matchRows,
    ⟨storeMaster_unique hok.songMasters.unique, ?_, ?_, ?_⟩, hok.formatOverrides⟩
  · intro stored hstored
    change (db.workOf stored.preferredFileId).isSome
    rcases mem_storeMaster hstored with ⟨hold, -⟩ | rfl
    · exact hok.songMasters.file stored hold
    · rw [hon, Option.isSome_some]
  · intro stored hstored hoff
    change db.workOf stored.preferredFileId = _
    rcases mem_storeMaster hstored with ⟨hold, -⟩ | rfl
    · exact hok.songMasters.onWork stored hold hoff
    · exact hon
  · intro stored hstored
    rcases mem_storeMaster hstored with ⟨hold, -⟩ | rfl
    · exact hok.songMasters.work stored hold
    · exact hok.fileWork _ _ hon

theorem placeUngroupedFile_workOf {placed : Database}
    (hplace : placeUngroupedFile db fileId workId = some placed) :
    placed.workOf fileId = some (some workId) := by
  unfold placeUngroupedFile at hplace
  split at hplace
  next file hfile =>
    split at hplace
    · obtain rfl := Option.some.inj hplace
      change (db.updateWorkId fileId (some workId)).workOf fileId = _
      rw [Database.workOf_updateWorkId, if_pos rfl, Database.workOf, hfile]
      rfl
    · cases hplace
  · cases hplace

theorem placeUngroupedFile_refsWhole {placed : Database} (hok : RefsWhole db)
    (hplace : placeUngroupedFile db fileId workId = some placed) : RefsWhole placed := by
  unfold placeUngroupedFile at hplace
  split at hplace
  next file hfile =>
    split at hplace
    next hguard =>
      obtain rfl := Option.some.inj hplace
      rw [Bool.and_eq_true] at hguard
      have hold : db.workOf fileId = some none := by
        rw [Database.workOf, hfile, Option.map_some, Option.isNone_iff_eq_none.mp hguard.1]
      refine ((hok.updateWorkId hold hguard.2).moveMatchesToWork ?_).whole (by simp) (by simp)
      rw [Database.workOf_updateWorkId, if_pos rfl, hold, Option.map_some]
    · cases hplace
  · cases hplace

/-- A file's new work has the file as its master from the start. -/
theorem placeInNewWork_refsWhole {work : Work} {placed : Database} (hok : RefsWhole db)
    (hplace : placeInNewWork db fileId work = some placed) : RefsWhole placed := by
  obtain ⟨created, hcreated, hplaced⟩ := Option.bind_eq_some_iff.mp hplace
  unfold createLocalWork at hcreated
  split at hcreated
  · cases hcreated
  next hnew =>
    obtain rfl := Option.some.inj hcreated
    have hworks : RefsWhole { db with works := db.works ++ [work] } := by
      have hmore : ∀ {id}, id ∈ db.workIds →
          id ∈ ({ db with works := db.works ++ [work] } : Database).workIds := fun hid => by
        obtain ⟨row, hrow, hid⟩ := List.any_eq_true.mp hid
        exact List.any_eq_true.mpr ⟨row, List.mem_append_left _ hrow, hid⟩
      refine ⟨hok.files, fun fileId id hid => hmore (hok.fileWork fileId id hid), ?_, ?_, ?_⟩
      · exact hok.matchRows.mono (List.Sublist.refl _) (fun row hrow fileId hnames =>
          ⟨hok.matchRows.file row hrow fileId hnames, fun h => ⟨h, rfl⟩⟩) fun _ _ _ _ h => hmore h
      · exact hok.songMasters.mono (List.Sublist.refl _) (fun master hmaster =>
          ⟨hok.songMasters.file master hmaster, fun h => ⟨h, rfl⟩⟩)
          fun master hmaster => hmore (hok.songMasters.work master hmaster)
      · exact hok.formatOverrides.mono (List.Sublist.refl _) hok.formatOverrides.file
          fun override hmem => hmore (hok.formatOverrides.work override hmem)
    -- The placement reads no master, so the master may as well be stored after it.
    have hlater : ∃ later, placeUngroupedFile { db with works := db.works ++ [work] } fileId
        work.id = some later ∧ placed = later.upsertMaster {
          workId := work.id
          preferredFileId := fileId
          selectionMethod := .auto } := by
      unfold placeUngroupedFile at hplaced ⊢
      split at hplaced
      next file hfile =>
        have hfile : getById db.files fileId = some file := hfile
        simp only [hfile]
        split at hplaced
        next hguard =>
          have hguard : (file.workId.isNone &&
              ({ db with works := db.works ++ [work] } : Database).hasWork work.id) = true := hguard
          rw [if_pos hguard]
          exact ⟨_, rfl, (Option.some.inj hplaced).symm⟩
        · cases hplaced
      · cases hplaced
    obtain ⟨later, hlater, rfl⟩ := hlater
    exact RefsOk.storeMaster (placeUngroupedFile_refsWhole hworks hlater)
      (placeUngroupedFile_workOf hlater)

theorem moveFileToWork_refsWhole {libraryFile : LibraryFile} {moved : Database}
    (hok : RefsWhole db) (hread : db.workOf libraryFile.id = some libraryFile.workId)
    (hmove : moveFileToWork db libraryFile workId = some moved) : RefsWhole moved := by
  unfold moveFileToWork at hmove
  split at hmove
  · exact Option.some.inj hmove ▸ hok
  next hother =>
    split at hmove
    next hwork =>
      have hfollowed := (hok.updateWorkId hread hwork).moveMatchesToWork
        (by rw [Database.workOf_updateWorkId, if_pos rfl, hread, Option.map_some])
      have hpicked : RefsOk ∅ {left | libraryFile.workId = some left} (reselectMasterFromFiles
          ((db.updateWorkId libraryFile.id (some workId)).moveMatchesToWork libraryFile.id
            (some workId)) workId) :=
        hfollowed.reselect.weaken (by simp) Set.sdiff_subset
      dsimp only at hmove
      split at hmove
      next previous hprevious =>
        obtain rfl := Option.some.inj hmove
        exact settleWork_refsWhole (hpicked.weaken (Set.Subset.refl _) (by simp [hprevious]))
      next hnone =>
        obtain rfl := Option.some.inj hmove
        exact hpicked.whole rfl (by simp [hnone])
    · cases hmove

/-! ## Merges -/

section

variable {target : String} {sources : List String}

/-- A file row's work once the sources are one with the target. -/
def intoTarget (target : String) (sources : List String) (workId : Option String) :
    Option String :=
  if Database.onWorks sources workId then some target else workId

theorem intoTarget_mem {work : String} {works : Set String} {workId : Option String}
    (htarget : target ∈ works) (hworks : ∀ work, workId = some work → work ∈ works)
    (hne : target ∉ sources) (hwork : intoTarget target sources workId = some work) :
    work ∈ works ∧ work ∉ sources := by
  unfold intoTarget at hwork
  split at hwork
  next hon =>
    obtain rfl := Option.some.inj hwork
    exact ⟨htarget, hne⟩
  next hon =>
    subst hwork
    exact ⟨hworks work rfl, by simpa [Database.onWorks] using hon⟩

/-- The overrides of the sources on the target: its own win a format, then the oldest. -/
theorem mergeFormatOverrides_ok {workOf : WorkOf} {works : Set String}
    (hok : OverridesOk workOf works db.formatOverrides) (htarget : target ∈ works) :
    OverridesOk workOf works (db.mergeFormatOverrides target sources).formatOverrides := by
  refine (hok.mono List.filter_sublist
    (fun override hmem => hok.file override (Table.mem_delete.mp hmem).1)
    fun override hmem => hok.work override (Table.mem_delete.mp hmem).1).rekey htarget ?_ ?_
  · intro override hmem hwhich other hother _ hwork hformat
    obtain ⟨hmem, hkept⟩ := Table.mem_delete.mp hmem
    simp only [decide_eq_true_eq] at hwhich
    simp only [hwhich, true_and, decide_eq_false_iff_not, not_or, List.any_eq_true, not_exists,
      not_and, decide_eq_true_eq] at hkept
    exact hkept.1 other (Table.mem_delete.mp hother).1 hwork hformat
  · intro override hmem hwhich other hother hwhich' hformat
    obtain ⟨hmem, hkept⟩ := Table.mem_delete.mp hmem
    obtain ⟨hother, hkept'⟩ := Table.mem_delete.mp hother
    simp only [decide_eq_true_eq] at hwhich hwhich'
    simp only [hwhich, hwhich', true_and, decide_eq_false_iff_not, not_or, Database.olderOverride,
      List.any_eq_true, not_exists, not_and, decide_eq_true_eq] at hkept hkept'
    -- Neither is older than the other, so they are one.
    have holder := hkept.2 other hother hwhich' hformat.symm
    have holder' := hkept'.2 override hmem hwhich hformat
    have hid : override.id = other.id := by
      have hcreated : override.createdAt = other.createdAt :=
        le_antisymm (by simpa using holder.1) (by simpa using holder'.1)
      exact le_antisymm (by simpa using holder.2 hcreated.symm) (by simpa using holder'.2 hcreated)
    rw [hok.ids.eq hmem hother hid]

/-- A match row once the sources are one with the target. -/
def rowIntoTarget (target : String) (sources : List String) (row : Match) : Match :=
  { row with
    workId := intoTarget target sources row.workId
    targetId := if row.targetType = some .work then intoTarget target sources row.targetId
      else row.targetId }

theorem map_rowIntoTarget (rows : List Match) :
    Table.update
      (Table.update rows (fun row => Database.onWorks sources row.workId)
        fun row => { row with workId := some target })
      (fun row => decide (row.targetType = some TargetType.work) &&
        Database.onWorks sources row.targetId)
      (fun row => { row with targetId := some target }) =
      rows.map (rowIntoTarget target sources) := by
  simp only [Table.update, List.map_map]
  refine List.map_congr_left fun row _ => ?_
  obtain ⟨subject, score, tier, fileId, targetId, targetType, workId⟩ := row
  by_cases hwork : Database.onWorks sources workId <;>
    by_cases htarget : Database.onWorks sources targetId <;>
    by_cases htype : targetType = some .work <;>
    simp [rowIntoTarget, intoTarget, hwork, htarget, htype]

/-- The files and rows of the sources given to the target. -/
theorem MatchesOk.intoTarget {workOf : WorkOf} {works works' : Set String} {rows : List Match}
    (hok : MatchesOk ∅ workOf works rows) (htarget : target ∈ works) (hne : target ∉ sources)
    (hkept : ∀ work, work ∈ works ∧ work ∉ sources → work ∈ works') :
    MatchesOk ∅ (fun fileId => (workOf fileId).map (intoTarget target sources)) works'
      (rows.map (rowIntoTarget target sources)) := by
  refine ⟨List.pairwise_map.mpr hok.pairs, ?_, ?_, ?_, ?_⟩
  · simp only [List.forall_mem_map]
    intro row hrow fileId hnames
    simpa using hok.file row hrow fileId hnames
  · simp only [List.forall_mem_map]
    intro row hrow fileId hnames hoff
    rw [hok.onWork row hrow fileId hnames hoff]
    rfl
  · simp only [List.forall_mem_map]
    intro row hrow work hwork
    exact hkept work (intoTarget_mem htarget (hok.work row hrow) hne hwork)
  · simp only [List.forall_mem_map]
    intro row hrow htype work hwork
    have htype : row.targetType = some .work := htype
    simp only [rowIntoTarget, htype, if_true] at hwork
    exact hkept work (intoTarget_mem htarget (hok.target row hrow htype) hne hwork)

/-- The sources' files, rows and overrides given to the target, and the sources gone. -/
def merged (db : Database) (target : String) (sources : List String) : Database :=
  let files := Table.update db.files (fun file => Database.onWorks sources file.workId)
    fun file => { file with workId := some target }
  { ({ db with files, matchRows := db.matchRows.map (rowIntoTarget target sources) } :
      Database).mergeFormatOverrides target sources with
    songMasters := Table.delete db.songMasters fun master => master.workId ∈ sources
    works := Table.delete db.works fun work => work.id ∈ sources }

theorem workOf_merged : (merged db target sources).workOf fileId =
    (db.workOf fileId).map (intoTarget target sources) := by
  unfold Database.workOf getById merged Database.mergeFormatOverrides
  dsimp only
  have hkey : ∀ file : LibraryFile,
      LibraryFile.id { file with workId := some target } = file.id := fun _ => rfl
  rw [Table.find?_update hkey, Option.map_map, Option.map_map]
  congr 1
  funext file
  simp only [Function.comp_apply, intoTarget]
  split <;> rfl

theorem workIds_merged {work : String} (hwork : work ∈ db.workIds ∧ work ∉ sources) :
    work ∈ (merged db target sources).workIds := by
  obtain ⟨row, hrow, hid⟩ := List.any_eq_true.mp hwork.1
  obtain rfl := of_decide_eq_true hid
  exact List.any_eq_true.mpr ⟨row, Table.mem_delete.mpr ⟨hrow, by simpa using hwork.2⟩, hid⟩

theorem merged_refsWhole (hok : RefsWhole db) (htarget : target ∈ db.workIds)
    (hne : target ∉ sources) : RefsWhole (merged db target sources) := by
  have hmasters : ∀ master ∈ (merged db target sources).songMasters,
      master ∈ db.songMasters ∧ master.workId ∉ sources := by
    intro master hmaster
    obtain ⟨hold, hother⟩ := Table.mem_delete.mp hmaster
    exact ⟨hold, by simpa using hother⟩
  refine ⟨hok.files.update fun _ => rfl, ?_, ?_, ⟨?_, ?_, ?_, ?_⟩, ?_⟩
  · intro fileId work hwork
    rw [workOf_merged] at hwork
    obtain ⟨old, hold, hwork⟩ := Option.map_eq_some_iff.mp hwork
    exact workIds_merged (intoTarget_mem htarget
      (fun work hsome => hok.fileWork fileId work (hsome ▸ hold)) hne hwork)
  · rw [show (merged db target sources).workOf = _ from funext fun fileId => workOf_merged]
    exact hok.matchRows.intoTarget htarget hne fun _ => workIds_merged
  · exact hok.songMasters.unique.delete
  · intro master hmaster
    simpa [workOf_merged] using hok.songMasters.file master (hmasters master hmaster).1
  · intro master hmaster hoff
    obtain ⟨hold, hother⟩ := hmasters master hmaster
    rw [workOf_merged, hok.songMasters.onWork master hold hoff, Option.map_some, intoTarget,
      if_neg (by simpa [Database.onWorks] using hother)]
  · intro master hmaster
    obtain ⟨hold, hother⟩ := hmasters master hmaster
    exact workIds_merged ⟨hok.songMasters.work master hold, hother⟩
  · have hoverrides : OverridesOk db.workOf db.workIds
        (db.mergeFormatOverrides target sources).formatOverrides :=
      mergeFormatOverrides_ok hok.formatOverrides htarget
    refine hoverrides.mono (List.Sublist.refl _)
      (fun override hmem => ?_) fun override hmem => workIds_merged ?_
    · simpa [workOf_merged] using hoverrides.file override hmem
    · rcases Table.mem_update.mp hmem with ⟨old, -, -, rfl⟩ | ⟨hold, hother⟩
      · exact ⟨htarget, hne⟩
      · exact ⟨hok.formatOverrides.work override (Table.mem_delete.mp hold).1,
          by simpa using hother⟩

theorem mergeWorksInto_eq (db : Database) (target : String) (sourceIds : List String) :
    db.mergeWorksInto target sourceIds = db ∨ ∃ sources, target ∉ sources ∧ sources ⊆ sourceIds ∧
      db.mergeWorksInto target sourceIds = merged (db.mergeRecordings target sources) target
        sources := by
  unfold Database.mergeWorksInto
  dsimp only
  split
  · exact .inl rfl
  · refine .inr ⟨(db.works.map Work.id).filter fun id => id ∈ sourceIds ∧ id ≠ target, by simp,
      fun id hid => (of_decide_eq_true (List.mem_filter.mp hid).2).1, ?_⟩
    rw [map_rowIntoTarget]
    rfl

theorem mergeWorksInto_refsWhole {sourceIds : List String} (hok : RefsWhole db)
    (htarget : db.hasWork target) : RefsWhole (db.mergeWorksInto target sourceIds) := by
  rcases mergeWorksInto_eq db target sourceIds with hsame | ⟨sources, hne, -, hmerged⟩
  · rwa [hsame]
  · have hsame := SameRefs.mergeRecordings target sources db
    rw [hmerged]
    refine merged_refsWhole (RefsOk.of_sameRefs hok hsame) ?_ hne
    change (db.mergeRecordings target sources).hasWork target = true
    rwa [Database.hasWork, hsame.works]

theorem mergeWorkGroup_refsWhole {plan : WorkMergePlan} {done : Database} (hok : RefsWhole db)
    (hmerge : mergeWorkGroup db plan = some done) : RefsWhole done := by
  unfold mergeWorkGroup at hmerge
  split at hmerge
  next htarget =>
    obtain rfl := Option.some.inj hmerge
    exact (mergeWorksInto_refsWhole hok htarget).reselect.whole rfl (by simp)
  · cases hmerge

end

end Curation

end RetroStation
