import RetroStation.Database.Curation

/-! # Song master selection

A work's master is the best of its files on disk, unless the user chose one that
still stands.
-/

namespace RetroStation.Curation

open Library

def releaseStatusScore : ReleaseStatus → Int
  | .promotion => 100
  | .official | .bootleg | .pseudoRelease => 0

def releaseTypeScore : ReleaseType → Int
  | .album => 80
  | .ep => 70
  | .single => 60
  | .compilation => 40
  | .live => 30
  | .broadcast | .other => 20

def formatBonus (format : String) : Int :=
  match format.toLower with
  | "flac" => 10
  | "aac" => 6
  | "ogg" => 6
  | "mp3" => 3
  | _ => 1

/-- Score, bitrate and duration; higher is better. -/
def scoreFile (file : LibraryFile) : Int × Int × Int :=
  ((file.audio.releaseStatus.elim 0 releaseStatusScore) +
      (file.audio.releaseType.elim 0 releaseTypeScore) + formatBonus file.format,
    file.audio.bitrate.getD 0, file.audio.durationMs.getD 0)

def scoreLt (first second : Int × Int × Int) : Bool :=
  first.1 < second.1 ∨ first.1 = second.1 ∧
    (first.2.1 < second.2.1 ∨ first.2.1 = second.2.1 ∧ first.2.2 < second.2.2)

/-- The first of the best-scoring files. -/
def bestFile : List LibraryFile → Option LibraryFile
  | [] => none
  | first :: rest =>
    some (rest.foldl (fun best file =>
      if scoreLt (scoreFile best) (scoreFile file) then file else best) first)

/-- Files on disk: a missing file is never a song master. -/
def present (files : List LibraryFile) : List LibraryFile := files.filter LibraryFile.isPresent

inductive MasterDecision
  | keep
  | remove
  | store (master : SongMaster) (overManual : Bool)
  deriving DecidableEq, Repr

/-- Whether the master's file is one of `files`. -/
def holds (master : Option SongMaster) (files : List LibraryFile) : Bool :=
  master.any fun master => files.any fun file => file.id = master.preferredFileId

/-- The carried manual choice when it is on disk, else the best file on disk. -/
def pickFromFiles (workId : String) (present : List LibraryFile) (manualFileId : Option Uuid) :
    Option SongMaster :=
  match present.find? fun file => some file.id = manualFileId with
  | some carried => some {
      workId := workId
      preferredFileId := carried.id
      selectionMethod := .manual
      score := some (scoreFile carried).1 }
  | none => (bestFile present).map fun chosen => {
      workId := workId
      preferredFileId := chosen.id
      selectionMethod := .auto
      score := some (scoreFile chosen).1 }

/-- Decide a work's master from its files, of any status, and its current master. -/
def decideMaster (workId : String) (existing : Option SongMaster) (workFiles : List LibraryFile)
    (manualFileId : Option Uuid) : MasterDecision :=
  let isManual := existing.any (·.selectionMethod = .manual)
  if isManual ∧ holds existing (present workFiles) then .keep
  else match pickFromFiles workId (present workFiles) manualFileId with
  | some master => .store master isManual
  -- Without a file on disk a master on the work's own missing file stays.
  | none => if existing.isNone ∨ holds existing workFiles then .keep else .remove

def applyMasterDecision (db : Database) (workId : String) : MasterDecision → Database
  | .keep => db
  | .remove => db.deleteMasterByWork workId
  | .store master true => db.replaceMaster master
  | .store master false => db.upsertMaster master

/-- Pick a work's song master from the files attached to it directly. -/
def reselectMasterFromFiles (db : Database) (workId : String) (manualFileId : Option Uuid := none) :
    Database :=
  applyMasterDecision db workId
    (decideMaster workId (db.getMasterByWork workId) (db.getByWork workId) manualFileId)

theorem bestFile_mem {files : List LibraryFile} {file : LibraryFile}
    (hbest : bestFile files = some file) : file ∈ files := by
  cases files with
  | nil => cases hbest
  | cons first rest =>
      obtain rfl := Option.some.inj hbest
      have hfold : ∀ best ∈ first :: rest, ∀ others : List LibraryFile, others ⊆ first :: rest →
          others.foldl (fun best file =>
            if scoreLt (scoreFile best) (scoreFile file) then file else best) best ∈
            first :: rest := by
        intro best hmem others hothers
        induction others generalizing best with
        | nil => exact hmem
        | cons next more ih =>
            rw [List.cons_subset] at hothers
            rw [List.foldl_cons]
            refine ih _ ?_ hothers.2
            split
            · exact hothers.1
            · exact hmem
      exact hfold first List.mem_cons_self rest (List.subset_cons_self _ _)

theorem bestFile_eq_none {files : List LibraryFile} (hbest : bestFile files = none) :
    files = [] := by
  cases files with
  | nil => rfl
  | cons => cases hbest

/-- What is picked is a file on disk, for the work. -/
theorem pickFromFiles_mem {workId : String} {files : List LibraryFile} {manualFileId : Option Uuid}
    {master : SongMaster} (hpick : pickFromFiles workId files manualFileId = some master) :
    master.workId = workId ∧ ∃ file ∈ files, file.id = master.preferredFileId := by
  unfold pickFromFiles at hpick
  split at hpick
  next carried hcarried =>
    obtain rfl := Option.some.inj hpick
    exact ⟨rfl, carried, List.mem_of_find?_eq_some hcarried, rfl⟩
  next =>
    obtain ⟨chosen, hchosen, rfl⟩ := Option.map_eq_some_iff.mp hpick
    exact ⟨rfl, chosen, bestFile_mem hchosen, rfl⟩

theorem mem_getByWork {db : Database} {workId : String} {file : LibraryFile} :
    file ∈ db.getByWork workId ↔ file ∈ db.files ∧ file.workId = some workId := by
  simp [Database.getByWork, mem_orderById]

theorem mem_present {files : List LibraryFile} {file : LibraryFile} :
    file ∈ present files ↔ file ∈ files ∧ file.fileStatus = .present := by
  simp [present, LibraryFile.isPresent]

/-! ## What a selection does to the masters -/

section

variable {db : Database} {workId : String} {manualFileId : Option Uuid} {master : SongMaster}

/-- Storing a master changes no other work's, and leaves that work the new master or
one that it may not replace. -/
theorem mem_storeMaster {yields : SongMaster → Bool} {stored : SongMaster} :
    stored ∈ (db.storeMaster yields master).songMasters →
      stored ∈ db.songMasters ∧ (stored.workId ≠ master.workId ∨ yields stored = false) ∨
        stored = master := by
  unfold Database.storeMaster
  dsimp only
  split
  · intro hstored
    rcases Table.mem_update.mp hstored with ⟨old, -, -, rfl⟩ | ⟨hmem, hover⟩
    · exact .inr rfl
    · refine .inl ⟨hmem, ?_⟩
      by_cases hwork : stored.workId = master.workId
      · exact .inr (by simpa [hwork] using hover)
      · exact .inl hwork
  next hnew =>
    intro hstored
    rcases List.mem_append.mp hstored with hmem | hmem
    · refine .inl ⟨hmem, .inl fun hwork => hnew ?_⟩
      exact List.any_eq_true.mpr ⟨stored, hmem, by simpa using hwork⟩
    · exact .inr (List.mem_singleton.mp hmem)

theorem storeMaster_kept {yields : SongMaster → Bool} {stored : SongMaster}
    (hstored : stored ∈ db.songMasters)
    (hkept : stored.workId ≠ master.workId ∨ yields stored = false) :
    stored ∈ (db.storeMaster yields master).songMasters := by
  unfold Database.storeMaster
  dsimp only
  split
  · refine Table.mem_update.mpr (.inr ⟨hstored, ?_⟩)
    rcases hkept with hwork | hover
    · simp [hwork]
    · simp [hover]
  · exact List.mem_append_left _ hstored

theorem storeMaster_unique {yields : SongMaster → Bool}
    (hunique : Table.UniqueBy SongMaster.workId db.songMasters) :
    Table.UniqueBy SongMaster.workId (db.storeMaster yields master).songMasters := by
  unfold Database.storeMaster
  dsimp only
  split
  · have hworks : (Table.update db.songMasters
        (fun old => old.workId = master.workId && yields old) fun _ => master).map
          SongMaster.workId = db.songMasters.map SongMaster.workId := by
      simp only [Table.update, List.map_map]
      refine List.map_congr_left fun old _ => ?_
      simp only [Function.comp_apply]
      split
      next hold => simp only [Bool.and_eq_true, decide_eq_true_eq] at hold; exact hold.1.symm
      · rfl
    rwa [Table.UniqueBy, hworks]
  next hnew =>
    refine hunique.append fun old hold hwork => hnew ?_
    exact List.any_eq_true.mpr ⟨old, hold, by simpa using hwork⟩

/-- A selection writes the masters alone. -/
theorem reselect_eq : ∃ masters,
    reselectMasterFromFiles db workId manualFileId = { db with songMasters := masters } := by
  unfold reselectMasterFromFiles applyMasterDecision
  split
  · exact ⟨_, rfl⟩
  · exact ⟨_, rfl⟩
  · exact ⟨_, rfl⟩
  · exact ⟨_, rfl⟩

@[simp] theorem reselect_files :
    (reselectMasterFromFiles db workId manualFileId).files = db.files := by
  obtain ⟨masters, hmasters⟩ := @reselect_eq db workId manualFileId
  rw [hmasters]

@[simp] theorem reselect_matchRows :
    (reselectMasterFromFiles db workId manualFileId).matchRows = db.matchRows := by
  obtain ⟨masters, hmasters⟩ := @reselect_eq db workId manualFileId
  rw [hmasters]

@[simp] theorem reselect_works :
    (reselectMasterFromFiles db workId manualFileId).works = db.works := by
  obtain ⟨masters, hmasters⟩ := @reselect_eq db workId manualFileId
  rw [hmasters]

@[simp] theorem reselect_recordings :
    (reselectMasterFromFiles db workId manualFileId).recordings = db.recordings := by
  obtain ⟨masters, hmasters⟩ := @reselect_eq db workId manualFileId
  rw [hmasters]

@[simp] theorem reselect_formatOverrides :
    (reselectMasterFromFiles db workId manualFileId).formatOverrides = db.formatOverrides := by
  obtain ⟨masters, hmasters⟩ := @reselect_eq db workId manualFileId
  rw [hmasters]

@[simp] theorem reselect_identities :
    (reselectMasterFromFiles db workId manualFileId).identities = db.identities := by
  obtain ⟨masters, hmasters⟩ := @reselect_eq db workId manualFileId
  rw [hmasters]

@[simp] theorem reselect_artists :
    (reselectMasterFromFiles db workId manualFileId).artists = db.artists := by
  obtain ⟨masters, hmasters⟩ := @reselect_eq db workId manualFileId
  rw [hmasters]

theorem holds_eq_true {existing : Option SongMaster} {files : List LibraryFile} :
    holds existing files = true ↔
      ∃ master, existing = some master ∧ ∃ file ∈ files, file.id = master.preferredFileId := by
  cases existing with
  | none => simp [holds]
  | some master => simp [holds]

theorem getMasterByWork_of_mem (hunique : Table.UniqueBy SongMaster.workId db.songMasters)
    (hmaster : master ∈ db.songMasters) : db.getMasterByWork master.workId = some master :=
  hunique.find? hmaster

/-- What each decision means for the work. -/
theorem decideMaster_eq {existing : Option SongMaster} {files : List LibraryFile} :
    (decideMaster workId existing files manualFileId = .keep ∧
        ∀ master, existing = some master → holds existing files) ∨
      (decideMaster workId existing files manualFileId = .remove ∧ present files = []) ∨
      ∃ master, master.workId = workId ∧
        (∃ file ∈ present files, file.id = master.preferredFileId) ∧
        ¬ (existing.any (·.selectionMethod = .manual) ∧ holds existing (present files)) ∧
        decideMaster workId existing files manualFileId =
          .store master (existing.any (·.selectionMethod = .manual)) := by
  unfold decideMaster
  dsimp only
  split
  next hmanual =>
    refine .inl ⟨rfl, fun master hexisting => ?_⟩
    obtain ⟨held, hheld, file, hfile, hid⟩ := holds_eq_true.mp hmanual.2
    exact holds_eq_true.mpr ⟨held, hheld, file, (mem_present.mp hfile).1, hid⟩
  next hmanual =>
    split
    next master hpick =>
      obtain ⟨hwork, hfile⟩ := pickFromFiles_mem hpick
      exact .inr (.inr ⟨master, hwork, hfile, hmanual, rfl⟩)
    next hpick =>
      have hnone : present files = [] := by
        unfold pickFromFiles at hpick
        split at hpick
        · cases hpick
        · exact bestFile_eq_none (by simpa using hpick)
      split
      next hkeep =>
        refine .inl ⟨rfl, fun master hexisting => ?_⟩
        rcases hkeep with hnone | hholds
        · simp [hexisting] at hnone
        · exact hholds
      next => exact .inr (.inl ⟨rfl, hnone⟩)

/-- After a selection a master is one of another work that stood before, or one of this
work whose file is on it. -/
theorem mem_reselect (hunique : Table.UniqueBy SongMaster.workId db.songMasters)
    {stored : SongMaster}
    (hstored : stored ∈ (reselectMasterFromFiles db workId manualFileId).songMasters) :
    stored ∈ db.songMasters ∧ stored.workId ≠ workId ∨
      stored.workId = workId ∧ ∃ file ∈ db.files, file.id = stored.preferredFileId ∧
        file.workId = some workId ∧ (stored ∈ db.songMasters ∨ file.fileStatus = .present) := by
  have hold : stored ∈ db.songMasters → stored.workId = workId →
      db.getMasterByWork workId = some stored := fun hmem hwork =>
    hwork ▸ getMasterByWork_of_mem hunique hmem
  unfold reselectMasterFromFiles at hstored
  rcases @decideMaster_eq workId manualFileId (db.getMasterByWork workId) (db.getByWork workId) with
    ⟨hdecision, hholds⟩ | ⟨hdecision, -⟩ | ⟨master, hwork, ⟨file, hfile, hid⟩, -, hdecision⟩
  · rw [hdecision] at hstored
    by_cases hwork : stored.workId = workId
    · obtain ⟨held, hheld, file, hfile, hid⟩ := holds_eq_true.mp (hholds _ (hold hstored hwork))
      obtain rfl := Option.some.inj ((hold hstored hwork).symm.trans hheld)
      obtain ⟨hmem, hon⟩ := mem_getByWork.mp hfile
      exact .inr ⟨hwork, file, hmem, hid, hon, .inl hstored⟩
    · exact .inl ⟨hstored, hwork⟩
  · rw [hdecision] at hstored
    obtain ⟨hmem, hwork⟩ := Table.mem_delete.mp hstored
    exact .inl ⟨hmem, by simpa using hwork⟩
  · have hnew : stored = master → stored.workId = workId ∧ ∃ file ∈ db.files,
        file.id = stored.preferredFileId ∧ file.workId = some workId ∧
          (stored ∈ db.songMasters ∨ file.fileStatus = .present) := by
      rintro rfl
      obtain ⟨hworkFile, hpresent⟩ := mem_present.mp hfile
      obtain ⟨hmem, hon⟩ := mem_getByWork.mp hworkFile
      exact ⟨hwork, file, hmem, hid, hon, .inr hpresent⟩
    rw [hdecision] at hstored
    cases hmanual : (db.getMasterByWork workId).any (·.selectionMethod = .manual) with
    | true =>
        rw [hmanual] at hstored
        rcases mem_storeMaster hstored with ⟨hmem, hkept⟩ | heq
        · exact .inl ⟨hmem, hwork ▸ hkept.resolve_right (by simp)⟩
        · exact .inr (hnew heq)
    | false =>
        rw [hmanual] at hstored
        rcases mem_storeMaster hstored with ⟨hmem, hkept⟩ | heq
        · refine .inl ⟨hmem, fun hsame => ?_⟩
          rcases hkept with hother | hkept
          · exact hother (hsame.trans hwork.symm)
          · rw [hold hmem hsame, Option.any_some] at hmanual
            cases hmethod : stored.selectionMethod with
            | auto => simp [hmethod] at hkept
            | manual => simp [hmethod] at hmanual
        · exact .inr (hnew heq)

/-- A selection keeps the masters of other works, and a manual one whose file is on disk
and on its work. -/
theorem reselect_kept (hunique : Table.UniqueBy SongMaster.workId db.songMasters)
    {stored : SongMaster} (hstored : stored ∈ db.songMasters)
    (hkept : stored.workId ≠ workId ∨ stored.selectionMethod = .manual ∧
      ∃ file ∈ db.files, file.id = stored.preferredFileId ∧ file.workId = some stored.workId ∧
        file.fileStatus = .present) :
    stored ∈ (reselectMasterFromFiles db workId manualFileId).songMasters := by
  unfold reselectMasterFromFiles
  by_cases hsame : stored.workId = workId
  · obtain ⟨hmethod, file, hmem, hid, hon, hpresent⟩ := hkept.resolve_left (not_not.mpr hsame)
    have hget : db.getMasterByWork workId = some stored :=
      hsame ▸ getMasterByWork_of_mem hunique hstored
    have hfile : file ∈ present (db.getByWork workId) :=
      mem_present.mpr ⟨mem_getByWork.mpr ⟨hmem, hsame ▸ hon⟩, hpresent⟩
    rcases @decideMaster_eq workId manualFileId (db.getMasterByWork workId) (db.getByWork workId)
      with ⟨hdecision, -⟩ | ⟨hdecision, hnone⟩ | ⟨master, -, -, hmanual, -⟩
    · rwa [hdecision]
    · simp [hnone] at hfile
    · refine absurd ⟨?_, ?_⟩ hmanual
      · simp [hget, hmethod]
      · exact holds_eq_true.mpr ⟨stored, hget, file, hfile, hid⟩
  · rcases @decideMaster_eq workId manualFileId (db.getMasterByWork workId) (db.getByWork workId)
      with ⟨hdecision, -⟩ | ⟨hdecision, -⟩ | ⟨master, hwork, -, -, hdecision⟩
    · rwa [hdecision]
    · rw [hdecision]
      exact Table.mem_delete.mpr ⟨hstored, by simpa using hsame⟩
    · rw [hdecision]
      cases (db.getMasterByWork workId).any (·.selectionMethod = .manual) with
      | true => exact storeMaster_kept hstored (.inl (hwork ▸ hsame))
      | false => exact storeMaster_kept hstored (.inl (hwork ▸ hsame))

theorem reselect_unique (hunique : Table.UniqueBy SongMaster.workId db.songMasters) :
    Table.UniqueBy SongMaster.workId
      (reselectMasterFromFiles db workId manualFileId).songMasters := by
  unfold reselectMasterFromFiles applyMasterDecision
  split
  · exact hunique
  · exact hunique.delete
  · exact storeMaster_unique hunique
  · exact storeMaster_unique hunique

end

end RetroStation.Curation

/-! ## Moving files between works

A file moves to another work with its matches, duplicate works are merged, and the
works that lose files are settled.
-/

namespace RetroStation.Curation

open Library

/-- Give a file with no work the work that grouping chose; its matches take it too. -/
def placeUngroupedFile (db : Database) (fileId : Uuid) (workId : String) : Option Database :=
  match getById db.files fileId with
  | some file =>
    -- The foreign key refuses a work that is not there.
    if file.workId.isNone && db.hasWork workId then
      some ((db.updateWorkId fileId (some workId)).moveMatchesToWork fileId (some workId))
    else none
  | none => none

/-- Store a new local work, with the file that it was made for as its master. -/
def createLocalWork (db : Database) (fileId : Uuid) (work : Work) : Option Database :=
  if db.hasWork work.id then none
  else some (({ db with works := db.works ++ [work] } : Database).upsertMaster {
    workId := work.id
    preferredFileId := fileId
    selectionMethod := .auto })

/-- Place a file on a work that grouping made for it. -/
def placeInNewWork (db : Database) (fileId : Uuid) (work : Work) : Option Database :=
  (createLocalWork db fileId work).bind fun db => placeUngroupedFile db fileId work.id

/-- Delete a work nothing references, or else re-pick its master. -/
def settleWork (db : Database) (workId : String) : Database :=
  match db.deleteIfEmpty workId with
  | (true, db) => db
  | (false, db) => reselectMasterFromFiles db workId

/-- Attach a file to another work; its matches follow it, and both works are settled. -/
def moveFileToWork (db : Database) (libraryFile : LibraryFile) (workId : String) :
    Option Database :=
  if libraryFile.workId = some workId then some db
  else if db.hasWork workId then
    let db := db.updateWorkId libraryFile.id (some workId)
    let db := db.moveMatchesToWork libraryFile.id (some workId)
    let db := reselectMasterFromFiles db workId
    match libraryFile.workId with
    | some previous => some (settleWork db previous)
    | none => some db
  else none

structure WorkMergePlan where
  targetId : String
  sourceIds : List String
  deriving DecidableEq, Repr

/-- A source's manual master file, if the target has no manual master. -/
def manualChoiceToCarry (db : Database) (plan : WorkMergePlan) : Option Uuid :=
  if (db.getMasterByWork plan.targetId).any (·.selectionMethod = .manual) then none
  else plan.sourceIds.findSome? fun sourceId =>
    ((db.getMasterByWork sourceId).filter (·.selectionMethod = .manual)).map
      SongMaster.preferredFileId

/-- Fold a planned duplicate group into its target work. -/
def mergeWorkGroup (db : Database) (plan : WorkMergePlan) : Option Database :=
  if db.hasWork plan.targetId then
    let carried := manualChoiceToCarry db plan
    some (reselectMasterFromFiles (db.mergeWorksInto plan.targetId plan.sourceIds) plan.targetId
      carried)
  else none

end RetroStation.Curation
