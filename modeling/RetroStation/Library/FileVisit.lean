import RetroStation.Library.FolderScan

/-! # One file of a folder visit

What a visit of one file does to the library: it leaves the rows at other paths, except one
that the file was moved from, and no row loses its links.
-/

namespace RetroStation.Library

/-- The same row, with the work and the recording it had. -/
structure LibraryFile.Keeps (now row : LibraryFile) : Prop where
  id : now.id = row.id
  workId : now.workId = row.workId
  recordingId : now.recordingId = row.recordingId

namespace FolderDisk

variable (disk : FolderDisk)

/-- The file cannot be looked at, or its tags cannot be read. -/
def unreadable (filePath : String) : Bool := !(do
  let _ ← disk.stat filePath
  disk.tags filePath).isOk

/-- The file still has the size and the modification time of the row. -/
def unchanged (row : LibraryFile) (filePath : String) : Bool :=
  match disk.stat filePath with
  | .ok stat => row.statMatches stat
  | .error _ => false

/-- The row's own file is gone, if the disk does not refuse to look at it, or is the file found
at the new path. -/
def Gone (oldPath newPath : String) : Prop :=
  (disk.answer oldPath ≠ .refused → (disk.answer oldPath).gone = true) ∨
    disk.names.isSameFile oldPath newPath = true

end FolderDisk

/-- Whether the visit of a file fails, by the row there is of it. -/
def fails (disk : FolderDisk) (refuses : String → Option String) (existing : Option LibraryFile)
    (filePath : String) : Bool :=
  if existing.any fun row => disk.unchanged row filePath then
    existing.any (fun row => row.fileStatus = .missing) && (refuses filePath).isSome
  else disk.unreadable filePath || (refuses filePath).isSome

/-- What visiting the file at a path does to the library. -/
structure FileVisited (disk : FolderDisk) (filePath : String) (nextId : Uuid)
    (files : List LibraryFile) (movedFrom : Option String) (after : List LibraryFile) : Prop where
  ids : Table.UniqueBy LibraryFile.id after
  fresh : ∀ row ∈ after, row.id < nextId
  paths : Table.UniqueBy LibraryFile.filePath after
  others : ∀ row : LibraryFile, row.filePath ≠ filePath →
    (row ∈ after ↔ row ∈ files ∧ movedFrom ≠ some row.filePath)
  here : ∀ row ∈ after, row.filePath = filePath → row ∈ files ∨ row.fileStatus = .present
  kept : ∀ row ∈ files, ∃ now ∈ after, now.Keeps row ∧ (now = row ∨
    now.filePath = filePath ∧ (row.filePath = filePath ∨ movedFrom = some row.filePath))
  moved : ∀ oldPath, movedFrom = some oldPath → (∀ row ∈ files, row.filePath ≠ filePath) ∧
    oldPath ≠ filePath ∧ disk.Gone oldPath filePath

section

variable {disk : FolderDisk} {refuses : String → Option String} {files mid after : List LibraryFile}
  {filePath : String} {file : LibraryFile} {movedFrom : Option String} {newId nextId : Uuid}

theorem LibraryFile.Keeps.refl (row : LibraryFile) : row.Keeps row := ⟨rfl, rfl, rfl⟩

theorem LibraryFile.Keeps.trans {last now row : LibraryFile} (hlast : last.Keeps now)
    (hnow : now.Keeps row) : last.Keeps row :=
  ⟨hlast.id.trans hnow.id, hlast.workId.trans hnow.workId,
    hlast.recordingId.trans hnow.recordingId⟩

/-! ## Reading -/

/-- What is read of a file carries no links, and the size and modification time it has. -/
theorem readTags_spec (hread : disk.readTags newId filePath = .ok file) :
    file.filePath = filePath ∧ file.id = newId ∧ file.workId = none ∧ file.recordingId = none ∧
      disk.unchanged file filePath = true := by
  unfold FolderDisk.readTags at hread
  cases hstat : disk.stat filePath with
  | error => rw [hstat] at hread; cases hread
  | ok stat =>
      rw [hstat] at hread
      cases htags : disk.tags filePath with
      | error => rw [htags] at hread; cases hread
      | ok read =>
          rw [htags] at hread
          cases hread
          exact ⟨rfl, rfl, rfl, rfl, by simp [FolderDisk.unchanged, hstat, LibraryFile.statMatches]⟩

theorem readTags_cases (disk : FolderDisk) (newId : Uuid) (filePath : String) :
    (disk.unreadable filePath = true ∧ ∃ error, disk.readTags newId filePath = .error error) ∨
      disk.unreadable filePath = false ∧ ∃ file, disk.readTags newId filePath = .ok file := by
  unfold FolderDisk.unreadable FolderDisk.readTags
  cases disk.stat filePath with
  | error error => exact .inl ⟨rfl, error, rfl⟩
  | ok stat =>
      cases disk.tags filePath with
      | error error => exact .inl ⟨rfl, error, rfl⟩
      | ok read => exact .inr ⟨rfl, _, rfl⟩

/-! ## What the statements do to the library -/

theorem FileVisited.refl (hids : Table.UniqueBy LibraryFile.id files)
    (hpaths : Table.UniqueBy LibraryFile.filePath files)
    (hfresh : ∀ row ∈ files, row.id < nextId) :
    FileVisited disk filePath nextId files none files where
  ids := hids
  fresh := hfresh
  paths := hpaths
  others _ _ := by simp
  here _ hrow _ := .inl hrow
  kept row hrow := ⟨row, hrow, .refl row, .inl rfl⟩
  moved _ hmoved := nomatch hmoved

theorem FileVisited.trans (hfirst : FileVisited disk filePath nextId files movedFrom mid)
    (hsecond : FileVisited disk filePath nextId mid none after) :
    FileVisited disk filePath nextId files movedFrom after where
  ids := hsecond.ids
  fresh := hsecond.fresh
  paths := hsecond.paths
  others row hpath := by
    rw [hsecond.others row hpath, hfirst.others row hpath]
    simp
  here row hrow hpath := by
    rcases hsecond.here row hrow hpath with hmid | hpresent
    · exact hfirst.here row hmid hpath
    · exact .inr hpresent
  kept row hrow := by
    obtain ⟨now, hnow, hkeeps, hplace⟩ := hfirst.kept row hrow
    obtain ⟨last, hlast, hlastKeeps, hlastPlace⟩ := hsecond.kept now hnow
    refine ⟨last, hlast, hlastKeeps.trans hkeeps, ?_⟩
    rcases hplace with rfl | ⟨hpath, hfrom⟩
    · exact hlastPlace.imp_right fun ⟨hpath, hfrom⟩ => ⟨hpath, .inl (hfrom.resolve_right nofun)⟩
    · rcases hlastPlace with rfl | ⟨hlastPath, -⟩
      · exact .inr ⟨hpath, hfrom⟩
      · exact .inr ⟨hlastPath, hfrom⟩
  moved := hfirst.moved

/-- A new file adopts the row it was moved from. -/
theorem adoptRow_visited (hids : Table.UniqueBy LibraryFile.id files)
    (hpaths : Table.UniqueBy LibraryFile.filePath files) (hfresh : ∀ row ∈ files, row.id < nextId)
    (hnew : ∀ row ∈ files, row.filePath ≠ file.filePath) :
    FileVisited disk file.filePath nextId files (adoptRow files disk.names disk.answer file).2
      (adoptRow files disk.names disk.answer file).1 := by
  rcases @adoptRow_spec files disk.names disk.answer file hids with
    hnone | ⟨origin, horigin, -, hrows, hpath, hgone⟩
  · rw [hnone]
    exact .refl hids hpaths hfresh
  rw [hrows]
  have hfiles : files.Nodup := .of_map _ hids
  -- Paths are unique, so the adopted row is told by its old path.
  have hsame : ∀ row ∈ files, some origin.filePath ≠ some row.filePath ↔ row ≠ origin := by
    intro row hrow
    rw [ne_eq, Option.some.injEq, not_iff_not]
    exact ⟨fun hpath => hpaths.eq hrow horigin hpath.symm, fun heq => heq ▸ rfl⟩
  refine ⟨?_, fun row hrow => ?_, ?_, fun row hrowPath => ?_, fun row hrow hrowPath => ?_,
    fun row hrow => ?_, ?_⟩
  · have hsameIds : (files.map fun row => if row = origin then moved file.filePath row else row).map
        LibraryFile.id = files.map LibraryFile.id := by
      rw [List.map_map]
      refine List.map_congr_left fun row _ => ?_
      by_cases hrow : row = origin <;> simp [hrow, moved]
    exact (congrArg List.Nodup hsameIds).mpr hids
  · obtain ⟨old, hold, rfl⟩ := List.mem_map.mp hrow
    have hid : (if old = origin then moved file.filePath old else old).id = old.id := by
      by_cases heq : old = origin <;> simp [heq, moved]
    rw [hid]
    exact hfresh old hold
  · unfold Table.UniqueBy
    rw [List.map_map]
    refine hfiles.map_on fun first hfirst second hsecond heq => ?_
    by_cases hone : first = origin <;> by_cases htwo : second = origin
    · rw [hone, htwo]
    · simp only [Function.comp_apply, if_pos hone, if_neg htwo] at heq
      exact absurd heq.symm (hnew second hsecond)
    · simp only [Function.comp_apply, if_neg hone, if_pos htwo] at heq
      exact absurd heq (hnew first hfirst)
    · simp only [Function.comp_apply, if_neg hone, if_neg htwo] at heq
      exact hpaths.eq hfirst hsecond heq
  · constructor
    · intro hrow
      obtain ⟨old, hold, rfl⟩ := List.mem_map.mp hrow
      by_cases heq : old = origin
      · rw [if_pos heq] at hrowPath
        exact absurd rfl hrowPath
      · rw [if_neg heq]
        exact ⟨hold, (hsame old hold).mpr heq⟩
    · rintro ⟨hrow, hother⟩
      exact List.mem_map.mpr ⟨row, hrow, if_neg ((hsame row hrow).mp hother)⟩
  · obtain ⟨old, hold, rfl⟩ := List.mem_map.mp hrow
    by_cases heq : old = origin
    · rw [if_pos heq]
      exact .inr rfl
    · rw [if_neg heq] at hrowPath
      exact absurd hrowPath (hnew old hold)
  · refine ⟨_, List.mem_map_of_mem hrow, ?_⟩
    by_cases heq : row = origin
    · rw [if_pos heq]
      exact ⟨⟨rfl, rfl, rfl⟩, .inr ⟨rfl, .inr (heq ▸ rfl)⟩⟩
    · rw [if_neg heq]
      exact ⟨.refl row, .inl rfl⟩
  · intro oldPath hold
    obtain rfl := Option.some.inj hold
    exact ⟨hnew, hpath, hgone.imp_left pathExists_eq_false.mp⟩

/-- A file is written over its row, or as a row of its own. -/
theorem upsert_visited (hids : Table.UniqueBy LibraryFile.id files)
    (hpaths : Table.UniqueBy LibraryFile.filePath files)
    (hfresh : ∀ row ∈ files, row.id < nextId) (hid : file.id < nextId)
    (hother : ∀ row ∈ files, row.filePath ≠ file.filePath → row.id ≠ file.id)
    (hkeeps : ∀ row ∈ files, row.filePath = file.filePath → (upserted file row).Keeps row) :
    FileVisited disk file.filePath nextId files none (upsert files file) where
  ids := unique_id_upsert hids hother
  fresh row hrow := by
    rcases of_mem_upsert hrow with ⟨hold, -⟩ | ⟨-, hsame | ⟨old, hold, -, rfl⟩⟩
    · exact hfresh row hold
    · exact hsame ▸ hid
    · exact hfresh old hold
  paths := by
    unfold upsert
    split
    · exact hpaths.update fun _ => rfl
    next hnew =>
      refine hpaths.append fun old hold hpath => hnew ?_
      have hsame : old.filePath = file.filePath := hpath
      exact List.any_eq_true.mpr ⟨old, hold, by simpa using hsame⟩
  others row hpath := by
    refine ⟨fun hrow => ?_, fun hrow => mem_upsert_of_ne hrow.1 hpath⟩
    rcases of_mem_upsert hrow with ⟨hold, -⟩ | ⟨hsame, -⟩
    · exact ⟨hold, nofun⟩
    · exact absurd hsame hpath
  here row hrow hpath := .inr (stored_of_mem_upsert hrow hpath).1
  kept row hrow := by
    by_cases hpath : row.filePath = file.filePath
    · exact ⟨upserted file row, upserted_mem_upsert hrow hpath, hkeeps row hrow hpath,
        .inr ⟨hpath, .inl hpath⟩⟩
    · exact ⟨row, mem_upsert_of_ne hrow hpath, .refl row, .inl rfl⟩
  moved _ hmoved := nomatch hmoved

/-! ## The scenarios -/

section

variable {ctx : FolderScanContext}

theorem writeRead_cases (refuses : String → Option String) (ctx : FolderScanContext)
    (file : LibraryFile) :
    (∃ error, refuses file.filePath = some error ∧
      writeRead refuses ctx file = ctx.fail file.filePath error) ∨
    refuses file.filePath = none ∧ writeRead refuses ctx file = { ctx with
      files := upsert ctx.files file
      result := { ctx.result with filesWritten := ctx.result.filesWritten + 1 } } := by
  unfold writeRead upsertSafe
  cases hrefuses : refuses file.filePath with
  | some error => exact .inl ⟨error, rfl, rfl⟩
  | none => exact .inr ⟨rfl, rfl⟩

/-- A visit that failed: the file is noted and nothing is written. -/
structure Failed (ctx : FolderScanContext) (filePath : String) (after : FolderScanContext) :
    Prop where
  files : after.files = ctx.files
  nextId : ctx.nextId ≤ after.nextId
  failing : after.result.failingPaths = insert filePath ctx.result.failingPaths
  written : after.result.filesWritten = ctx.result.filesWritten
  skipped : after.result.filesSkipped = ctx.result.filesSkipped
  relocated : after.result.filesRelocated = ctx.result.filesRelocated

theorem fail_failed (ctx : FolderScanContext) (filePath error : String) :
    Failed ctx filePath (ctx.fail filePath error) := ⟨rfl, le_rfl, rfl, rfl, rfl, rfl⟩

theorem Failed.reappeared {after : FolderScanContext} (hfailed : Failed ctx filePath after)
    (filesReappeared : Nat) :
    Failed ctx filePath { after with result := { after.result with filesReappeared } } :=
  ⟨hfailed.files, hfailed.nextId, hfailed.failing, hfailed.written, hfailed.skipped,
    hfailed.relocated⟩

/-- A file is read again: its visit fails, or it is written as it was read. -/
theorem rereadAndUpsert_cases (disk : FolderDisk) (refuses : String → Option String)
    (ctx : FolderScanContext) (filePath : String) :
    ((disk.unreadable filePath || (refuses filePath).isSome) = true ∧
      Failed ctx filePath (rereadAndUpsert disk refuses ctx filePath)) ∨
    (disk.unreadable filePath || (refuses filePath).isSome) = false ∧
      ∃ file, disk.readTags ctx.nextId filePath = .ok file ∧
        (rereadAndUpsert disk refuses ctx filePath).files = upsert ctx.files file ∧
        (rereadAndUpsert disk refuses ctx filePath).nextId = ctx.nextId + 1 ∧
        (rereadAndUpsert disk refuses ctx filePath).result.failingPaths =
          ctx.result.failingPaths := by
  unfold rereadAndUpsert readTagsSafe
  rcases readTags_cases disk ctx.nextId filePath with ⟨hunread, error, hread⟩ |
    ⟨hreads, file, hread⟩
  · rw [hread, hunread]
    exact .inl ⟨rfl, fail_failed ctx filePath error⟩
  · obtain ⟨rfl, -⟩ := readTags_spec hread
    rw [hread, hreads]
    rcases writeRead_cases refuses { ctx with nextId := ctx.nextId + 1 } file with
      ⟨error, hrefused, hwrite⟩ | ⟨hwritten, hwrite⟩
    · rw [hrefused]
      refine .inl ⟨rfl, ?_⟩
      dsimp only
      rw [hwrite]
      exact ⟨rfl, Nat.le_succ _, rfl, rfl, rfl, rfl⟩
    · rw [hwritten]
      refine .inr ⟨rfl, file, rfl, ?_⟩
      dsimp only
      rw [hwrite]
      exact ⟨rfl, rfl, rfl⟩

/-- A new file cannot be read, or it adopts its row and is written or refused. -/
theorem indexNewFile_cases (disk : FolderDisk) (refuses : String → Option String)
    (ctx : FolderScanContext) (filePath : String) :
    (disk.unreadable filePath = true ∧ (indexNewFile disk refuses ctx filePath).2 = none ∧
      Failed ctx filePath (indexNewFile disk refuses ctx filePath).1) ∨
    disk.unreadable filePath = false ∧ ∃ file, disk.readTags ctx.nextId filePath = .ok file ∧
      ∃ adopted, adopted = adoptRow ctx.files disk.names disk.answer file ∧
        ∃ result, result = { ctx.result with
          filesRelocated := ctx.result.filesRelocated + if adopted.2.isSome then 1 else 0 } ∧
        indexNewFile disk refuses ctx filePath = (writeRead refuses { ctx with
          files := adopted.1, nextId := ctx.nextId + 1, result := result } file, adopted.2) := by
  unfold indexNewFile readTagsSafe
  rcases readTags_cases disk ctx.nextId filePath with ⟨hunread, error, hread⟩ |
    ⟨hread', file, hread⟩
  · rw [hread]
    exact .inl ⟨hunread, rfl, fail_failed ctx filePath error⟩
  · rw [hread]
    exact .inr ⟨hread', file, rfl, _, rfl, _, rfl, rfl⟩

/-- A file with a row is skipped, restored unread, or written as it was read, unless its
visit fails. -/
theorem visitDiskFile_cases {row : LibraryFile} (hpath : row.filePath = filePath) :
    (fails disk refuses (some row) filePath = true ∧
      (visitDiskFile disk refuses ctx filePath (some row)).2 = none ∧
      Failed ctx filePath (visitDiskFile disk refuses ctx filePath (some row)).1) ∨
    fails disk refuses (some row) filePath = false ∧
      (visitDiskFile disk refuses ctx filePath (some row)).2 = none ∧
      ∃ after, (visitDiskFile disk refuses ctx filePath (some row)).1 = after ∧
        ctx.nextId ≤ after.nextId ∧ after.result.failingPaths = ctx.result.failingPaths ∧
        ((disk.unchanged row filePath = true ∧ row.fileStatus ≠ .missing ∧ after = { ctx with
            result := { ctx.result with filesSkipped := ctx.result.filesSkipped + 1 } }) ∨
          (disk.unchanged row filePath = true ∧ row.fileStatus = .missing ∧
            after.files = upsert ctx.files { row with fileStatus := .present }) ∨
          disk.unchanged row filePath = false ∧
            ∃ file, disk.readTags ctx.nextId filePath = .ok file ∧
              after.files = upsert ctx.files file ∧ after.nextId = ctx.nextId + 1) := by
  subst hpath
  by_cases hunchanged : disk.unchanged row row.filePath = true
  · obtain ⟨stat, hstat, hmatches⟩ : ∃ stat, disk.stat row.filePath = .ok stat ∧
        row.statMatches stat = true := by
      unfold FolderDisk.unchanged at hunchanged
      split at hunchanged
      next stat hstat => exact ⟨stat, hstat, hunchanged⟩
      · cases hunchanged
    by_cases hmissing : row.fileStatus = .missing
    · simp only [visitDiskFile, hmissing, if_true, restoreReappearedFile, unchangedOnDisk, hstat,
        hmatches, upsertSafe, fails, Option.any_some, hunchanged]
      cases hrefuses : refuses row.filePath with
      | some error =>
          refine .inl ⟨by simp, trivial, ?_⟩
          exact (fail_failed ctx row.filePath error).reappeared _
      | none =>
          exact .inr ⟨by simp, trivial, _, rfl, le_rfl, rfl, .inr (.inl ⟨trivial, trivial, rfl⟩)⟩
    · simp only [visitDiskFile, hmissing, if_false, reconcilePresentFile, unchangedOnDisk, hstat,
        hmatches, if_true, fails, Option.any_some, hunchanged]
      exact .inr ⟨by simp, trivial, _, rfl, le_rfl, rfl, .inl ⟨trivial, hmissing, rfl⟩⟩
  · have hfails : fails disk refuses (some row) row.filePath =
        (disk.unreadable row.filePath || (refuses row.filePath).isSome) := by
      simp [fails, hunchanged]
    rw [hfails]
    cases hstat : disk.stat row.filePath with
    | error error =>
        have hunread : disk.unreadable row.filePath = true := by
          unfold FolderDisk.unreadable
          rw [hstat]
          rfl
        rw [hunread]
        simp only [visitDiskFile, restoreReappearedFile, reconcilePresentFile, unchangedOnDisk,
          hstat]
        split <;> exact .inl ⟨rfl, rfl, rfl, le_rfl, rfl, rfl, rfl, rfl⟩
    | ok stat =>
        have hmatches : row.statMatches stat = false := by
          simpa [FolderDisk.unchanged, hstat] using hunchanged
        simp only [visitDiskFile, restoreReappearedFile, reconcilePresentFile, unchangedOnDisk,
          hstat, hmatches, Bool.false_eq_true, if_false]
        rcases rereadAndUpsert_cases disk refuses ctx row.filePath with
          ⟨hfailed, hreread⟩ | ⟨hwritten, file, hread, hfiles, hnextId, hfailing⟩
        · rw [hfailed]
          split
          · exact .inl ⟨rfl, rfl, hreread.reappeared _⟩
          · exact .inl ⟨rfl, rfl, hreread⟩
        · rw [hwritten]
          split
          all_goals
            exact .inr ⟨rfl, rfl, _, rfl, hnextId ▸ Nat.le_succ _, hfailing,
              .inr (.inr ⟨by simpa using hunchanged, file, hread, hfiles, hnextId⟩)⟩

/-- A file as it was read is written over its row, or as a row of its own. -/
theorem upsert_read (hids : Table.UniqueBy LibraryFile.id files)
    (hpaths : Table.UniqueBy LibraryFile.filePath files) (hfresh : ∀ row ∈ files, row.id < newId)
    (hread : disk.readTags newId filePath = .ok file) :
    FileVisited disk filePath (newId + 1) files none (upsert files file) := by
  obtain ⟨rfl, rfl, hwork, hrecording, -⟩ := readTags_spec hread
  refine upsert_visited hids hpaths (fun row hrow => Nat.lt_succ_of_lt (hfresh row hrow))
    (Nat.lt_succ_self _) (fun row hrow _ => (hfresh row hrow).ne) fun row _ _ => ⟨rfl, ?_, ?_⟩
  · simp [upserted, hwork]
  · simp [upserted, hrecording]

/-- What a visit does to the library, by the row there is at the file's path. -/
theorem visitDiskFile_visited {existing : Option LibraryFile}
    (hids : Table.UniqueBy LibraryFile.id ctx.files)
    (hpaths : Table.UniqueBy LibraryFile.filePath ctx.files)
    (hfresh : ∀ row ∈ ctx.files, row.id < ctx.nextId)
    (hnone : existing = none → ∀ row ∈ ctx.files, row.filePath ≠ filePath)
    (hsome : ∀ row, existing = some row → row ∈ ctx.files ∧ row.filePath = filePath) :
    FileVisited disk filePath (visitDiskFile disk refuses ctx filePath existing).1.nextId ctx.files
      (visitDiskFile disk refuses ctx filePath existing).2
      (visitDiskFile disk refuses ctx filePath existing).1.files := by
  have hlater {next : Uuid} (hnext : ctx.nextId ≤ next) : ∀ row ∈ ctx.files, row.id < next :=
    fun row hrow => (hfresh row hrow).trans_le hnext
  have hfailed {after : FolderScanContext} (hafter : Failed ctx filePath after) :
      FileVisited disk filePath after.nextId ctx.files none after.files := by
    rw [hafter.files]
    exact .refl hids hpaths (hlater hafter.nextId)
  cases existing with
  | none =>
      change FileVisited disk filePath (indexNewFile disk refuses ctx filePath).1.nextId ctx.files
        (indexNewFile disk refuses ctx filePath).2 (indexNewFile disk refuses ctx filePath).1.files
      rcases indexNewFile_cases disk refuses ctx filePath with
        ⟨-, hmoved, hafter⟩ | ⟨-, file, hread, adopted, rfl, result, -, hindexed⟩
      · rw [hmoved]
        exact hfailed hafter
      · have hspec := readTags_spec hread
        have hadopted {next : Uuid} (hnext : ctx.nextId ≤ next) :
            FileVisited disk filePath next ctx.files
              (adoptRow ctx.files disk.names disk.answer file).2
              (adoptRow ctx.files disk.names disk.answer file).1 :=
          hspec.1 ▸ adoptRow_visited hids hpaths (hlater hnext) (hspec.1 ▸ hnone rfl)
        rw [hindexed]
        rcases writeRead_cases refuses { ctx with
            files := (adoptRow ctx.files disk.names disk.answer file).1
            nextId := ctx.nextId + 1, result := result } file with
          ⟨error, -, hwrite⟩ | ⟨-, hwrite⟩
        · rw [hwrite]
          exact hadopted (Nat.le_succ _)
        · rw [hwrite]
          have hbefore := hadopted le_rfl
          exact (hadopted (Nat.le_succ _)).trans
            (upsert_read hbefore.ids hbefore.paths hbefore.fresh hread)
  | some row =>
      obtain ⟨hrow, hpath⟩ := hsome row rfl
      rcases @visitDiskFile_cases disk refuses filePath ctx row hpath with
        ⟨-, hmoved, hafter⟩ | ⟨-, hmoved, after, hafter, hnext, -, hcases⟩
      · rw [hmoved]
        exact hfailed hafter
      · rw [hmoved, hafter]
        rcases hcases with ⟨-, -, rfl⟩ | ⟨-, -, hfiles⟩ | ⟨-, file, hread, hfiles, hnextId⟩
        · exact .refl hids hpaths hfresh
        · rw [hfiles]
          subst hpath
          refine upsert_visited hids hpaths (hlater hnext) ((hfresh row hrow).trans_le hnext)
            (fun other hother hne hid => hne ?_) fun other hother hsame => ?_
          · exact congrArg LibraryFile.filePath (hids.eq hother hrow hid)
          · obtain rfl := hpaths.eq hother hrow hsame
            exact ⟨rfl, by simp [upserted], by simp [upserted]⟩
        · rw [hfiles, hnextId]
          exact upsert_read hids hpaths hfresh hread

/-- The file has one row, with the size and the modification time it has. -/
def Settled (disk : FolderDisk) (files : List LibraryFile) (filePath : String) : Prop :=
  ∃ row ∈ files, row.filePath = filePath ∧ row.fileStatus = .present ∧
    disk.unchanged row filePath = true

theorem settled_upsert (hpath : file.filePath = filePath)
    (hunchanged : disk.unchanged file filePath = true) :
    Settled disk (upsert files file) filePath := by
  obtain ⟨row, hrow, hrowPath⟩ := @exists_mem_upsert files file
  obtain ⟨hpresent, hsize, hmtime⟩ := stored_of_mem_upsert hrow hrowPath
  refine ⟨row, hrow, hrowPath.trans hpath, hpresent, ?_⟩
  unfold FolderDisk.unchanged at hunchanged ⊢
  unfold LibraryFile.statMatches at hunchanged ⊢
  rwa [hsize, hmtime]

/-- Whether a visit fails is known beforehand; else it leaves the file settled. -/
theorem visitDiskFile_settles {existing : Option LibraryFile}
    (hsome : ∀ row, existing = some row → row ∈ ctx.files ∧ row.filePath = filePath ∧
      row.fileStatus ≠ .deleted) :
    (fails disk refuses existing filePath = true ∧
      (visitDiskFile disk refuses ctx filePath existing).1.result.failingPaths =
        insert filePath ctx.result.failingPaths) ∨
    fails disk refuses existing filePath = false ∧
      (visitDiskFile disk refuses ctx filePath existing).1.result.failingPaths =
        ctx.result.failingPaths ∧
      Settled disk (visitDiskFile disk refuses ctx filePath existing).1.files filePath := by
  cases existing with
  | none =>
      change (_ ∧ (indexNewFile disk refuses ctx filePath).1.result.failingPaths = _) ∨ _ ∧
        (indexNewFile disk refuses ctx filePath).1.result.failingPaths = _ ∧
          Settled disk (indexNewFile disk refuses ctx filePath).1.files filePath
      rcases indexNewFile_cases disk refuses ctx filePath with
        ⟨hunread, -, hafter⟩ | ⟨hreads, file, hread, adopted, -, result, rfl, hindexed⟩
      · exact .inl ⟨by simp [fails, hunread], hafter.failing⟩
      · obtain ⟨rfl, -, -, -, hunchanged⟩ := readTags_spec hread
        rw [hindexed]
        rcases writeRead_cases refuses { ctx with
            files := adopted.1
            nextId := ctx.nextId + 1
            result := { ctx.result with filesRelocated :=
              ctx.result.filesRelocated + if adopted.2.isSome then 1 else 0 } } file with
          ⟨error, hrefused, hwrite⟩ | ⟨hwritten, hwrite⟩
        · rw [hwrite]
          exact .inl ⟨by simp [fails, hrefused], rfl⟩
        · rw [hwrite]
          exact .inr ⟨by simp [fails, hreads, hwritten], rfl, settled_upsert rfl hunchanged⟩
  | some row =>
      obtain ⟨hrow, hpath, hkept⟩ := hsome row rfl
      rcases @visitDiskFile_cases disk refuses filePath ctx row hpath with
        ⟨hfails, -, hafter⟩ | ⟨hworks, -, after, hafter, -, hfailing, hcases⟩
      · exact .inl ⟨hfails, hafter.failing⟩
      · rw [hafter]
        refine .inr ⟨hworks, hfailing, ?_⟩
        rcases hcases with ⟨hunchanged, hpresent, rfl⟩ | ⟨hunchanged, -, hfiles⟩ |
          ⟨-, file, hread, hfiles, -⟩
        · refine ⟨row, hrow, hpath, ?_, hunchanged⟩
          cases hstatus : row.fileStatus with
          | present => rfl
          | missing => exact absurd hstatus hpresent
          | deleted => exact absurd hstatus hkept
        · rw [hfiles]
          exact settled_upsert hpath hunchanged
        · obtain ⟨hfilePath, -, -, -, hunchanged⟩ := readTags_spec hread
          rw [hfiles]
          exact settled_upsert hfilePath hunchanged

/-- A visit that has nothing to write: it fails, and no new file can be read, or its row is
the file's as it is. -/
def Quiet (disk : FolderDisk) (refuses : String → Option String) (existing : Option LibraryFile)
    (filePath : String) : Prop :=
  (fails disk refuses existing filePath = true ∧
      (existing = none → disk.unreadable filePath = true)) ∨
    ∃ row, existing = some row ∧ row.fileStatus ≠ .missing ∧ disk.unchanged row filePath = true

/-- A visit that has nothing to write writes nothing; a file that does not fail is skipped. -/
theorem visitDiskFile_quiet {existing : Option LibraryFile}
    (hquiet : Quiet disk refuses existing filePath)
    (hsome : ∀ row, existing = some row → row.filePath = filePath) :
    (visitDiskFile disk refuses ctx filePath existing).2 = none ∧
      (visitDiskFile disk refuses ctx filePath existing).1.files = ctx.files ∧
      (visitDiskFile disk refuses ctx filePath existing).1.result.filesWritten =
        ctx.result.filesWritten ∧
      (visitDiskFile disk refuses ctx filePath existing).1.result.filesRelocated =
        ctx.result.filesRelocated ∧
      (visitDiskFile disk refuses ctx filePath existing).1.result.filesSkipped =
        ctx.result.filesSkipped +
          if fails disk refuses existing filePath = true then 0 else 1 := by
  have hfailed {out : FolderScanContext × Option String}
      (hfails : fails disk refuses existing filePath = true) (hmoved : out.2 = none)
      (hafter : Failed ctx filePath out.1) : out.2 = none ∧ out.1.files = ctx.files ∧
        out.1.result.filesWritten = ctx.result.filesWritten ∧
        out.1.result.filesRelocated = ctx.result.filesRelocated ∧
        out.1.result.filesSkipped = ctx.result.filesSkipped +
          if fails disk refuses existing filePath = true then 0 else 1 := by
    rw [if_pos hfails]
    exact ⟨hmoved, hafter.files, hafter.written, hafter.relocated, hafter.skipped⟩
  cases existing with
  | none =>
      rcases hquiet with ⟨hfails, hunread⟩ | ⟨row, hrow, -⟩
      · rcases indexNewFile_cases disk refuses ctx filePath with
          ⟨-, hmoved, hafter⟩ | ⟨hreads, -⟩
        · exact hfailed hfails hmoved hafter
        · rw [hunread rfl] at hreads
          cases hreads
      · cases hrow
  | some row =>
      have hpath := hsome row rfl
      rcases @visitDiskFile_cases disk refuses filePath ctx row hpath with
        ⟨hfails, hmoved, hafter⟩ | ⟨hworks, hmoved, after, hafter, -, -, hcases⟩
      · exact hfailed hfails hmoved hafter
      · rcases hquiet with ⟨hfails, -⟩ | ⟨other, hother, hpresent, hunchanged⟩
        · rw [hworks] at hfails
          cases hfails
        · obtain rfl := Option.some.inj hother
          rcases hcases with ⟨-, -, rfl⟩ | ⟨-, hmissing, -⟩ | ⟨hchanged, -⟩
          · rw [hafter, if_neg (by simp [hworks])]
            exact ⟨hmoved, rfl, rfl, rfl, rfl⟩
          · exact absurd hmissing hpresent
          · rw [hunchanged] at hchanged
            cases hchanged

end

end

end RetroStation.Library
