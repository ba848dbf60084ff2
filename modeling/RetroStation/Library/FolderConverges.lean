import RetroStation.Library.FileVisit

/-! # A folder visit converges

Six scenarios act file by file on the rows that were read before the first. Whatever fails,
each file that was read or is unchanged ends with one row, no row loses its links, and a
second visit has nothing left to write.
-/

namespace RetroStation.Library

/-- The files that are listed are in the folder and on the disk, and no two are one file. -/
structure Listed (disk : FolderDisk) (folderPath : String) (listed : List String) : Prop where
  files : listAudioFiles disk = some listed
  inFolder : ∀ filePath ∈ listed, inFolder folderPath filePath = true
  there : ∀ filePath ∈ listed, pathExists disk.answer filePath = true
  apart : ∀ first ∈ listed, ∀ second ∈ listed, first ≠ second →
    disk.names.isSameFile first second = false

/-- The library a visit starts from: rows of ids and paths of their own, and none of a listed
file that counts as deleted. -/
structure Visitable (listed : List String) (ctx : FolderScanContext) : Prop where
  ids : Table.UniqueBy LibraryFile.id ctx.files
  paths : Table.UniqueBy LibraryFile.filePath ctx.files
  fresh : ∀ row ∈ ctx.files, row.id < ctx.nextId
  kept : ∀ row ∈ ctx.files, row.filePath ∈ listed → row.fileStatus ≠ .deleted

/-- A row that a file without a row has adopted: its own file is gone, or is that file. -/
structure Adopted (disk : FolderDisk) (start : List LibraryFile) (row : LibraryFile)
    (newPath : String) : Prop where
  new : ∀ other ∈ start, other.filePath ≠ newPath
  gone : disk.Gone row.filePath newPath

/-- What is known once the files of `done` are visited. -/
structure Visiting (disk : FolderDisk) (refuses : String → Option String) (folderPath : String)
    (start : List LibraryFile) (done : List String)
    (visit : FolderScanContext × Dict String LibraryFile) : Prop where
  ids : Table.UniqueBy LibraryFile.id visit.1.files
  paths : Table.UniqueBy LibraryFile.filePath visit.1.files
  fresh : ∀ row ∈ visit.1.files, row.id < visit.1.nextId
  rows : ∀ row ∈ visit.1.files, row ∈ start ∨ row.filePath ∈ done ∧ row.fileStatus = .present
  kept : ∀ row ∈ start, ∃ now ∈ visit.1.files, now.Keeps row ∧ (now = row ∨
    now.filePath ∈ done ∧ (now.filePath = row.filePath ∨ Adopted disk start row now.filePath))
  existing : ∀ filePath row, visit.2.get? filePath = some row ↔ row ∈ start ∧
    inFolder folderPath filePath = true ∧ row.filePath = filePath ∧ filePath ∉ done ∧
      row ∈ visit.1.files
  settled : ∀ filePath ∈ done, fails disk refuses (getByPath start filePath) filePath = false →
    Settled disk visit.1.files filePath
  failing : ∀ filePath, filePath ∈ visit.1.result.failingPaths ↔ filePath ∈ done ∧
    fails disk refuses (getByPath start filePath) filePath = true

section

variable {disk : FolderDisk} {refuses : String → Option String} {folderPath filePath : String}
  {listed done done' : List String} {start files : List LibraryFile} {row : LibraryFile}
  {visit : FolderScanContext × Dict String LibraryFile} {ctx : FolderScanContext}

theorem getByPath_eq_some (hpaths : Table.UniqueBy LibraryFile.filePath files) :
    getByPath files filePath = some row ↔ row ∈ files ∧ row.filePath = filePath := by
  unfold getByPath
  constructor
  · intro hfound
    exact ⟨List.mem_of_find?_eq_some hfound, by simpa using List.find?_some hfound⟩
  · rintro ⟨hrow, rfl⟩
    exact hpaths.find? hrow

theorem existingByPath_eq_some (hpaths : Table.UniqueBy LibraryFile.filePath files) :
    (existingByPath files folderPath).get? filePath = some row ↔ row ∈ files ∧
      inFolder folderPath filePath = true ∧ row.filePath = filePath := by
  have hkeys : (((getByFolderPath files folderPath).map fun row =>
      (row.filePath, row)).map Prod.fst).Nodup := by
    rw [List.map_map]
    exact hpaths.sublist (List.filter_sublist.map _)
  unfold existingByPath
  rw [Dict.get?_ofList_eq_some hkeys]
  simp only [getByFolderPath, List.mem_map, List.mem_filter, Prod.mk.injEq]
  constructor
  · rintro ⟨other, ⟨hrow, hfolder⟩, rfl, rfl⟩
    exact ⟨hrow, hfolder, rfl⟩
  · rintro ⟨hrow, hfolder, rfl⟩
    exact ⟨row, ⟨hrow, hfolder⟩, rfl, rfl⟩

/-! ## One file -/

section

variable (hlisted : Listed disk folderPath listed)
include hlisted

/-- A listed file is never taken for the old place of another. -/
theorem Listed.not_gone {other : String} (hpath : filePath ∈ listed) (hother : other ∈ listed)
    (hne : filePath ≠ other) : ¬disk.Gone filePath other := by
  rintro (hgone | hsame)
  · rw [← pathExists_eq_false, hlisted.there filePath hpath] at hgone
    cases hgone
  · rw [hlisted.apart filePath hpath other hother hne] at hsame
    cases hsame

variable (hvisiting : Visiting disk refuses folderPath start done visit)
  (hdone : ∀ filePath ∈ done, filePath ∈ listed) (hpath : filePath ∈ listed)
  (hnew : filePath ∉ done)
include hvisiting hdone hpath hnew

/-- The row of a listed file stays until the file is visited. -/
theorem Visiting.waits (hrow : row ∈ start) (hrowPath : row.filePath = filePath) :
    row ∈ visit.1.files := by
  obtain ⟨now, hnow, -, rfl | ⟨hvisited, hsame | hadopted⟩⟩ := hvisiting.kept row hrow
  · exact hnow
  · exact absurd (hrowPath ▸ hsame ▸ hvisited) hnew
  · refine absurd (hrowPath ▸ hadopted.gone) (hlisted.not_gone hpath (hdone _ hvisited) ?_)
    exact fun hsame => hnew (hsame ▸ hvisited)

/-- The file is visited with the row it had at the start. -/
theorem Visiting.existing_eq (hpaths : Table.UniqueBy LibraryFile.filePath start) :
    visit.2.get? filePath = getByPath start filePath := by
  refine Option.ext fun row => ?_
  rw [hvisiting.existing, getByPath_eq_some hpaths]
  refine ⟨fun hrow => ⟨hrow.1, hrow.2.2.1⟩, fun ⟨hrow, hrowPath⟩ => ?_⟩
  exact ⟨hrow, hlisted.inFolder filePath hpath, hrowPath, hnew,
    hvisiting.waits hlisted hdone hpath hnew hrow hrowPath⟩

/-- What the visit does to the library. -/
theorem Visiting.visited (hpaths : Table.UniqueBy LibraryFile.filePath start) :
    FileVisited disk filePath
      (visitDiskFile disk refuses visit.1 filePath (getByPath start filePath)).1.nextId
      visit.1.files (visitDiskFile disk refuses visit.1 filePath (getByPath start filePath)).2
      (visitDiskFile disk refuses visit.1 filePath (getByPath start filePath)).1.files := by
  rw [← hvisiting.existing_eq hlisted hdone hpath hnew hpaths]
  refine visitDiskFile_visited hvisiting.ids hvisiting.paths hvisiting.fresh
    (fun hnone row hrow hrowPath => ?_) fun row hrow => ?_
  · rcases hvisiting.rows row hrow with hold | ⟨hvisited, -⟩
    · have hfound := (hvisiting.existing filePath row).mpr
        ⟨hold, hlisted.inFolder filePath hpath, hrowPath, hnew, hrow⟩
      rw [hnone] at hfound
      cases hfound
    · exact hnew (hrowPath ▸ hvisited)
  · have hfound := (hvisiting.existing filePath row).mp hrow
    exact ⟨hfound.2.2.2.2, hfound.2.2.1⟩

end

theorem get?_visitNext (visit : FolderScanContext × Dict String LibraryFile) (other : String) :
    (visitNext disk refuses visit filePath).2.get? other =
      if other = filePath ∨ (visitDiskFile disk refuses visit.1 filePath
        (visit.2.get? filePath)).2 = some other then none else visit.2.get? other := by
  unfold visitNext
  cases hmoved : (visitDiskFile disk refuses visit.1 filePath (visit.2.get? filePath)).2 with
  | none => simp [hmoved, Dict.get?_erase]
  | some oldPath =>
      simp only [hmoved, Dict.get?_erase, Option.some.injEq]
      by_cases hold : other = oldPath
      · simp [hold]
      · simp [hold, Ne.symm hold]

/-- Visiting the next file keeps what is known. -/
theorem visitNext_visiting (hlisted : Listed disk folderPath listed)
    (hpaths : Table.UniqueBy LibraryFile.filePath start)
    (hkept : ∀ row ∈ start, row.filePath ∈ listed → row.fileStatus ≠ .deleted)
    (hvisiting : Visiting disk refuses folderPath start done visit)
    (hdone : ∀ filePath ∈ done, filePath ∈ listed) (hpath : filePath ∈ listed)
    (hnew : filePath ∉ done) (hdone' : ∀ other, other ∈ done' ↔ other = filePath ∨ other ∈ done) :
    Visiting disk refuses folderPath start done' (visitNext disk refuses visit filePath) := by
  have hvisited := hvisiting.visited hlisted hdone hpath hnew hpaths
  have hexisting := hvisiting.existing_eq hlisted hdone hpath hnew hpaths
  have hout : (visitNext disk refuses visit filePath).1 =
      (visitDiskFile disk refuses visit.1 filePath (getByPath start filePath)).1 := by
    rw [← hexisting]
    rfl
  have hsettles := @visitDiskFile_settles disk refuses filePath visit.1 (getByPath start filePath)
    fun row hrow => by
      obtain ⟨hstart, hrowPath⟩ := (getByPath_eq_some hpaths).mp hrow
      exact ⟨hvisiting.waits hlisted hdone hpath hnew hstart hrowPath, hrowPath,
        hkept row hstart (hrowPath ▸ hpath)⟩
  -- No file already visited is taken over: it is on disk, and an adopted row's file is gone.
  have hstays : ∀ other ∈ done, (visitDiskFile disk refuses visit.1 filePath
      (getByPath start filePath)).2 ≠ some other := by
    intro other hother hmoved
    exact hlisted.not_gone (hdone other hother) hpath (fun hsame => hnew (hsame ▸ hother))
      (hvisited.moved other hmoved).2.2
  refine ⟨?_, ?_, ?_, fun row hrow => ?_, fun row hrow => ?_, fun other row => ?_,
    fun other hother hworks => ?_, fun other => ?_⟩
  · exact hout ▸ hvisited.ids
  · exact hout ▸ hvisited.paths
  · exact hout ▸ hvisited.fresh
  · rw [hout] at hrow
    by_cases hrowPath : row.filePath = filePath
    · rcases hvisited.here row hrow hrowPath with hold | hpresent
      · exact (hvisiting.rows row hold).imp_right fun hrow =>
          ⟨(hdone' _).mpr (.inr hrow.1), hrow.2⟩
      · exact .inr ⟨(hdone' _).mpr (.inl hrowPath), hpresent⟩
    · exact (hvisiting.rows row ((hvisited.others row hrowPath).mp hrow).1).imp_right fun hrow =>
        ⟨(hdone' _).mpr (.inr hrow.1), hrow.2⟩
  · rw [hout]
    obtain ⟨now, hnow, hkeeps, hplace⟩ := hvisiting.kept row hrow
    obtain ⟨last, hlast, hlastKeeps, hlastPlace⟩ := hvisited.kept now hnow
    refine ⟨last, hlast, hlastKeeps.trans hkeeps, ?_⟩
    rcases hplace with rfl | ⟨hthere, hfrom⟩
    · rcases hlastPlace with rfl | ⟨hlastPath, hsame | hmoved⟩
      · exact .inl rfl
      · exact .inr ⟨(hdone' _).mpr (.inl hlastPath), .inl (hlastPath.trans hsame.symm)⟩
      · -- the row was adopted: no row had the file's path, at the start either
        obtain ⟨hnone, -, hgone⟩ := hvisited.moved _ hmoved
        refine .inr ⟨(hdone' _).mpr (.inl hlastPath), .inr ⟨fun other hother hotherPath => ?_, ?_⟩⟩
        · have hotherPath := hotherPath.trans hlastPath
          exact hnone other (hvisiting.waits hlisted hdone hpath hnew hother hotherPath) hotherPath
        · rwa [hlastPath]
    · rcases hlastPlace with rfl | ⟨-, hsame | hmoved⟩
      · exact .inr ⟨(hdone' _).mpr (.inr hthere), hfrom⟩
      · exact absurd (hsame ▸ hthere) hnew
      · exact absurd hmoved (hstays _ hthere)
  · rw [get?_visitNext, hexisting, hout]
    by_cases hsame : other = filePath
    · simp [hsame, (hdone' filePath).mpr (.inl rfl)]
    by_cases hmoved : (visitDiskFile disk refuses visit.1 filePath
        (getByPath start filePath)).2 = some other
    · rw [if_pos (.inr hmoved)]
      refine iff_of_false nofun ?_
      rintro ⟨-, -, hrowPath, -, hrow⟩
      exact ((hvisited.others row (hrowPath.trans_ne hsame)).mp hrow).2 (hrowPath ▸ hmoved)
    · rw [if_neg (not_or.mpr ⟨hsame, hmoved⟩), hvisiting.existing, hdone']
      refine and_congr_right fun _ => and_congr_right fun _ => and_congr_right fun hrowPath => ?_
      rw [hvisited.others row (hrowPath.trans_ne hsame), hrowPath]
      simp [hsame, hmoved]
  · rw [hout]
    rcases (hdone' other).mp hother with rfl | hother
    · rcases hsettles with ⟨hfails, -⟩ | ⟨-, -, hsettled⟩
      · rw [hworks] at hfails
        cases hfails
      · exact hsettled
    · obtain ⟨row, hrow, hrowPath, hrest⟩ := hvisiting.settled other hother hworks
      have hne : row.filePath ≠ filePath := fun hsame => hnew (hsame ▸ hrowPath ▸ hother)
      exact ⟨row, (hvisited.others row hne).mpr ⟨hrow, hrowPath ▸ hstays other hother⟩, hrowPath,
        hrest⟩
  · rw [hout, hdone']
    rcases hsettles with ⟨hfails, hfailing⟩ | ⟨hworks, hfailing, -⟩
    · rw [hfailing, Finset.mem_insert, hvisiting.failing, or_and_right]
      refine or_congr_left ⟨fun hsame => ⟨hsame, hsame ▸ hfails⟩, And.left⟩
    · rw [hfailing, hvisiting.failing, or_and_right]
      refine (or_iff_right fun hsame => ?_).symm
      rw [hsame.1, hworks] at hsame
      cases hsame.2

/-! ## The whole listing -/

theorem Visiting.of_visitable (hstart : Visitable listed ctx) :
    Visiting disk refuses folderPath ctx.files []
      ({ ctx with result := {} }, existingByPath ctx.files folderPath) where
  ids := hstart.ids
  paths := hstart.paths
  fresh := hstart.fresh
  rows _ hrow := .inl hrow
  kept row hrow := ⟨row, hrow, .refl row, .inl rfl⟩
  existing filePath row := by
    rw [existingByPath_eq_some hstart.paths]
    exact ⟨fun ⟨hrow, hfolder, hpath⟩ => ⟨hrow, hfolder, hpath, List.not_mem_nil, hrow⟩,
      fun ⟨hrow, hfolder, hpath, _⟩ => ⟨hrow, hfolder, hpath⟩⟩
  settled _ hpath := nomatch hpath
  failing _ := by simp

theorem nodup_listed (hfiles : listAudioFiles disk = some listed) : listed.Nodup := by
  unfold listAudioFiles at hfiles
  split at hfiles
  · obtain rfl := Option.some.inj hfiles
    exact List.nodup_nil
  · obtain ⟨entries, -, rfl⟩ := Option.map_eq_some_iff.mp hfiles
    exact Dict.nodup _

theorem visits_visiting {rest : List String} (hlisted : Listed disk folderPath listed)
    (hpaths : Table.UniqueBy LibraryFile.filePath start)
    (hkept : ∀ row ∈ start, row.filePath ∈ listed → row.fileStatus ≠ .deleted)
    (hvisiting : Visiting disk refuses folderPath start done visit)
    (hsplit : done ++ rest = listed) :
    Visiting disk refuses folderPath start listed (rest.foldl (visitNext disk refuses) visit) := by
  induction rest generalizing done visit with
  | nil =>
      rw [List.append_nil] at hsplit
      exact hsplit ▸ hvisiting
  | cons filePath rest ih =>
      have hnodup := hsplit ▸ nodup_listed hlisted.files
      refine @ih (done ++ [filePath]) _ (visitNext_visiting hlisted hpaths hkept hvisiting
        (fun other hother => ?_) ?_ (fun hold => ?_) fun other => ?_) (by simpa using hsplit)
      · exact hsplit ▸ List.mem_append_left _ hother
      · exact hsplit ▸ List.mem_append_right _ List.mem_cons_self
      · exact (List.nodup_append.mp hnodup).2.2 filePath hold filePath List.mem_cons_self rfl
      · rw [List.mem_append, List.mem_singleton, or_comm]

/-! ## Marking -/

/-- The paths of the rows that are left to mark. -/
def unfound (rows : List LibraryFile) : List String :=
  (rows.filter fun row => row.fileStatus = .present).map LibraryFile.filePath

theorem foldl_markMissingFile (now : Int) (rows : List LibraryFile) (ctx : FolderScanContext) :
    rows.foldl (markMissingFile now) ctx = { ctx with
      files := (unfound rows).foldl (fun files filePath => markMissing files now filePath) ctx.files
      result := { ctx.result with
        filesMissing := ctx.result.filesMissing + (unfound rows).length } } := by
  induction rows generalizing ctx with
  | nil => rfl
  | cons row rest ih =>
      rw [List.foldl_cons, ih]
      by_cases hpresent : row.fileStatus = .present
      · have hunfound : unfound (row :: rest) = row.filePath :: unfound rest := by
          simp [unfound, hpresent]
        rw [hunfound, markMissingFile, if_pos hpresent, List.foldl_cons, List.length_cons,
          Nat.add_right_comm, Nat.add_assoc]
      · have hunfound : unfound (row :: rest) = unfound rest := by simp [unfound, hpresent]
        rw [hunfound, markMissingFile, if_neg hpresent]

theorem Visiting.mem_unfound (hvisiting : Visiting disk refuses folderPath start done visit) :
    filePath ∈ unfound visit.2.values ↔ ∃ row ∈ start, row.filePath = filePath ∧
      row.fileStatus = .present ∧ inFolder folderPath filePath = true ∧ filePath ∉ done ∧
        row ∈ visit.1.files := by
  have hentry {key : String} {row : LibraryFile} :
      (key, row) ∈ visit.2.entries ↔ visit.2.get? key = some row := Dict.get?_eq_some_iff.symm
  simp only [unfound, Dict.values, List.mem_map, List.mem_filter, Prod.exists, exists_eq_right,
    decide_eq_true_eq]
  constructor
  · rintro ⟨row, ⟨⟨key, hkey⟩, hpresent⟩, rfl⟩
    obtain ⟨hrow, hfolder, rfl, hnew, hthere⟩ := (hvisiting.existing key row).mp (hentry.mp hkey)
    exact ⟨row, hrow, rfl, hpresent, hfolder, hnew, hthere⟩
  · rintro ⟨row, hrow, rfl, hpresent, hfolder, hnew, hthere⟩
    exact ⟨row, ⟨⟨row.filePath, hentry.mpr ((hvisiting.existing _ row).mpr
      ⟨hrow, hfolder, rfl, hnew, hthere⟩)⟩, hpresent⟩, rfl⟩

theorem clearQuarantine_spec (disk : FolderDisk) (folderPath : String) (ctx : FolderScanContext) :
    (clearQuarantine disk folderPath ctx).files = ctx.files ∧
      (clearQuarantine disk folderPath ctx).nextId = ctx.nextId ∧
      ∃ quarantineCleared, (clearQuarantine disk folderPath ctx).result =
        { ctx.result with quarantineCleared } := ⟨rfl, rfl, _, rfl⟩

/-! ## What a folder visit leaves -/

/-- The listed files visited one after another. -/
def visitAll (disk : FolderDisk) (refuses : String → Option String) (folderPath : String)
    (listed : List String) (ctx : FolderScanContext) :
    FolderScanContext × Dict String LibraryFile :=
  listed.foldl (visitNext disk refuses)
    ({ ctx with result := {} }, existingByPath ctx.files folderPath)

section

variable {now : Int} (hlisted : Listed disk folderPath listed)
include hlisted

theorem scan_spec : (scanFolderIncrementally disk refuses now folderPath ctx).files =
      (visitAll disk refuses folderPath listed ctx).1.files.map (fun row =>
        if row.filePath ∈ unfound (visitAll disk refuses folderPath listed ctx).2.values then
          marked now row else row) ∧
    (scanFolderIncrementally disk refuses now folderPath ctx).nextId =
      (visitAll disk refuses folderPath listed ctx).1.nextId ∧
    ∃ quarantineCleared, (scanFolderIncrementally disk refuses now folderPath ctx).result =
      { (visitAll disk refuses folderPath listed ctx).1.result with
        filesMissing := (visitAll disk refuses folderPath listed ctx).1.result.filesMissing +
          (unfound (visitAll disk refuses folderPath listed ctx).2.values).length
        quarantineCleared } := by
  have hscan : scanFolderIncrementally disk refuses now folderPath ctx =
      clearQuarantine disk folderPath (markMissingFiles now
        (visitAll disk refuses folderPath listed ctx).2
        (visitAll disk refuses folderPath listed ctx).1) := by
    unfold scanFolderIncrementally
    rw [hlisted.files]
    rfl
  have hmarked := foldl_markMissingFile now
    (visitAll disk refuses folderPath listed ctx).2.values
    (visitAll disk refuses folderPath listed ctx).1
  obtain ⟨hfiles, hnextId, quarantineCleared, hclear⟩ := clearQuarantine_spec disk folderPath
    (markMissingFiles now (visitAll disk refuses folderPath listed ctx).2
      (visitAll disk refuses folderPath listed ctx).1)
  rw [hscan, hfiles, hnextId, hclear, markMissingFiles, hmarked]
  exact ⟨foldl_markMissing .., rfl, quarantineCleared, rfl⟩

variable (hstart : Visitable listed ctx)
include hstart

theorem visitAll_visiting : Visiting disk refuses folderPath ctx.files listed
    (visitAll disk refuses folderPath listed ctx) :=
  visits_visiting hlisted hstart.paths hstart.kept (.of_visitable hstart) (List.nil_append _)

/-- A row that is not marked is one the visits left. -/
theorem mem_scan : row ∈ (scanFolderIncrementally disk refuses now folderPath ctx).files ↔
    (row ∈ (visitAll disk refuses folderPath listed ctx).1.files ∧
      row.filePath ∉ unfound (visitAll disk refuses folderPath listed ctx).2.values) ∨
    ∃ old ∈ ctx.files, old ∈ (visitAll disk refuses folderPath listed ctx).1.files ∧
      old.fileStatus = .present ∧ inFolder folderPath old.filePath = true ∧
      old.filePath ∉ listed ∧ row = marked now old := by
  have hvisiting := @visitAll_visiting _ refuses _ _ _ hlisted hstart
  rw [(scan_spec hlisted).1, List.mem_map]
  constructor
  · rintro ⟨old, hold, rfl⟩
    split
    next hunfound =>
      obtain ⟨other, hother, hpath, hpresent, hfolder, hnew, hthere⟩ :=
        hvisiting.mem_unfound.mp hunfound
      obtain rfl := hvisiting.paths.eq hthere hold hpath
      exact .inr ⟨other, hother, hold, hpresent, hfolder, hnew, rfl⟩
    next hfound => exact .inl ⟨hold, hfound⟩
  · rintro (⟨hrow, hfound⟩ | ⟨old, hold, hthere, hpresent, hfolder, hnew, rfl⟩)
    · exact ⟨row, hrow, if_neg hfound⟩
    · exact ⟨old, hthere, if_pos (hvisiting.mem_unfound.mpr
        ⟨old, hold, rfl, hpresent, hfolder, hnew, hthere⟩)⟩

theorem unique_scan : Table.UniqueBy LibraryFile.id
      (scanFolderIncrementally disk refuses now folderPath ctx).files ∧
    Table.UniqueBy LibraryFile.filePath
      (scanFolderIncrementally disk refuses now folderPath ctx).files := by
  have hvisiting := @visitAll_visiting _ refuses _ _ _ hlisted hstart
  have hsame {Key : Type} (key : LibraryFile → Key) (hkey : ∀ row, key (marked now row) = key row) :
      (scanFolderIncrementally disk refuses now folderPath ctx).files.map key =
        (visitAll disk refuses folderPath listed ctx).1.files.map key := by
    rw [(scan_spec hlisted).1, List.map_map]
    refine List.map_congr_left fun row _ => ?_
    rw [Function.comp_apply]
    split
    · exact hkey row
    · rfl
  unfold Table.UniqueBy
  rw [hsame _ fun _ => rfl, hsame _ fun _ => rfl]
  exact ⟨hvisiting.ids, hvisiting.paths⟩

/-- A listed file that does not fail has one row, as it is on disk. -/
theorem scan_settles (hpath : filePath ∈ listed)
    (hworks : fails disk refuses (getByPath ctx.files filePath) filePath = false) :
    Settled disk (scanFolderIncrementally disk refuses now folderPath ctx).files filePath := by
  have hvisiting := @visitAll_visiting _ refuses _ _ _ hlisted hstart
  obtain ⟨row, hrow, rfl, hrest⟩ := hvisiting.settled filePath hpath hworks
  refine ⟨row, (mem_scan hlisted hstart).mpr (.inl ⟨hrow, fun hunfound => ?_⟩), rfl, hrest⟩
  obtain ⟨-, -, -, -, -, hnew, -⟩ := hvisiting.mem_unfound.mp hunfound
  exact hnew hpath

/-- Where a row ends: as it was, marked if it was present in the folder without a file, or at
the path of a listed file, its own or one that adopted it. -/
theorem scan_keeps (hrow : row ∈ ctx.files) :
    ∃ last ∈ (scanFolderIncrementally disk refuses now folderPath ctx).files, last.Keeps row ∧
      ((last = row ∧ ¬(row.fileStatus = .present ∧ inFolder folderPath row.filePath = true ∧
          row.filePath ∉ listed)) ∨
        (last = marked now row ∧ row.fileStatus = .present ∧
          inFolder folderPath row.filePath = true ∧ row.filePath ∉ listed) ∨
        last.filePath ∈ listed ∧ (last.filePath = row.filePath ∨
          Adopted disk ctx.files row last.filePath)) := by
  have hvisiting := @visitAll_visiting _ refuses _ _ _ hlisted hstart
  obtain ⟨last, hlast, hkeeps, hplace⟩ := hvisiting.kept row hrow
  rcases hplace with rfl | ⟨hthere, hplace⟩
  · by_cases hunfound : last.fileStatus = .present ∧
        inFolder folderPath last.filePath = true ∧ last.filePath ∉ listed
    · exact ⟨marked now last, (mem_scan hlisted hstart).mpr (.inr ⟨last, hrow, hlast,
        hunfound.1, hunfound.2.1, hunfound.2.2, rfl⟩), ⟨rfl, rfl, rfl⟩, .inr (.inl ⟨rfl, hunfound⟩)⟩
    · refine ⟨last, (mem_scan hlisted hstart).mpr (.inl ⟨hlast, fun hmem => hunfound ?_⟩), hkeeps,
        .inl ⟨rfl, hunfound⟩⟩
      obtain ⟨other, -, hpath, hpresent, hfolder, hnew, hother⟩ := hvisiting.mem_unfound.mp hmem
      obtain rfl := hvisiting.paths.eq hother hlast hpath
      exact ⟨hpresent, hfolder, hnew⟩
  · refine ⟨last, (mem_scan hlisted hstart).mpr (.inl ⟨hlast, fun hmem => ?_⟩), hkeeps,
      .inr (.inr ⟨hthere, hplace⟩)⟩
    obtain ⟨-, -, -, -, -, hnew, -⟩ := hvisiting.mem_unfound.mp hmem
    exact hnew hthere

theorem mem_failingPaths : filePath ∈ (scanFolderIncrementally disk refuses now folderPath
      ctx).result.failingPaths ↔ filePath ∈ listed ∧
        fails disk refuses (getByPath ctx.files filePath) filePath = true := by
  obtain ⟨-, -, quarantineCleared, hresult⟩ :=
    @scan_spec _ refuses _ _ ctx now hlisted
  rw [hresult]
  exact (visitAll_visiting hlisted hstart).failing filePath

end

end

end RetroStation.Library
