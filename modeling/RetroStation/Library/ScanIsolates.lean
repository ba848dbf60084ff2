import RetroStation.Library.ScanStores
import RetroStation.Library.SecondVisit

/-! # What a scan isolates

A scan stores what it read as if the files that the database refuses had not been on the disk,
exactly when the rows of the files that are rolled back already held what was read of them and
no other file adopts another row because a refused file is there.
-/

namespace RetroStation.Library

/-! ## The walk without the refused files -/

def WalkEntry.refused (refuses : String → Bool) : WalkEntry → Bool
  | .file read => refuses read.filePath
  | .unreadable _ => false

def refusedPaths (refuses : String → Bool) (walk : List WalkEntry) : List String :=
  (walk.filter (WalkEntry.refused refuses)).map WalkEntry.filePath

/-- The walk of the same root, had the refused files not been on the disk. -/
def unrefused (refuses : String → Bool) (walk : List WalkEntry) : List WalkEntry :=
  walk.filter (!WalkEntry.refused refuses ·)

/-- The disk without some files, by whatever name they are looked up. -/
def FolderDisk.without (disk : FolderDisk) (paths : List String) : FolderDisk :=
  let left filePath := paths.any fun other =>
    filePath = other ∨ disk.names.isSameFile filePath other = true
  { disk with
    answer := fun filePath => if left filePath then .notFound else disk.answer filePath
    names := { disk.names with
      isSameFile := fun first second =>
        !left first && !left second && disk.names.isSameFile first second } }

/-- Stored one after another, the files adopt the same rows in either scan. -/
def AdoptAlike (config other : ScanConfig) : List LibraryFile → List LibraryFile → Prop
  | _, [] => True
  | files, file :: rest => adoptUnknown config files file = adoptUnknown other files file ∧
      AdoptAlike config other (stores config files file) rest

section

variable {disk : FolderDisk} {refuses : String → Bool} {chunkSize : Nat}
  {root : String} {walk : List WalkEntry} {entry : WalkEntry} {config other : ScanConfig}
  {done files rest chunk stored : List LibraryFile} {file row : LibraryFile} {pending : Nat}

theorem mem_unrefused : entry ∈ unrefused refuses walk ↔
    entry ∈ walk ∧ entry.refused refuses = false := by
  simp [unrefused]

theorem mem_refusedPaths {filePath : String} : filePath ∈ refusedPaths refuses walk ↔
    ∃ entry ∈ walk, entry.refused refuses = true ∧ entry.filePath = filePath := by
  simp [refusedPaths, and_assoc]

/-- Without the refused files the same files are accepted. -/
theorem acceptedFiles_unrefused :
    acceptedFiles refuses (unrefused refuses walk) = acceptedFiles refuses walk := by
  rw [acceptedFiles, unrefused, List.filterMap_filter]
  refine List.filterMap_congr fun entry _ => ?_
  cases entry with
  | unreadable entry => rfl
  | file read =>
      cases hrefused : refuses read.filePath <;>
        simp [WalkEntry.refused, WalkEntry.accepted, hrefused]

theorem lostFiles_eq_nil (hnone : ∀ entry ∈ walk, entry.refused refuses = false) :
    lostFiles refuses chunkSize walk chunk pending = [] := by
  induction walk generalizing chunk pending with
  | nil => rfl
  | cons entry rest ih =>
      have hrest {chunk : List LibraryFile} {pending : Nat} :
          lostFiles refuses chunkSize rest chunk pending = [] :=
        ih fun other hother => hnone other (List.mem_cons_of_mem _ hother)
      cases entry with
      | unreadable entry =>
          unfold lostFiles
          split <;> exact hrest
      | file read =>
          have hread : refuses read.filePath = false := hnone _ List.mem_cons_self
          unfold lostFiles
          rw [if_neg (by simp [hread])]
          split <;> exact hrest

theorem nodup_unrefused (honce : (walk.map WalkEntry.filePath).Nodup) :
    ((unrefused refuses walk).map WalkEntry.filePath).Nodup :=
  honce.sublist (List.filter_sublist.map _)

/-- A path of the walk that is not refused is no name of a refused file. -/
theorem Walkable.answer_without (hwalk : Walkable disk root walk stored)
    (honce : (walk.map WalkEntry.filePath).Nodup) (hentry : entry ∈ unrefused refuses walk) :
    (disk.without (refusedPaths refuses walk)).answer entry.filePath =
      disk.answer entry.filePath := by
  obtain ⟨hmem, hread⟩ := mem_unrefused.mp hentry
  refine if_neg fun hleft => ?_
  obtain ⟨filePath, hpath, hsame⟩ := List.any_eq_true.mp hleft
  obtain ⟨gone, hgone, hrefused, rfl⟩ := mem_refusedPaths.mp hpath
  have hne : entry.filePath ≠ gone.filePath := fun heq => by
    have hentries := List.inj_on_of_nodup_map honce hmem hgone heq
    rw [hentries, hrefused] at hread
    cases hread
  have hapart := hwalk.apart entry hmem gone hgone hne
  simp [hne, hapart] at hsame

theorem Walkable.without (hwalk : Walkable disk root walk stored)
    (honce : (walk.map WalkEntry.filePath).Nodup) :
    Walkable (disk.without (refusedPaths refuses walk)) root (unrefused refuses walk) stored where
  ids := hwalk.ids
  paths := hwalk.paths
  beneath entry hentry := hwalk.beneath entry (mem_unrefused.mp hentry).1
  there entry hentry := by
    rw [pathExists, hwalk.answer_without honce hentry]
    exact hwalk.there entry (mem_unrefused.mp hentry).1
  apart first hfirst second hsecond hne := by
    have hapart := hwalk.apart first (mem_unrefused.mp hfirst).1 second
      (mem_unrefused.mp hsecond).1 hne
    simp [FolderDisk.without, hapart]
  read file hfile := hwalk.read file (mem_unrefused.mp hfile).1
  fresh first second hfirst hsecond :=
    hwalk.fresh first second (mem_unrefused.mp hfirst).1 (mem_unrefused.mp hsecond).1

/-! ## Files that are rolled back -/

/-- Writing the file again leaves its stored row as it is. -/
def StoredAsRead (stored : List LibraryFile) (file : LibraryFile) : Prop :=
  ∃ row ∈ stored, row.filePath = file.filePath ∧ upserted file row = row

/-- Every file that is rolled back was stored as it was read. -/
def LostStored (refuses : String → Bool) (chunkSize : Nat) (walk : List WalkEntry)
    (stored : List LibraryFile) : Prop :=
  ∀ file ∈ lostFiles refuses chunkSize walk [] 0, StoredAsRead stored file

theorem adoptUnknown_known (hwalk : Walkable disk root walk stored)
    (hknown : config.knownPaths = getPathStatusesUnder stored root) (hfile : .file file ∈ walk)
    (hrow : row ∈ stored) (hpath : row.filePath = file.filePath) :
    adoptUnknown config files file = (files, none) := by
  have hunder : isUnder root row.filePath = true := hpath ▸ hwalk.beneath (.file file) hfile
  have hget := get?_getPathStatusesUnder hwalk.paths hrow hunder
  rw [hpath] at hget
  unfold adoptUnknown
  rw [hknown, hget]
  simp

theorem upsert_storedAsRead (hpaths : Table.UniqueBy LibraryFile.filePath files)
    (hrow : row ∈ files)
    (hpath : row.filePath = file.filePath) (hasRead : upserted file row = row) :
    upsert files file = files := by
  have hindexed : indexed files file.filePath = true :=
    List.any_eq_true.mpr ⟨row, hrow, by simpa using hpath⟩
  rw [upsert, if_pos hindexed, Table.update]
  refine (List.map_congr_left fun old hold => ?_).trans (List.map_id _)
  split
  next hsame =>
    rw [hpaths.eq hold hrow ((of_decide_eq_true hsame).trans hpath.symm)]
    exact hasRead
  · rfl

section

variable (hwalk : Walkable config.disk root walk stored)
  (hknown : config.knownPaths = getPathStatusesUnder stored root)
include hwalk hknown

/-- A file that is stored as it was read can be left out. -/
theorem foldl_stores_filter {lost : List LibraryFile} (hcoming : Coming walk done rest)
    (hok : StoredOk walk stored [] done files)
    (hlost : ∀ file ∈ rest, file ∈ lost → StoredAsRead stored file) :
    (rest.filter (· ∉ lost)).foldl (stores config) files =
      rest.foldl (stores config) files := by
  induction rest generalizing done files with
  | nil => rfl
  | cons file rest ih =>
      have hlater := ih hcoming.next (stores_next hwalk hknown hcoming hok) fun other hother =>
        hlost other (List.mem_cons_of_mem _ hother)
      by_cases hmem : file ∈ lost
      · obtain ⟨row, hrow, hpath, hasRead⟩ := hlost file List.mem_cons_self hmem
        have hread := hcoming.read file List.mem_cons_self
        have hwaits := hok.waits row hrow ⟨.file file, hread, hpath.symm⟩ fun other hother =>
          hpath ▸ hcoming.new file List.mem_cons_self other hother
        have hstays : stores config files file = files := by
          rw [stores, adoptUnknown_known hwalk hknown hread hrow hpath]
          exact upsert_storedAsRead hok.paths hwaits hpath hasRead
        rw [hstays] at hlater
        rw [List.filter_cons_of_neg (by simpa using hmem), List.foldl_cons, hstays, hlater]
      · rw [List.filter_cons_of_pos (by simpa using hmem), List.foldl_cons, List.foldl_cons, hlater]

end

theorem coming_acceptedFiles (honce : (walk.map WalkEntry.filePath).Nodup) :
    Coming walk [] (acceptedFiles refuses walk) where
  read _ hfile := (file_of_mem_acceptedFiles hfile).1
  once := acceptedFiles_paths.nodup honce
  new _ _ _ hother := absurd hother List.not_mem_nil

theorem Walkable.start (hwalk : Walkable disk root walk stored) :
    StoredOk walk stored [] [] stored :=
  ⟨hwalk.ids, hwalk.paths, fun _ hfile => absurd hfile List.not_mem_nil,
    fun row hrow => .inl ⟨row, hrow, rfl⟩, fun _ hrow => .inl hrow,
    fun _ hfile => absurd hfile List.not_mem_nil, fun _ hrow _ _ => hrow⟩

end

/-! ## Isolation -/

/-- The library after the scan of the disk without the refused files. -/
def scanWithout (disk : FolderDisk) (refuses : String → Bool) (chunkSize : Nat) (now : Int)
    (root : String) (walk : List WalkEntry) (stored : ScanTables) : List LibraryFile :=
  runScan (disk.without (refusedPaths refuses walk)) refuses chunkSize now root
    (unrefused refuses walk) stored

/-- The scan isolates what the database refuses: every other file that was read has a present
row with what was read of it, which is not missing for a purge to delete, a row that was
relocated is at the new path, with its id and its links, and each of these rows is the one
there would be without the refused files. -/
structure Isolated (disk : FolderDisk) (refuses : String → Bool) (chunkSize : Nat) (now : Int)
    (root : String) (walk : List WalkEntry) (stored : ScanTables) : Prop where
  written : ∀ file ∈ acceptedFiles refuses walk,
    ∃ row ∈ runScan disk refuses chunkSize now root walk stored, row.filePath = file.filePath ∧
      row.fileStatus = .present ∧ Carries file row ∧
      row ∉ getMissing (runScan disk refuses chunkSize now root walk stored)
  relocated : ∀ file ∈ acceptedFiles refuses walk,
    file.filePath ∈ (walkFiles disk refuses chunkSize root walk stored).relocatedPaths →
      ∃ row ∈ runScan disk refuses chunkSize now root walk stored, row.filePath = file.filePath ∧
        row.fileStatus = .present ∧ ∃ old ∈ stored.files, row.Keeps old
  same : ∀ file ∈ acceptedFiles refuses walk,
    getByPath (runScan disk refuses chunkSize now root walk stored) file.filePath =
      getByPath (scanWithout disk refuses chunkSize now root walk stored) file.filePath

section

variable {disk : FolderDisk} {refuses : String → Bool} {chunkSize : Nat} {now : Int}
  {root : String} {walk : List WalkEntry} {stored : ScanTables} {file row : LibraryFile}
  {config other : ScanConfig} {done files rest : List LibraryFile}

/-- If what is rolled back was stored as it was read, the accepted files are stored one after
another. -/
theorem walkFiles_of_lost_stored (hwalk : Walkable disk root walk stored.files)
    (honce : (walk.map WalkEntry.filePath).Nodup)
    (hlost : LostStored refuses chunkSize walk stored.files) :
    (walkFiles disk refuses chunkSize root walk stored).current.files =
      (acceptedFiles refuses walk).foldl
        (stores (scanConfig disk refuses chunkSize root stored.files)) stored.files := by
  rw [walkFiles_files honce, keptFiles_eq_filter honce]
  refine foldl_stores_filter ?_ rfl (coming_acceptedFiles honce) hwalk.start
    fun file _ hmem => hlost file hmem
  exact hwalk

theorem walkFiles_without (hwalk : Walkable disk root walk stored.files)
    (honce : (walk.map WalkEntry.filePath).Nodup) :
    (walkFiles (disk.without (refusedPaths refuses walk)) refuses chunkSize root
        (unrefused refuses walk) stored).current.files =
      (acceptedFiles refuses walk).foldl
        (stores (scanConfig (disk.without (refusedPaths refuses walk)) refuses chunkSize root
          stored.files)) stored.files := by
  have hnone : lostFiles refuses chunkSize (unrefused refuses walk) [] 0 = [] :=
    lostFiles_eq_nil fun entry hentry => (mem_unrefused.mp hentry).2
  rw [walkFiles_of_lost_stored (hwalk.without honce) (nodup_unrefused honce),
    acceptedFiles_unrefused]
  intro file hlost
  rw [hnone] at hlost
  cases hlost

theorem getByPath_runScan (hfile : file ∈ acceptedFiles refuses walk) :
    getByPath (runScan disk refuses chunkSize now root walk stored) file.filePath =
      getByPath (walkFiles disk refuses chunkSize root walk stored).current.files file.filePath :=
  getByPath_markUnseenMissing
    (List.mem_map_of_mem (f := WalkEntry.filePath) (file_of_mem_acceptedFiles hfile).1)

theorem getByPath_scanWithout (hfile : file ∈ acceptedFiles refuses walk) :
    getByPath (scanWithout disk refuses chunkSize now root walk stored) file.filePath =
      getByPath (walkFiles (disk.without (refusedPaths refuses walk)) refuses chunkSize root
        (unrefused refuses walk) stored).current.files file.filePath :=
  getByPath_runScan (by rwa [acceptedFiles_unrefused])

/-! ### The rows are the same -/

theorem foldl_stores_alike (halike : AdoptAlike config other files rest) :
    rest.foldl (stores config) files = rest.foldl (stores other) files := by
  induction rest generalizing files with
  | nil => rfl
  | cons file rest ih =>
      obtain ⟨hadopted, hrest⟩ := halike
      have hstores : stores config files file = stores other files file := by
        rw [stores, hadopted, stores]
      rw [List.foldl_cons, List.foldl_cons, ih hrest, hstores]

/-! ### The same rows are adopted -/

/-- The row that is written for a new file tells whether it adopted one, and which. -/
theorem adoptRow_of_mem_upsert {names : Names} {answer : String → DiskAnswer}
    (hnew : ∀ old ∈ files, old.filePath ≠ file.filePath)
    (hrow : row ∈ upsert (adoptRow files names answer file).1 file)
    (hpath : row.filePath = file.filePath) :
    adoptRow files names answer file = (files, none) ∧ row.id = file.id ∨
      ∃ origin ∈ files, row.id = origin.id ∧ adoptRow files names answer file =
        (relocate files origin.id file.filePath, some origin.filePath) := by
  unfold adoptRow at hrow ⊢
  cases horigin : movedFrom files names answer file with
  | none =>
      rw [horigin] at hrow
      refine .inl ⟨rfl, ?_⟩
      rcases of_mem_upsert hrow with ⟨-, hother⟩ | ⟨-, hid | ⟨old, hold, hsame, -⟩⟩
      · exact absurd hpath hother
      · exact hid
      · exact absurd hsame (hnew old hold)
  | some origin =>
      rw [horigin] at hrow
      have hmem := movedFrom_mem horigin
      refine .inr ⟨origin, hmem, ?_, rfl⟩
      have hmoved : moved file.filePath origin ∈ relocate files origin.id file.filePath :=
        Table.mem_update.mpr (.inl ⟨origin, hmem, by simp, rfl⟩)
      have hindexed : indexed (relocate files origin.id file.filePath) file.filePath = true :=
        List.any_eq_true.mpr ⟨_, hmoved, by simp [moved]⟩
      rw [upsert, if_pos hindexed] at hrow
      rcases Table.mem_update.mp hrow with ⟨old, hold, hsame, rfl⟩ | ⟨-, hother⟩
      · rcases Table.mem_update.mp hold with ⟨before, -, hid, rfl⟩ | ⟨hold, -⟩
        · exact of_decide_eq_true hid
        · exact absurd (of_decide_eq_true hsame) (hnew old hold)
      · exact absurd hpath (by simpa using hother)

/-- Two scans that write the same row for a file adopted the same row for it. -/
theorem adoptUnknown_of_mem_stores (hids : Table.UniqueBy LibraryFile.id files)
    (hfresh : ∀ old ∈ files, old.id ≠ file.id)
    (hnew : config.knownPaths.get? file.filePath = none →
      ∀ old ∈ files, old.filePath ≠ file.filePath)
    (hknown : other.knownPaths = config.knownPaths)
    (hempty : other.libraryWasEmpty = config.libraryWasEmpty)
    (hrow : row ∈ stores config files file) (hother : row ∈ stores other files file)
    (hpath : row.filePath = file.filePath) :
    adoptUnknown config files file = adoptUnknown other files file := by
  unfold stores adoptUnknown at hrow hother
  unfold adoptUnknown
  rw [hknown, hempty] at hother ⊢
  split at hrow
  next hunknown =>
    rw [if_pos hunknown] at hother
    rw [if_pos hunknown, if_pos hunknown]
    replace hnew := hnew (Option.isNone_iff_eq_none.mp (Bool.and_eq_true_iff.mp hunknown).2)
    rcases adoptRow_of_mem_upsert hnew hrow hpath with
        ⟨hnone, hid⟩ | ⟨origin, horigin, hid, hadopted⟩ <;>
      rcases adoptRow_of_mem_upsert hnew hother hpath with
        ⟨hnone', hid'⟩ | ⟨origin', horigin', hid', hadopted'⟩
    · rw [hnone, hnone']
    · exact absurd (hid'.symm.trans hid) (hfresh origin' horigin')
    · exact absurd (hid.symm.trans hid') (hfresh origin horigin)
    · rw [hadopted, hadopted', hids.eq horigin horigin' (hid.symm.trans hid')]
  next hseen => rw [if_neg hseen, if_neg hseen]

section

variable {walk' : List WalkEntry} {stored : List LibraryFile}
  (hwalk : Walkable config.disk root walk stored)
  (hknown : config.knownPaths = getPathStatusesUnder stored root)
include hwalk hknown

/-- What a file's storing leaves at its path is there at the end. -/
theorem getByPath_foldl_stores (hcoming : Coming walk done (file :: rest))
    (hok : StoredOk walk stored [] done files) :
    ∃ row ∈ stores config files file, row.filePath = file.filePath ∧
      getByPath ((file :: rest).foldl (stores config) files) file.filePath = some row := by
  have hnext := stores_next hwalk hknown hcoming hok
  have hmem : file ∈ done ++ [file] := List.mem_append_right _ List.mem_cons_self
  obtain ⟨row, hrow, hpath, -⟩ := hnext.carried file hmem
  refine ⟨row, hrow, hpath, (getByPath_eq_some
    (foldl_stores_ok hwalk hknown hcoming.next hnext).paths).mpr ⟨?_, hpath⟩⟩
  exact mem_foldl_stores hwalk hknown hcoming.next hnext hrow
    ⟨.file file, hcoming.read file List.mem_cons_self, hpath.symm⟩
    fun other hother => hpath ▸ hcoming.next.new other hother file hmem

theorem adoptAlike_of_same (hwalk' : Walkable other.disk root walk' stored)
    (hsameKnown : other.knownPaths = config.knownPaths)
    (hempty : other.libraryWasEmpty = config.libraryWasEmpty)
    (hcoming : Coming walk done rest) (hcoming' : Coming walk' done rest)
    (hok : StoredOk walk stored [] done files) (hok' : StoredOk walk' stored [] done files)
    (hsame : ∀ file ∈ rest, getByPath (rest.foldl (stores config) files) file.filePath =
      getByPath (rest.foldl (stores other) files) file.filePath) :
    AdoptAlike config other files rest := by
  induction rest generalizing done files with
  | nil => trivial
  | cons file rest ih =>
      have hknown' := hsameKnown.trans hknown
      have hread := hcoming.read file List.mem_cons_self
      obtain ⟨row, hrow, hpath, hget⟩ := getByPath_foldl_stores hwalk hknown hcoming hok
      obtain ⟨row', hrow', -, hget'⟩ := getByPath_foldl_stores hwalk' hknown' hcoming' hok'
      obtain rfl : row = row' := Option.some.inj
        (hget.symm.trans ((hsame file List.mem_cons_self).trans hget'))
      have hadopted := adoptUnknown_of_mem_stores hok.ids (fun old hold =>
        id_ne hwalk hread (hcoming.new file List.mem_cons_self) hok hold)
          (fun hunknown old hold hold' => ?_)
        hsameKnown hempty hrow hrow' hpath
      · have hstores : stores other files file = stores config files file := by
          rw [stores, ← hadopted, stores]
        refine ⟨hadopted, ih hcoming.next hcoming'.next (stores_next hwalk hknown hcoming hok)
          (hstores ▸ stores_next hwalk' hknown' hcoming' hok') fun later hlater => ?_⟩
        have hlast := hsame later (List.mem_cons_of_mem _ hlater)
        rwa [List.foldl_cons, List.foldl_cons, hstores] at hlast
      · rcases hok.rows old hold with hstored | ⟨before, hbefore, hsamePath⟩
        · have hunder : isUnder root old.filePath = true :=
            hold' ▸ hwalk.beneath (.file file) hread
          have hgot := get?_getPathStatusesUnder hwalk.paths hstored hunder
          rw [hold', ← hknown, hunknown] at hgot
          cases hgot
        · exact hcoming.new file List.mem_cons_self before hbefore (hsamePath.symm.trans hold')

end

theorem carries_upserted : Carries file (upserted file row) :=
  ⟨rfl, rfl, rfl, fun hhash => if_pos hhash, .inr ⟨row.audio, rfl⟩⟩

section

variable (honce : (walk.map WalkEntry.filePath).Nodup)
include honce

/-- A walk writes no row at the path of a file that it loses. -/
theorem lost_row_stored {row : LibraryFile} (hlost : file ∈ lostFiles refuses chunkSize walk [] 0)
    (hrow : row ∈ (walkFiles disk refuses chunkSize root walk stored).current.files)
    (hpath : row.filePath = file.filePath) : row ∈ stored.files := by
  have hrun := @walkFiles_run disk refuses chunkSize _ root walk honce stored
    (fun _ done files => ∀ row ∈ files, row ∈ stored.files ∨
      ∃ other ∈ done, row.filePath = other.filePath) rfl
    (fun _ _ _ _ _ hrows => hrows) (fun _ done files new _ _ _ _ hrows row hrow => by
      rcases mem_stores hrow with hold | hnew
      · exact (hrows row hold).imp_right fun ⟨other, hother, hsame⟩ =>
          ⟨other, List.mem_append_left _ hother, hsame⟩
      · exact .inr ⟨new, List.mem_append_right _ List.mem_cons_self, hnew⟩)
    fun _ hrow => .inl hrow
  rcases hrun row hrow with hold | ⟨other, hkept, hsame⟩
  · exact hold
  · exact absurd (hsame.symm.trans hpath) (lost_apart honce hlost hkept)

/-- The files that are kept are stored, and the rows of the others are as they were. -/
theorem walkFiles_ok (hwalk : Walkable disk root walk stored.files) :
    StoredOk walk stored.files (walkFiles disk refuses chunkSize root walk stored).relocatedPaths
      (keptFiles refuses chunkSize walk [] 0)
      (walkFiles disk refuses chunkSize root walk stored).current.files := by
  refine @walkFiles_run disk refuses chunkSize _ root walk honce stored
    (StoredOk walk stored.files) rfl (fun relocated done files filePath hnew hok => ?_)
    (fun relocated done files file hfile _ hrelocated hnew hok =>
      stores_ok hwalk rfl hfile hnew hok hrelocated) ?_
  · refine { hok with carried := fun file hfile => ?_ }
    obtain ⟨row, hrow, hpath, hpresent, hcarries, hmoved⟩ := hok.carried file hfile
    refine ⟨row, hrow, hpath, hpresent, hcarries, fun hmem => hmoved ?_⟩
    exact (List.mem_append.mp hmem).resolve_right fun hsame =>
      hnew file hfile (List.mem_singleton.mp hsame)
  · exact ⟨hwalk.ids, hwalk.paths, fun _ hfile => absurd hfile List.not_mem_nil,
      fun row hrow => .inl ⟨row, hrow, rfl⟩, fun row hrow => .inl hrow,
      fun _ hfile => absurd hfile List.not_mem_nil, fun row hrow _ _ => hrow⟩

theorem rows_of_lost_stored (hwalk : Walkable disk root walk stored.files)
    (hlost : LostStored refuses chunkSize walk stored.files)
    (hfile : file ∈ acceptedFiles refuses walk) :
    ∃ row ∈ runScan disk refuses chunkSize now root walk stored, row.filePath = file.filePath ∧
      row.fileStatus = .present ∧ Carries file row ∧
      (file.filePath ∈ (walkFiles disk refuses chunkSize root walk stored).relocatedPaths →
        ∃ old ∈ stored.files, row.Keeps old) := by
  have hok := @walkFiles_ok disk refuses chunkSize root walk stored honce hwalk
  have hread := (file_of_mem_acceptedFiles hfile).1
  have hstays : ∀ row ∈ (walkFiles disk refuses chunkSize root walk stored).current.files,
      row.filePath = file.filePath → row ∈ runScan disk refuses chunkSize now root walk stored :=
    fun row hrow hpath => mem_markUnseenMissing hrow
      (hpath ▸ List.mem_map_of_mem (f := WalkEntry.filePath) hread)
  rcases List.mem_append.mp
    ((@kept_lost_perm refuses chunkSize walk [] 0).mem_iff.mp hfile) with hkept | hgone
  · obtain ⟨row, hrow, hpath, hstatus, hcarries, hmoved⟩ := hok.carried file hkept
    exact ⟨row, hstays row hrow hpath, hpath, hstatus, hcarries, hmoved⟩
  · obtain ⟨row, hrow, hpath, hasRead⟩ := hlost file hgone
    have hwaits := hok.waits row hrow ⟨.file file, hread, hpath.symm⟩
      fun other hkept => hpath ▸ lost_apart honce hgone hkept
    refine ⟨row, hstays row hwaits hpath, hpath, ?_, ?_, fun _ => ⟨row, hrow, .refl row⟩⟩
    · rw [← hasRead]
      rfl
    · rw [← hasRead]
      exact carries_upserted

theorem isolated_of_alike (hwalk : Walkable disk root walk stored.files)
    (hlost : LostStored refuses chunkSize walk stored.files)
    (halike : AdoptAlike (scanConfig disk refuses chunkSize root stored.files)
      (scanConfig (disk.without (refusedPaths refuses walk)) refuses chunkSize root stored.files)
      stored.files (acceptedFiles refuses walk)) :
    Isolated disk refuses chunkSize now root walk stored where
  written file hfile := by
    obtain ⟨row, hrow, hpath, hstatus, hcarries, -⟩ := rows_of_lost_stored honce hwalk hlost hfile
    refine ⟨row, hrow, hpath, hstatus, hcarries, fun hmissing => ?_⟩
    rw [(mem_getMissing.mp hmissing).2] at hstatus
    cases hstatus
  relocated file hfile hmoved := by
    obtain ⟨row, hrow, hpath, hstatus, -, hkeeps⟩ := rows_of_lost_stored honce hwalk hlost hfile
    exact ⟨row, hrow, hpath, hstatus, hkeeps hmoved⟩
  same file hfile := by
    rw [getByPath_runScan hfile, getByPath_scanWithout hfile,
      walkFiles_of_lost_stored hwalk honce hlost, walkFiles_without hwalk honce,
      foldl_stores_alike halike]

/-- What is rolled back was stored as it was read, if the row that stays is the one that would
be written. -/
theorem lost_stored_of_isolated (hwalk : Walkable disk root walk stored.files)
    (hisolated : Isolated disk refuses chunkSize now root walk stored) :
    LostStored refuses chunkSize walk stored.files := by
  intro file hlost
  have haccepted : file ∈ acceptedFiles refuses walk :=
    (@kept_lost_perm refuses chunkSize walk [] 0).mem_iff.mpr (List.mem_append_right _ hlost)
  have hsame := hisolated.same file haccepted
  rw [getByPath_runScan haccepted, getByPath_scanWithout haccepted,
    walkFiles_without hwalk honce] at hsame
  obtain ⟨before, after, hsplit⟩ := List.append_of_mem haccepted
  have hwithout := @Walkable.without disk refuses root walk stored.files hwalk honce
  have hall := @coming_acceptedFiles refuses (unrefused refuses walk) (nodup_unrefused honce)
  rw [acceptedFiles_unrefused, hsplit] at hall
  rw [hsplit, List.foldl_append] at hsame
  generalize hother : scanConfig (disk.without (refusedPaths refuses walk)) refuses chunkSize root
    stored.files = other at hsame
  have hplace : Walkable other.disk root (unrefused refuses walk) stored.files :=
    hother ▸ hwithout
  have hknown : other.knownPaths = getPathStatusesUnder stored.files root := hother ▸ rfl
  have hok := foldl_stores_ok hplace hknown hall.front hplace.start
  rw [List.nil_append] at hok
  -- the row there would be without the refused files is the one that was stored
  obtain ⟨row, hrow, hpath, hget⟩ := getByPath_foldl_stores hplace hknown hall.back hok
  rw [hget] at hsame
  have hstored := lost_row_stored honce hlost (List.mem_of_find?_eq_some hsame) hpath
  have hread := hall.back.read file List.mem_cons_self
  have hwaits := hok.waits row hstored ⟨.file file, hread, hpath.symm⟩ fun earlier hearlier =>
    hpath ▸ hall.back.new file List.mem_cons_self earlier hearlier
  have hnext := stores_next hplace hknown hall.back hok
  have hwritten : upserted file row ∈
    stores other (before.foldl (stores other) stored.files) file := by
    rw [stores, adoptUnknown_known hplace hknown hread hstored hpath]
    exact upserted_mem_upsert hwaits hpath
  exact ⟨row, hstored, hpath, hnext.paths.eq hwritten hrow rfl⟩

end

end

/-- A file that was moved within the root, walked before one that the database refuses. -/
def movedBeforeRefused : List WalkEntry :=
  [.file (flacRow 2 "/m/new.flac"), .file (flacRow 3 "/m/null.flac")]

/-- A file that the database refuses, walked before one that has its audio. -/
def refusedBeforeMoved : List WalkEntry :=
  [.file (flacRow 2 "/m/a.flac"), .file (flacRow 3 "/m/b.flac")]

/-- A file that is stored as it is read, one that the database refuses, and one that was moved. -/
def filesAroundRefused : List LibraryFile :=
  [flacRow 12 "/m/kept.flac", flacRow 13 "/m/null.flac", flacRow 14 "/m/new.flac"]

def refusedBetween : List WalkEntry := filesAroundRefused.map .file

theorem mem_filesAroundRefused {file : LibraryFile} (hfile : .file file ∈ refusedBetween) :
    file ∈ filesAroundRefused := by
  simpa [refusedBetween] using hfile

def refusedBetweenRows : List LibraryFile :=
  [flacRow 1 "/m/old.flac", flacRow 2 "/m/kept.flac",
    { flacRow 3 "/m/null.flac" with audioHash := some "flac-md5:2", fileSize := some 2 }]

end RetroStation.Library
