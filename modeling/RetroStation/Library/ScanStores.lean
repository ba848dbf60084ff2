import Mathlib.Data.Finset.Range
import RetroStation.Library.FullScan

/-! # What a scan stores

Whatever is refused, the files of a walk that are kept have a row each, with what was read of
them, and a row is where it was or at the path of such a file.
-/

namespace RetroStation.Library

/-- The walk of a root: its files are beneath the root and on the disk, no two are one file,
and each was read with no links and an id of its own. -/
structure Walkable (disk : FolderDisk) (root : String) (walk : List WalkEntry)
    (stored : List LibraryFile) : Prop where
  ids : Table.UniqueBy LibraryFile.id stored
  paths : Table.UniqueBy LibraryFile.filePath stored
  beneath : ∀ entry ∈ walk, isUnder root entry.filePath = true
  there : ∀ entry ∈ walk, pathExists disk.answer entry.filePath = true
  apart : ∀ first ∈ walk, ∀ second ∈ walk, first.filePath ≠ second.filePath →
    disk.names.isSameFile first.filePath second.filePath = false
  read : ∀ file : LibraryFile, .file file ∈ walk →
    file.workId = none ∧ file.recordingId = none ∧ ∀ row ∈ stored, row.id ≠ file.id
  fresh : ∀ first second : LibraryFile, .file first ∈ walk → .file second ∈ walk →
    first.filePath ≠ second.filePath → first.id ≠ second.id

/-- What holds of the library once the files of `done` are stored. -/
structure StoredOk (walk : List WalkEntry) (stored : List LibraryFile) (relocated : List String)
    (done files : List LibraryFile) : Prop where
  ids : Table.UniqueBy LibraryFile.id files
  paths : Table.UniqueBy LibraryFile.filePath files
  read : ∀ file ∈ done, .file file ∈ walk
  fresh : ∀ row ∈ files, (∃ old ∈ stored, old.id = row.id) ∨ ∃ file ∈ done, file.id = row.id
  rows : ∀ row ∈ files, row ∈ stored ∨ ∃ file ∈ done, row.filePath = file.filePath
  carried : ∀ file ∈ done, ∃ row ∈ files, row.filePath = file.filePath ∧
    row.fileStatus = .present ∧ Carries file row ∧
      (file.filePath ∈ relocated → ∃ old ∈ stored, row.Keeps old)
  waits : ∀ row ∈ stored, (∃ entry ∈ walk, entry.filePath = row.filePath) →
    (∀ file ∈ done, file.filePath ≠ row.filePath) → row ∈ files

section

variable {disk : FolderDisk} {refuses : String → Bool} {chunkSize : Nat} {config : ScanConfig}
  {root : String} {walk : List WalkEntry} {relocated : List String}
  {done files stored : List LibraryFile} {file row : LibraryFile}

theorem carries_of_mem_upsert (hrow : row ∈ upsert files file)
    (hpath : row.filePath = file.filePath) : Carries file row := by
  unfold upsert at hrow
  split at hrow
  · rcases Table.mem_update.mp hrow with ⟨old, -, -, rfl⟩ | ⟨-, hother⟩
    · exact ⟨rfl, rfl, rfl, fun hhash => if_pos hhash, .inr ⟨old.audio, rfl⟩⟩
    · exact absurd hpath (by simpa using hother)
  next hnew =>
    rcases List.mem_append.mp hrow with hrow | hrow
    · exact absurd (List.any_eq_true.mpr ⟨row, hrow, by simpa using hpath⟩) hnew
    · obtain rfl := List.mem_singleton.mp hrow
      exact ⟨rfl, rfl, rfl, fun _ => rfl, .inl rfl⟩

theorem ids_adoptRow {names : Names} {answer : String → DiskAnswer} :
    (adoptRow files names answer file).1.map LibraryFile.id = files.map LibraryFile.id := by
  unfold adoptRow
  split
  · rfl
  · exact Table.map_update_key fun _ => rfl

theorem adoptRow_origin {names : Names} {answer : String → DiskAnswer} {oldPath : String}
    (hmoved : (adoptRow files names answer file).2 = some oldPath) :
    ∃ origin ∈ files, origin.filePath = oldPath := by
  unfold adoptRow at hmoved
  split at hmoved
  · cases hmoved
  next origin horigin => exact ⟨origin, movedFrom_mem horigin, Option.some.inj hmoved⟩

theorem get?_getPathStatusesUnder (hpaths : Table.UniqueBy LibraryFile.filePath files)
    (hrow : row ∈ files) (hunder : isUnder root row.filePath = true) :
    (getPathStatusesUnder files root).get? row.filePath = some row.fileStatus := by
  have hkeys : (((files.filter fun row => isUnder root row.filePath).map fun row =>
      (row.filePath, row.fileStatus)).map Prod.fst).Nodup := by
    rw [List.map_map]
    exact hpaths.sublist (List.filter_sublist.map _)
  exact (Dict.get?_ofList_eq_some hkeys).mpr
    (List.mem_map.mpr ⟨row, List.mem_filter.mpr ⟨hrow, hunder⟩, rfl⟩)

theorem adoptUnknown_origin {oldPath : String}
    (hmoved : (adoptUnknown config files file).2 = some oldPath) :
    ∃ origin ∈ files, origin.filePath = oldPath := by
  unfold adoptUnknown at hmoved
  split at hmoved
  · exact adoptRow_origin hmoved
  · cases hmoved

section

variable (hwalk : Walkable config.disk root walk stored)
  (hknown : config.knownPaths = getPathStatusesUnder stored root) (hfile : .file file ∈ walk)
  (hnew : ∀ other ∈ done, other.filePath ≠ file.filePath)
  (hok : StoredOk walk stored relocated done files)
include hwalk hfile hnew hok

include hknown in
/-- Only a file that no row has the path of is taken for one that was moved. -/
theorem adoptUnknown_visited {nextId : Uuid} (hfresh : ∀ row ∈ files, row.id < nextId) :
    FileVisited config.disk file.filePath nextId files (adoptUnknown config files file).2
      (adoptUnknown config files file).1 := by
  unfold adoptUnknown
  split
  next hunknown =>
    rw [Bool.and_eq_true, Option.isNone_iff_eq_none, hknown] at hunknown
    refine adoptRow_visited hok.ids hok.paths hfresh fun row hrow hpath => ?_
    rcases hok.rows row hrow with hold | ⟨other, hother, hsame⟩
    · have hunder : isUnder root row.filePath = true := by
        rw [hpath]
        exact hwalk.beneath (.file file) hfile
      have hget := get?_getPathStatusesUnder hwalk.paths hold hunder
      rw [hpath, hunknown.2] at hget
      cases hget
    · exact hnew other hother (hsame.symm.trans hpath)
  · exact .refl hok.ids hok.paths hfresh

/-- The file's id is in no row yet. -/
theorem id_ne (hrow : row ∈ files) : row.id ≠ file.id := by
  rcases hok.fresh row hrow with ⟨old, hold, hid⟩ | ⟨other, hother, hid⟩
  · rw [← hid]
    exact (hwalk.read file hfile).2.2 old hold
  · rw [← hid]
    exact hwalk.fresh other file (hok.read other hother) hfile (hnew other hother)

omit hwalk hfile hnew hok in
theorem ids_adoptUnknown :
    (adoptUnknown config files file).1.map LibraryFile.id = files.map LibraryFile.id := by
  unfold adoptUnknown
  split
  · exact ids_adoptRow
  · rfl

include hknown in
theorem stores_visited : ∃ nextId, FileVisited config.disk file.filePath nextId files
    (adoptUnknown config files file).2 (stores config files file) := by
  obtain ⟨nextId, hbelow⟩ := Finset.exists_nat_subset_range
    (file.id :: files.map LibraryFile.id).toFinset
  have hbound : ∀ id ∈ file.id :: files.map LibraryFile.id, id < nextId := fun id hid =>
    Finset.mem_range.mp (hbelow (List.mem_toFinset.mpr hid))
  have hadopted := adoptUnknown_visited hwalk hknown hfile hnew hok fun row hrow =>
    hbound row.id (List.mem_cons_of_mem _ (List.mem_map_of_mem hrow))
  obtain ⟨hwork, hrecording, -⟩ := hwalk.read file hfile
  refine ⟨_, hadopted.trans (upsert_visited hadopted.ids hadopted.paths hadopted.fresh
    (hbound file.id List.mem_cons_self) (fun row hrow _ hid => ?_) fun row _ _ => ⟨rfl, ?_, ?_⟩)⟩
  · have hmem : row.id ∈ files.map LibraryFile.id :=
      ids_adoptUnknown ▸ List.mem_map_of_mem hrow
    obtain ⟨old, hold, hsame⟩ := List.mem_map.mp hmem
    exact id_ne hwalk hfile hnew hok hold (hsame.trans hid)
  · simp [upserted, hwork]
  · simp [upserted, hrecording]

include hknown in
/-- Another file of the walk is on the disk, so its row is not adopted. -/
theorem adoptUnknown_ne_seen {entry : WalkEntry} (hentry : entry ∈ walk)
    (hne : entry.filePath ≠ file.filePath) :
    (adoptUnknown config files file).2 ≠ some entry.filePath := by
  obtain ⟨nextId, hvisited⟩ := stores_visited hwalk hknown hfile hnew hok
  intro hmoved
  rcases (hvisited.moved _ hmoved).2.2 with hgone | hsame
  · rw [← pathExists_eq_false, hwalk.there entry hentry] at hgone
    cases hgone
  · have hapart := hwalk.apart entry hentry (.file file) hfile hne
    exact Bool.false_ne_true (hapart.symm.trans hsame)

include hknown in
/-- The row of another file of the walk stays as it is. -/
theorem mem_stores_of_seen (hrow : row ∈ files)
    (hseen : ∃ entry ∈ walk, entry.filePath = row.filePath)
    (hne : row.filePath ≠ file.filePath) : row ∈ stores config files file := by
  obtain ⟨nextId, hvisited⟩ := stores_visited hwalk hknown hfile hnew hok
  obtain ⟨entry, hentry, hpath⟩ := hseen
  refine (hvisited.others row hne).mpr ⟨hrow, ?_⟩
  rw [← hpath] at hne ⊢
  exact adoptUnknown_ne_seen hwalk hknown hfile hnew hok hentry hne

include hknown in
/-- Storing one more file keeps what holds of the library. -/
theorem stores_ok (hnotRelocated : file.filePath ∉ relocated) :
    StoredOk walk stored (relocates config files relocated file) (done ++ [file])
      (stores config files file) := by
  obtain ⟨nextId, hvisited⟩ := stores_visited hwalk hknown hfile hnew hok
  have hadopted : (adoptUnknown config files file).1.map LibraryFile.id =
      files.map LibraryFile.id := ids_adoptUnknown
  refine ⟨hvisited.ids, hvisited.paths, fun other hother => ?_, fun row hrow => ?_,
    fun row hrow => ?_, fun other hother => ?_, fun row hrow hentry hnotDone => ?_⟩
  · rcases List.mem_append.mp hother with hother | hother
    · exact hok.read other hother
    · exact List.mem_singleton.mp hother ▸ hfile
  · have hids : ∀ old ∈ (adoptUnknown config files file).1,
      (∃ before ∈ stored, before.id = old.id) ∨
        ∃ other ∈ done ++ [file], other.id = old.id := by
      intro old hold
      have hmem : old.id ∈ files.map LibraryFile.id := hadopted ▸ List.mem_map_of_mem hold
      obtain ⟨before, hbefore, hid⟩ := List.mem_map.mp hmem
      rw [← hid]
      exact (hok.fresh before hbefore).imp_right fun ⟨other, hother, hsame⟩ =>
        ⟨other, List.mem_append_left _ hother, hsame⟩
    rcases of_mem_upsert hrow with ⟨hold, -⟩ | ⟨-, hid | ⟨old, hold, -, rfl⟩⟩
    · exact hids row hold
    · exact .inr ⟨file, List.mem_append_right _ List.mem_cons_self, hid.symm⟩
    · exact hids old hold
  · by_cases hpath : row.filePath = file.filePath
    · exact .inr ⟨file, List.mem_append_right _ List.mem_cons_self, hpath⟩
    · exact (hok.rows row ((hvisited.others row hpath).mp hrow).1).imp_right
        fun ⟨other, hother, hsame⟩ => ⟨other, List.mem_append_left _ hother, hsame⟩
  -- A file already stored keeps its row: the new one takes over no row of the walk.
  · rcases List.mem_append.mp hother with hother | hother
    · obtain ⟨row, hrow, hpath, hpresent, hcarries, hmoved⟩ := hok.carried other hother
      have hne := hpath.trans_ne (hnew other hother)
      have hstays := mem_stores_of_seen hwalk hknown hfile hnew hok hrow
        ⟨.file other, hok.read other hother, hpath.symm⟩ hne
      refine ⟨row, hstays, hpath, hpresent, hcarries, fun hmem => hmoved ?_⟩
      unfold relocates at hmem
      split at hmem
      · exact (List.mem_append.mp hmem).resolve_right fun hsame =>
          hnew other hother (List.mem_singleton.mp hsame)
      · exact hmem
    · obtain rfl := List.mem_singleton.mp hother
      obtain ⟨row, hrow, hpath⟩ := @exists_mem_upsert (adoptUnknown config files other).1 other
      refine ⟨row, hrow, hpath, (stored_of_mem_upsert hrow hpath).1,
        carries_of_mem_upsert hrow hpath, fun hmem => ?_⟩
      obtain ⟨oldPath, hmoved⟩ : ∃ oldPath, (adoptUnknown config files other).2 = some oldPath := by
        unfold relocates at hmem
        split at hmem
        next hsome => exact Option.isSome_iff_exists.mp hsome
        · exact absurd hmem hnotRelocated
      obtain ⟨origin, horigin, rfl⟩ := adoptUnknown_origin hmoved
      obtain ⟨now, hnow, hkeeps, hplace⟩ := hvisited.kept origin horigin
      -- the row it was moved from is the one that is now at its path
      have hnowPath : now.filePath = other.filePath := by
        rcases hplace with rfl | ⟨hthere, -⟩
        · exact absurd hmoved ((hvisited.others now (hvisited.moved _ hmoved).2.1).mp hnow).2
        · exact hthere
      rw [hvisited.paths.eq hrow hnow (hpath.trans hnowPath.symm)]
      rcases hok.rows origin horigin with hold | ⟨done, hdone, hsame⟩
      · exact ⟨origin, hold, hkeeps⟩
      · rw [hsame] at hmoved
        exact absurd hmoved (adoptUnknown_ne_seen hwalk hknown hfile hnew hok
          (hok.read done hdone) (hnew done hdone))
  · have hwaits := hok.waits row hrow hentry fun other hother =>
      hnotDone other (List.mem_append_left _ hother)
    exact mem_stores_of_seen hwalk hknown hfile hnew hok hwaits hentry
      (hnotDone file (by simp)).symm

end

/-! ## The whole walk -/

theorem acceptedFiles_paths : ((acceptedFiles refuses walk).map LibraryFile.filePath).Sublist
    (walk.map WalkEntry.filePath) := by
  induction walk with
  | nil => exact List.Sublist.slnil
  | cons entry rest ih =>
      cases entry with
      | unreadable entry => exact ih.cons _
      | file read =>
          by_cases hrefused : refuses read.filePath = true
          · have hsame : acceptedFiles refuses (.file read :: rest) =
              acceptedFiles refuses rest := by
              simp [acceptedFiles, WalkEntry.accepted, hrefused]
            rw [hsame]
            exact ih.cons _
          · have hmore : acceptedFiles refuses (.file read :: rest) =
                read :: acceptedFiles refuses rest := by
              simp [acceptedFiles, WalkEntry.accepted, hrefused]
            rw [hmore]
            exact ih.cons_cons _

theorem file_of_mem_acceptedFiles (hfile : file ∈ acceptedFiles refuses walk) :
    .file file ∈ walk ∧ refuses file.filePath = false := by
  obtain ⟨entry, hentry, haccepted⟩ := List.mem_filterMap.mp hfile
  cases entry with
  | unreadable entry => cases haccepted
  | file read =>
      simp only [WalkEntry.accepted] at haccepted
      split at haccepted
      · cases haccepted
      next hnot =>
        obtain rfl := Option.some.inj haccepted
        exact ⟨hentry, by simpa using hnot⟩

theorem keptFiles_sublist {chunk : List LibraryFile} {pending : Nat} :
    (keptFiles refuses chunkSize walk chunk pending).Sublist
      (chunk ++ acceptedFiles refuses walk) := by
  induction walk generalizing chunk pending with
  | nil => simp [acceptedFiles, keptFiles]
  | cons entry rest ih =>
      cases entry with
      | unreadable entry =>
          have hsame : acceptedFiles refuses (.unreadable entry :: rest) =
              acceptedFiles refuses rest := rfl
          unfold keptFiles
          rw [hsame]
          split
          · exact (@ih [] 0).append_left chunk
          · exact ih
      | file read =>
          unfold keptFiles
          by_cases hrefused : refuses read.filePath = true
          · have hsame : acceptedFiles refuses (.file read :: rest) =
              acceptedFiles refuses rest := by
              simp [acceptedFiles, WalkEntry.accepted, hrefused]
            rw [if_pos hrefused, hsame]
            exact (@ih [] 1).trans (List.sublist_append_right chunk _)
          · have hmore : acceptedFiles refuses (.file read :: rest) =
                read :: acceptedFiles refuses rest := by
              simp [acceptedFiles, WalkEntry.accepted, hrefused]
            rw [if_neg hrefused, hmore]
            split
            · exact ((@ih [] 0).cons_cons read).append_left chunk
            · have hchunk := @ih (chunk ++ [read]) (pending + 1)
              rwa [List.append_assoc] at hchunk

theorem mem_stores (hrow : row ∈ stores config files file) :
    row ∈ files ∨ row.filePath = file.filePath := by
  rcases of_mem_upsert hrow with ⟨hadopted, -⟩ | ⟨hpath, -⟩
  · unfold adoptUnknown at hadopted
    split at hadopted
    · unfold adoptRow at hadopted
      split at hadopted
      · exact .inl hadopted
      · rcases Table.mem_update.mp hadopted with ⟨old, -, -, rfl⟩ | ⟨hold, -⟩
        · exact .inr rfl
        · exact .inl hold
    · exact .inl hadopted
  · exact .inr hpath

section

variable (honce : (walk.map WalkEntry.filePath).Nodup)
include honce

/-- A lost file shares its path with no file that was kept. -/
theorem lost_apart {other : LibraryFile} (hlost : file ∈ lostFiles refuses chunkSize walk [] 0)
    (hkept : other ∈ keptFiles refuses chunkSize walk [] 0) : other.filePath ≠ file.filePath := by
  have hpaths : ((keptFiles refuses chunkSize walk [] 0 ++
      lostFiles refuses chunkSize walk [] 0).map LibraryFile.filePath).Nodup :=
    ((@kept_lost_perm refuses chunkSize walk [] 0).map _).nodup_iff.mp
      (acceptedFiles_paths.nodup honce)
  rw [List.map_append, List.nodup_append] at hpaths
  exact hpaths.2.2 _ (List.mem_map_of_mem hkept) _ (List.mem_map_of_mem hlost)

/-- What is kept is what was accepted and not lost, in the same order. -/
theorem keptFiles_eq_filter : keptFiles refuses chunkSize walk [] 0 =
    (acceptedFiles refuses walk).filter (· ∉ lostFiles refuses chunkSize walk [] 0) := by
  have hsublist := (@keptFiles_sublist refuses chunkSize walk [] 0).filter
    (· ∉ lostFiles refuses chunkSize walk [] 0)
  have hkept : (keptFiles refuses chunkSize walk [] 0).filter
      (· ∉ lostFiles refuses chunkSize walk [] 0) = keptFiles refuses chunkSize walk [] 0 :=
    List.filter_eq_self.mpr fun file hkept => decide_eq_true fun hlost =>
      lost_apart honce hlost hkept rfl
  have hlost : (lostFiles refuses chunkSize walk [] 0).filter
      (· ∉ lostFiles refuses chunkSize walk [] 0) = [] :=
    List.filter_eq_nil_iff.mpr fun file hlost => by simpa using hlost
  have hperm := (@kept_lost_perm refuses chunkSize walk [] 0).filter
    (· ∉ lostFiles refuses chunkSize walk [] 0)
  rw [List.nil_append, List.filter_append, hkept, hlost, List.append_nil] at hperm
  rw [hkept, List.nil_append] at hsublist
  exact hsublist.eq_of_length hperm.length_eq.symm

variable {stored : ScanTables}

theorem walkFiles_run {P : List String → List LibraryFile → List LibraryFile → Prop}
    (hconfig : config = scanConfig disk refuses chunkSize root stored.files)
    (hrelocates : ∀ relocated done files filePath, (∀ file ∈ done, file.filePath ≠ filePath) →
      P relocated done files → P (relocated ++ [filePath]) done files)
    (hstores : ∀ relocated done files file, .file file ∈ walk →
      config.refuses file.filePath = false → file.filePath ∉ relocated →
      (∀ other ∈ done, other.filePath ≠ file.filePath) → P relocated done files →
        P (relocates config files relocated file) (done ++ [file]) (stores config files file))
    (hstart : P [] [] stored.files) :
    P (walkFiles disk refuses chunkSize root walk stored).relocatedPaths
      (keptFiles refuses chunkSize walk [] 0)
      (walkFiles disk refuses chunkSize root walk stored).current.files := by
  have hrun := @walk_run config walk walk [] [] { committed := stored, current := stored } P
    hrelocates hstores (List.Subset.refl _) honce (fun _ hpath => nomatch hpath) hstart hstart
  subst hconfig
  unfold walkFiles
  dsimp only
  split
  · exact hrun
  · exact hrun

end

/-- Nothing but the kept files is stored, one after another. -/
theorem walkFiles_files {stored : ScanTables} (honce : (walk.map WalkEntry.filePath).Nodup) :
    (walkFiles disk refuses chunkSize root walk stored).current.files =
      (keptFiles refuses chunkSize walk [] 0).foldl
        (stores (scanConfig disk refuses chunkSize root stored.files)) stored.files := by
  refine @walkFiles_run disk refuses chunkSize _ root walk honce stored
    (fun _ done files => files = done.foldl
      (stores (scanConfig disk refuses chunkSize root stored.files)) stored.files) rfl
    (fun _ _ _ _ _ hfiles => hfiles) (fun _ done files file _ _ _ _ hfiles => ?_) rfl
  rw [List.foldl_append, ← hfiles]
  rfl

/-! ## Files stored one after another -/

theorem StoredOk.forget (hok : StoredOk walk stored relocated done files) :
    StoredOk walk stored [] done files where
  ids := hok.ids
  paths := hok.paths
  read := hok.read
  fresh := hok.fresh
  rows := hok.rows
  carried file hfile := by
    obtain ⟨row, hrow, hpath, hpresent, hcarries, -⟩ := hok.carried file hfile
    exact ⟨row, hrow, hpath, hpresent, hcarries, fun hmem => absurd hmem List.not_mem_nil⟩
  waits := hok.waits

section

variable {rest : List LibraryFile} (hwalk : Walkable config.disk root walk stored)
  (hknown : config.knownPaths = getPathStatusesUnder stored root)

/-- Files of the walk that are still to be stored, each at a path of its own. -/
structure Coming (walk : List WalkEntry) (done rest : List LibraryFile) : Prop where
  read : ∀ file ∈ rest, .file file ∈ walk
  once : (rest.map LibraryFile.filePath).Nodup
  new : ∀ file ∈ rest, ∀ other ∈ done, other.filePath ≠ file.filePath

theorem Coming.next (hcoming : Coming walk done (file :: rest)) :
    Coming walk (done ++ [file]) rest where
  read other hother := hcoming.read other (List.mem_cons_of_mem _ hother)
  once := (List.nodup_cons.mp hcoming.once).2
  new other hother before hbefore := by
    rcases List.mem_append.mp hbefore with hbefore | hbefore
    · exact hcoming.new other (List.mem_cons_of_mem _ hother) before hbefore
    · rw [List.mem_singleton.mp hbefore]
      exact fun hsame => (List.nodup_cons.mp hcoming.once).1 (hsame ▸ List.mem_map_of_mem hother)

theorem Coming.front (hcoming : Coming walk done (files ++ rest)) : Coming walk done files where
  read file hfile := hcoming.read file (List.mem_append_left _ hfile)
  once := hcoming.once.sublist ((List.sublist_append_left _ _).map _)
  new file hfile := hcoming.new file (List.mem_append_left _ hfile)

theorem Coming.back (hcoming : Coming walk done (files ++ rest)) :
    Coming walk (done ++ files) rest where
  read file hfile := hcoming.read file (List.mem_append_right _ hfile)
  once := hcoming.once.sublist ((List.sublist_append_right _ _).map _)
  new file hfile before hbefore := by
    rcases List.mem_append.mp hbefore with hbefore | hbefore
    · exact hcoming.new file (List.mem_append_right _ hfile) before hbefore
    · have honce := hcoming.once
      rw [List.map_append, List.nodup_append] at honce
      exact honce.2.2 _ (List.mem_map_of_mem hbefore) _ (List.mem_map_of_mem hfile)

include hwalk hknown

theorem stores_next (hcoming : Coming walk done (file :: rest))
    (hok : StoredOk walk stored [] done files) :
    StoredOk walk stored [] (done ++ [file]) (stores config files file) :=
  (stores_ok hwalk hknown (hcoming.read file List.mem_cons_self)
    (hcoming.new file List.mem_cons_self) hok List.not_mem_nil).forget

theorem foldl_stores_ok (hcoming : Coming walk done rest)
    (hok : StoredOk walk stored [] done files) :
    StoredOk walk stored [] (done ++ rest) (rest.foldl (stores config) files) := by
  induction rest generalizing done files with
  | nil => simpa using hok
  | cons file rest ih =>
      have hrun := ih hcoming.next (stores_next hwalk hknown hcoming hok)
      simpa using hrun

/-- The row of a file of the walk that is stored already stays as it is. -/
theorem mem_foldl_stores (hcoming : Coming walk done rest)
    (hok : StoredOk walk stored [] done files) (hrow : row ∈ files)
    (hseen : ∃ entry ∈ walk, entry.filePath = row.filePath)
    (hothers : ∀ file ∈ rest, row.filePath ≠ file.filePath) :
    row ∈ rest.foldl (stores config) files := by
  induction rest generalizing done files with
  | nil => exact hrow
  | cons file rest ih =>
      refine ih hcoming.next (stores_next hwalk hknown hcoming hok) ?_ fun other hother =>
        hothers other (List.mem_cons_of_mem _ hother)
      exact mem_stores_of_seen hwalk hknown (hcoming.read file List.mem_cons_self)
        (hcoming.new file List.mem_cons_self) hok hrow hseen (hothers file List.mem_cons_self)

end

/-! ## Marking -/

/-- What is seen stays as it is; what is not may be marked missing. -/
theorem mem_markUnseenMissing {now : Int} {seenPaths : List String} (hrow : row ∈ files)
    (hseen : row.filePath ∈ seenPaths) : row ∈ markUnseenMissing now root seenPaths files := by
  unfold markUnseenMissing
  split
  · exact hrow
  · rw [foldl_markMissing]
    refine List.mem_map.mpr ⟨row, hrow, if_neg fun hunseen => ?_⟩
    obtain ⟨entry, hentry, hpath⟩ := List.mem_map.mp hunseen
    have hnot := (of_decide_eq_true (List.mem_filter.mp hentry).2).2
    exact hnot (hpath ▸ hseen)

theorem getByPath_markUnseenMissing {now : Int} {seenPaths : List String} {filePath : String}
    (hseen : filePath ∈ seenPaths) :
    getByPath (markUnseenMissing now root seenPaths files) filePath = getByPath files filePath := by
  unfold markUnseenMissing
  split
  · rfl
  · rw [foldl_markMissing, getByPath, List.find?_map]
    have hplace : ((fun row : LibraryFile => decide (row.filePath = filePath)) ∘ fun row =>
        if row.filePath ∈ (((getPathStatusesUnder files root).entries.filter fun entry =>
          decide (entry.2 = .present ∧ entry.1 ∉ seenPaths)).map Prod.fst)
        then marked now row else row) = fun row => decide (row.filePath = filePath) := by
      funext row
      dsimp only [Function.comp_apply]
      split <;> rfl
    rw [hplace]
    cases hfound : files.find? fun row => decide (row.filePath = filePath) with
    | none => exact hfound.symm
    | some row =>
        have hpath : row.filePath = filePath := by simpa using List.find?_some hfound
        refine (congrArg some (if_neg fun hunseen => ?_)).trans hfound.symm
        obtain ⟨entry, hentry, hentryPath⟩ := List.mem_map.mp hunseen
        have hnot := (of_decide_eq_true (List.mem_filter.mp hentry).2).2
        exact hnot (hentryPath ▸ hpath ▸ hseen)

end

end RetroStation.Library
