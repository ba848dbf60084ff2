import RetroStation.Library.FileVisit

/-! # A full scan

Every file beneath the root is read and stored in chunks, each committed as it fills. A row
that the database refuses rolls back the whole open chunk. What the walk did not see is then
marked missing.
-/

namespace RetroStation.Library

/-- What a walk finds: a file that was read, or one that could not be. -/
inductive WalkEntry
  | file (file : LibraryFile)
  | unreadable (entry : LibraryQuarantine)

namespace WalkEntry

def filePath : WalkEntry → String
  | .file read => read.filePath
  | .unreadable entry => entry.filePath

/-- The file that was read, unless the database refuses it. -/
def accepted (refuses : String → Bool) : WalkEntry → Option LibraryFile
  | .file read => if refuses read.filePath then none else some read
  | .unreadable _ => none

end WalkEntry

/-- The tables a scan writes. -/
structure ScanTables where
  files : List LibraryFile
  quarantine : List LibraryQuarantine

/-- A scan's connection: what is committed, what its open transaction sees, and how many
writes are pending. -/
structure ScanState where
  committed : ScanTables
  current : ScanTables
  pendingWrites : Nat := 0
  relocatedPaths : List String := []
  insertFailed : List String := []
  writtenFiles : List LibraryFile := []
  filesCommitted : Nat := 0
  quarantineWritten : Nat := 0

namespace ScanState

def flushChunk (state : ScanState) : ScanState :=
  { state with
    committed := state.current
    filesCommitted := state.filesCommitted + state.pendingWrites
    pendingWrites := 0 }

/-- One more write is pending; a full chunk is committed. -/
def wrote (chunkSize : Nat) (state : ScanState) : ScanState :=
  let state := { state with pendingWrites := state.pendingWrites + 1 }
  if state.pendingWrites ≥ chunkSize then state.flushChunk else state

end ScanState

/-- What a scan goes by: its disk, the rows the database refuses, and what was indexed
before. -/
structure ScanConfig where
  disk : FolderDisk
  refuses : String → Bool
  chunkSize : Nat
  libraryWasEmpty : Bool
  knownPaths : Dict String FileStatus

section

variable (config : ScanConfig)

/-- A path seen for the first time may be of a file that was moved. -/
def adoptUnknown (files : List LibraryFile) (file : LibraryFile) :
    List LibraryFile × Option String :=
  if !config.libraryWasEmpty && (config.knownPaths.get? file.filePath).isNone then
    adoptRow files config.disk.names config.disk.answer file
  else (files, none)

/-- A file that was read is stored, unless the database refuses it. -/
def onFile (state : ScanState) (file : LibraryFile) : ScanState :=
  let adopted := adoptUnknown config state.current.files file
  let relocatedPaths :=
    if adopted.2.isSome then state.relocatedPaths ++ [file.filePath] else state.relocatedPaths
  if config.refuses file.filePath then
    { state with
      current := { state.committed with
        quarantine := quarantineOnce state.committed.quarantine file.filePath
          "metadata contains invalid characters" }
      relocatedPaths
      insertFailed := state.insertFailed ++ [file.filePath]
      pendingWrites := 1 }
  else
    { state with
      current := { state.current with files := upsert adopted.1 file }
      relocatedPaths
      writtenFiles := state.writtenFiles ++ [file] : ScanState }.wrote config.chunkSize

def onQuarantine (state : ScanState) (entry : LibraryQuarantine) : ScanState :=
  { state with
    current := { state.current with
      quarantine := quarantineOnce state.current.quarantine entry.filePath entry.errorMessage }
    quarantineWritten := state.quarantineWritten + 1 : ScanState }.wrote config.chunkSize

def onEntry (state : ScanState) : WalkEntry → ScanState
  | .file file => onFile config state file
  | .unreadable entry => onQuarantine config state entry

end

/-- Mark the present rows beneath the root that the walk did not see. -/
def markUnseenMissing (now : Int) (root : String) (seenPaths : List String)
    (files : List LibraryFile) : List LibraryFile :=
  if seenPaths = [] then files
  else
    let unseen := ((getPathStatusesUnder files root).entries.filter fun entry =>
      entry.2 = .present ∧ entry.1 ∉ seenPaths).map Prod.fst
    unseen.foldl (fun files filePath => markMissing files now filePath) files

def scanConfig (disk : FolderDisk) (refuses : String → Bool) (chunkSize : Nat) (root : String)
    (stored : List LibraryFile) : ScanConfig where
  disk := disk
  refuses := refuses
  chunkSize := chunkSize
  libraryWasEmpty := stored.isEmpty
  knownPaths := getPathStatusesUnder stored root

/-- The walk of a scan: its files are stored, and the rest of the last chunk is committed. -/
def walkFiles (disk : FolderDisk) (refuses : String → Bool) (chunkSize : Nat) (root : String)
    (walk : List WalkEntry) (stored : ScanTables) : ScanState :=
  let config := scanConfig disk refuses chunkSize root stored.files
  let state := walk.foldl (onEntry config) { committed := stored, current := stored }
  if state.pendingWrites > 0 then state.flushChunk else state

/-- The library after the walk of a scan, once what the walk did not see is marked. -/
def runScan (disk : FolderDisk) (refuses : String → Bool) (chunkSize : Nat) (now : Int)
    (root : String) (walk : List WalkEntry) (stored : ScanTables) : List LibraryFile :=
  markUnseenMissing now root (walk.map WalkEntry.filePath)
    (walkFiles disk refuses chunkSize root walk stored).current.files

end RetroStation.Library

/-! ## What a scan loses with a refused row

A refused row takes the open chunk with it: the files of the chunk are not stored, and the
rows they adopted are back at their old paths. The other files are stored as if nothing had
been refused.
-/

namespace RetroStation.Library

/-- The row holds what was read of the file, over what was stored. -/
structure Carries (file row : LibraryFile) : Prop where
  format : row.format = file.format
  size : row.fileSize = file.fileSize
  mtime : row.fileMtimeNs = file.fileMtimeNs
  audioHash : file.audioHash.isSome → row.audioHash = file.audioHash
  audio : row.audio = file.audio ∨ ∃ stored, row.audio = readOver file.audio stored

section

variable (refuses : String → Bool) (chunkSize : Nat)

/-- The files whose writes are rolled back, by what is in the open chunk and how many writes
are pending. -/
def lostFiles : List WalkEntry → List LibraryFile → Nat → List LibraryFile
  | [], _, _ => []
  | .unreadable _ :: rest, chunk, pending =>
    if pending + 1 ≥ chunkSize then lostFiles rest [] 0 else lostFiles rest chunk (pending + 1)
  | .file read :: rest, chunk, pending =>
    if refuses read.filePath then chunk ++ lostFiles rest [] 1
    else if pending + 1 ≥ chunkSize then lostFiles rest [] 0
    else lostFiles rest (chunk ++ [read]) (pending + 1)

/-- The files whose writes stay. -/
def keptFiles : List WalkEntry → List LibraryFile → Nat → List LibraryFile
  | [], chunk, _ => chunk
  | .unreadable _ :: rest, chunk, pending =>
    if pending + 1 ≥ chunkSize then chunk ++ keptFiles rest [] 0
    else keptFiles rest chunk (pending + 1)
  | .file read :: rest, chunk, pending =>
    if refuses read.filePath then keptFiles rest [] 1
    else if pending + 1 ≥ chunkSize then chunk ++ read :: keptFiles rest [] 0
    else keptFiles rest (chunk ++ [read]) (pending + 1)

def acceptedFiles (walk : List WalkEntry) : List LibraryFile :=
  walk.filterMap (WalkEntry.accepted refuses)

end

section

variable {refuses : String → Bool} {chunkSize : Nat} {config : ScanConfig}
  {walk rest : List WalkEntry} {done chunk files stored : List LibraryFile} {file row : LibraryFile}
  {pending : Nat} {state : ScanState}

/-- Every accepted file either stays or is lost. -/
theorem kept_lost_perm : (chunk ++ acceptedFiles refuses walk).Perm
    (keptFiles refuses chunkSize walk chunk pending ++
      lostFiles refuses chunkSize walk chunk pending) := by
  induction walk generalizing chunk pending with
  | nil => simp [acceptedFiles, keptFiles, lostFiles]
  | cons entry rest ih =>
      cases entry with
      | unreadable entry =>
          have hsame : acceptedFiles refuses (.unreadable entry :: rest) =
              acceptedFiles refuses rest := rfl
          unfold keptFiles lostFiles
          rw [hsame]
          split
          · rw [List.append_assoc]
            exact (@ih [] 0).append_left chunk
          · exact ih
      | file read =>
          unfold keptFiles lostFiles
          by_cases hrefused : refuses read.filePath = true
          · have hsame : acceptedFiles refuses (.file read :: rest) =
              acceptedFiles refuses rest := by
              simp [acceptedFiles, WalkEntry.accepted, hrefused]
            rw [if_pos hrefused, if_pos hrefused, hsame, ← List.append_assoc]
            refine ((@ih [] 1).append_left chunk).trans ?_
            rw [← List.append_assoc]
            exact List.perm_append_comm.append_right _
          · have hmore : acceptedFiles refuses (.file read :: rest) =
                read :: acceptedFiles refuses rest := by
              simp [acceptedFiles, WalkEntry.accepted, hrefused]
            rw [if_neg hrefused, if_neg hrefused, hmore]
            split
            · rw [List.append_assoc, List.cons_append]
              exact ((@ih [] 0).cons read).append_left chunk
            · have hchunk := @ih (chunk ++ [read]) (pending + 1)
              rwa [List.append_assoc] at hchunk

/-! ## Every walk -/

/-- What a file's visit leaves of the library. -/
def stores (config : ScanConfig) (files : List LibraryFile) (file : LibraryFile) :
    List LibraryFile := upsert (adoptUnknown config files file).1 file

/-- The relocated paths once the file is visited. -/
def relocates (config : ScanConfig) (files : List LibraryFile) (relocated : List String)
    (file : LibraryFile) : List String :=
  if (adoptUnknown config files file).2.isSome then relocated ++ [file.filePath] else relocated

/-- A write that succeeded: it is in the open chunk, which is committed if it is full. -/
structure Wrote (chunkSize : Nat) (state : ScanState) (relocatedPaths : List String)
    (stored : List LibraryFile) (next : ScanState) : Prop where
  relocated : next.relocatedPaths = relocatedPaths
  files : next.current.files = stored
  chunk : (state.pendingWrites + 1 ≥ chunkSize ∧ next.committed.files = stored ∧
      next.pendingWrites = 0) ∨
    (¬state.pendingWrites + 1 ≥ chunkSize ∧ next.committed.files = state.committed.files ∧
      next.pendingWrites = state.pendingWrites + 1)

theorem wrote_wrote (chunkSize : Nat) (state : ScanState) :
    Wrote chunkSize state state.relocatedPaths state.current.files (state.wrote chunkSize) := by
  unfold ScanState.wrote
  dsimp only
  split
  next hfull => exact ⟨rfl, rfl, .inl ⟨hfull, rfl, rfl⟩⟩
  next hroom => exact ⟨rfl, rfl, .inr ⟨hroom, rfl, rfl⟩⟩

theorem onQuarantine_wrote (config : ScanConfig) (state : ScanState) (entry : LibraryQuarantine) :
    Wrote config.chunkSize state state.relocatedPaths state.current.files
      (onQuarantine config state entry) := by
  have hwrote := wrote_wrote config.chunkSize { state with
    current := { state.current with
      quarantine := quarantineOnce state.current.quarantine entry.filePath entry.errorMessage }
    quarantineWritten := state.quarantineWritten + 1 }
  exact ⟨hwrote.relocated, hwrote.files, hwrote.chunk⟩

theorem onFile_wrote (haccepted : config.refuses file.filePath = false) :
    Wrote config.chunkSize state (relocates config state.current.files state.relocatedPaths file)
      (stores config state.current.files file) (onFile config state file) := by
  have hwrote := wrote_wrote config.chunkSize { state with
    current := { state.current with files := stores config state.current.files file }
    relocatedPaths := relocates config state.current.files state.relocatedPaths file
    writtenFiles := state.writtenFiles ++ [file] }
  unfold onFile
  simp only [haccepted, Bool.false_eq_true, if_false]
  exact ⟨hwrote.relocated, hwrote.files, hwrote.chunk⟩

/-- A refused file leaves the library as it was committed. -/
theorem onFile_refused (hrefused : config.refuses file.filePath = true) :
    (onFile config state file).relocatedPaths =
        relocates config state.current.files state.relocatedPaths file ∧
      (onFile config state file).committed = state.committed ∧
      (onFile config state file).current.files = state.committed.files ∧
      (onFile config state file).pendingWrites = 1 := by
  unfold onFile
  simp only [hrefused, if_true]
  exact ⟨rfl, trivial, trivial, trivial⟩

/-- What holds of the library whenever another file is stored holds at the end, of the files
that were kept. -/
theorem walk_run {P : List String → List LibraryFile → List LibraryFile → Prop}
    (hrelocates : ∀ relocated done files filePath, (∀ file ∈ done, file.filePath ≠ filePath) →
      P relocated done files → P (relocated ++ [filePath]) done files)
    (hstores : ∀ relocated done files file, .file file ∈ walk →
      config.refuses file.filePath = false → file.filePath ∉ relocated →
      (∀ other ∈ done, other.filePath ≠ file.filePath) → P relocated done files →
        P (relocates config files relocated file) (done ++ [file]) (stores config files file))
    (hrest : rest ⊆ walk) (honce : (rest.map WalkEntry.filePath).Nodup)
    (hvisited : ∀ filePath ∈ state.relocatedPaths ++ (done ++ chunk).map LibraryFile.filePath,
      filePath ∉ rest.map WalkEntry.filePath)
    (hcommitted : P state.relocatedPaths done state.committed.files)
    (hcurrent : P state.relocatedPaths (done ++ chunk) state.current.files) :
    P (rest.foldl (onEntry config) state).relocatedPaths
      (done ++ keptFiles config.refuses config.chunkSize rest chunk state.pendingWrites)
      (rest.foldl (onEntry config) state).current.files := by
  -- Along the rest of the walk. `done` is what a commit has saved, `chunk` what the next one will.
  induction rest generalizing done chunk state with
  | nil => exact hcurrent
  | cons entry rest ih =>
      obtain ⟨hnotLater, honce'⟩ := List.nodup_cons.mp honce
      have hrest' : rest ⊆ walk := List.Subset.trans (List.subset_cons_self _ _) hrest
      have hnew : entry.filePath ∉ state.relocatedPaths ++
        (done ++ chunk).map LibraryFile.filePath :=
        fun hmem => hvisited _ hmem List.mem_cons_self
      have hothers : ∀ filePath ∈ state.relocatedPaths ++ (done ++ chunk).map LibraryFile.filePath,
          filePath ∉ rest.map WalkEntry.filePath := fun filePath hmem hlater =>
        hvisited filePath hmem (List.mem_cons_of_mem _ hlater)
      rw [List.foldl_cons]
      cases entry with
      | unreadable entry =>
          have hwrote := onQuarantine_wrote config state entry
          change P (rest.foldl (onEntry config) (onQuarantine config state entry)).relocatedPaths _
            (rest.foldl (onEntry config) (onQuarantine config state entry)).current.files
          unfold keptFiles
          rcases hwrote.chunk with ⟨hfull, hsaved, hpending⟩ | ⟨hroom, hsaved, hpending⟩
          · rw [if_pos hfull, ← List.append_assoc, ← hpending]
            refine @ih (done ++ chunk) [] _ hrest' honce' ?_ ?_ ?_
            · rwa [hwrote.relocated, List.append_nil]
            · rwa [hwrote.relocated, hsaved]
            · rwa [hwrote.relocated, hwrote.files, List.append_nil]
          · rw [if_neg hroom, ← hpending]
            refine @ih done chunk _ hrest' honce' ?_ ?_ ?_
            · rwa [hwrote.relocated]
            · rwa [hwrote.relocated, hsaved]
            · rwa [hwrote.relocated, hwrote.files]
      | file read =>
          have hnotDone : ∀ other ∈ done ++ chunk, other.filePath ≠ read.filePath := by
            intro other hother hsame
            have hmem : other.filePath ∈ (done ++ chunk).map LibraryFile.filePath :=
              List.mem_map_of_mem hother
            rw [hsame] at hmem
            exact hnew (List.mem_append_right _ hmem)
          have hpaths : ∀ filePath ∈ relocates config state.current.files state.relocatedPaths read,
              filePath ∈ state.relocatedPaths ∨ filePath = read.filePath := by
            intro filePath hmem
            unfold relocates at hmem
            split at hmem
            · simpa using hmem
            · exact .inl hmem
          have hlater : ∀ filePath ∈
              relocates config state.current.files state.relocatedPaths read ++
                (done ++ chunk ++ [read]).map LibraryFile.filePath,
              filePath ∉ rest.map WalkEntry.filePath := by
            intro filePath hmem
            rw [List.map_append, List.map_singleton, ← List.append_assoc, List.mem_append,
              List.mem_append, List.mem_singleton] at hmem
            rcases hmem with (hmem | hmem) | hmem
            · rcases hpaths filePath hmem with hold | hsame
              · exact hothers _ (List.mem_append_left _ hold)
              · exact hsame ▸ hnotLater
            · exact hothers _ (List.mem_append_right _ hmem)
            · exact hmem ▸ hnotLater
          have hrelocated : P (relocates config state.current.files state.relocatedPaths read) done
              state.committed.files := by
            unfold relocates
            split
            · exact hrelocates _ _ _ _ (fun other hother =>
                hnotDone other (List.mem_append_left _ hother)) hcommitted
            · exact hcommitted
          change P (rest.foldl (onEntry config) (onFile config state read)).relocatedPaths _
            (rest.foldl (onEntry config) (onFile config state read)).current.files
          unfold keptFiles
          -- A refused file rolls the open chunk back to the last commit.
          by_cases hrefused : config.refuses read.filePath = true
          · obtain ⟨hmoved, hsaved, hfiles, hpending⟩ := @onFile_refused config read state hrefused
            rw [if_pos hrefused, ← hpending]
            refine @ih done [] _ hrest' honce' ?_ ?_ ?_
            · rw [hmoved, List.append_nil]
              intro filePath hmem
              refine hlater filePath ?_
              rcases List.mem_append.mp hmem with hmem | hmem
              · exact List.mem_append_left _ hmem
              · exact List.mem_append_right _ (List.map_subset _ (by simp) hmem)
            · rwa [hmoved, hsaved]
            · rwa [hmoved, hfiles, List.append_nil]
          · rw [Bool.not_eq_true] at hrefused
            have hwrote := @onFile_wrote config read state hrefused
            have hstored := hstores _ _ _ read (hrest List.mem_cons_self) hrefused
              (fun hmem => hnew (List.mem_append_left _ hmem)) hnotDone hcurrent
            rw [if_neg (by simp [hrefused])]
            rcases hwrote.chunk with ⟨hfull, hsaved, hpending⟩ | ⟨hroom, hsaved, hpending⟩
            · rw [if_pos hfull, ← hpending]
              have hrun := @ih (done ++ chunk ++ [read]) [] (onFile config state read) hrest' honce'
                (by rwa [hwrote.relocated, List.append_nil]) (by rwa [hwrote.relocated, hsaved])
                (by rwa [hwrote.relocated, hwrote.files, List.append_nil])
              simpa using hrun
            · rw [if_neg hroom, ← hpending]
              refine @ih done (chunk ++ [read]) _ hrest' honce' ?_ ?_ ?_
              · rwa [hwrote.relocated, ← List.append_assoc]
              · rwa [hwrote.relocated, hsaved]
              · rwa [hwrote.relocated, hwrote.files, ← List.append_assoc]

end

end RetroStation.Library
