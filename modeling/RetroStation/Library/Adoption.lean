import RetroStation.Library.Statements

/-! # Adopting the row of a moved file

A new file takes over the row it was moved from. Of several files with the same audio or
the same stat, each takes its own row, in whatever order they are visited.
-/

namespace RetroStation.Library

/-- Repoint the row the file was moved from; the path it had, if there is one. -/
def adoptRow (files : List LibraryFile) (names : Names) (answer : String → DiskAnswer)
    (file : LibraryFile) : List LibraryFile × Option String :=
  match movedFrom files names answer file with
  | none => (files, none)
  | some origin => (relocate files origin.id file.filePath, some origin.filePath)

/-- A new file is visited: it adopts its row, and is written if the database accepts it. -/
def visitNew (names : Names) (answer : String → DiskAnswer) (files : List LibraryFile)
    (visit : LibraryFile × Bool) : List LibraryFile :=
  let adopted := (adoptRow files names answer visit.1).1
  if visit.2 then upsert adopted visit.1 else adopted

/-- Whether the row is one the file may have been moved from: the same audio, or the same
size and modification time. -/
def isMatch (file row : LibraryFile) : Bool :=
  (file.audioHash.isSome && row.audioHash = file.audioHash) || row.sameStat file

section

variable {files files' gone : List LibraryFile} {names : Names} {answer : String → DiskAnswer}
  {file own row : LibraryFile}

/-! ## Candidates -/

/-- The candidates are the matches; listing them in path order keeps each once. -/
theorem mem_moveCandidates (hids : Table.UniqueBy LibraryFile.id files) :
    row ∈ moveCandidates files file ↔ row ∈ files ∧ isMatch file row = true := by
  set listed := (if file.audioHash.isSome then
        orderByPath (files.filter fun row => row.audioHash = file.audioHash) else []) ++
      (if file.fileSize.isSome ∧ file.fileMtimeNs.isSome then
        orderByPath (files.filter fun row => row.sameStat file) else []) with hlisted
  have hmem : ∀ row, row ∈ listed ↔ row ∈ files ∧ isMatch file row = true := by
    intro row
    rw [hlisted, List.mem_append, isMatch, Bool.or_eq_true, Bool.and_eq_true, and_or_left]
    refine or_congr ?_ ?_
    · cases hhash : file.audioHash <;> simp [mem_orderByPath]
    · by_cases hstat : file.fileSize.isSome ∧ file.fileMtimeNs.isSome
      · simp [hstat, mem_orderByPath]
      · have hnone : row.sameStat file = false := by
          simp only [LibraryFile.sameStat, decide_eq_false_iff_not]
          rintro ⟨hsize, hsameSize, hmtime, hsameMtime⟩
          exact hstat ⟨hsameSize ▸ hsize, hsameMtime ▸ hmtime⟩
        simp [hstat, hnone]
  change row ∈ Firsts.firsts LibraryFile.id listed ↔ _
  rw [← hmem]
  refine ⟨fun hrow => Firsts.firsts_sublist.subset hrow, fun hrow => ?_⟩
  obtain ⟨first, -, hfirst, hid⟩ := @Firsts.exists_first _ _ _ LibraryFile.id _ _ hrow
  have hin : first ∈ listed := Firsts.firsts_sublist.subset hfirst
  rwa [← hids.eq ((hmem first).mp hin).1 ((hmem row).mp hrow).1 hid]

theorem nodup_moveCandidates : (moveCandidates files file).Nodup :=
  List.Nodup.of_map _ Firsts.nodup_firsts

/-- Neither the choice nor the row it is made from depends on how the rows are listed. -/
theorem chooseMoveOrigin_perm {gone' : List LibraryFile} (hperm : gone.Perm gone') :
    chooseMoveOrigin names file gone = chooseMoveOrigin names file gone' := by
  unfold chooseMoveOrigin
  rw [onlyOf_perm hperm, onlyOf_perm (hperm.filter _), onlyOf_perm (hperm.filter _)]

theorem movedFrom_perm (hpaths : Table.UniqueBy LibraryFile.filePath files)
    (hperm : files.Perm files') :
    movedFrom files names answer file = movedFrom files' names answer file := by
  have hsorted : ∀ p : LibraryFile → Bool,
      orderByPath (files.filter p) = orderByPath (files'.filter p) := fun p =>
    orderByPath_perm (hpaths.sublist (List.filter_sublist.map _)) (hperm.filter p)
  unfold movedFrom respelledFrom moveCandidates
  rw [hsorted, hsorted, hsorted]

/-! ## Choosing -/

theorem onlyOf_filter {rows : List LibraryFile} {p : LibraryFile → Bool} (hnodup : rows.Nodup)
    (hown : own ∈ rows) (hp : p own = true) (honly : ∀ row ∈ rows, p row = true → row = own) :
    onlyOf (rows.filter p) = some own := by
  rw [onlyOf_eq_some]
  refine List.perm_singleton.mp
    ((List.perm_ext_iff_of_nodup (hnodup.filter p) (List.nodup_singleton own)).mpr fun row => ?_)
  rw [List.mem_filter, List.mem_singleton]
  exact ⟨fun hrow => honly row hrow.1 hrow.2, fun hsame => hsame ▸ ⟨hown, hp⟩⟩

/-- The file carries a track that no row but `own` carries. -/
def OnlyTrack (gone : List LibraryFile) (file own : LibraryFile) : Prop :=
  (trackPosition file).isSome ∧ ∀ row ∈ gone, trackPosition row = trackPosition file → row = own

theorem onlyTrack_decides (hnodup : gone.Nodup) (hown : own ∈ gone)
    (htrack : trackPosition own = trackPosition file) (honly : OnlyTrack gone file own) :
    onlyOf (gone.filter fun row => trackPosition row = trackPosition file) = some own :=
  onlyOf_filter hnodup hown (by simpa using htrack) fun row hrow hsame =>
    honly.2 row hrow (by simpa using hsame)

/-- A file whose own row is among the candidates takes no other row, if it carries a track no
other candidate carries, keeps its name, or has a name that none of them has. -/
theorem chooseMoveOrigin_own (hnodup : gone.Nodup) (hown : own ∈ gone)
    (htrack : trackPosition own = trackPosition file)
    (htold : OnlyTrack gone file own ∨
      names.fileName own.filePath = names.fileName file.filePath ∨
      ∀ row ∈ gone, names.fileName row.filePath ≠ names.fileName file.filePath)
    (hchosen : chooseMoveOrigin names file gone = some row) : row = own := by
  have honly : ∀ {rows : List LibraryFile}, own ∈ rows → onlyOf rows = some row → row = own := by
    intro rows hmem hrow
    rw [onlyOf_eq_some.mp hrow, List.mem_singleton] at hmem
    exact hmem.symm
  have hsameTrack : own ∈ gone.filter fun row => trackPosition row = trackPosition file :=
    List.mem_filter.mpr ⟨hown, by simpa using htrack⟩
  unfold chooseMoveOrigin at hchosen
  rcases Option.or_eq_some_iff.mp hchosen with hchosen | ⟨hundecided, hchosen⟩
  · rcases Option.or_eq_some_iff.mp hchosen with hchosen | ⟨-, hchosen⟩
    · exact honly hown hchosen
    · split at hchosen
      · exact honly hsameTrack hchosen
      · cases hchosen
  · rcases htold with hunique | hname | hnoName
    · -- the track has decided before the name is asked for
      rw [if_pos hunique.1, Option.or_eq_none_iff,
        onlyTrack_decides hnodup hown htrack hunique] at hundecided
      cases hundecided.2
    · exact honly (List.mem_filter.mpr ⟨hown, by simpa using hname⟩) hchosen
    · obtain ⟨hrow, hname⟩ := List.mem_filter.mp (onlyOf_mem hchosen)
      exact absurd (by simpa using hname) (hnoName row hrow)

/-- It takes its own row, if its track or its name is its own among the candidates. -/
theorem chooseMoveOrigin_decided (hnodup : gone.Nodup) (hown : own ∈ gone)
    (htrack : trackPosition own = trackPosition file)
    (hdecided : OnlyTrack gone file own ∨
      (names.fileName own.filePath = names.fileName file.filePath ∧ ∀ row ∈ gone,
        names.fileName row.filePath = names.fileName file.filePath → row = own)) :
    chooseMoveOrigin names file gone = some own := by
  have hsome : (chooseMoveOrigin names file gone).isSome := by
    unfold chooseMoveOrigin
    rcases hdecided with hunique | ⟨hname, hunique⟩
    · rw [if_pos hunique.1, onlyTrack_decides hnodup hown htrack hunique]
      simp
    · have honly : onlyOf (gone.filter fun row =>
          names.fileName row.filePath = names.fileName file.filePath) = some own :=
        onlyOf_filter hnodup hown (by simpa using hname) fun row hrow hsame =>
          hunique row hrow (by simpa using hsame)
      rw [honly]
      simp
  obtain ⟨row, hrow⟩ := Option.isSome_iff_exists.mp hsome
  rw [hrow, chooseMoveOrigin_own hnodup hown htrack
    (hdecided.imp_right fun hname => .inl hname.1) hrow]

/-- The row is told apart from the other candidates: there is none, it is the only one on the
file's track, or the only one of its name. -/
def ToldApart (names : Names) (file : LibraryFile) (gone : List LibraryFile)
    (row : LibraryFile) : Prop :=
  gone = [row] ∨ OnlyTrack gone file row ∨
    ∀ other ∈ gone, names.fileName other.filePath = names.fileName file.filePath → other = row

/-- A choice that tells no candidate apart takes none. -/
theorem chooseMoveOrigin_toldApart (hchosen : chooseMoveOrigin names file gone = some row) :
    ToldApart names file gone row := by
  have honly : ∀ {p : LibraryFile → Bool}, onlyOf (gone.filter p) = some row →
      ∀ other ∈ gone, p other = true → other = row := by
    intro p hrow other hother hp
    have hmem := List.mem_filter.mpr ⟨hother, hp⟩
    rwa [onlyOf_eq_some.mp hrow, List.mem_singleton] at hmem
  unfold chooseMoveOrigin at hchosen
  rcases Option.or_eq_some_iff.mp hchosen with hchosen | ⟨-, hchosen⟩
  · rcases Option.or_eq_some_iff.mp hchosen with hchosen | ⟨-, hchosen⟩
    · exact .inl (onlyOf_eq_some.mp hchosen)
    · split at hchosen
      next hcarries =>
        exact .inr (.inl ⟨hcarries, fun other hother hsame =>
          honly hchosen other hother (by simpa using hsame)⟩)
      · cases hchosen
  · exact .inr (.inr fun other hother hsame => honly hchosen other hother (by simpa using hsame))

/-- The row a file was moved from is its own under another spelling, or is told apart from
every match whose file is gone. -/
theorem movedFrom_toldApart (hids : Table.UniqueBy LibraryFile.id files)
    (horigin : movedFrom files names answer file = some row) :
    respelledFrom files names file = some row ∨ ∃ gone, ToldApart names file gone row ∧
      ∀ other, other ∈ gone ↔ other ∈ files ∧ isMatch file other = true ∧
        other.filePath ≠ file.filePath ∧ (pathExists answer other.filePath = false ∨
          names.isSameFile other.filePath file.filePath = true) := by
  unfold movedFrom at horigin
  refine (Option.or_eq_some_iff.mp horigin).imp_right fun ⟨_, hchosen⟩ => ?_
  refine ⟨_, chooseMoveOrigin_toldApart hchosen, fun other => ?_⟩
  rw [List.mem_filter, mem_moveCandidates hids]
  simp [and_assoc]

/-! ## One adoption -/

/-- At most one row is repointed, and its own file is gone or is the new file. -/
theorem adoptRow_spec (hids : Table.UniqueBy LibraryFile.id files) :
    adoptRow files names answer file = (files, none) ∨ ∃ origin ∈ files,
      movedFrom files names answer file = some origin ∧
      adoptRow files names answer file = (files.map fun row =>
        if row = origin then moved file.filePath row else row, some origin.filePath) ∧
      origin.filePath ≠ file.filePath ∧ (pathExists answer origin.filePath = false ∨
        names.isSameFile origin.filePath file.filePath = true) := by
  unfold adoptRow
  cases horigin : movedFrom files names answer file with
  | none => exact .inl rfl
  | some origin =>
      have hmem := movedFrom_mem horigin
      refine .inr ⟨origin, hmem, rfl, ?_, movedFrom_gone horigin⟩
      refine Prod.ext (List.map_congr_left fun row hrow => ?_) rfl
      have hsame : row.id = origin.id ↔ row = origin :=
        ⟨fun hid => hids.eq hrow hmem hid, fun heq => heq ▸ rfl⟩
      by_cases hrowOrigin : row = origin
      · simp [hrowOrigin]
      · simp [hrowOrigin, hsame]

end

end RetroStation.Library
