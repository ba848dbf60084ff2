import RetroStation.Library.FolderConverges
import RetroStation.Library.MovedTogether

/-! # A second visit

A folder is visited again right after it was visited. Each file that succeeded is skipped,
and nothing is written, unless a new file that was refused had no row to be moved from yet.
-/

namespace RetroStation.Library

section

variable {disk : FolderDisk} {refuses : String → Option String} {folderPath filePath : String}
  {listed done : List String} {start : List LibraryFile} {row : LibraryFile} {now again : Int}
  {visit : FolderScanContext × Dict String LibraryFile} {ctx : FolderScanContext}

/-- Files that have nothing to write are visited without a write. -/
theorem visits_quiet {rest : List String} (hlisted : Listed disk folderPath listed)
    (hpaths : Table.UniqueBy LibraryFile.filePath start)
    (hkept : ∀ row ∈ start, row.filePath ∈ listed → row.fileStatus ≠ .deleted)
    (hquiet : ∀ filePath ∈ listed, Quiet disk refuses (getByPath start filePath) filePath)
    (hvisiting : Visiting disk refuses folderPath start done visit)
    (hsplit : done ++ rest = listed) :
    (rest.foldl (visitNext disk refuses) visit).1.files = visit.1.files ∧
      (rest.foldl (visitNext disk refuses) visit).1.result.filesWritten =
        visit.1.result.filesWritten ∧
      (rest.foldl (visitNext disk refuses) visit).1.result.filesRelocated =
        visit.1.result.filesRelocated ∧
      (rest.foldl (visitNext disk refuses) visit).1.result.filesSkipped =
        visit.1.result.filesSkipped + rest.countP fun filePath =>
          !fails disk refuses (getByPath start filePath) filePath := by
  induction rest generalizing done visit with
  | nil => exact ⟨rfl, rfl, rfl, rfl⟩
  | cons filePath rest ih =>
      have hnodup := hsplit ▸ nodup_listed hlisted.files
      have hpath : filePath ∈ listed := hsplit ▸ List.mem_append_right _ List.mem_cons_self
      have hdone : ∀ other ∈ done, other ∈ listed := fun other hother =>
        hsplit ▸ List.mem_append_left _ hother
      have hnew : filePath ∉ done := fun hold =>
        (List.nodup_append.mp hnodup).2.2 filePath hold filePath List.mem_cons_self rfl
      obtain ⟨hfiles, hwritten, hrelocated, hskipped⟩ := @ih (done ++ [filePath]) _
        (visitNext_visiting hlisted hpaths hkept hvisiting hdone hpath hnew fun other => by
          rw [List.mem_append, List.mem_singleton, or_comm]) (by simpa using hsplit)
      have hexisting := hvisiting.existing_eq hlisted hdone hpath hnew hpaths
      obtain ⟨-, hstep⟩ := @visitDiskFile_quiet disk refuses filePath visit.1 _
        (hquiet filePath hpath) fun row hrow => ((getByPath_eq_some hpaths).mp hrow).2
      have hout : (visitNext disk refuses visit filePath).1 =
          (visitDiskFile disk refuses visit.1 filePath (getByPath start filePath)).1 := by
        rw [← hexisting]
        rfl
      rw [← hout] at hstep
      rw [List.foldl_cons, hfiles, hwritten, hrelocated, hskipped, hstep.1, hstep.2.1,
        hstep.2.2.1, hstep.2.2.2, List.countP_cons]
      refine ⟨rfl, rfl, rfl, ?_⟩
      cases fails disk refuses (getByPath start filePath) filePath with
      | false => simp; omega
      | true => simp

section

variable (hlisted : Listed disk folderPath listed) (hstart : Visitable listed ctx)
include hlisted hstart

/-- What a visit leaves at a listed path is an old row or a present one. -/
theorem scan_listed_row (hrow : row ∈
    (scanFolderIncrementally disk refuses now folderPath ctx).files)
    (hpath : row.filePath ∈ listed) : row ∈ ctx.files ∨ row.fileStatus = .present := by
  rcases (mem_scan hlisted hstart).mp hrow with ⟨hthere, -⟩ | ⟨old, -, -, -, -, hnew, rfl⟩
  · exact ((visitAll_visiting hlisted hstart).rows row hthere).imp_right And.right
  · exact absurd hpath hnew

theorem scan_visitable : Visitable listed
    (scanFolderIncrementally disk refuses now folderPath ctx) where
  ids := (unique_scan hlisted hstart).1
  paths := (unique_scan hlisted hstart).2
  fresh row hrow := by
    have hvisiting := @visitAll_visiting _ refuses _ _ _ hlisted hstart
    rw [(scan_spec hlisted).2.1]
    rcases (mem_scan hlisted hstart).mp hrow with ⟨hthere, -⟩ | ⟨old, -, hthere, -, -, -, rfl⟩
    · exact hvisiting.fresh row hthere
    · exact hvisiting.fresh old hthere
  kept row hrow hpath := by
    rcases scan_listed_row hlisted hstart hrow hpath with hold | hpresent
    · exact hstart.kept row hold hpath
    · rw [hpresent]
      exact nofun

/-- The row of a listed file is still at its path. -/
theorem scan_row_stays (hrow : row ∈ ctx.files) (hpath : row.filePath ∈ listed) :
    ∃ last ∈ (scanFolderIncrementally disk refuses now folderPath ctx).files,
      last.filePath = row.filePath := by
  obtain ⟨last, hlast, -, ⟨rfl, -⟩ | ⟨-, -, -, hnew⟩ | ⟨hthere, hplace⟩⟩ :=
    @scan_keeps _ refuses _ _ _ _ now hlisted hstart hrow
  · exact ⟨last, hlast, rfl⟩
  · exact absurd hpath hnew
  · rcases hplace with hsame | hadopted
    · exact ⟨last, hlast, hsame⟩
    · exact absurd hadopted.gone (hlisted.not_gone hpath hthere (hadopted.new row hrow))

/-- A file that did not fail has nothing to write again; nor has one that failed, unless it
was refused and has no row. -/
theorem quiet_again (hpath : filePath ∈ listed)
    (hrefused : (refuses filePath).isSome → disk.unreadable filePath = false →
      ∃ row ∈ (scanFolderIncrementally disk refuses now folderPath ctx).files,
        row.filePath = filePath) :
    Quiet disk refuses (getByPath (scanFolderIncrementally disk refuses now folderPath ctx).files
      filePath) filePath := by
  have hpaths := (@unique_scan _ refuses _ _ _ now hlisted hstart).2
  by_cases hworks : fails disk refuses (getByPath ctx.files filePath) filePath = false
  · obtain ⟨row, hrow, hrowPath, hpresent, hunchanged⟩ :=
      @scan_settles _ refuses _ _ _ _ now hlisted hstart hpath hworks
    exact .inr ⟨row, (getByPath_eq_some hpaths).mpr ⟨hrow, hrowPath⟩, by
      simp [hpresent], hunchanged⟩
  rw [Bool.not_eq_false] at hworks
  -- a row of the file is either an old one or present
  cases hrow : getByPath (scanFolderIncrementally disk refuses now folderPath ctx).files
    filePath with
  | none =>
      have hnone : ∀ row ∈ (scanFolderIncrementally disk refuses now folderPath ctx).files,
          row.filePath ≠ filePath := fun row hmem hrowPath => by
        rw [(getByPath_eq_some hpaths).mpr ⟨hmem, hrowPath⟩] at hrow
        cases hrow
      have hunread : disk.unreadable filePath = true := by
        cases hstartRow : getByPath ctx.files filePath with
        | some old =>
            obtain ⟨hold, rfl⟩ := (getByPath_eq_some hstart.paths).mp hstartRow
            obtain ⟨last, hlast, hlastPath⟩ :=
              @scan_row_stays _ refuses _ _ _ now _ hlisted hstart hold hpath
            exact absurd hlastPath (hnone last hlast)
        | none =>
            rw [hstartRow] at hworks
            by_contra hreads
            rw [Bool.not_eq_true] at hreads
            simp only [fails, Option.any_none, Bool.false_eq_true, if_false, hreads,
              Bool.false_or] at hworks
            obtain ⟨row, hmem, hrowPath⟩ := hrefused hworks hreads
            exact hnone row hmem hrowPath
      exact .inl ⟨by simp [fails, hunread], fun _ => hunread⟩
  | some row =>
      obtain ⟨hmem, rfl⟩ := (getByPath_eq_some hpaths).mp hrow
      by_cases hskips : row.fileStatus ≠ .missing ∧ disk.unchanged row row.filePath = true
      · exact .inr ⟨row, rfl, hskips⟩
      refine .inl ⟨?_, fun hnone => by cases hnone⟩
      by_cases hunchanged : disk.unchanged row row.filePath = true
      · have hmissing : row.fileStatus = .missing := by
          by_contra hkept
          exact hskips ⟨hkept, hunchanged⟩
        rcases scan_listed_row hlisted hstart hmem hpath with hold | hpresent
        · rwa [(getByPath_eq_some hstart.paths).mpr ⟨hold, rfl⟩] at hworks
        · rw [hmissing] at hpresent
          cases hpresent
      · have hsame : fails disk refuses (some row) row.filePath =
            (disk.unreadable row.filePath || (refuses row.filePath).isSome) := by
          simp [fails, hunchanged]
        rw [hsame, Bool.or_eq_true]
        unfold fails at hworks
        split at hworks
        · exact .inr (Bool.and_eq_true_iff.mp hworks).2
        · exact Bool.or_eq_true_iff.mp hworks

/-- After a visit no present row in the folder is without a file. -/
theorem unfound_again : unfound (visitAll disk refuses folderPath listed
    (scanFolderIncrementally disk refuses now folderPath ctx)).2.values = [] := by
  have hvisiting := @visitAll_visiting _ refuses _ _ _ hlisted hstart
  have hagain := @visitAll_visiting _ refuses _ _ _ hlisted
    (@scan_visitable _ refuses _ _ now _ hlisted hstart)
  refine List.eq_nil_iff_forall_not_mem.mpr fun filePath hunfound => ?_
  obtain ⟨row, hrow, rfl, hpresent, hfolder, hnew, -⟩ := hagain.mem_unfound.mp hunfound
  rcases (mem_scan hlisted hstart).mp hrow with ⟨hthere, hfound⟩ | ⟨old, -, -, -, -, -, rfl⟩
  · rcases hvisiting.rows row hthere with hold | ⟨hpath, -⟩
    · exact hfound (hvisiting.mem_unfound.mpr
        ⟨row, hold, rfl, hpresent, hfolder, hnew, hthere⟩)
    · exact hnew hpath
  · cases hpresent

/-- The second visit leaves every row as it is, and skips each file that did not fail. -/
theorem scan_again (hrefused : ∀ filePath ∈ listed, (refuses filePath).isSome →
      disk.unreadable filePath = false →
        ∃ row ∈ (scanFolderIncrementally disk refuses now folderPath ctx).files,
          row.filePath = filePath) :
    (scanFolderIncrementally disk refuses again folderPath
        (scanFolderIncrementally disk refuses now folderPath ctx)).files =
      (scanFolderIncrementally disk refuses now folderPath ctx).files ∧
    (scanFolderIncrementally disk refuses again folderPath
      (scanFolderIncrementally disk refuses now folderPath ctx)).result.filesWritten = 0 ∧
    (scanFolderIncrementally disk refuses again folderPath
      (scanFolderIncrementally disk refuses now folderPath ctx)).result.filesRelocated = 0 ∧
    (scanFolderIncrementally disk refuses again folderPath
        (scanFolderIncrementally disk refuses now folderPath ctx)).result.filesSkipped =
      listed.countP fun filePath =>
        filePath ∉ (scanFolderIncrementally disk refuses again folderPath
        (scanFolderIncrementally disk refuses now folderPath ctx)).result.failingPaths := by
  set after := scanFolderIncrementally disk refuses now folderPath ctx with hafter
  have hvisitable : Visitable listed after := scan_visitable hlisted hstart
  obtain ⟨hfiles, hwritten, hrelocated, hskipped⟩ := visits_quiet hlisted hvisitable.paths
    hvisitable.kept (fun filePath hpath =>
      quiet_again hlisted hstart hpath (hrefused filePath hpath))
    (.of_visitable hvisitable) (List.nil_append listed)
  obtain ⟨hscan, -, quarantineCleared, hresult⟩ := @scan_spec _ refuses _ _ after again hlisted
  have hcount : (listed.countP fun filePath =>
      !fails disk refuses (getByPath after.files filePath) filePath) = listed.countP fun filePath =>
        filePath ∉ (scanFolderIncrementally disk refuses again folderPath
          after).result.failingPaths := by
    refine List.countP_congr fun filePath hpath => ?_
    simp [mem_failingPaths hlisted hvisitable, hpath]
  refine ⟨?_, by rw [hresult]; exact hwritten, by rw [hresult]; exact hrelocated, ?_⟩
  · have hsame : (visitAll disk refuses folderPath listed after).1.files = after.files := hfiles
    rw [hscan, unfound_again hlisted hstart]
    simpa using hsame
  · rw [← hcount, hresult]
    exact hskipped.trans (Nat.zero_add _)

/-- A file that succeeded is skipped by the second visit. -/
theorem failing_again (hpath : filePath ∈ listed)
    (hworks : filePath ∉ (scanFolderIncrementally disk refuses now folderPath
      ctx).result.failingPaths) :
    filePath ∉ (scanFolderIncrementally disk refuses again folderPath
      (scanFolderIncrementally disk refuses now folderPath ctx)).result.failingPaths := by
  have hvisitable := @scan_visitable _ refuses _ _ now _ hlisted hstart
  rw [mem_failingPaths hlisted hstart] at hworks
  rw [mem_failingPaths hlisted hvisitable]
  rintro ⟨-, hfails⟩
  obtain ⟨row, hrow, hrowPath, hpresent, hunchanged⟩ := @scan_settles _ refuses _ _ _ _ now hlisted
    hstart hpath (by simpa [hpath] using hworks)
  rw [(getByPath_eq_some hvisitable.paths).mpr ⟨hrow, hrowPath⟩] at hfails
  simp [fails, hunchanged, hpresent] at hfails

end

end

/-- A folder visit converges. Each listed file that does not fail ends with one row, present
and with its size and modification time; a present row in the folder without a file is marked
or adopted; a row elsewhere is at most adopted; no row is lost, nor are its links. A second
visit leaves every row as it is and skips what succeeded, if each new file that was refused
has adopted a row by then. -/
theorem folder_visit_converges (disk : FolderDisk) (refuses : String → Option String)
    (now again : Int) (folderPath : String) (listed : List String) (ctx : FolderScanContext)
    (hlisted : Listed disk folderPath listed) (hstart : Visitable listed ctx) :
    let after := scanFolderIncrementally disk refuses now folderPath ctx
    let last := scanFolderIncrementally disk refuses again folderPath after
    (∀ filePath, filePath ∈ after.result.failingPaths ↔ filePath ∈ listed ∧
      fails disk refuses (getByPath ctx.files filePath) filePath = true) ∧
    (∀ filePath ∈ listed, filePath ∉ after.result.failingPaths → ∃ row ∈ after.files,
      row.filePath = filePath ∧ row.fileStatus = .present ∧ disk.unchanged row filePath = true ∧
        ∀ other ∈ after.files, other.filePath = filePath → other = row) ∧
    (∀ row ∈ ctx.files, row.fileStatus = .present → inFolder folderPath row.filePath = true →
      row.filePath ∉ listed → ∃ now ∈ after.files, now.Keeps row ∧
        (now.filePath = row.filePath ∧ now.fileStatus = .missing ∨
          now.filePath ∈ listed ∧ Adopted disk ctx.files row now.filePath)) ∧
    (∀ row ∈ ctx.files, inFolder folderPath row.filePath = false → row ∈ after.files ∨
      ∃ now ∈ after.files, now.Keeps row ∧ now.filePath ∈ listed ∧
        Adopted disk ctx.files row now.filePath) ∧
    (∀ row ∈ ctx.files, ∃ now ∈ after.files, now.Keeps row) ∧
    Table.UniqueBy LibraryFile.id after.files ∧
    ((∀ filePath ∈ listed, (refuses filePath).isSome → disk.unreadable filePath = false →
        ∃ row ∈ after.files, row.filePath = filePath) →
      last.files = after.files ∧ last.result.filesWritten = 0 ∧ last.result.filesRelocated = 0 ∧
        (∀ filePath ∈ listed, filePath ∉ after.result.failingPaths →
          filePath ∉ last.result.failingPaths) ∧
        last.result.filesSkipped =
          listed.countP fun filePath => filePath ∉ last.result.failingPaths) := by
  dsimp only
  -- Paths stay unique, so the row of a listed file is the only one there.
  have hunique := @unique_scan _ refuses _ _ _ now hlisted hstart
  refine ⟨fun filePath => mem_failingPaths hlisted hstart, fun filePath hpath hworks => ?_,
    fun row hrow hpresent hfolder hnew => ?_, fun row hrow hfolder => ?_, fun row hrow => ?_,
    hunique.1, fun hrefused => ?_⟩
  · rw [mem_failingPaths hlisted hstart] at hworks
    obtain ⟨row, hrow, hrowPath, hpresent, hunchanged⟩ := @scan_settles _ refuses _ _ _ _ now
      hlisted hstart hpath (by simpa [hpath] using hworks)
    exact ⟨row, hrow, hrowPath, hpresent, hunchanged, fun other hother hotherPath =>
      hunique.2.eq hother hrow (hotherPath.trans hrowPath.symm)⟩
  · obtain ⟨last, hlast, hkeeps, ⟨-, hfound⟩ | ⟨rfl, -⟩ | ⟨hthere, hplace⟩⟩ :=
      @scan_keeps _ refuses _ _ _ _ now hlisted hstart hrow
    · exact absurd ⟨hpresent, hfolder, hnew⟩ hfound
    · exact ⟨_, hlast, hkeeps, .inl ⟨rfl, rfl⟩⟩
    · refine ⟨last, hlast, hkeeps, .inr ⟨hthere, hplace.resolve_left fun hsame => ?_⟩⟩
      exact hnew (hsame ▸ hthere)
  · obtain ⟨last, hlast, hkeeps, ⟨rfl, -⟩ | ⟨-, -, hinside, -⟩ | ⟨hthere, hplace⟩⟩ :=
      @scan_keeps _ refuses _ _ _ _ now hlisted hstart hrow
    · exact .inl hlast
    · rw [hfolder] at hinside
      cases hinside
    · refine .inr ⟨last, hlast, hkeeps, hthere, hplace.resolve_left fun hsame => ?_⟩
      rw [hlisted.inFolder row.filePath (hsame ▸ hthere)] at hfolder
      cases hfolder
  · obtain ⟨last, hlast, hkeeps, -⟩ := @scan_keeps _ refuses _ _ _ _ now hlisted hstart hrow
    exact ⟨last, hlast, hkeeps⟩
  · obtain ⟨hfiles, hwritten, hrelocated, hskipped⟩ :=
      @scan_again _ refuses _ _ now again _ hlisted hstart hrefused
    exact ⟨hfiles, hwritten, hrelocated, fun filePath hpath hworks =>
      failing_again hlisted hstart hpath hworks, hskipped⟩

/-! ## Folders of one recording -/

/-- A folder of files with the same audio, size and modification time. -/
def flacFolder (listed : List String) (isSameFile : String → String → Bool) : FolderDisk where
  isDir := true
  spelledAsOnDisk := true
  iterdir := some (listed.map fun filePath => ⟨filePath, true, true⟩)
  stat _ := .ok ⟨1, 1⟩
  tags _ := .ok ⟨"flac", {}, some "flac-md5:1"⟩
  answer filePath := if filePath ∈ listed then .found else .notFound
  names := { plainNames with isSameFile }
  parent _ := "/m"

def flacRow (id : Uuid) (filePath : String) : LibraryFile :=
  { id, filePath, fileSize := some 1, fileMtimeNs := some 1, audioHash := some "flac-md5:1" }

/-- A file that was moved into the folder of another, with the row it has outside. -/
def movedIn : FolderScanContext where
  files := [flacRow 1 "/m/a.flac", flacRow 2 "/old/b.flac"]
  nextId := 3

theorem folder_visit_converges_movedIn :
    let disk := flacFolder ["/m/a.flac", "/m/b.flac"] fun first second => first = second
    let after := scanFolderIncrementally disk (fun _ => none) 10 "/m" movedIn
    (∃ row ∈ after.files, row.Keeps (flacRow 2 "/old/b.flac")) ∧
      (scanFolderIncrementally disk (fun _ => none) 20 "/m" after).files = after.files :=
  have hvisit := folder_visit_converges
    (flacFolder ["/m/a.flac", "/m/b.flac"] fun first second => first = second) (fun _ => none)
    10 20 "/m" ["/m/a.flac", "/m/b.flac"] movedIn ⟨by decide, by decide, by decide, by decide⟩
    ⟨by decide, by decide, by decide, by decide⟩
  ⟨hvisit.2.2.2.2.1 _ (.tail _ (.head _)), (hvisit.2.2.2.2.2.2 (by decide)).1⟩

/-- What a visit does not settle: two names of one file share one row; a row that counts as
deleted stays so; a folder that is spelled with a backslash and slashes has no rows; a new
file that was refused undecided adopts the row that is left when it is visited again. -/
theorem folder_visit_exceptions :
    (let after := scanFolderIncrementally (flacFolder ["/m/a.flac", "/m/b.flac"] fun _ _ => true)
        (fun _ => none) 10 "/m" ⟨[flacRow 1 "/m/a.flac"], [], 2, {}⟩;
      "/m/a.flac" ∉ after.result.failingPaths ∧ ∀ row ∈ after.files, row.filePath ≠ "/m/a.flac") ∧
    (let after := scanFolderIncrementally (flacFolder ["/m/a.flac"] fun _ _ => false)
        (fun _ => none) 10 "/m" ⟨[{ flacRow 1 "/m/a.flac" with fileStatus := .deleted }],
          [], 2, {}⟩;
      "/m/a.flac" ∉ after.result.failingPaths ∧ ∀ row ∈ after.files, row.fileStatus = .deleted) ∧
    (let after := scanFolderIncrementally (flacFolder [] fun _ _ => false) (fun _ => none) 10
        "/m\\n" ⟨[flacRow 1 "/m\\n/a.flac"], [], 2, {}⟩
      ∀ row ∈ after.files, row.fileStatus = .present) ∧
    (let disk := flacFolder ["/m/new.flac", "/m/b.flac"] fun _ _ => false
      let refuses := fun filePath => if filePath = "/m/new.flac" then some "refused" else none
      let after := scanFolderIncrementally disk refuses 10 "/m"
        ⟨[flacRow 1 "/old/a.flac", flacRow 2 "/old/b.flac"], [], 3, {}⟩
      (after.files.map LibraryFile.filePath = ["/old/a.flac", "/m/b.flac"]) ∧
        (scanFolderIncrementally disk refuses 20 "/m" after).files.map LibraryFile.filePath =
          ["/m/new.flac", "/m/b.flac"]) := by
  decide +kernel

end RetroStation.Library
