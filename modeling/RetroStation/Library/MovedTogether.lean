import RetroStation.Library.Adoption

/-! # Files moved together

Of several files that were moved as they were, each takes its own row or none, whatever
the order they are visited in and whichever of them the database accepts.
-/

namespace RetroStation.Library

/-- The rows a file may have been moved from whose own path is not found. -/
def goneMatches (files : List LibraryFile) (answer : String → DiskAnswer) (file : LibraryFile) :
    List LibraryFile :=
  files.filter fun row => isMatch file row && !pathExists answer row.filePath

/-- A file that was moved as it was: it matches its row, which it left, has that row's track,
and is at a path of its own. It carries a track that no other match carries, keeps its name,
or has a name that no match has. -/
structure MovedFile (names : Names) (answer : String → DiskAnswer) (files : List LibraryFile)
    (own file : LibraryFile) : Prop where
  row : own ∈ files
  left : pathExists answer own.filePath = false
  there : pathExists answer file.filePath = true
  new : ∀ row ∈ files, row.filePath ≠ file.filePath ∧
    names.isSameFile row.filePath file.filePath = false
  isMatch : isMatch file own = true
  track : trackPosition own = trackPosition file
  told : OnlyTrack (goneMatches files answer file) file own ∨
    names.fileName own.filePath = names.fileName file.filePath ∨
    ∀ row ∈ goneMatches files answer file,
      names.fileName row.filePath ≠ names.fileName file.filePath

/-- Files moved together, each with its row: different rows, different files. -/
structure MovedTogether (names : Names) (answer : String → DiskAnswer) (files : List LibraryFile)
    (pairs : List (LibraryFile × LibraryFile)) : Prop where
  ids : Table.UniqueBy LibraryFile.id files
  moved : ∀ pair ∈ pairs, MovedFile names answer files pair.1 pair.2
  rows : ∀ first ∈ pairs, ∀ second ∈ pairs, first ≠ second → first.1.id ≠ second.1.id
  apart : ∀ first ∈ pairs, ∀ second ∈ pairs, first ≠ second →
    first.2.filePath ≠ second.2.filePath ∧
      names.isSameFile first.2.filePath second.2.filePath = false
  fresh : ∀ pair ∈ pairs, (∀ row ∈ files, row.id ≠ pair.2.id) ∧
    ∀ other ∈ pairs, pair ≠ other → pair.2.id ≠ other.2.id

/-- Its track, or the name it keeps, is its own among the matches. -/
def Decided (names : Names) (answer : String → DiskAnswer) (files : List LibraryFile)
    (own file : LibraryFile) : Prop :=
  OnlyTrack (goneMatches files answer file) file own ∨
    (names.fileName own.filePath = names.fileName file.filePath ∧
      ∀ row ∈ goneMatches files answer file,
        names.fileName row.filePath = names.fileName file.filePath → row = own)

/-- The row has followed its file. -/
def Followed (now : List LibraryFile) (own file : LibraryFile) : Prop :=
  ∃ row ∈ now, row.id = own.id ∧ row.filePath = file.filePath

/-- What is known once the files of `done` are visited: a row is an old one or at the path of
a visited file, the rows of the files still to come are untouched, and each visited file's row
is untouched or has followed it. -/
structure VisitedOk (names : Names) (answer : String → DiskAnswer) (files : List LibraryFile)
    (pairs : List (LibraryFile × LibraryFile)) (done : List LibraryFile)
    (now : List LibraryFile) : Prop where
  ids : Table.UniqueBy LibraryFile.id now
  rows : ∀ row ∈ now, row ∈ files ∨ ∃ pair ∈ pairs, pair.2 ∈ done ∧
    row.filePath = pair.2.filePath ∧ (row.id = pair.1.id ∨ row.id = pair.2.id)
  waiting : ∀ pair ∈ pairs, pair.2 ∉ done → pair.1 ∈ now
  visited : ∀ pair ∈ pairs, pair.2 ∈ done → pair.1 ∈ now ∨ Followed now pair.1 pair.2
  decided : ∀ pair ∈ pairs, pair.2 ∈ done → Decided names answer files pair.1 pair.2 →
    Followed now pair.1 pair.2
  fresh : ∀ pair ∈ pairs, pair.2 ∉ done → ∀ row ∈ now, row.id ≠ pair.2.id

section

variable {names : Names} {answer : String → DiskAnswer} {files now done : List LibraryFile}
  {pairs : List (LibraryFile × LibraryFile)} {pair : LibraryFile × LibraryFile}

/-- A file visited besides the pair's was visited before it. -/
theorem MovedTogether.visited_before (htogether : MovedTogether names answer files pairs)
    {other : LibraryFile × LibraryFile} (hpair : pair ∈ pairs) (hother : other ∈ pairs)
    (hne : other ≠ pair) (hvisited : other.2 ∈ pair.2 :: done) : other.2 ∈ done := by
  rcases List.mem_cons.mp hvisited with hsame | hdone
  · exact absurd (congrArg LibraryFile.filePath hsame)
      (htogether.apart other hother pair hpair hne).1
  · exact hdone

/-! ## One visit -/

section

variable (htogether : MovedTogether names answer files pairs)
  (hok : VisitedOk names answer files pairs done now) (hpair : pair ∈ pairs) (hnew : pair.2 ∉ done)

include htogether hok hpair hnew

/-- No row there is now is at the file's path or names it. -/
theorem not_named {row : LibraryFile} (hrow : row ∈ now) : row.filePath ≠ pair.2.filePath ∧
    names.isSameFile row.filePath pair.2.filePath = false := by
  rcases hok.rows row hrow with hold | ⟨other, hother, hdone, hpath, -⟩
  · exact (htogether.moved pair hpair).new row hold
  · rw [hpath]
    exact htogether.apart other hother pair hpair fun hsame => hnew (hsame ▸ hdone)

/-- What the new file may have been moved from are matches of old, its own row among them. -/
theorem candidates_spec {row : LibraryFile} :
    row ∈ (moveCandidates now pair.2).filter (fun candidate =>
      candidate.filePath ≠ pair.2.filePath ∧ (!pathExists answer candidate.filePath ||
        names.isSameFile candidate.filePath pair.2.filePath)) ↔
    row ∈ now ∧ row ∈ goneMatches files answer pair.2 := by
  rw [List.mem_filter, mem_moveCandidates hok.ids, goneMatches, List.mem_filter]
  constructor
  · rintro ⟨⟨hrow, hmatch⟩, hgone⟩
    obtain ⟨hpath, hnot⟩ := not_named htogether hok hpair hnew hrow
    simp only [ne_eq, hpath, not_false_eq_true, hnot, Bool.or_false, true_and,
      decide_eq_true_eq] at hgone
    refine ⟨hrow, ?_, by simp [hmatch, hgone]⟩
    rcases hok.rows row hrow with hold | ⟨other, hother, -, hpath', -⟩
    · exact hold
    · rw [hpath', (htogether.moved other hother).there] at hgone
      cases hgone
  · rintro ⟨hrow, -, hboth⟩
    obtain ⟨hpath, hnot⟩ := not_named htogether hok hpair hnew hrow
    rw [Bool.and_eq_true] at hboth
    exact ⟨⟨hrow, hboth.1⟩, by simp [hpath, hnot, hboth.2]⟩

theorem movedFrom_eq : movedFrom now names answer pair.2 =
    chooseMoveOrigin names pair.2 ((moveCandidates now pair.2).filter fun candidate =>
      candidate.filePath ≠ pair.2.filePath ∧ (!pathExists answer candidate.filePath ||
        names.isSameFile candidate.filePath pair.2.filePath)) := by
  have hnone : respelledFrom now names pair.2 = none := by
    refine List.find?_eq_none.mpr fun row hrow => ?_
    have hin := List.mem_of_mem_filter (mem_orderByPath.mp hrow)
    simp [(not_named htogether hok hpair hnew hin).2]
  unfold movedFrom
  rw [hnone, Option.none_or]

/-- The new file takes its own row or none. -/
theorem movedFrom_own {origin : LibraryFile}
    (horigin : movedFrom now names answer pair.2 = some origin) : origin = pair.1 := by
  have hmoved := htogether.moved pair hpair
  rw [movedFrom_eq htogether hok hpair hnew] at horigin
  have hspec := @candidates_spec _ _ _ _ _ _ _ htogether hok hpair hnew
  refine chooseMoveOrigin_own (nodup_moveCandidates.filter _)
    (hspec.mpr ⟨hok.waiting pair hpair hnew,
    List.mem_filter.mpr ⟨hmoved.row, by simp [hmoved.isMatch, hmoved.left]⟩⟩) hmoved.track
    (hmoved.told.imp (fun honly => ⟨honly.1, fun row hrow => ?_⟩)
      (Or.imp_right fun hnoName row hrow => ?_)) horigin
  · exact honly.2 row (hspec.mp hrow).2
  · exact hnoName row (hspec.mp hrow).2

/-- It takes its own row if its track, or its name, is its own among the matches of old. -/
theorem movedFrom_decided (hdecided : Decided names answer files pair.1 pair.2) :
    movedFrom now names answer pair.2 = some pair.1 := by
  have hmoved := htogether.moved pair hpair
  have hspec := @candidates_spec _ _ _ _ _ _ _ htogether hok hpair hnew
  rw [movedFrom_eq htogether hok hpair hnew]
  refine chooseMoveOrigin_decided (nodup_moveCandidates.filter _)
    (hspec.mpr ⟨hok.waiting pair hpair hnew,
      List.mem_filter.mpr ⟨hmoved.row, by simp [hmoved.isMatch, hmoved.left]⟩⟩) hmoved.track
    (hdecided.imp (fun honly => ⟨honly.1, fun row hrow => ?_⟩)
      fun hname => ⟨hname.1, fun row hrow => ?_⟩)
  · exact honly.2 row (hspec.mp hrow).2
  · exact hname.2 row (hspec.mp hrow).2

/-- Adopting repoints the file's own row or nothing, and repoints it when it is told apart. -/
theorem adoptRow_own :
    ((adoptRow now names answer pair.2).1 = now ∧ ¬Decided names answer files pair.1 pair.2) ∨
      (adoptRow now names answer pair.2).1 =
        now.map fun row => if row = pair.1 then Library.moved pair.2.filePath row else row := by
  rcases @adoptRow_spec now names answer pair.2 hok.ids with hnone | ⟨origin, -, horigin, hrows, -⟩
  · refine .inl ⟨by rw [hnone], fun hdecided => ?_⟩
    have hsome := movedFrom_decided htogether hok hpair hnew hdecided
    rw [adoptRow, hsome] at hnone
    cases (Prod.ext_iff.mp hnone).2
  · rw [hrows, movedFrom_own htogether hok hpair hnew horigin]
    exact .inr rfl

theorem of_mem_adoptRow {row : LibraryFile} (hrow : row ∈ (adoptRow now names answer pair.2).1) :
    (∃ old ∈ now, old.id = row.id) ∧
      (row ∈ now ∨ row.filePath = pair.2.filePath ∧ row.id = pair.1.id) := by
  rcases adoptRow_own htogether hok hpair hnew with ⟨hsame, -⟩ | hrows
  · rw [hsame] at hrow
    exact ⟨⟨row, hrow, rfl⟩, .inl hrow⟩
  · rw [hrows] at hrow
    obtain ⟨old, hold, rfl⟩ := List.mem_map.mp hrow
    split
    next hown =>
      have hid : old.id = pair.1.id := congrArg LibraryFile.id hown
      exact ⟨⟨old, hold, rfl⟩, .inr ⟨rfl, hid⟩⟩
    · exact ⟨⟨old, hold, rfl⟩, .inl hold⟩

theorem mem_adoptRow_of_ne {row : LibraryFile} (hrow : row ∈ now) (hid : row.id ≠ pair.1.id) :
    row ∈ (adoptRow now names answer pair.2).1 := by
  rcases adoptRow_own htogether hok hpair hnew with ⟨hsame, -⟩ | hrows
  · rwa [hsame]
  · rw [hrows]
    exact List.mem_map.mpr ⟨row, hrow, if_neg fun hsame => hid (congrArg LibraryFile.id hsame)⟩

theorem adoptRow_follows : (pair.1 ∈ (adoptRow now names answer pair.2).1 ∧
      ¬Decided names answer files pair.1 pair.2) ∨
    Followed (adoptRow now names answer pair.2).1 pair.1 pair.2 := by
  have hown := hok.waiting pair hpair hnew
  rcases adoptRow_own htogether hok hpair hnew with ⟨hsame, hundecided⟩ | hrows
  · exact .inl ⟨by rwa [hsame], hundecided⟩
  · refine .inr ⟨Library.moved pair.2.filePath pair.1, ?_, rfl, rfl⟩
    rw [hrows]
    exact List.mem_map.mpr ⟨pair.1, hown, if_pos rfl⟩

omit htogether hpair hnew in
theorem unique_id_adoptRow :
    Table.UniqueBy LibraryFile.id (adoptRow now names answer pair.2).1 := by
  unfold adoptRow
  split
  · exact hok.ids
  · exact hok.ids.update fun _ => rfl

/-- Adopting leaves every row but the file's own as it was. -/
theorem adopt_ok :
    VisitedOk names answer files pairs (pair.2 :: done) (adoptRow now names answer pair.2).1 where
  ids := unique_id_adoptRow hok
  rows row hrow := by
    rcases (of_mem_adoptRow htogether hok hpair hnew hrow).2 with hold | ⟨hpath, hid⟩
    · refine (hok.rows row hold).imp_right fun ⟨other, hother, hdone, hplace⟩ => ?_
      exact ⟨other, hother, List.mem_cons_of_mem _ hdone, hplace⟩
    · exact .inr ⟨pair, hpair, List.mem_cons_self, hpath, .inl hid⟩
  waiting other hother hwaits := by
    have hne : other ≠ pair := fun hsame => hwaits (hsame ▸ List.mem_cons_self)
    exact mem_adoptRow_of_ne htogether hok hpair hnew
      (hok.waiting other hother fun hdone => hwaits (List.mem_cons_of_mem _ hdone))
      (htogether.rows other hother pair hpair hne)
  visited other hother hvisited := by
    by_cases hsame : other = pair
    · rw [hsame]
      exact (adoptRow_follows htogether hok hpair hnew).imp_left And.left
    have hdone := htogether.visited_before hpair hother hsame hvisited
    have hid := htogether.rows other hother pair hpair hsame
    rcases hok.visited other hother hdone with hstays | ⟨row, hrow, hsameId, hpath⟩
    · exact .inl (mem_adoptRow_of_ne htogether hok hpair hnew hstays hid)
    · exact .inr ⟨row, mem_adoptRow_of_ne htogether hok hpair hnew hrow (hsameId ▸ hid),
        hsameId, hpath⟩
  decided other hother hvisited hdecided := by
    by_cases hsame : other = pair
    · rw [hsame] at hdecided ⊢
      exact (adoptRow_follows htogether hok hpair hnew).resolve_left fun hnot => hnot.2 hdecided
    have hdone := htogether.visited_before hpair hother hsame hvisited
    obtain ⟨row, hrow, hsameId, hpath⟩ := hok.decided other hother hdone hdecided
    have hid := htogether.rows other hother pair hpair hsame
    exact ⟨row, mem_adoptRow_of_ne htogether hok hpair hnew hrow (hsameId ▸ hid), hsameId, hpath⟩
  fresh other hother hwaits row hrow := by
    obtain ⟨old, hold, hid⟩ := (of_mem_adoptRow htogether hok hpair hnew hrow).1
    rw [← hid]
    exact hok.fresh other hother (fun hdone => hwaits (List.mem_cons_of_mem _ hdone)) old hold

/-- Writing the file over its row, or as a row of its own, moves no row. -/
theorem upsert_ok : VisitedOk names answer files pairs (pair.2 :: done)
    (upsert (adoptRow now names answer pair.2).1 pair.2) := by
  have hadopted := adopt_ok htogether hok hpair hnew
  have hfresh : ∀ row ∈ (adoptRow now names answer pair.2).1, row.id ≠ pair.2.id := by
    intro row hrow
    obtain ⟨old, hold, hid⟩ := (of_mem_adoptRow htogether hok hpair hnew hrow).1
    rw [← hid]
    exact hok.fresh pair hpair hnew old hold
  have hfollows : ∀ other : LibraryFile × LibraryFile,
      Followed (adoptRow now names answer pair.2).1 other.1 other.2 →
        Followed (upsert (adoptRow now names answer pair.2).1 pair.2) other.1 other.2 := by
    rintro other ⟨row, hrow, hid, hpath⟩
    by_cases hsame : row.filePath = pair.2.filePath
    · exact ⟨upserted pair.2 row, upserted_mem_upsert hrow hsame, hid, hpath⟩
    · exact ⟨row, mem_upsert_of_ne hrow hsame, hid, hpath⟩
  have hstays : ∀ other ∈ pairs, other.1 ∈ (adoptRow now names answer pair.2).1 →
      other.1 ∈ upsert (adoptRow now names answer pair.2).1 pair.2 := fun other hother hrow =>
    mem_upsert_of_ne hrow ((htogether.moved pair hpair).new other.1
      (htogether.moved other hother).row).1
  refine ⟨unique_id_upsert hadopted.ids fun row hrow _ => hfresh row hrow, fun row hrow => ?_,
    fun other hother hwaits => hstays other hother (hadopted.waiting other hother hwaits),
    fun other hother hvisited => (hadopted.visited other hother hvisited).imp
      (hstays other hother) (hfollows other),
    fun other hother hvisited hdecided =>
      hfollows other (hadopted.decided other hother hvisited hdecided),
    fun other hother hwaits row hrow => ?_⟩
  · rcases of_mem_upsert hrow with ⟨hrow, -⟩ | ⟨hpath, hid | ⟨old, hold, holdPath, rfl⟩⟩
    · exact hadopted.rows row hrow
    · exact .inr ⟨pair, hpair, List.mem_cons_self, hpath, .inr hid⟩
    · rcases hadopted.rows old hold with hfile | ⟨other, hother, -, hplace, hid⟩
      · exact absurd holdPath ((htogether.moved pair hpair).new old hfile).1
      · -- the row written over is at the path of the file itself
        have hsame : other = pair := by
          by_contra hne
          exact (htogether.apart other hother pair hpair hne).1 (hplace.symm.trans holdPath)
        exact .inr ⟨pair, hpair, List.mem_cons_self, hpath, hsame ▸ hid⟩
  · rcases of_mem_upsert hrow with ⟨hrow, -⟩ | ⟨-, hid | ⟨old, hold, -, rfl⟩⟩
    · exact hadopted.fresh other hother hwaits row hrow
    · rw [hid]
      exact (htogether.fresh pair hpair).2 other hother fun hsame =>
        hwaits (hsame ▸ List.mem_cons_self)
    · exact hadopted.fresh other hother hwaits old hold

theorem visitNew_ok (accepted : Bool) : VisitedOk names answer files pairs (pair.2 :: done)
    (visitNew names answer now (pair.2, accepted)) := by
  cases accepted with
  | false => exact adopt_ok htogether hok hpair hnew
  | true => exact upsert_ok htogether hok hpair hnew

end

/-! ## A run of visits -/

/-- The visits are of files that were moved together, each once. -/
structure VisitsOf (pairs : List (LibraryFile × LibraryFile))
    (visits : List (LibraryFile × Bool)) : Prop where
  once : (visits.map Prod.fst).Nodup
  moved : ∀ visit ∈ visits, ∃ pair ∈ pairs, pair.2 = visit.1

theorem MovedTogether.start (htogether : MovedTogether names answer files pairs) :
    VisitedOk names answer files pairs [] files where
  ids := htogether.ids
  rows _ hrow := .inl hrow
  waiting pair hpair _ := (htogether.moved pair hpair).row
  visited _ _ hvisited := nomatch hvisited
  decided _ _ hvisited := nomatch hvisited
  fresh pair hpair _ := (htogether.fresh pair hpair).1

theorem visits_ok (htogether : MovedTogether names answer files pairs)
    (hok : VisitedOk names answer files pairs done now) {visits : List (LibraryFile × Bool)}
    (hvisits : VisitsOf pairs visits) (hapart : ∀ visit ∈ visits, visit.1 ∉ done) :
    VisitedOk names answer files pairs ((visits.map Prod.fst).reverse ++ done)
      (visits.foldl (visitNew names answer) now) := by
  induction visits generalizing now done with
  | nil => exact hok
  | cons visit rest ih =>
      obtain ⟨pair, hpair, hfile⟩ := hvisits.moved visit List.mem_cons_self
      obtain ⟨hnotIn, honce⟩ := List.nodup_cons.mp hvisits.once
      have hstep := @visitNew_ok _ _ _ _ _ _ _ htogether hok hpair
        (hfile ▸ hapart visit List.mem_cons_self) visit.2
      rw [hfile] at hstep
      have hrun := ih hstep ⟨honce, fun later hlater =>
          hvisits.moved later (List.mem_cons_of_mem _ hlater)⟩ fun later hlater hdone => by
        rcases List.mem_cons.mp hdone with hsame | hdone
        · exact hnotIn (hsame ▸ List.mem_map_of_mem hlater)
        · exact hapart later (List.mem_cons_of_mem _ hlater) hdone
      simpa using hrun

/-- The row a visited file adopts, whatever was visited before it: its own or none. -/
theorem visits_adopt_own (htogether : MovedTogether names answer files pairs)
    {before after : List (LibraryFile × Bool)} {visit : LibraryFile × Bool}
    (hvisits : VisitsOf pairs (before ++ visit :: after)) (hpair : pair ∈ pairs)
    (hfile : pair.2 = visit.1) :
    movedFrom (before.foldl (visitNew names answer) files) names answer visit.1 = none ∨
      movedFrom (before.foldl (visitNew names answer) files) names answer visit.1 =
        some pair.1 := by
  have honce := hvisits.once
  rw [List.map_append, List.nodup_append] at honce
  have hok := visits_ok htogether htogether.start ⟨honce.1, fun earlier hearlier =>
    hvisits.moved earlier (List.mem_append_left _ hearlier)⟩ fun _ _ => List.not_mem_nil
  have hnew : pair.2 ∉ (before.map Prod.fst).reverse ++ [] := by
    rw [List.append_nil, List.mem_reverse]
    exact fun hearlier => honce.2.2 _ hearlier visit.1 (by simp) hfile
  rw [← hfile]
  cases horigin : movedFrom (before.foldl (visitNew names answer) files) names answer pair.2 with
  | none => exact .inl rfl
  | some origin => exact .inr (congrArg some (movedFrom_own htogether hok hpair hnew horigin))

/-- Where the rows of files moved together end: each stays or follows its own file, follows it
if it is told apart, and at a file's path there is no other file's row. -/
theorem visits_follow (htogether : MovedTogether names answer files pairs)
    {visits : List (LibraryFile × Bool)} (hvisits : VisitsOf pairs visits) (hpair : pair ∈ pairs) :
    (pair.1 ∈ visits.foldl (visitNew names answer) files ∨
        Followed (visits.foldl (visitNew names answer) files) pair.1 pair.2) ∧
      (pair.2 ∈ visits.map Prod.fst → Decided names answer files pair.1 pair.2 →
        Followed (visits.foldl (visitNew names answer) files) pair.1 pair.2) ∧
      ∀ row ∈ visits.foldl (visitNew names answer) files, row.filePath = pair.2.filePath →
        row.id = pair.1.id ∨ row.id = pair.2.id := by
  have hok := visits_ok htogether htogether.start hvisits fun _ _ => List.not_mem_nil
  have hvisited : ∀ {file : LibraryFile}, file ∈ (visits.map Prod.fst).reverse ++ [] ↔
      file ∈ visits.map Prod.fst := by
    intro file
    rw [List.append_nil, List.mem_reverse]
  refine ⟨?_, fun hfile => hok.decided pair hpair (hvisited.mpr hfile), fun row hrow hpath => ?_⟩
  · by_cases hfile : pair.2 ∈ visits.map Prod.fst
    · exact hok.visited pair hpair (hvisited.mpr hfile)
    · exact .inl (hok.waiting pair hpair fun hdone => hfile (hvisited.mp hdone))
  · rcases hok.rows row hrow with hold | ⟨other, hother, -, hplace, hid⟩
    · exact absurd hpath ((htogether.moved pair hpair).new row hold).1
    · have hsame : other = pair := by
        by_contra hne
        exact (htogether.apart other hother pair hpair hne).1 (hplace.symm.trans hpath)
      exact hsame ▸ hid

end

/-- A host that tells letters of either case apart; a name is what follows the last slash. -/
def plainNames : Names where
  lower path := path
  fileName path := String.ofList (path.toList.reverse.takeWhile (· ≠ '/')).reverse
  isSameFile first second := first = second

/-- Only the files under `/new` are there. -/
def onlyNew (path : String) : DiskAnswer :=
  if "/new/".toList.isPrefixOf path.toList then .found else .notFound

/-- A file of one recording, as a track of one of the releases it is on. -/
def twinFile (id : Uuid) (filePath releaseTitle : String) : LibraryFile where
  id := id
  filePath := filePath
  audioHash := some "flac-md5:1"
  audio := { releaseTitle := some releaseTitle, discNumber := some 1, trackNumber := some 1 }

/-- Two twins, on a track each, that trade their names as they move. -/
def tradedNames : List (LibraryFile × LibraryFile) :=
  [(twinFile 1 "/old/a.flac" "Album", twinFile 11 "/new/b.flac" "Album"),
    (twinFile 2 "/old/b.flac" "Hits", twinFile 12 "/new/a.flac" "Hits")]

theorem tradedNames_onlyTrack : ∀ pair ∈ tradedNames,
    OnlyTrack (goneMatches (tradedNames.map Prod.fst) onlyNew pair.2) pair.2 pair.1 := by
  unfold OnlyTrack
  decide

theorem tradedNames_together :
    MovedTogether plainNames onlyNew (tradedNames.map Prod.fst) tradedNames where
  ids := by decide
  moved pair hpair :=
    { row := List.mem_map_of_mem hpair
      left := (by decide : ∀ pair ∈ tradedNames,
        pathExists onlyNew pair.1.filePath = false) pair hpair
      there := (by decide : ∀ pair ∈ tradedNames,
        pathExists onlyNew pair.2.filePath = true) pair hpair
      new := (by decide : ∀ pair ∈ tradedNames, ∀ row ∈ tradedNames.map Prod.fst,
        row.filePath ≠ pair.2.filePath ∧
          plainNames.isSameFile row.filePath pair.2.filePath = false) pair hpair
      isMatch := (by decide : ∀ pair ∈ tradedNames, isMatch pair.2 pair.1 = true) pair hpair
      track := (by decide : ∀ pair ∈ tradedNames,
        trackPosition pair.1 = trackPosition pair.2) pair hpair
      told := .inl (tradedNames_onlyTrack pair hpair) }
  rows := by decide
  apart := by decide
  fresh := by decide

/-- Three twins are moved. Two are on one track; one of these gets the third one's name. -/
def threeTwins : List (LibraryFile × LibraryFile) :=
  [(twinFile 1 "/old/a.flac" "Album", twinFile 11 "/new/c.flac" "Album"),
    (twinFile 2 "/old/b.flac" "Album", twinFile 12 "/new/b.flac" "Album"),
    (twinFile 3 "/old/c.flac" "Hits", twinFile 13 "/new/a.flac" "Hits")]

end RetroStation.Library
