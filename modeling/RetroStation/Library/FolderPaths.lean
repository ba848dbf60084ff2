import Mathlib.Data.List.DropRight
import RetroStation.Library.FolderScan
import RetroStation.Text.Like

/-! # Folders as LIKE prefixes

The rows beneath a folder are looked up by a LIKE pattern that is made of the folder's path.
-/

namespace RetroStation.Library

open Text

/-! ## The queries -/

/-- A pattern that matches only the text. -/
def likeLiteral (text : List Char) : List Char :=
  replaceChar '_' ['\\', '_'] (replaceChar '%' ['\\', '%'] (replaceChar '\\' ['\\', '\\'] text))

/-- A folder's prefix and its separator, escaped. -/
def dirLikePrefix (folderPath : String) : List Char × List Char :=
  (likeLiteral (dirPrefix folderPath).1, likeLiteral [(dirPrefix folderPath).2])

/-- Whether the path matches a pattern and does not match another one. -/
def likeButNot (pattern excluded path : List Char) : Option Bool := do
  let matched ← like pattern path
  let out ← like excluded path
  return matched && !out

/-- `get_by_folder_path`, as its query selects the rows. -/
def selectByFolderPath (files : List LibraryFile) (folderPath : String) :
    Option (List LibraryFile) :=
  let (folder, sepLiteral) := dirLikePrefix folderPath
  files.filterM fun row =>
    likeButNot (folder ++ ['%']) (folder ++ ['%'] ++ sepLiteral ++ ['%']) row.filePath.toList

/-- `get_path_statuses_under`, as its query selects the rows. -/
def selectPathStatusesUnder (files : List LibraryFile) (root : String) :
    Option (Dict String FileStatus) := do
  let rows ← files.filterM fun row => like ((dirLikePrefix root).1 ++ ['%']) row.filePath.toList
  return Dict.ofList (rows.map fun row => (row.filePath, row.fileStatus))

/-! ## What the patterns match -/

theorem likeLiteral_eq (text : List Char) : likeLiteral text = text.flatMap escapeLike :=
  replaceChar_escapes text

theorem likePieces_literal (text : List Char) :
    likePieces false (likeLiteral text) = some (text.map .char) := by
  rw [likeLiteral_eq, likePieces_escaped]

/-- A literal and a run match what begins with the literal. -/
theorem like_literal_run (start text : List Char) :
    like (likeLiteral start ++ ['%']) text = some (start.isPrefixOf text) := by
  have hpieces : likePieces false (likeLiteral start ++ ['%']) =
      some (start.map .char ++ [.run]) := by
    rw [likePieces_append (likePieces_literal start)]
    rfl
  rw [like, hpieces, Option.map_some, Option.some.injEq, Bool.eq_iff_iff, likeAccepts_chars,
    List.isPrefixOf_iff_prefix]
  constructor
  · rintro ⟨rest, rfl, -⟩
    exact List.prefix_append _ _
  · rintro ⟨rest, rfl⟩
    exact ⟨rest, rfl, likeAccepts_anything⟩

/-- Two literals with runs behind them match what has the second one somewhere behind the first. -/
theorem like_literal_run_char (start text : List Char) (sep : Char) :
    like (likeLiteral start ++ ['%'] ++ likeLiteral [sep] ++ ['%']) text =
      some (start.isPrefixOf text && (text.drop start.length).contains sep) := by
  have hpieces : likePieces false (likeLiteral start ++ ['%'] ++ likeLiteral [sep] ++ ['%']) =
      some (start.map .char ++ .run :: .char sep :: [.run]) := by
    rw [List.append_assoc, List.append_assoc, likePieces_append (likePieces_literal start),
      List.singleton_append]
    change ((likePieces false (likeLiteral [sep] ++ ['%'])).map (.run :: ·)).map _ = _
    rw [likePieces_append (likePieces_literal [sep])]
    rfl
  rw [like, hpieces, Option.map_some, Option.some.injEq, Bool.eq_iff_iff, likeAccepts_chars,
    Bool.and_eq_true, List.isPrefixOf_iff_prefix, List.contains_iff_mem]
  constructor
  · rintro ⟨rest, rfl, haccepts⟩
    obtain ⟨front, behind, rfl, hsep⟩ := likeAccepts_run.mp haccepts
    obtain ⟨last, rfl, -⟩ := (likeAccepts_chars [sep]).mp hsep
    refine ⟨List.prefix_append _ _, ?_⟩
    rw [List.drop_left]
    simp
  · rintro ⟨⟨rest, rfl⟩, hsep⟩
    rw [List.drop_left] at hsep
    obtain ⟨front, behind, rfl⟩ := List.append_of_mem hsep
    refine ⟨_, rfl, likeAccepts_run.mpr ⟨front, sep :: behind, rfl, ?_⟩⟩
    exact (likeAccepts_chars [sep]).mpr ⟨behind, rfl, likeAccepts_anything⟩

theorem filterM_some {Item : Type} {select : Item → Option Bool} {kept : Item → Bool}
    (hselect : ∀ item, select item = some (kept item)) (items : List Item) :
    items.filterM select = some (items.filter kept) := by
  have hfrom : ∀ done : List Item,
      items.filterAuxM select done = some ((items.filter kept).reverse ++ done) := by
    induction items with
    | nil => exact fun done => rfl
    | cons item rest ih =>
        intro done
        rw [List.filterAuxM, hselect]
        change rest.filterAuxM select (cond (kept item) (item :: done) done) = _
        rw [ih]
        cases hkept : kept item <;> simp [hkept]
  rw [List.filterM, hfrom []]
  simp

/-- The query's pattern and the prefix test select the same rows. -/
theorem selectPathStatusesUnder_eq (files : List LibraryFile) (root : String) :
    selectPathStatusesUnder files root = some (getPathStatusesUnder files root) := by
  have hrows : files.filterM (fun row =>
      like ((dirLikePrefix root).1 ++ ['%']) row.filePath.toList) =
        some (files.filter fun row => isUnder root row.filePath) :=
    filterM_some (fun row => like_literal_run _ _) files
  rw [selectPathStatusesUnder, hrows]
  rfl

theorem selectByFolderPath_eq (files : List LibraryFile) (folderPath : String) :
    selectByFolderPath files folderPath = some (getByFolderPath files folderPath) := by
  refine filterM_some (fun row => ?_) files
  have hfolder := like_literal_run (dirPrefix folderPath).1 row.filePath.toList
  have hlater := like_literal_run_char (dirPrefix folderPath).1 row.filePath.toList
    (dirPrefix folderPath).2
  rw [likeButNot, hfolder, hlater, inFolder, isUnder]
  cases (dirPrefix folderPath).1.isPrefixOf row.filePath.toList <;> rfl

/-! ## What lies beneath a folder -/

/-- How a system spells paths. -/
inductive PathStyle
  | posix
  | windows
  deriving DecidableEq, Repr

/-- The character between a folder and what lies in it. -/
def PathStyle.sep : PathStyle → Char
  | posix => '/'
  | windows => '\\'

/-- The characters that a folder's path may end with. Windows has two of them. -/
def PathStyle.endsFolder : PathStyle → Char → Bool
  | posix, char => char = '/'
  | windows, char => char = '/' || char = '\\'

/-- What the path of everything beneath the folder begins with. -/
def folderStart (style : PathStyle) (folderPath : String) : List Char :=
  folderPath.toList.rdropWhile style.endsFolder ++ [style.sep]

def LiesBeneath (style : PathStyle) (folderPath filePath : String) : Prop :=
  ∃ rest, filePath.toList = folderStart style folderPath ++ rest

/-- The path lies in the folder itself, not in a folder that lies there. -/
def LiesDirectlyIn (style : PathStyle) (folderPath filePath : String) : Prop :=
  ∃ name, filePath.toList = folderStart style folderPath ++ name ∧ style.sep ∉ name

section

variable {style : PathStyle} {folderPath filePath : String}

theorem liesBeneath_iff : (folderStart style folderPath).isPrefixOf filePath.toList = true ↔
    LiesBeneath style folderPath filePath := by
  rw [List.isPrefixOf_iff_prefix]
  exact exists_congr fun rest => eq_comm

theorem liesDirectlyIn_iff : ((folderStart style folderPath).isPrefixOf filePath.toList &&
      !((filePath.toList.drop (folderStart style folderPath).length).contains style.sep)) = true ↔
    LiesDirectlyIn style folderPath filePath := by
  rw [Bool.and_eq_true, liesBeneath_iff, Bool.not_eq_true', ← Bool.not_eq_true,
    List.contains_iff_mem]
  constructor
  · rintro ⟨⟨name, hpath⟩, hnone⟩
    rw [hpath, List.drop_left] at hnone
    exact ⟨name, hpath, hnone⟩
  · rintro ⟨name, hpath, hnone⟩
    refine ⟨⟨name, hpath⟩, ?_⟩
    rwa [hpath, List.drop_left]

instance : Decidable (LiesBeneath style folderPath filePath) := decidable_of_iff _ liesBeneath_iff

instance : Decidable (LiesDirectlyIn style folderPath filePath) :=
  decidable_of_iff _ liesDirectlyIn_iff

end

/-- In every table the queries answer exactly the rows beneath the folder, and those in it. -/
def SelectsFolder (style : PathStyle) (folderPath : String) : Prop :=
  ∀ files : List LibraryFile,
    selectPathStatusesUnder files folderPath =
        some (Dict.ofList ((files.filter fun row => LiesBeneath style folderPath row.filePath).map
          fun row => (row.filePath, row.fileStatus))) ∧
      selectByFolderPath files folderPath =
        some (files.filter fun row => LiesDirectlyIn style folderPath row.filePath)

/-- The folder's path has the backslash of a Windows path, and of no other; and a Windows path
ends with slashes only where no backslash follows them. -/
def SpelledAs : PathStyle → String → Prop
  | .posix, folderPath => '\\' ∉ folderPath.toList
  | .windows, folderPath => '\\' ∈ folderPath.toList ∧
      ((folderPath.toList.rdropWhile (· = '/')).rdropWhile (· = '\\')).getLast? ≠ some '/'

section

variable {style : PathStyle} {folderPath : String}

theorem dirPrefix_eq (folderPath : String) : (dirPrefix folderPath).1 =
    (folderPath.toList.rdropWhile (· = '/')).rdropWhile (· = '\\') ++
      [(dirPrefix folderPath).2] := by
  rw [dirPrefix, List.rdropWhile, List.rdropWhile, List.reverse_reverse]

theorem dirPrefix_sep (folderPath : String) :
    (dirPrefix folderPath).2 = if '\\' ∈ folderPath.toList then '\\' else '/' := rfl

/-- Where the prefixes agree, the queries answer the right rows. -/
theorem selectsFolder_of_eq (hstart : (dirPrefix folderPath).1 = folderStart style folderPath) :
    SelectsFolder style folderPath := by
  have hsep : (dirPrefix folderPath).2 = style.sep := by
    rw [dirPrefix_eq, folderStart] at hstart
    exact (List.append_inj' hstart rfl).2 |> List.singleton_inj.mp
  refine fun files => ⟨?_, ?_⟩
  · rw [selectPathStatusesUnder_eq, getPathStatusesUnder]
    refine congrArg (fun rows => some (Dict.ofList (List.map _ rows))) (List.filter_congr ?_)
    intro row _
    rw [isUnder, hstart, Bool.eq_iff_iff, liesBeneath_iff, decide_eq_true_eq]
  · rw [selectByFolderPath_eq, getByFolderPath]
    refine congrArg some (List.filter_congr ?_)
    intro row _
    rw [inFolder, isUnder, hstart, hsep, Bool.eq_iff_iff, liesDirectlyIn_iff, decide_eq_true_eq]

theorem eq_of_statuses {row : LibraryFile} {under beneath : LibraryFile → Bool}
    (hsame : Dict.ofList (([row].filter under).map fun row => (row.filePath, row.fileStatus)) =
      Dict.ofList (([row].filter beneath).map fun row => (row.filePath, row.fileStatus))) :
    under row = beneath row := by
  have hsize : ∀ p : LibraryFile → Bool,
      (Dict.ofList (([row].filter p).map fun row => (row.filePath, row.fileStatus))).size =
        (p row).toNat := by
    intro p
    cases hp : p row <;> rw [List.filter_cons, hp] <;> rfl
  have hcounts := congrArg Dict.size hsame
  rw [hsize, hsize] at hcounts
  cases hunder : under row <;> cases hbeneath : beneath row <;> simp_all

/-- Where they do not, one of them is a path that the queries get wrong. -/
theorem eq_of_selectsFolder (hselects : SelectsFolder style folderPath) :
    (dirPrefix folderPath).1 = folderStart style folderPath := by
  have hsame : ∀ path : List Char, (dirPrefix folderPath).1.isPrefixOf path =
      (folderStart style folderPath).isPrefixOf path := by
    intro path
    let row : LibraryFile := { id := 0, filePath := String.ofList path }
    have hrow := (hselects [row]).1
    rw [selectPathStatusesUnder_eq, getPathStatusesUnder, Option.some.injEq] at hrow
    have hunder := eq_of_statuses hrow
    rw [isUnder, Bool.eq_iff_iff, decide_eq_true_eq, ← liesBeneath_iff, ← Bool.eq_iff_iff] at hunder
    simpa [row] using hunder
  have hself : ∀ start : List Char, start.isPrefixOf start = true := fun start =>
    List.isPrefixOf_iff_prefix.mpr (List.prefix_refl start)
  refine List.IsPrefix.eq_of_length_le ?_ ?_
  · rw [← List.isPrefixOf_iff_prefix, hsame, hself]
  · refine List.IsPrefix.length_le ?_
    rw [← List.isPrefixOf_iff_prefix, ← hsame, hself]

theorem rdropWhile_rdropWhile {first all : Char → Bool}
    (hfirst : ∀ char, first char = true → all char = true) (path : List Char) :
    (path.rdropWhile first).rdropWhile all = path.rdropWhile all := by
  induction path using List.reverseRecOn with
  | nil => rfl
  | append_singleton path char ih =>
      by_cases hchar : first char = true
      · rw [List.rdropWhile_concat_pos _ _ _ hchar,
          List.rdropWhile_concat_pos _ _ _ (hfirst _ hchar), ih]
      · rw [List.rdropWhile_concat_neg _ _ _ hchar]

theorem rdropWhile_of_not_mem {char : Char} {path : List Char} (hnone : char ∉ path) :
    path.rdropWhile (· = char) = path := by
  rw [List.rdropWhile_eq_self_iff]
  intro hsome hlast
  exact hnone (of_decide_eq_true hlast ▸ List.getLast_mem hsome)

/-- Stripping slashes and then backslashes strips all of them, unless that uncovers a slash. -/
theorem stripped_eq_iff (path : List Char) :
    (path.rdropWhile (· = '/')).rdropWhile (· = '\\') =
      path.rdropWhile PathStyle.windows.endsFolder ↔
      ((path.rdropWhile (· = '/')).rdropWhile (· = '\\')).getLast? ≠ some '/' := by
  have hslash : ∀ char, decide (char = '/') = true → PathStyle.windows.endsFolder char = true := by
    intro char hchar
    rw [PathStyle.endsFolder, hchar, Bool.true_or]
  have hback : ∀ char, decide (char = '\\') = true → PathStyle.windows.endsFolder char = true := by
    intro char hchar
    rw [PathStyle.endsFolder, hchar, Bool.or_true]
  rw [← rdropWhile_rdropWhile hslash path, ← rdropWhile_rdropWhile hback, eq_comm,
    List.rdropWhile_eq_self_iff]
  constructor
  · intro hends hlast
    have hsome : (path.rdropWhile (· = '/')).rdropWhile (· = '\\') ≠ [] := by
      intro hnil
      rw [hnil] at hlast
      cases hlast
    refine hends hsome ?_
    rw [Option.some.inj ((List.getLast?_eq_some_getLast hsome).symm.trans hlast)]
    rfl
  · intro hlast hsome hends
    have hnotBack := List.rdropWhile_last_not _ _ hsome
    rw [PathStyle.endsFolder, Bool.or_eq_true] at hends
    rcases hends with hslash | hback
    · rw [List.getLast?_eq_some_getLast hsome, of_decide_eq_true hslash] at hlast
      exact hlast rfl
    · exact hnotBack hback

/-- The prefixes agree exactly where the path is spelled as the system spells it. -/
theorem dirPrefix_eq_folderStart :
    (dirPrefix folderPath).1 = folderStart style folderPath ↔ SpelledAs style folderPath := by
  rw [dirPrefix_eq, folderStart, dirPrefix_sep]
  have hback : ('\\' : Char) ≠ '/' := by decide
  cases style with
  | posix =>
    rw [SpelledAs]
    constructor
    · intro heq hslash
      rw [if_pos hslash] at heq
      exact hback (List.singleton_inj.mp (List.append_inj' heq rfl).2)
    · intro hnone
      have hstripped : '\\' ∉ folderPath.toList.rdropWhile (· = '/') := fun hmem =>
        hnone ((List.rdropWhile_prefix _ _).subset hmem)
      rw [if_neg hnone, rdropWhile_of_not_mem hstripped]
      rfl
  | windows =>
    rw [SpelledAs, ← stripped_eq_iff]
    constructor
    · intro heq
      obtain ⟨hstripped, hsep⟩ := List.append_inj' heq rfl
      refine ⟨?_, hstripped⟩
      by_contra hnone
      rw [if_neg hnone] at hsep
      exact hback (List.singleton_inj.mp hsep).symm
    · rintro ⟨hslash, hstripped⟩
      rw [if_pos hslash, hstripped]
      rfl

end

/-- The queries answer the right rows exactly for the folder paths that are spelled as the
    system spells them, whatever other characters they hold. -/
theorem selectsFolder_iff (style : PathStyle) (folderPath : String) :
    SelectsFolder style folderPath ↔ SpelledAs style folderPath := by
  rw [← dirPrefix_eq_folderStart]
  exact ⟨eq_of_selectsFolder, selectsFolder_of_eq⟩

/-- A folder whose name holds a backslash, which is a character like any other there. -/
theorem selectsFolder_backslash : ¬ SelectsFolder .posix "/music/AC\\DC" := by
  intro hselects
  have hspelled := dirPrefix_eq_folderStart.mp (eq_of_selectsFolder hselects)
  exact hspelled (by decide)

end RetroStation.Library
