import RetroStation.Ingestion.CsvReader
import RetroStation.Text.Unicode

/-! # The header check and the row check

A header is checked by its names without the blanks around them, a row by the names as they
are. They agree exactly on the headers that have each required name without blanks.
-/

namespace RetroStation.Ingestion

open Text

def REQUIRED_COLUMNS : List String := ["Artist", "Title", "Played"]

/-- Why a row is skipped. -/
inductive SkipReason
  | extraFields
  | blankRequiredField
  deriving DecidableEq, Repr

def CsvValue.text? : CsvValue → Option String
  | .text value => some value
  | _ => none

/-- The named fields of a row without the blanks around them. -/
def strippedRow (rawRow : Dict (Option String) CsvValue) : Dict String String :=
  Dict.ofList (rawRow.entries.filterMap fun (key, value) =>
    key.bind fun key => value.text?.map fun value => (key, stripText value))

def extractIngestibleRow (rawRow : Dict (Option String) CsvValue) :
    Except SkipReason (Dict String String) :=
  if rawRow.keys.any Option.isNone then .error .extraFields
  else if ∀ column ∈ REQUIRED_COLUMNS, ((strippedRow rawRow).get? column).getD "" ≠ "" then
    .ok (strippedRow rawRow)
  else .error .blankRequiredField

/-- The required columns that a header lacks. -/
def missingColumns (fieldnames : List String) : List String :=
  let present := (fieldnames.filter (· ≠ "")).map stripText
  REQUIRED_COLUMNS.filter (· ∉ present)

/-- Refuse a header without every required column. -/
def validateHeader (fieldnames : Option (List String)) : Except String Unit :=
  match fieldnames.getD [] with
  | [] => .error ("CSV has no header row; expected columns: " ++
      ", ".intercalate REQUIRED_COLUMNS ++ ".")
  | name :: names =>
    let missing := missingColumns (name :: names)
    if missing = [] then .ok ()
    else .error ("CSV is missing required column(s): " ++ ", ".intercalate missing ++ ". " ++
      "Found: " ++ ", ".intercalate (name :: names) ++ ". " ++
      "Every row would be rejected, so nothing was imported.")

/-! ## Agreement -/

/-- A row with as many fields as the header, none of them blank in an accepted column. -/
def Eligible (header row : List String) : Prop :=
  row.length = header.length ∧ ∀ column ∈ REQUIRED_COLUMNS, ∀ pair ∈ header.zip row,
    stripText pair.1 = column → stripText pair.2 ≠ ""

/-- The row is accepted with its values in the accepted columns. -/
def AcceptedWith (header row : List String) : Prop :=
  ∃ ingestible, extractIngestibleRow (dictRow header row) = .ok ingestible ∧
    ∀ column ∈ REQUIRED_COLUMNS, ∃ pair ∈ header.zip row, stripText pair.1 = column ∧
      ingestible.get? column = some (stripText pair.2)

section

variable {header row : List String} {column value : String}

/-- The required names have no blanks around them. -/
theorem stripText_required : ∀ column ∈ REQUIRED_COLUMNS, stripText column = column := by decide

theorem dictRow_of_length (hlength : row.length = header.length) : dictRow header row =
    Dict.ofList ((header.zip row).map fun pair => (some pair.1, CsvValue.text pair.2)) := by
  unfold dictRow
  simp [hlength]

/-- A named field, without the blanks around it. -/
theorem named_eq_some_iff {entry : Option String × CsvValue} {named : String × String} :
    (entry.1.bind fun key => entry.2.text?.map fun value => (key, stripText value)) = some named ↔
      entry.1 = some named.1 ∧ ∃ value, entry.2 = .text value ∧ named.2 = stripText value := by
  obtain ⟨_ | key, value | values | _⟩ := entry <;>
    simp [CsvValue.text?, Prod.ext_iff, eq_comm]

theorem nodup_strippedRow (rawRow : Dict (Option String) CsvValue) :
    ((rawRow.entries.filterMap fun entry => entry.1.bind fun key =>
      entry.2.text?.map fun value => (key, stripText value)).map Prod.fst).Nodup := by
  refine List.pairwise_map.mpr (List.Pairwise.filterMap _ ?_ (List.pairwise_map.mp rawRow.nodup))
  intro first second hne named hnamed other hother hsame
  rw [named_eq_some_iff] at hnamed hother
  exact hne (hnamed.1.trans ((congrArg some hsame).trans hother.1.symm))

/-- A stripped row has what the row has under a name. -/
theorem get?_strippedRow {rawRow : Dict (Option String) CsvValue} :
    (strippedRow rawRow).get? column = some value ↔
      ∃ field, rawRow.get? (some column) = some (.text field) ∧ value = stripText field := by
  refine (Dict.get?_ofList_eq_some (nodup_strippedRow rawRow)).trans ?_
  rw [List.mem_filterMap]
  constructor
  · rintro ⟨entry, hentry, hnamed⟩
    obtain ⟨hkey, field, hfield, hvalue⟩ := named_eq_some_iff.mp hnamed
    refine ⟨field, Dict.get?_eq_some_iff.mpr ?_, hvalue⟩
    rw [← hkey, ← hfield]
    exact hentry
  · rintro ⟨field, hfield, hvalue⟩
    exact ⟨_, Dict.get?_eq_some_iff.mp hfield, named_eq_some_iff.mpr ⟨rfl, field, rfl, hvalue⟩⟩

/-- A full row has a field under each name of the header, and only under these. -/
theorem get?_dictRow_of_length (hlength : row.length = header.length) {found : CsvValue}
    (hget : (dictRow header row).get? (some column) = some found) :
    ∃ field, found = .text field ∧ (column, field) ∈ header.zip row := by
  rw [dictRow_of_length hlength] at hget
  obtain ⟨pair, hpair, heq⟩ :=
    List.mem_map.mp (Dict.mem_entries_ofList (Dict.get?_eq_some_iff.mp hget))
  obtain ⟨hname, hvalue⟩ := Prod.mk.inj heq
  refine ⟨pair.2, hvalue.symm, ?_⟩
  rw [← Option.some.inj hname]
  exact hpair

theorem mem_keys_dictRow (hlength : row.length = header.length) {key : Option String} :
    key ∈ (dictRow header row).keys ↔ ∃ column ∈ header, key = some column := by
  rw [dictRow_of_length hlength, Dict.mem_keys_ofList, List.map_map]
  constructor
  · intro hkey
    obtain ⟨pair, hpair, rfl⟩ := List.mem_map.mp hkey
    exact ⟨pair.1, (List.of_mem_zip hpair).1, rfl⟩
  · rintro ⟨column, hcolumn, rfl⟩
    have hnames : (header.zip row).map Prod.fst = header := List.map_fst_zip hlength.ge
    rw [← hnames] at hcolumn
    obtain ⟨pair, hpair, rfl⟩ := List.mem_map.mp hcolumn
    exact List.mem_map.mpr ⟨pair, hpair, rfl⟩

/-- An eligible row is accepted exactly under a header that has the required names as they
are. -/
theorem acceptedWith_iff (heligible : Eligible header row) :
    AcceptedWith header row ↔ ∀ column ∈ REQUIRED_COLUMNS, column ∈ header := by
  obtain ⟨hlength, hvalues⟩ := heligible
  constructor
  · rintro ⟨ingestible, hextract, hcolumns⟩ column hcolumn
    obtain ⟨pair, -, -, hget⟩ := hcolumns column hcolumn
    unfold extractIngestibleRow at hextract
    split at hextract
    · cases hextract
    split at hextract
    · obtain rfl := Except.ok.inj hextract
      obtain ⟨field, hfield, -⟩ := get?_strippedRow.mp hget
      obtain ⟨found, -, hzip⟩ := get?_dictRow_of_length hlength hfield
      exact (List.of_mem_zip hzip).1
    · cases hextract
  · intro hnames
    have hfields : ∀ column ∈ REQUIRED_COLUMNS, ∃ field, (column, field) ∈ header.zip row ∧
        (strippedRow (dictRow header row)).get? column = some (stripText field) := by
      intro column hcolumn
      obtain ⟨found, hfound⟩ := Dict.mem_keys_iff.mp
        ((mem_keys_dictRow hlength).mpr ⟨column, hnames column hcolumn, rfl⟩)
      obtain ⟨field, rfl, hzip⟩ := get?_dictRow_of_length hlength hfound
      exact ⟨field, hzip, get?_strippedRow.mpr ⟨field, hfound, rfl⟩⟩
    have hnone : ¬(dictRow header row).keys.any Option.isNone := by
      rw [List.any_eq_true]
      rintro ⟨key, hmem, hkey⟩
      obtain ⟨column, -, rfl⟩ := (mem_keys_dictRow hlength).mp hmem
      cases hkey
    have hall : ∀ column ∈ REQUIRED_COLUMNS,
        ((strippedRow (dictRow header row)).get? column).getD "" ≠ "" := by
      intro column hcolumn
      obtain ⟨field, hzip, hget⟩ := hfields column hcolumn
      rw [hget, Option.getD_some]
      exact hvalues column hcolumn (column, field) hzip (stripText_required column hcolumn)
    refine ⟨strippedRow (dictRow header row), ?_, fun column hcolumn => ?_⟩
    · unfold extractIngestibleRow
      rw [if_neg hnone, if_pos hall]
    · obtain ⟨field, hzip, hget⟩ := hfields column hcolumn
      exact ⟨(column, field), hzip, stripText_required column hcolumn, hget⟩

end

/-- Under an accepted header the row check agrees with the header check exactly if the header
has each required name without blanks around it, or no row is eligible. -/
theorem header_row_agree (text : String) (header : List String) :
    fieldnames text = some header → validateHeader (some header) = .ok () →
      ((∀ row ∈ csvRows text, Eligible header row → AcceptedWith header row) ↔
        ((∀ column ∈ REQUIRED_COLUMNS, column ∈ header) ∨
          ∀ row ∈ csvRows text, ¬Eligible header row)) := by
  intro _ _
  constructor
  · intro hagree
    -- One eligible row already shows whether its columns are found under the header's names.
    by_cases heligible : ∃ row ∈ csvRows text, Eligible header row
    · obtain ⟨row, hrow, heligible⟩ := heligible
      exact .inl ((acceptedWith_iff heligible).mp (hagree row hrow heligible))
    · exact .inr fun row hrow hrowEligible => heligible ⟨row, hrow, hrowEligible⟩
  · rintro (hnames | hnone) row hrow heligible
    · exact (acceptedWith_iff heligible).mpr hnames
    · exact absurd heligible (hnone row hrow)

theorem header_row_agree_plain : AcceptedWith ["Artist", "Title", "Played"]
    ["Santana", " Smooth ", "1999-06-29 12:00:00"] :=
  (header_row_agree "Artist,Title,Played\nSantana, Smooth ,1999-06-29 12:00:00\n"
    ["Artist", "Title", "Played"] (by decide) rfl).mpr (.inl (by decide)) _ (by decide)
    ⟨rfl, by decide⟩

/-- A header with a blank before a name is accepted, and every row under it is skipped. -/
theorem header_row_disagree :
    let text := "Artist, Title, Played\nSantana,Smooth,1999-06-29 12:00:00\n";
    let header := ["Artist", " Title", " Played"];
    fieldnames text = some header ∧ validateHeader (some header) = .ok () ∧
      ∃ row ∈ csvRows text, Eligible header row ∧
        extractIngestibleRow (dictRow header row) = .error .blankRequiredField ∧
        ¬AcceptedWith header row := by
  intro text header
  have hrow : ["Santana", "Smooth", "1999-06-29 12:00:00"] ∈ csvRows text := by decide
  have heligible : Eligible header ["Santana", "Smooth", "1999-06-29 12:00:00"] :=
    ⟨rfl, by decide⟩
  refine ⟨by decide, rfl, _, hrow, heligible, rfl, fun haccepted => ?_⟩
  exact absurd ((acceptedWith_iff heligible).mp haccepted) (by decide)

end RetroStation.Ingestion
