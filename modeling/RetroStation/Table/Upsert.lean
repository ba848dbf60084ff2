import RetroStation.Dict.Basic
import RetroStation.Table.Basic

/-! # Rows under unique keys

A row is inserted unless its key is there; the row under the key is answered. No row changes
or goes, so what was answered once is found ever after, and a dictionary of answers may stand
for the table.
-/

namespace Upsert

universe u v

variable {Key : Type u} {Row : Type v} [DecidableEq Key] (key : Row → Key)

def lookup (rows : List Row) (name : Key) : Option Row := rows.find? fun row => key row = name

/-- The row under a new row's key, and the rows with it. -/
def upsert (rows : List Row) (row : Row) : Row × List Row :=
  match lookup key rows (key row) with
  | some found => (found, rows)
  | none => (row, rows ++ [row])

variable {key} {rows : List Row} {row found : Row} {name : Key}

theorem mem_of_lookup (hfound : lookup key rows name = some found) :
    found ∈ rows ∧ key found = name :=
  ⟨List.mem_of_find?_eq_some hfound, by simpa using List.find?_some hfound⟩

theorem lookup_append (hfound : lookup key rows name = some found) (more : List Row) :
    lookup key (rows ++ more) name = some found := by
  rw [lookup, List.find?_append]
  exact Option.or_eq_some_iff.mpr (.inl hfound)

theorem lookup_eq_none (hnone : lookup key rows name = none) : name ∉ rows.map key := by
  intro hmem
  obtain ⟨row, hrow, hkey⟩ := List.mem_map.mp hmem
  exact absurd hkey (by simpa using List.find?_eq_none.mp hnone row hrow)

/-- An upsert inserts its row, or leaves the table and answers the row that is there. -/
theorem upsert_cases (key : Row → Key) (rows : List Row) (row : Row) :
    lookup key rows (key row) = none ∧ upsert key rows row = (row, rows ++ [row]) ∨
      ∃ found, lookup key rows (key row) = some found ∧ upsert key rows row = (found, rows) := by
  unfold upsert
  cases hfound : lookup key rows (key row) with
  | none => exact .inl ⟨rfl, rfl⟩
  | some found => exact .inr ⟨found, rfl, rfl⟩

theorem lookup_upsert (rows : List Row) (row : Row) :
    lookup key (upsert key rows row).2 (key row) = some (upsert key rows row).1 := by
  rcases upsert_cases key rows row with ⟨hnone, hrows⟩ | ⟨found, hfound, hrows⟩
  · rw [hrows, lookup, List.find?_append]
    refine Option.or_eq_some_iff.mpr (.inr ⟨hnone, ?_⟩)
    simp
  · rw [hrows]
    exact hfound

/-- Rows stay. -/
theorem prefix_upsert (rows : List Row) (row : Row) : rows <+: (upsert key rows row).2 := by
  rcases upsert_cases key rows row with ⟨-, hrows⟩ | ⟨found, -, hrows⟩
  · simp only [hrows, List.prefix_append]
  · simp only [hrows, List.prefix_rfl]

/-- The key of the row is there, and no other key is new. -/
theorem mem_keys_upsert : name ∈ (upsert key rows row).2.map key ↔
    name ∈ rows.map key ∨ name = key row := by
  rcases upsert_cases key rows row with ⟨-, hrows⟩ | ⟨found, hfound, hrows⟩
  · simp [hrows]
  · obtain ⟨hmem, hkey⟩ := mem_of_lookup hfound
    rw [hrows]
    exact ⟨.inl, fun hname => hname.elim id fun hsame =>
      List.mem_map.mpr ⟨found, hmem, hkey.trans hsame.symm⟩⟩

theorem lookup_of_extended {rows' : List Row} (hextended : rows <+: rows')
    (hfound : lookup key rows name = some found) : lookup key rows' name = some found := by
  obtain ⟨more, rfl⟩ := hextended
  exact lookup_append hfound more

theorem uniqueBy_upsert (hunique : Table.UniqueBy key rows) (row : Row) :
    Table.UniqueBy key (upsert key rows row).2 := by
  rcases upsert_cases key rows row with ⟨hnone, hrows⟩ | ⟨found, -, hrows⟩ <;> rw [hrows]
  · rw [Table.UniqueBy, List.map_append, List.nodup_append]
    refine ⟨hunique, List.nodup_singleton _, fun name hname other hother => ?_⟩
    obtain rfl := List.mem_singleton.mp hother
    exact fun heq => lookup_eq_none hnone (heq ▸ hname)
  · exact hunique

/-! ## A dictionary of answers -/

variable {Name : Type u} [DecidableEq Name] {full : Name → Key} {memo : Dict Name Row}
  {asked names : List Name} {short : Name}

/-- A dictionary holds the rows of the names that were asked for, each of which was upserted
once. -/
structure Remembers (key : Row → Key) (full : Name → Key) (memo : Dict Name Row)
    (rows : List Row) (asked names : List Name) : Prop where
  lookup_full : ∀ name row, memo.get? name = some row → lookup key rows (full name) = some row
  unique : Table.UniqueBy key rows
  asked_eq : asked = memo.keys
  mem_keys : ∀ name, name ∈ memo.keys ↔ name ∈ names

theorem remembers_empty (hunique : Table.UniqueBy key rows) :
    Remembers key full (Dict.empty : Dict Name Row) rows [] [] :=
  ⟨nofun, hunique, rfl, fun _ => Iff.rfl⟩

theorem Remembers.nodup (hmemo : Remembers key full memo rows asked names) : asked.Nodup := by
  rw [hmemo.asked_eq]
  exact memo.nodup

theorem Remembers.mem_asked (hmemo : Remembers key full memo rows asked names) :
    short ∈ asked ↔ short ∈ names := by
  rw [hmemo.asked_eq]
  exact hmemo.mem_keys short

/-- A name that is remembered is not asked for again. -/
theorem Remembers.hit (hmemo : Remembers key full memo rows asked names)
    (hrow : memo.get? short = some row) :
    Remembers key full memo rows asked (names ++ [short]) ∧
      lookup key rows (full short) = some row := by
  refine ⟨⟨hmemo.lookup_full, hmemo.unique, hmemo.asked_eq, fun name => ?_⟩,
    hmemo.lookup_full short row hrow⟩
  rw [List.mem_append, List.mem_singleton, ← hmemo.mem_keys]
  refine ⟨.inl, fun hname => hname.elim id ?_⟩
  rintro rfl
  exact Dict.mem_keys_iff.mpr ⟨row, hrow⟩

/-- A new name is upserted, and its row remembered. -/
theorem Remembers.miss (hmemo : Remembers key full memo rows asked names)
    (hnone : memo.get? short = none) (hkey : key row = full short) :
    Remembers key full (memo.set short (upsert key rows row).1) (upsert key rows row).2
        (asked ++ [short]) (names ++ [short]) ∧
      lookup key (upsert key rows row).2 (full short) = some (upsert key rows row).1 := by
  have hfound : lookup key (upsert key rows row).2 (full short) =
      some (upsert key rows row).1 := by
    rw [← hkey]
    exact lookup_upsert rows row
  have hkeys : (memo.set short (upsert key rows row).1).keys = memo.keys ++ [short] :=
    Dict.keys_set_of_not_mem (Dict.get?_eq_none_iff.mp hnone) _
  refine ⟨⟨fun name other hother => ?_, uniqueBy_upsert hmemo.unique row, ?_, fun name => ?_⟩,
    hfound⟩
  · rw [Dict.get?_set] at hother
    split at hother
    next hsame =>
      obtain rfl := Option.some.inj hother
      rw [hsame]
      exact hfound
    next => exact lookup_of_extended (prefix_upsert rows row) (hmemo.lookup_full name other hother)
  · rw [hkeys, hmemo.asked_eq]
  · rw [hkeys, List.mem_append, List.mem_append, hmemo.mem_keys]

end Upsert
