import Mathlib.Data.List.Basic
import Mathlib.Data.List.Nodup

/-! # Tables

A table is the list of its rows. A statement changes, drops or adds rows; what it
does to the rows that satisfy another condition follows from how it treats that
condition.
-/

namespace Table

universe u v

variable {Row : Type u} {Key : Type v} {rows : List Row} {row : Row} {p q : Row → Bool}
  {change : Row → Row}

/-- Change the rows that satisfy `p`. -/
def update (rows : List Row) (p : Row → Bool) (change : Row → Row) : List Row :=
  rows.map fun row => if p row then change row else row

/-- Drop the rows that satisfy `p`. -/
def delete (rows : List Row) (p : Row → Bool) : List Row := rows.filter fun row => !p row

/-- No two rows have the same key. -/
def UniqueBy (key : Row → Key) (rows : List Row) : Prop := (rows.map key).Nodup

instance [DecidableEq Key] (key : Row → Key) (rows : List Row) : Decidable (UniqueBy key rows) :=
  inferInstanceAs (Decidable (rows.map key).Nodup)

@[simp] theorem mem_delete : row ∈ delete rows p ↔ row ∈ rows ∧ p row = false := by
  simp [delete]

theorem subset_of_eq {rows' : List Row} (hsame : rows = rows') : rows ⊆ rows' :=
  hsame ▸ List.Subset.refl _

theorem delete_subset : delete rows p ⊆ rows := List.filter_sublist.subset

theorem mem_update : row ∈ update rows p change ↔
    (∃ old ∈ rows, p old = true ∧ change old = row) ∨ row ∈ rows ∧ p row = false := by
  simp only [update, List.mem_map]
  constructor
  · rintro ⟨old, hold, rfl⟩
    cases hp : p old with
    | true => exact .inl ⟨old, hold, hp, by simp⟩
    | false => exact .inr ⟨by simpa using hold, by simpa using hp⟩
  · rintro (⟨old, hold, hp, rfl⟩ | ⟨hrow, hp⟩)
    · exact ⟨old, hold, by simp [hp]⟩
    · exact ⟨row, hrow, by simp [hp]⟩

/-- A property of every row is kept by an update whose changes have it. -/
theorem forall_mem_update {good : Row → Prop} (hrows : ∀ row ∈ rows, good row)
    (hchange : ∀ row ∈ rows, p row = true → good (change row)) :
    ∀ row ∈ update rows p change, good row := by
  intro row hrow
  rcases mem_update.mp hrow with ⟨old, hold, hp, rfl⟩ | ⟨hrow, -⟩
  · exact hchange old hold hp
  · exact hrows row hrow

/-- An update of nothing that `q` holds of leaves the rows of `q` alone, if it
brings none to `q`. -/
theorem filter_update_of_disjoint (hdisjoint : ∀ row, p row = true → q row = false)
    (hchange : ∀ row, p row = true → q (change row) = false) :
    (update rows p change).filter q = rows.filter q := by
  induction rows with
  | nil => rfl
  | cons first rest ih =>
      simp only [update, List.map_cons, List.filter_cons] at ih ⊢
      cases hp : p first with
      | true => simp [hdisjoint first hp, hchange first hp, ih]
      | false => simp [ih]

/-- An update that keeps `q` of each row updates the rows of `q`. -/
theorem filter_update (hkeep : ∀ row, p row = true → q (change row) = q row) :
    (update rows p change).filter q = update (rows.filter q) p change := by
  induction rows with
  | nil => rfl
  | cons first rest ih =>
      simp only [update, List.map_cons, List.filter_cons] at ih ⊢
      cases hp : p first with
      | true =>
          simp only [if_true, hkeep first hp]
          cases q first <;> simp [hp, ih]
      | false => cases hq : q first <;> simp [hp, hq, ih]

theorem filter_delete_of_disjoint (hdisjoint : ∀ row, q row = true → p row = false) :
    (delete rows p).filter q = rows.filter q := by
  rw [delete, List.filter_filter]
  refine List.filter_congr fun row _ => ?_
  cases hq : q row with
  | true => simp [hdisjoint row hq]
  | false => rfl

theorem filter_delete_of_imp (himp : ∀ row, q row = true → p row = true) :
    (delete rows p).filter q = [] := by
  rw [delete, List.filter_filter, List.filter_eq_nil_iff]
  intro row _
  cases hq : q row with
  | true => simp [himp row hq]
  | false => simp

theorem map_update_key {key : Row → Key} (hkey : ∀ row, key (change row) = key row) :
    (update rows p change).map key = rows.map key := by
  simp only [update, List.map_map]
  refine List.map_congr_left fun row _ => ?_
  simp only [Function.comp_apply]
  split
  · exact hkey row
  · rfl

/-- A symmetric relation between the rows is kept by an update that keeps it between
changed rows, and between a changed row and another. -/
theorem pairwise_update {related : Row → Row → Prop} (hsymm : ∀ a b, related a b → related b a)
    (hrows : rows.Pairwise related)
    (hboth : ∀ a ∈ rows, ∀ b ∈ rows, p a = true → p b = true → related a b →
      related (change a) (change b))
    (hone : ∀ a ∈ rows, ∀ b ∈ rows, p a = true → p b = false → related a b →
      related (change a) b) :
    (update rows p change).Pairwise related := by
  rw [update, List.pairwise_map]
  refine hrows.imp_of_mem fun {a b} ha hb hab => ?_
  cases hpa : p a with
  | true =>
      cases hpb : p b with
      | true => simpa [hpb] using hboth a ha b hb hpa hpb hab
      | false => simpa [hpb] using hone a ha b hb hpa hpb hab
  | false =>
      cases hpb : p b with
      | true => simpa [hpb] using hsymm _ _ (hone b hb a ha hpb hpa (hsymm _ _ hab))
      | false => simpa [hpb] using hab

namespace UniqueBy

variable {key : Row → Key}

theorem iff_pairwise : UniqueBy key rows ↔ rows.Pairwise fun a b => key a ≠ key b := by
  rw [UniqueBy, List.Nodup, List.pairwise_map]

theorem eq (hunique : UniqueBy key rows) {first second : Row} (hfirst : first ∈ rows)
    (hsecond : second ∈ rows) (hkey : key first = key second) : first = second :=
  List.inj_on_of_nodup_map hunique hfirst hsecond hkey

theorem update (hunique : UniqueBy key rows) (hkey : ∀ row, key (change row) = key row) :
    UniqueBy key (Table.update rows p change) := by
  rwa [UniqueBy, map_update_key hkey]

theorem delete (hunique : UniqueBy key rows) : UniqueBy key (Table.delete rows p) :=
  hunique.sublist (List.filter_sublist.map key)

theorem append (hunique : UniqueBy key rows) (hnew : ∀ old ∈ rows, key old ≠ key row) :
    UniqueBy key (rows ++ [row]) := by
  rw [UniqueBy, List.map_append, List.nodup_append]
  refine ⟨hunique, List.nodup_singleton _, ?_⟩
  intro first hfirst second hsecond hsame
  obtain ⟨old, hold, rfl⟩ := List.mem_map.mp hfirst
  obtain rfl := List.mem_singleton.mp hsecond
  exact hnew old hold hsame

theorem find? [DecidableEq Key] (hunique : UniqueBy key rows) (hrow : row ∈ rows) :
    (rows.find? fun other => key other = key row) = some row := by
  cases hfind : rows.find? fun other => key other = key row with
  | none => simpa using List.find?_eq_none.mp hfind row hrow
  | some other =>
      rw [hunique.eq (List.mem_of_find?_eq_some hfind) hrow (by simpa using List.find?_some hfind)]

end UniqueBy

section

variable [DecidableEq Key] {key : Row → Key}

theorem find?_update (hkey : ∀ row, key (change row) = key row) (value : Key) :
    ((update rows p change).find? fun row => key row = value) =
      (rows.find? fun row => key row = value).map fun row => if p row then change row else row := by
  induction rows with
  | nil => rfl
  | cons first rest ih =>
      have hfirst : key (if p first then change first else first) = key first := by
        split
        · exact hkey first
        · rfl
      simp only [update, List.map_cons, List.find?_cons, hfirst] at ih ⊢
      cases decide (key first = value) with
      | true => rfl
      | false => exact ih

theorem find?_delete {value : Key} (hkeep : ∀ row ∈ rows, key row = value → p row = false) :
    ((delete rows p).find? fun row => key row = value) = rows.find? fun row => key row = value := by
  induction rows with
  | nil => rfl
  | cons first rest ih =>
      have hrest := ih fun row hrow => hkeep row (List.mem_cons_of_mem _ hrow)
      rw [delete, List.filter_cons]
      by_cases hkey : key first = value
      · simp [hkeep first List.mem_cons_self hkey, hkey]
      · cases hp : p first with
        | true => simpa [delete, List.find?_cons, hkey] using hrest
        | false => simpa [delete, List.find?_cons, hkey] using hrest

theorem find?_delete_eq_none {value : Key} (hgone : ∀ row ∈ rows, key row = value → p row = true) :
    ((delete rows p).find? fun row => key row = value) = none := by
  rw [List.find?_eq_none]
  intro row hrow hkey
  obtain ⟨hmem, hp⟩ := mem_delete.mp hrow
  rw [hgone row hmem (by simpa using hkey)] at hp
  cases hp

end

theorem find?_key [DecidableEq Key] {key : Row → Key} {value : Key}
    (hfind : (rows.find? fun row => key row = value) = some row) : row ∈ rows ∧ key row = value :=
  ⟨List.mem_of_find?_eq_some hfind, by simpa using List.find?_some hfind⟩

section

variable [DecidableEq Key] {key : Row → Key}

theorem update_eq_self {p : Row → Bool} {change : Row → Row}
    (hnone : ∀ row ∈ rows, p row = false) : update rows p change = rows := by
  induction rows with
  | nil => rfl
  | cons first rest ih =>
      have hrest := ih fun row hrow => hnone row (List.mem_cons_of_mem _ hrow)
      rw [update] at hrest ⊢
      rw [List.map_cons, hnone first List.mem_cons_self, hrest]
      rfl

end

end Table
