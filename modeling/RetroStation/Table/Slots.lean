import Mathlib.Data.List.Induction
import Mathlib.Logic.Function.Basic

/-! # Rows with a slot

Each row of a table has an identifier, a place or none, and a version; of the rows at one
place no two have one version. Upserts write rows by their identifier alone. A list of them
goes through exactly when each finds its slot free of the rows before it, and what a row is
by then is what its last upsert says, at the last place that any of them gave it.
-/

namespace Slots

universe u v w

variable {Id : Type u} {Place : Type v} {Version : Type w}

/-- What is stored of a row: its place, if it has one, and its version. -/
abbrev Rows (Id : Type u) (Place : Type v) (Version : Type w) :=
  Id → Option (Option Place × Version)

/-- A row to insert or to change; with no place, one that is stored stays where it is. -/
structure Upsert (Id : Type u) (Place : Type v) (Version : Type w) where
  id : Id
  place : Option Place
  version : Version

/-- Where the upsert leaves its row. -/
def Upsert.target (rows : Rows Id Place Version) (upsert : Upsert Id Place Version) :
    Option Place :=
  upsert.place.or ((rows upsert.id).bind Prod.fst)

/-- No other row has the version at the place where the upsert leaves its row. -/
def Free (rows : Rows Id Place Version) (upsert : Upsert Id Place Version) : Prop :=
  ∀ place, upsert.target rows = some place →
    ∀ other, other ≠ upsert.id → rows other ≠ some (some place, upsert.version)

/-- No two rows have one place and one version. -/
def Distinct (rows : Rows Id Place Version) : Prop :=
  ∀ first second place version, rows first = some (some place, version) →
    rows second = some (some place, version) → first = second

variable [DecidableEq Id]

def write (rows : Rows Id Place Version) (upsert : Upsert Id Place Version) :
    Rows Id Place Version :=
  Function.update rows upsert.id (some (upsert.target rows, upsert.version))

/-- A row after a list of upserts, by those of its own. -/
def settled (rows : Rows Id Place Version) (upserts : List (Upsert Id Place Version)) :
    Rows Id Place Version := fun id =>
  let own := upserts.filter fun upsert => upsert.id = id
  match own.getLast? with
  | none => rows id
  | some last => some ((own.filterMap Upsert.place).getLast?.or ((rows id).bind Prod.fst),
      last.version)

/-- Every upsert of a list finds its slot free. -/
def AllFree (rows : Rows Id Place Version) (upserts : List (Upsert Id Place Version)) : Prop :=
  ∀ before upsert after, upserts = before ++ upsert :: after → Free (settled rows before) upsert

/-- A write that is made where its row is stored and the slot free, and else left out. -/
inductive WritesIfFree (rows : Rows Id Place Version) (upsert : Upsert Id Place Version) :
    Rows Id Place Version → Prop
  | written (hstored : (rows upsert.id).isSome) (hfree : Free rows upsert) :
      WritesIfFree rows upsert (write rows upsert)
  | left (htaken : ¬ ((rows upsert.id).isSome ∧ Free rows upsert)) : WritesIfFree rows upsert rows

variable {rows : Rows Id Place Version} {upserts : List (Upsert Id Place Version)}
  {upsert : Upsert Id Place Version}

@[simp] theorem settled_nil : settled rows [] = rows := rfl

/-- One more upsert writes over what the others have settled. -/
theorem settled_concat :
    settled rows (upserts ++ [upsert]) = write (settled rows upserts) upsert := by
  funext id
  by_cases hid : upsert.id = id
  · subst hid
    have hplace : (settled rows upserts upsert.id).bind Prod.fst =
        ((upserts.filter fun other => other.id = upsert.id).filterMap Upsert.place).getLast?.or
          ((rows upsert.id).bind Prod.fst) := by
      rw [settled]
      cases hlast : (upserts.filter fun other => other.id = upsert.id).getLast? with
      | none => simp [List.getLast?_eq_none_iff.mp hlast]
      | some last => rfl
    rw [write, Function.update_self, Upsert.target, hplace, settled]
    cases upsert with
    | mk id place version => cases place <;> simp [List.filter_append]
  · have hother := Ne.symm hid
    simp [write, settled, List.filter_append, hid, Function.update_of_ne hother]

theorem settled_eq_foldl : settled rows upserts = upserts.foldl write rows := by
  induction upserts using List.reverseRecOn with
  | nil => rfl
  | append_singleton before upsert ih =>
      rw [settled_concat, ih, List.foldl_append]
      rfl

theorem settled_cons : settled rows (upsert :: upserts) = settled (write rows upsert) upserts := by
  rw [settled_eq_foldl, settled_eq_foldl, List.foldl_cons]

theorem allFree_nil : AllFree rows [] := by
  intro before upsert after hsplit
  simp at hsplit

theorem allFree_cons :
    AllFree rows (upsert :: upserts) ↔ Free rows upsert ∧ AllFree (write rows upsert) upserts := by
  constructor
  · intro hfree
    refine ⟨hfree [] upsert upserts rfl, fun before other after hsplit => ?_⟩
    rw [← settled_cons]
    exact hfree (upsert :: before) other after (by rw [hsplit, List.cons_append])
  · rintro ⟨hfirst, hrest⟩ before other after hsplit
    cases before with
    | nil =>
        obtain ⟨rfl, -⟩ := List.cons.inj hsplit
        exact hfirst
    | cons first before =>
        obtain ⟨rfl, hlater⟩ := List.cons.inj hsplit
        rw [settled_cons]
        exact hrest before other after hlater

theorem settled_append {later : List (Upsert Id Place Version)} :
    settled rows (upserts ++ later) = settled (settled rows upserts) later := by
  simp only [settled_eq_foldl, List.foldl_append]

theorem allFree_append {later : List (Upsert Id Place Version)} :
    AllFree rows (upserts ++ later) ↔
      AllFree rows upserts ∧ AllFree (settled rows upserts) later := by
  induction upserts generalizing rows with
  | nil => exact (and_iff_right allFree_nil).symm
  | cons upsert upserts ih =>
      rw [List.cons_append, allFree_cons, allFree_cons, settled_cons, ih, and_assoc]

theorem allFree_singleton : AllFree rows [upsert] ↔ Free rows upsert := by
  rw [allFree_cons]
  exact and_iff_left allFree_nil

/-- Writing a row twice is writing it once. -/
theorem write_write : write (write rows upsert) upsert = write rows upsert := by
  have htarget : upsert.target (write rows upsert) = upsert.target rows := by
    rw [Upsert.target, write, Function.update_self, Option.bind_some, Upsert.target]
    cases upsert.place <;> rfl
  rw [write, htarget, write, Function.update_idem]

theorem settled_replicate (count : Nat) :
    settled rows (List.replicate (count + 1) upsert) = write rows upsert := by
  induction count with
  | zero => rw [settled_eq_foldl]; rfl
  | succ count ih =>
      rw [List.replicate_succ', settled_concat, ih, write_write]

theorem Free.write (hfree : Free rows upsert) : Free (Slots.write rows upsert) upsert := by
  intro place hplace other hother hrow
  rw [Slots.write, Function.update_of_ne hother] at hrow
  refine hfree place ?_ other hother hrow
  rw [Upsert.target, Slots.write, Function.update_self, Option.bind_some] at hplace
  rw [← hplace, Upsert.target]
  cases upsert.place <;> rfl

theorem Free.replicate (hfree : Free rows upsert) (count : Nat) :
    AllFree rows (List.replicate count upsert) := by
  induction count generalizing rows with
  | zero => exact allFree_nil
  | succ count ih => exact allFree_cons.mpr ⟨hfree, ih hfree.write⟩

/-- A row that finds its slot free shares it with none. -/
theorem Distinct.write (hrows : Distinct rows) (hfree : Free rows upsert) :
    Distinct (Slots.write rows upsert) := by
  intro first second place version hfirst hsecond
  simp only [Slots.write, Function.update_apply] at hfirst hsecond
  split at hfirst
  next hwritten =>
    split at hsecond
    next hsame => rw [hwritten, hsame]
    next hother =>
      obtain ⟨hplace, rfl⟩ := Prod.mk.inj (Option.some.inj hfirst)
      exact (hfree place hplace second hother hsecond).elim
  next hother =>
    split at hsecond
    next hwritten =>
      obtain ⟨hplace, rfl⟩ := Prod.mk.inj (Option.some.inj hsecond)
      exact (hfree place hplace first hother hfirst).elim
    next => exact hrows first second place version hfirst hsecond

theorem WritesIfFree.eq_write {next : Rows Id Place Version}
    (hwrites : WritesIfFree rows upsert next) (hstored : (rows upsert.id).isSome)
    (hfree : Free rows upsert) : next = Slots.write rows upsert := by
  cases hwrites with
  | written => rfl
  | left htaken => exact (htaken ⟨hstored, hfree⟩).elim

theorem Distinct.writesIfFree {next : Rows Id Place Version} (hrows : Distinct rows)
    (hwrites : WritesIfFree rows upsert next) : Distinct next := by
  cases hwrites with
  | written hstored hfree => exact hrows.write hfree
  | left htaken => exact hrows

theorem Distinct.settled (hrows : Distinct rows) (hfree : AllFree rows upserts) :
    Distinct (Slots.settled rows upserts) := by
  induction upserts generalizing rows with
  | nil => exact hrows
  | cons upsert upserts ih =>
      obtain ⟨hfirst, hrest⟩ := allFree_cons.mp hfree
      rw [settled_cons]
      exact ih (hrows.write hfirst) hrest

end Slots
