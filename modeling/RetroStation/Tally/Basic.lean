import Mathlib.Algebra.BigOperators.Group.List.Basic
import Mathlib.Algebra.Order.Ring.Int
import Mathlib.Data.List.Dedup
import Mathlib.Tactic.Ring
import RetroStation.Dict.Basic

/-! # A table of counts

A table keeps, for each key, how many rows of another table have it. It is brought up to
date by differences, one for each key: those above zero are added, those below are taken
off, and what they take to zero goes. `holds_apply` is what such an update gives.
-/

namespace Tally

universe u v

variable {Key : Type u} {Row : Type v} [DecidableEq Key]

/-- The table has a row for each key that is counted, and no other. -/
def Holds (tally : Dict Key Int) (count : Key → Nat) : Prop :=
  ∀ key, tally.get? key = if count key = 0 then none else some (count key : Int)

/-- The difference of a key, nothing when it has none. -/
def delta (deltas : List (Key × Int)) (key : Key) : Int :=
  ((deltas.find? fun entry => entry.1 = key).map Prod.snd).getD 0

/-- Add the differences above zero, to a key that is there or as a new one. -/
def addAll (tally : Dict Key Int) (deltas : List (Key × Int)) : Dict Key Int :=
  (deltas.filter fun entry => 0 < entry.2).foldl
    (fun tally entry => tally.set entry.1 ((tally.get? entry.1).getD 0 + entry.2)) tally

/-- Take the differences below zero off the keys that are there. -/
def takeAll (tally : Dict Key Int) (deltas : List (Key × Int)) : Dict Key Int :=
  (deltas.filter fun entry => entry.2 < 0).foldl
    (fun tally entry =>
      match tally.get? entry.1 with
      | none => tally
      | some count => tally.set entry.1 (count + entry.2)) tally

/-- Drop the keys with a difference below zero that are at zero or below. -/
def prune (tally : Dict Key Int) (deltas : List (Key × Int)) : Dict Key Int :=
  (deltas.filter fun entry => entry.2 < 0).foldl
    (fun tally entry =>
      if (tally.get? entry.1).any (· ≤ 0) then tally.erase entry.1 else tally) tally

def apply (tally : Dict Key Int) (deltas : List (Key × Int)) : Dict Key Int :=
  prune (takeAll (addAll tally deltas) deltas) deltas

/-! ## What an update does to one key -/

variable {tally : Dict Key Int} {deltas later : List (Key × Int)} {key : Key}
variable {count next : Key → Nat}

/-- A pass over entries with one key each, of which every step touches its own key only. -/
theorem get?_foldl {step : Dict Key Int → Key × Int → Dict Key Int}
    {after : Option Int → Int → Option Int}
    (hself : ∀ tally entry, (step tally entry).get? entry.1 = after (tally.get? entry.1) entry.2)
    (hother : ∀ tally entry other, other ≠ entry.1 →
      (step tally entry).get? other = tally.get? other)
    (hnodup : (deltas.map Prod.fst).Nodup) :
    (deltas.foldl step tally).get? key =
      match deltas.find? fun entry => entry.1 = key with
      | none => tally.get? key
      | some entry => after (tally.get? key) entry.2 := by
  induction deltas generalizing tally with
  | nil => rfl
  | cons entry rest ih =>
      obtain ⟨hnew, hnodup⟩ := List.nodup_cons.mp hnodup
      rw [List.foldl_cons, ih hnodup, List.find?_cons]
      by_cases hkey : entry.1 = key
      · subst hkey
        have hnone : (rest.find? fun other => other.1 = entry.1) = none := by
          rw [List.find?_eq_none]
          intro other hmem hsame
          exact hnew (List.mem_map.mpr ⟨other, hmem, by simpa using hsame⟩)
        simp [hnone, hself]
      · simp only [hkey, decide_false]
        rw [hother _ _ _ (Ne.symm hkey)]

theorem find?_filter (hnodup : (deltas.map Prod.fst).Nodup) (p : Key × Int → Bool) :
    ((deltas.filter p).find? fun entry => entry.1 = key) =
      (deltas.find? fun entry => entry.1 = key).filter p := by
  induction deltas with
  | nil => rfl
  | cons entry rest ih =>
      obtain ⟨hnew, hnodup⟩ := List.nodup_cons.mp hnodup
      rw [List.filter_cons, List.find?_cons]
      by_cases hkey : entry.1 = key
      · subst hkey
        have hnone : (rest.find? fun other => other.1 = entry.1) = none := by
          rw [List.find?_eq_none]
          intro other hmem hsame
          exact hnew (List.mem_map.mpr ⟨other, hmem, by simpa using hsame⟩)
        split
        next hp => simp [Option.filter_some, hp]
        next hp => simp [ih hnodup, hnone, Option.filter_some, hp]
      · split
        · simp [hkey, ih hnodup]
        · simp [hkey, ih hnodup]

omit [DecidableEq Key] in
theorem nodup_filter (hnodup : (deltas.map Prod.fst).Nodup) (p : Key × Int → Bool) :
    ((deltas.filter p).map Prod.fst).Nodup := (List.filter_sublist.map Prod.fst).nodup hnodup

theorem get?_addAll (hnodup : (deltas.map Prod.fst).Nodup) :
    (addAll tally deltas).get? key =
      if 0 < delta deltas key then some ((tally.get? key).getD 0 + delta deltas key)
      else tally.get? key := by
  rw [addAll, @get?_foldl _ _ tally _ key _ (fun old n => some (old.getD 0 + n)) _ _
    (nodup_filter hnodup _), find?_filter hnodup, delta]
  · cases deltas.find? fun entry => entry.1 = key with
    | none => simp
    | some entry => by_cases hpos : 0 < entry.2 <;> simp [Option.filter_some, hpos]
  · exact fun tally entry => Dict.get?_set_self _ _ _
  · exact fun tally entry other hother => Dict.get?_set_of_ne hother _

theorem get?_takeAll (hnodup : (deltas.map Prod.fst).Nodup) :
    (takeAll tally deltas).get? key =
      if delta deltas key < 0 then (tally.get? key).map (· + delta deltas key)
      else tally.get? key := by
  rw [takeAll, @get?_foldl _ _ tally _ key _ (fun old n => old.map (· + n)) _ _
    (nodup_filter hnodup _), find?_filter hnodup, delta]
  · cases deltas.find? fun entry => entry.1 = key with
    | none => simp
    | some entry => by_cases hneg : entry.2 < 0 <;> simp [Option.filter_some, hneg]
  · intro tally entry
    split
    next hnone => rw [hnone]; rfl
    next count hsome => rw [Dict.get?_set_self, hsome]; rfl
  · intro tally entry other hother
    split
    · rfl
    · exact Dict.get?_set_of_ne hother _

theorem get?_prune (hnodup : (deltas.map Prod.fst).Nodup) :
    (prune tally deltas).get? key =
      if delta deltas key < 0 ∧ (tally.get? key).any (· ≤ 0) then none else tally.get? key := by
  rw [prune, @get?_foldl _ _ tally _ key _ (fun old _ => if old.any (· ≤ 0) then none else old) _ _
    (nodup_filter hnodup _), find?_filter hnodup, delta]
  · cases deltas.find? fun entry => entry.1 = key with
    | none => simp
    | some entry => by_cases hneg : entry.2 < 0 <;> simp [Option.filter_some, hneg]
  · intro tally entry
    split
    · exact Dict.get?_erase_self _ _
    · rfl
  · intro tally entry other hother
    split
    · exact Dict.get?_erase_of_ne hother
    · rfl

/-- The differences, one a key, take the table from one count to the next. -/
theorem holds_apply (hholds : Holds tally count) (hnodup : (deltas.map Prod.fst).Nodup)
    (hnext : ∀ key, (next key : Int) = count key + delta deltas key) :
    Holds (apply tally deltas) next := by
  intro key
  have hkey := hnext key
  rw [apply, get?_prune hnodup, get?_takeAll hnodup, get?_addAll hnodup, hholds key]
  generalize delta deltas key = d at hkey
  rcases lt_trichotomy d 0 with hneg | rfl | hpos
  · have hcount : count key ≠ 0 := by omega
    rw [if_neg (by omega : ¬ 0 < d), if_neg hcount, if_pos hneg]
    by_cases hgone : next key = 0
    · rw [if_pos hgone, if_pos ⟨hneg, by simp; omega⟩]
    · rw [if_neg hgone, if_neg (by simp; omega)]
      simp [hkey]
  · simp [show next key = count key by omega]
  · have hnext : next key ≠ 0 := by omega
    rw [if_pos hpos, if_neg (by omega : ¬ d < 0), if_neg (by omega : ¬ (d < 0 ∧ _)), if_neg hnext]
    split
    next hzero => simp [hkey, hzero]
    · simp [hkey]

/-- Differences above zero need no more than the first step. -/
theorem holds_addAll (hholds : Holds tally count) (hnodup : (deltas.map Prod.fst).Nodup)
    (hnext : ∀ key, (next key : Int) = count key + delta deltas key)
    (hpos : ∀ key, 0 ≤ delta deltas key) : Holds (addAll tally deltas) next := by
  intro key
  have hkey := hnext key
  have hnonneg := hpos key
  rw [get?_addAll hnodup, hholds key]
  split
  next hadded =>
    rw [if_neg (by omega : ¬ next key = 0)]
    split
    next hzero => simp [hkey, hzero]
    · simp [hkey]
  next hsame => rw [show next key = count key by omega]

theorem get?_foldl_erase {keys : List Key} :
    (keys.foldl Dict.erase tally).get? key = if key ∈ keys then none else tally.get? key := by
  induction keys generalizing tally with
  | nil => simp
  | cons first rest ih =>
      rw [List.foldl_cons, ih, Dict.get?_erase]
      by_cases hfirst : key = first <;> simp [hfirst]

/-- Drop the keys that satisfy `p`. -/
theorem holds_erase (hholds : Holds tally count) (p : Key → Bool)
    (hnext : ∀ key, next key = if p key then 0 else count key) :
    Holds ((tally.keys.filter p).foldl Dict.erase tally) next := by
  intro key
  rw [get?_foldl_erase, hnext key]
  cases hp : p key with
  | false => simpa [hp] using hholds key
  | true =>
      simp only [List.mem_filter, hp, and_true, if_true, ite_eq_left_iff]
      exact fun habsent => Dict.get?_eq_none_iff.mpr habsent

/-! ## Counting by groups -/

/-- The rows of a key, each with the weight it counts for. -/
def total (key : Row → Option Key) (rows : List (Row × Int)) (value : Key) : Int :=
  ((rows.filter fun row => key row.1 = some value).map Prod.snd).sum

/-- The weights of each key, summed; rows without a key are left out. -/
def groupSum (key : Row → Option Key) (rows : List (Row × Int)) : List (Key × Int) :=
  (rows.filterMap fun row => key row.1).dedup.map fun value => (value, total key rows value)

variable {rows more : List (Row × Int)} {group : Row → Option Key}

@[simp] theorem total_nil : total group [] key = 0 := rfl

theorem total_cons (row : Row × Int) :
    total group (row :: rows) key =
      (if group row.1 = some key then row.2 else 0) + total group rows key := by
  simp only [total, List.filter_cons, decide_eq_true_eq]
  split <;> simp

theorem total_append :
    total group (rows ++ more) key = total group rows key + total group more key := by
  simp [total]

/-- Rows that count for one each are counted. -/
theorem total_map (weight : Int) (rows : List Row) :
    total group (rows.map (·, weight)) key =
      weight * (rows.countP fun row => group row = some key) := by
  induction rows with
  | nil => simp
  | cons row rest ih =>
      rw [List.map_cons, total_cons, ih, List.countP_cons]
      simp only [decide_eq_true_eq]
      split <;> push_cast <;> ring

theorem nodup_groupSum : ((groupSum group rows).map Prod.fst).Nodup := by
  have hkeys : (groupSum group rows).map Prod.fst =
      (rows.filterMap fun row => group row.1).dedup := by
    simp [groupSum, Function.comp_def]
  rw [hkeys]
  exact List.nodup_dedup _

/-- The difference a grouping gives a key is the sum of its rows' weights. -/
theorem delta_groupSum : delta (groupSum group rows) key = total group rows key := by
  rw [delta, groupSum, List.find?_map]
  cases hfind : (rows.filterMap fun row => group row.1).dedup.find?
      ((fun entry => decide (entry.1 = key)) ∘ fun value => (value, total group rows value)) with
  | some value =>
      obtain rfl : value = key := by simpa using List.find?_some hfind
      rfl
  | none =>
      have habsent : ∀ row ∈ rows, group row.1 ≠ some key := by
        intro row hrow hgroup
        have hmem : key ∈ (rows.filterMap fun row => group row.1).dedup :=
          List.mem_dedup.mpr (List.mem_filterMap.mpr ⟨row, hrow, hgroup⟩)
        simpa using List.find?_eq_none.mp hfind key hmem
      have hnone : (rows.filter fun row => group row.1 = some key) = [] :=
        List.filter_eq_nil_iff.mpr fun row hrow => by simpa using habsent row hrow
      simp [total, hnone]

/-- Leaving out the groups at zero changes no difference. -/
theorem delta_filter_ne_zero (hnodup : (deltas.map Prod.fst).Nodup) :
    delta (deltas.filter fun entry => entry.2 ≠ 0) key = delta deltas key := by
  rw [delta, find?_filter hnodup, delta]
  cases deltas.find? fun entry => entry.1 = key with
  | none => rfl
  | some entry => by_cases hzero : entry.2 = 0 <;> simp [Option.filter_some, hzero]

/-- Differences over two sets of keys with nothing in common. -/
theorem delta_append (hdisjoint : ∀ entry ∈ deltas, ∀ other ∈ later, entry.1 ≠ other.1) :
    delta (deltas ++ later) key = delta deltas key + delta later key := by
  simp only [delta, List.find?_append]
  cases hfirst : deltas.find? fun entry => entry.1 = key with
  | none => simp
  | some entry =>
      have hlater : (later.find? fun entry => entry.1 = key) = none := by
        rw [List.find?_eq_none]
        intro other hother hsame
        refine hdisjoint entry (List.mem_of_find?_eq_some hfirst) other hother ?_
        have hkey : entry.1 = key := by simpa using List.find?_some hfirst
        exact hkey.trans (of_decide_eq_true hsame).symm
      simp [hlater]

end Tally
