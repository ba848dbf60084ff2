import Mathlib.Algebra.BigOperators.Group.List.Basic
import Mathlib.Algebra.Order.Ring.Int
import Mathlib.Data.List.Induction
import RetroStation.Dict.Basic

/-! # Items grouped by a key

Each key has its items in the order they came; a key without items is not in the dictionary.
-/

namespace Dict

universe u v w

variable {Item : Type u} {Key : Type v} {Value : Type w} [DecidableEq Key]

/-- The items of each key. -/
def group (key : Item → Key) (items : List Item) : Dict Key (List Item) :=
  items.foldl (fun groups item =>
    groups.set (key item) (((groups.get? (key item)).getD []) ++ [item])) .empty

section

variable {key : Item → Key} {items members : List Item} {item : Item} {group : Key}

theorem group_snoc : Dict.group key (items ++ [item]) = (Dict.group key items).set (key item)
    ((((Dict.group key items).get? (key item)).getD []) ++ [item]) := by
  simp [Dict.group]

/-- The group of a key is the items that have it. -/
theorem get?_group : (Dict.group key items).get? group =
    if (items.filter fun item => key item = group) = [] then none
    else some (items.filter fun item => key item = group) := by
  induction items using List.reverseRecOn with
  | nil => rfl
  | append_singleton items item ih =>
      rw [group_snoc, get?_set, List.filter_append]
      by_cases hkey : group = key item
      · subst hkey
        rw [if_pos rfl, ih]
        split
        next hnone => simp [hnone]
        next hsome => simp
      · rw [if_neg hkey, ih]
        simp [Ne.symm hkey]

theorem mem_group_entries : (group, members) ∈ (Dict.group key items).entries ↔
    members = (items.filter fun item => key item = group) ∧ members ≠ [] := by
  rw [← get?_eq_some_iff, get?_group]
  split
  next hnone =>
    refine iff_of_false (by simp) ?_
    rintro ⟨rfl, hmembers⟩
    exact hmembers hnone
  next hsome =>
    rw [Option.some.injEq]
    exact ⟨fun hmembers => ⟨hmembers.symm, hmembers ▸ hsome⟩, fun hmembers => hmembers.1.symm⟩

theorem mem_group_keys : group ∈ (Dict.group key items).keys ↔
    ∃ item ∈ items, key item = group := by
  rw [mem_keys_iff, get?_group]
  split
  next hnone =>
    refine iff_of_false (by simp) ?_
    rintro ⟨item, hitem, hkey⟩
    have hmem : item ∈ items.filter fun item => key item = group :=
      List.mem_filter.mpr ⟨hitem, by simpa using hkey⟩
    rw [hnone] at hmem
    cases hmem
  next hsome =>
    obtain ⟨item, hitem⟩ := List.exists_mem_of_ne_nil _ hsome
    obtain ⟨hitem, hkey⟩ := List.mem_filter.mp hitem
    exact iff_of_true ⟨_, rfl⟩ ⟨item, hitem, by simpa using hkey⟩

end

theorem flatten_values_set (dict : Dict Key (List Item)) (group : Key) (item : Item) :
    ((dict.set group (((dict.get? group).getD []) ++ [item])).values.flatten).Perm
      (dict.values.flatten ++ [item]) := by
  obtain ⟨entries, hnodup⟩ := dict
  simp only [set, get?, values]
  clear hnodup
  induction entries with
  | nil => simp [setEntries]
  | cons head rest ih =>
      obtain ⟨first, held⟩ := head
      unfold setEntries
      by_cases hhead : first = group
      · simp only [hhead, decide_true, List.find?_cons_of_pos, Option.map_some, Option.getD_some,
          ↓reduceIte, List.map_cons, List.flatten_cons, List.append_assoc]
        exact List.perm_append_comm.append_left held
      · simp only [hhead, decide_false, Bool.false_eq_true, not_false_eq_true,
          List.find?_cons_of_neg, ↓reduceIte, List.map_cons, List.flatten_cons, List.append_assoc]
        exact ih.append_left held

/-- Grouping neither loses an item nor repeats one. -/
theorem flatten_values_group (key : Item → Key) (items : List Item) :
    (Dict.group key items).values.flatten.Perm items := by
  induction items using List.reverseRecOn with
  | nil => exact List.Perm.nil
  | append_singleton items item ih =>
      rw [group_snoc]
      exact (flatten_values_set _ _ _).trans (ih.append_right [item])

/-- The groups of some keys hold the items that have one of them. -/
theorem sum_group (key : Item → Key) (items : List Item) (p : Key → Bool) :
    ((Dict.group key items).entries.map fun entry => if p entry.1 then entry.2.length else 0).sum =
      items.countP fun item => p (key item) := by
  have hcount : ∀ entry ∈ (Dict.group key items).entries,
      (if p entry.1 then entry.2.length else 0) = entry.2.countP fun item => p (key item) := by
    rintro ⟨group, members⟩ hentry
    obtain ⟨rfl, -⟩ := mem_group_entries.mp hentry
    have hkeys : ∀ item ∈ items.filter (fun item => key item = group), p (key item) = p group :=
      fun item hitem => congrArg p (of_decide_eq_true (List.mem_filter.mp hitem).2)
    split
    next hgroup =>
      exact (List.countP_eq_length.mpr fun item hitem => (hkeys item hitem).trans hgroup).symm
    next hgroup =>
      exact (List.countP_eq_zero.mpr fun item hitem => (hkeys item hitem).symm ▸ hgroup).symm
  rw [List.map_congr_left hcount, ← (flatten_values_group key items).countP_eq, List.countP_flatten,
    values, List.map_map]
  rfl

/-! ## Pairs set over a dictionary -/

/-- Pairs with keys of their own are found among the entries of a dictionary they are set
over. -/
theorem get?_setAll (dict : Dict Key Value) (pairs : List (Key × Value))
    (hkeys : (pairs.map Prod.fst).Nodup) (key : Key) :
    (pairs.foldl (fun dict pair => dict.set pair.1 pair.2) dict).get? key =
      ((pairs.find? fun pair => pair.1 = key).map Prod.snd).or (dict.get? key) := by
  induction pairs generalizing dict with
  | nil => rfl
  | cons pair rest ih =>
      obtain ⟨hnew, hrest⟩ := List.nodup_cons.mp hkeys
      rw [List.foldl_cons, ih _ hrest, get?_set, List.find?_cons]
      by_cases hkey : pair.1 = key
      · have hnone : (rest.find? fun pair => pair.1 = key) = none := by
          rw [List.find?_eq_none]
          intro other hother hsame
          exact hnew (hkey ▸ of_decide_eq_true hsame ▸ List.mem_map_of_mem hother)
        simp [hkey, hnone]
      · simp [hkey, Ne.symm hkey]

end Dict
