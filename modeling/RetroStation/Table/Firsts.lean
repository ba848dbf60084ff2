import Mathlib.Data.List.Nodup
import Mathlib.Data.List.Sublists

/-! # The first of each key

Of items with one key only the first is kept. What is kept is a part of the items in their
order, no two of it have one key, and every item has its keeper: the first item of its key.
-/

namespace Firsts

universe u v

variable {Item : Type u} {Key : Type v} [DecidableEq Key]

/-- The items whose key is not among the seen ones, nor that of an earlier item. -/
def unseenFirsts (key : Item → Key) (seen : List Key) : List Item → List Item
  | [] => []
  | item :: rest =>
    if key item ∈ seen then unseenFirsts key seen rest
    else item :: unseenFirsts key (key item :: seen) rest

def firsts (key : Item → Key) (items : List Item) : List Item := unseenFirsts key [] items

variable {key : Item → Key} {seen : List Key} {items : List Item} {item : Item}

theorem unseenFirsts_sublist : (unseenFirsts key seen items).Sublist items := by
  induction items generalizing seen with
  | nil => exact List.Sublist.slnil
  | cons first rest ih =>
      rw [unseenFirsts]
      split
      · exact ih.cons first
      · exact ih.cons_cons first

theorem not_mem_seen (hitem : item ∈ unseenFirsts key seen items) : key item ∉ seen := by
  induction items generalizing seen with
  | nil => cases hitem
  | cons first rest ih =>
      rw [unseenFirsts] at hitem
      split at hitem
      next => exact ih hitem
      next hnew =>
        rcases List.mem_cons.mp hitem with rfl | hrest
        · exact hnew
        · exact fun hseen => ih hrest (List.mem_cons_of_mem _ hseen)

theorem nodup_unseenFirsts : ((unseenFirsts key seen items).map key).Nodup := by
  induction items generalizing seen with
  | nil => exact List.nodup_nil
  | cons first rest ih =>
      rw [unseenFirsts]
      split
      · exact ih
      · rw [List.map_cons, List.nodup_cons]
        refine ⟨fun hmem => ?_, ih⟩
        obtain ⟨other, hother, hsame⟩ := List.mem_map.mp hmem
        exact not_mem_seen hother (hsame ▸ List.mem_cons_self)

/-- The first item of a key is kept. -/
theorem find_mem_unseenFirsts (hnew : key item ∉ seen) {first : Item}
    (hfirst : (items.find? fun other => key other = key item) = some first) :
    first ∈ unseenFirsts key seen items := by
  induction items generalizing seen with
  | nil => cases hfirst
  | cons head rest ih =>
      rw [unseenFirsts]
      by_cases hkey : key head = key item
      · rw [List.find?_cons_of_pos (by simpa using hkey)] at hfirst
        obtain rfl := Option.some.inj hfirst
        rw [if_neg (hkey ▸ hnew)]
        exact List.mem_cons_self
      · rw [List.find?_cons_of_neg (by simpa using hkey)] at hfirst
        split
        · exact ih hnew hfirst
        · refine List.mem_cons_of_mem _ (ih (fun hseen => ?_) hfirst)
          exact (List.mem_cons.mp hseen).elim (fun hsame => hkey hsame.symm) hnew

theorem firsts_sublist : (firsts key items).Sublist items := unseenFirsts_sublist

theorem nodup_firsts : ((firsts key items).map key).Nodup := nodup_unseenFirsts

theorem find_mem_firsts {first : Item}
    (hfirst : (items.find? fun other => key other = key item) = some first) :
    first ∈ firsts key items := find_mem_unseenFirsts List.not_mem_nil hfirst

/-- Every item has its keeper. -/
theorem exists_first (hitem : item ∈ items) : ∃ first,
    (items.find? fun other => key other = key item) = some first ∧ first ∈ firsts key items ∧
      key first = key item := by
  cases hfind : items.find? fun other => key other = key item with
  | none => simpa using List.find?_eq_none.mp hfind item hitem
  | some first =>
      exact ⟨first, rfl, find_mem_firsts hfind, by simpa using List.find?_some hfind⟩

end Firsts
