import Mathlib.Data.List.Nodup

/-! # Dictionaries in insertion order

A finite map that remembers in which order its keys first came. Setting a key
that is there keeps its place; erasing and setting it again puts it last.
-/

universe u v

/-- The entries, oldest first, each key once. -/
@[ext]
structure Dict (Key : Type u) (Value : Type v) where
  entries : List (Key × Value)
  nodup : (entries.map Prod.fst).Nodup

namespace Dict

variable {Key : Type u} {Value : Type v}

def empty : Dict Key Value := ⟨[], List.nodup_nil⟩

def keys (dict : Dict Key Value) : List Key := dict.entries.map Prod.fst

def values (dict : Dict Key Value) : List Value := dict.entries.map Prod.snd

def size (dict : Dict Key Value) : Nat := dict.entries.length

@[simp] theorem size_empty : (empty : Dict Key Value).size = 0 := rfl

@[simp] theorem keys_empty : (empty : Dict Key Value).keys = [] := rfl

@[simp] theorem values_empty : (empty : Dict Key Value).values = [] := rfl

@[simp] theorem length_keys (dict : Dict Key Value) : dict.keys.length = dict.size :=
  List.length_map _

@[simp] theorem length_values (dict : Dict Key Value) : dict.values.length = dict.size :=
  List.length_map _

/-- The keys whose value satisfies `p`, in insertion order. -/
def keysWhere (dict : Dict Key Value) (p : Value → Bool) : List Key :=
  (dict.entries.filter fun entry => p entry.2).map Prod.fst

theorem nodup_keysWhere (dict : Dict Key Value) (p : Value → Bool) : (dict.keysWhere p).Nodup :=
  (List.filter_sublist.map Prod.fst).nodup dict.nodup

variable [DecidableEq Key]

def get? (dict : Dict Key Value) (key : Key) : Option Value :=
  (dict.entries.find? fun entry => entry.1 = key).map Prod.snd

/-- The entries with `key` set in place, or put last. -/
def setEntries (key : Key) (value : Value) : List (Key × Value) → List (Key × Value)
  | [] => [(key, value)]
  | entry :: rest =>
    if entry.1 = key then (key, value) :: rest else entry :: setEntries key value rest

theorem mem_keys_setEntries {key other : Key} {value : Value} {entries : List (Key × Value)} :
    other ∈ (setEntries key value entries).map Prod.fst ↔
      other = key ∨ other ∈ entries.map Prod.fst := by
  induction entries with
  | nil => simp [setEntries]
  | cons head rest ih =>
      unfold setEntries
      split
      next hhead => simp [hhead]
      · simp only [List.map_cons, List.mem_cons, ih]
        exact or_left_comm

theorem nodup_setEntries {key : Key} {value : Value} {entries : List (Key × Value)}
    (hnodup : (entries.map Prod.fst).Nodup) :
    ((setEntries key value entries).map Prod.fst).Nodup := by
  induction entries with
  | nil => simp [setEntries]
  | cons head rest ih =>
      rw [List.map_cons, List.nodup_cons] at hnodup
      unfold setEntries
      split
      next hhead =>
        rw [List.map_cons, List.nodup_cons]
        exact ⟨hhead ▸ hnodup.1, hnodup.2⟩
      next hhead =>
        rw [List.map_cons, List.nodup_cons, mem_keys_setEntries]
        exact ⟨not_or.mpr ⟨hhead, hnodup.1⟩, ih hnodup.2⟩

def set (dict : Dict Key Value) (key : Key) (value : Value) : Dict Key Value :=
  ⟨setEntries key value dict.entries, nodup_setEntries dict.nodup⟩

def erase (dict : Dict Key Value) (key : Key) : Dict Key Value where
  entries := dict.entries.filter fun entry => entry.1 ≠ key
  nodup := (List.filter_sublist.map Prod.fst).nodup dict.nodup

/-! ## Reading -/

@[simp] theorem get?_empty (key : Key) : (empty : Dict Key Value).get? key = none := rfl

theorem get?_eq_some_iff {dict : Dict Key Value} {key : Key} {value : Value} :
    dict.get? key = some value ↔ (key, value) ∈ dict.entries := by
  have hnodup := dict.nodup
  unfold get?
  generalize dict.entries = entries at hnodup ⊢
  induction entries with
  | nil => simp
  | cons head rest ih =>
      obtain ⟨first, held⟩ := head
      rw [List.map_cons, List.nodup_cons] at hnodup
      have habsent : ∀ value, (first, value) ∉ rest :=
        fun value hmem => hnodup.1 (List.mem_map.mpr ⟨_, hmem, rfl⟩)
      by_cases hfirst : first = key
      · subst hfirst
        simp [habsent, eq_comm]
      · simp [hfirst, Ne.symm hfirst, ih hnodup.2]

theorem mem_keys_iff {dict : Dict Key Value} {key : Key} :
    key ∈ dict.keys ↔ ∃ value, dict.get? key = some value := by
  simp [keys, get?_eq_some_iff]

theorem get?_eq_none_iff {dict : Dict Key Value} {key : Key} :
    dict.get? key = none ↔ key ∉ dict.keys := by
  simp [mem_keys_iff, Option.eq_none_iff_forall_ne_some]

/-! ## Writing -/

theorem setEntries_of_not_mem {key : Key} {value : Value} {entries : List (Key × Value)}
    (hkey : key ∉ entries.map Prod.fst) : setEntries key value entries = entries ++
      [(key, value)] := by
  induction entries with
  | nil => rfl
  | cons head rest ih =>
      rw [List.map_cons, List.mem_cons, not_or] at hkey
      unfold setEntries
      rw [if_neg (Ne.symm hkey.1), ih hkey.2, List.cons_append]

/-- A new key goes last. -/
theorem entries_set_of_not_mem {dict : Dict Key Value} {key : Key} (hkey : key ∉ dict.keys)
    (value : Value) : (dict.set key value).entries = dict.entries ++ [(key, value)] :=
  setEntries_of_not_mem hkey

theorem keys_set_of_not_mem {dict : Dict Key Value} {key : Key} (hkey : key ∉ dict.keys)
    (value : Value) : (dict.set key value).keys = dict.keys ++ [key] := by
  simp [keys, entries_set_of_not_mem hkey]

theorem values_set_of_not_mem {dict : Dict Key Value} {key : Key} (hkey : key ∉ dict.keys)
    (value : Value) : (dict.set key value).values = dict.values ++ [value] := by
  simp [values, entries_set_of_not_mem hkey]

theorem size_set_of_not_mem {dict : Dict Key Value} {key : Key} (hkey : key ∉ dict.keys)
    (value : Value) : (dict.set key value).size = dict.size + 1 := by
  simp [size, entries_set_of_not_mem hkey]

theorem get?_set (dict : Dict Key Value) (key other : Key) (value : Value) :
    (dict.set key value).get? other = if other = key then some value else dict.get? other := by
  obtain ⟨entries, hnodup⟩ := dict
  simp only [set, get?]
  clear hnodup
  induction entries with
  | nil =>
      by_cases hkey : other = key
      · simp [setEntries, hkey]
      · simp [setEntries, hkey, Ne.symm hkey]
  | cons head rest ih =>
      unfold setEntries
      by_cases hhead : head.1 = key
      · by_cases hkey : other = key
        · simp [hhead, hkey]
        · simp [hhead, hkey, Ne.symm hkey]
      · by_cases hother : head.1 = other
        · have hkey : other ≠ key := fun heq => hhead (hother.trans heq)
          simp [hother, hkey]
        · simp [hhead, hother, ih]

@[simp] theorem get?_set_self (dict : Dict Key Value) (key : Key) (value : Value) :
    (dict.set key value).get? key = some value := by
  simp [get?_set]

theorem get?_set_of_ne {dict : Dict Key Value} {key other : Key} (hne : other ≠ key)
    (value : Value) : (dict.set key value).get? other = dict.get? other := by
  simp [get?_set, hne]

theorem get?_erase (dict : Dict Key Value) (key other : Key) :
    (dict.erase key).get? other = if other = key then none else dict.get? other := by
  apply Option.ext
  intro value
  rw [get?_eq_some_iff]
  by_cases hkey : other = key
  · simp [erase, hkey]
  · simp [erase, hkey, get?_eq_some_iff]

@[simp] theorem get?_erase_self (dict : Dict Key Value) (key : Key) :
    (dict.erase key).get? key = none := by
  simp [get?_erase]

theorem get?_erase_of_ne {dict : Dict Key Value} {key other : Key} (hne : other ≠ key) :
    (dict.erase key).get? other = dict.get? other := by
  simp [get?_erase, hne]

theorem size_erase_le (dict : Dict Key Value) (key : Key) : (dict.erase key).size ≤ dict.size :=
  List.length_filter_le _ _

/-- A dictionary filled by counting is read by position. -/
theorem get?_eq_getElem? {dict : Dict Nat Value} (hkeys : dict.keys = List.range dict.size)
    (index : Nat) : dict.get? index = dict.values[index]? := by
  apply Option.ext
  intro value
  rw [get?_eq_some_iff, values, List.getElem?_map, Option.map_eq_some_iff]
  have hkey : ∀ (place : Nat) (entry : Nat × Value), dict.entries[place]? = some entry →
      entry.1 = place := by
    intro place entry hentry
    obtain ⟨hplace, -⟩ := List.getElem?_eq_some_iff.mp hentry
    have hread : dict.keys[place]? = some entry.1 := by simp [keys, hentry]
    rw [hkeys, size, List.getElem?_range hplace] at hread
    exact (Option.some.inj hread).symm
  constructor
  · intro hmem
    obtain ⟨place, hplace⟩ := List.mem_iff_getElem?.mp hmem
    obtain rfl := hkey place _ hplace
    exact ⟨_, hplace, rfl⟩
  · rintro ⟨entry, hentry, rfl⟩
    rw [← hkey index entry hentry]
    exact List.mem_of_getElem? hentry

/-! ## The keys of some values -/

variable {dict : Dict Key Value} {key : Key} {p : Value → Bool}

theorem mem_keysWhere : key ∈ dict.keysWhere p ↔ ∃ value, dict.get? key = some value ∧ p value := by
  simp [keysWhere, get?_eq_some_iff]

theorem keysWhere_set_of_not_mem (hkey : key ∉ dict.keys) (value : Value) (p : Value → Bool) :
    (dict.set key value).keysWhere p = dict.keysWhere p ++ if p value then [key] else [] := by
  rw [keysWhere, entries_set_of_not_mem hkey, List.filter_append, List.map_append]
  congr 1
  split <;> simp_all

/-- Setting a key it holds leaves every key where it was. -/
theorem keysWhere_set_of_get? {old value : Value} (hold : dict.get? key = some old)
    (hsame : p value = p old) : (dict.set key value).keysWhere p = dict.keysWhere p := by
  have hmem := get?_eq_some_iff.mp hold
  have hnodup := dict.nodup
  simp only [keysWhere, set]
  generalize dict.entries = entries at hmem hnodup
  induction entries with
  | nil => simp at hmem
  | cons head rest ih =>
      obtain ⟨first, held⟩ := head
      rw [List.map_cons, List.nodup_cons] at hnodup
      unfold setEntries
      by_cases hfirst : first = key
      · subst hfirst
        have hheld : held = old := by
          rcases List.mem_cons.mp hmem with heq | hlater
          · exact (Prod.mk.inj heq).2.symm
          · exact absurd (List.mem_map.mpr ⟨_, hlater, rfl⟩) hnodup.1
        rw [if_pos rfl, List.filter_cons, List.filter_cons, hsame, hheld]
        split <;> rfl
      · have hlater : (key, old) ∈ rest := by
          rcases List.mem_cons.mp hmem with heq | hlater
          · exact absurd (Prod.mk.inj heq).1.symm hfirst
          · exact hlater
        rw [if_neg hfirst, List.filter_cons, List.filter_cons]
        split
        · rw [List.map_cons, List.map_cons, ih hlater hnodup.2]
        · exact ih hlater hnodup.2

theorem keysWhere_erase (dict : Dict Key Value) (key : Key) (p : Value → Bool) :
    (dict.erase key).keysWhere p = (dict.keysWhere p).erase key := by
  rw [(nodup_keysWhere dict p).erase_eq_filter]
  simp only [keysWhere, erase, List.filter_map, List.filter_filter]
  congr 1
  apply List.filter_congr
  intro entry _
  by_cases hentry : entry.1 = key <;> simp [hentry]

theorem size_set_of_get? {old : Value} (hold : dict.get? key = some old) (value : Value) :
    (dict.set key value).size = dict.size := by
  have hkeys := @keysWhere_set_of_get? _ _ _ dict key (fun _ => true) old value hold rfl
  simpa [keysWhere, size] using congrArg List.length hkeys

/-! ## A dictionary of pairs -/

/-- Each pair set in turn. -/
def ofList (pairs : List (Key × Value)) : Dict Key Value :=
  pairs.foldl (fun dict pair => dict.set pair.1 pair.2) empty

theorem mem_entries_set {dict : Dict Key Value} {key : Key} {value : Value}
    {entry : Key × Value} (hentry : entry ∈ (dict.set key value).entries) :
    entry = (key, value) ∨ entry ∈ dict.entries := by
  have hsplit : ∀ entries : List (Key × Value), entry ∈ setEntries key value entries →
      entry = (key, value) ∨ entry ∈ entries := by
    intro entries
    induction entries with
    | nil => exact fun hmem => .inl (List.mem_singleton.mp hmem)
    | cons first rest ih =>
        intro hmem
        rw [setEntries] at hmem
        split at hmem
        · exact (List.mem_cons.mp hmem).imp_right (List.mem_cons_of_mem _)
        · rcases List.mem_cons.mp hmem with rfl | hrest
          · exact .inr List.mem_cons_self
          · exact (ih hrest).imp_right (List.mem_cons_of_mem _)
  exact hsplit _ hentry

theorem mem_entries_ofList {pairs : List (Key × Value)} {entry : Key × Value}
    (hentry : entry ∈ (ofList pairs).entries) : entry ∈ pairs := by
  have hfold : ∀ dict : Dict Key Value, (∀ entry ∈ dict.entries, entry ∈ pairs) →
      ∀ rest, rest ⊆ pairs →
        ∀ entry ∈ (rest.foldl (fun dict pair => dict.set pair.1 pair.2) dict).entries,
          entry ∈ pairs := by
    intro dict hdict rest
    induction rest generalizing dict with
    | nil => exact fun _ => hdict
    | cons pair rest ih =>
        intro hrest
        refine ih (dict.set pair.1 pair.2) (fun entry hmem => ?_)
          fun other hother => hrest (List.mem_cons_of_mem _ hother)
        rcases mem_entries_set hmem with rfl | hold
        · exact hrest List.mem_cons_self
        · exact hdict entry hold
  exact hfold empty nofun pairs (List.Subset.refl _) entry hentry

theorem mem_keys_ofList {pairs : List (Key × Value)} {key : Key} :
    key ∈ (ofList pairs).keys ↔ key ∈ pairs.map Prod.fst := by
  have hfold : ∀ dict : Dict Key Value,
      key ∈ (pairs.foldl (fun dict pair => dict.set pair.1 pair.2) dict).keys ↔
        key ∈ dict.keys ∨ key ∈ pairs.map Prod.fst := by
    induction pairs with
    | nil => simp
    | cons pair rest ih =>
        intro dict
        have hset : key ∈ (dict.set pair.1 pair.2).keys ↔ key = pair.1 ∨ key ∈ dict.keys :=
          mem_keys_setEntries
        rw [List.foldl_cons, ih, hset, List.map_cons, List.mem_cons]
        tauto
  exact (hfold empty).trans (by simp)

theorem get?_ofList_eq_some {pairs : List (Key × Value)} (hkeys : (pairs.map Prod.fst).Nodup)
    {key : Key} {value : Value} :
    (ofList pairs).get? key = some value ↔ (key, value) ∈ pairs := by
  refine ⟨fun hvalue => mem_entries_ofList (get?_eq_some_iff.mp hvalue), fun hpair => ?_⟩
  obtain ⟨other, hother⟩ := mem_keys_iff.mp (mem_keys_ofList.mpr (List.mem_map_of_mem hpair))
  have hsame := List.inj_on_of_nodup_map hkeys
    (mem_entries_ofList (get?_eq_some_iff.mp hother)) hpair rfl
  exact hother.trans (congrArg (fun pair => some pair.2) hsame)

end Dict
