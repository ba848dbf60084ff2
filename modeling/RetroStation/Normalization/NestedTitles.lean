import RetroStation.Normalization.BracketGroups

/-! # Titles with balanced brackets

Balanced brackets nest, whatever their kinds. The outermost groups of such a title are those
that are to be stripped.
-/

namespace RetroStation.Normalization

open Text

/-- A text with balanced brackets. -/
inductive Nest
  | nil
  | plain (char : Char) (hplain : ∀ kind : Bracket, char ≠ kind.opening ∧ char ≠ kind.closing)
      (rest : Nest)
  | group (kind : Bracket) (content rest : Nest)

namespace Nest

def text : Nest → List Char
  | nil => []
  | plain char _ rest => char :: rest.text
  | group kind content rest => kind.opening :: (content.text ++ kind.closing :: rest.text)

/-- How deep brackets of one kind nest. -/
def depth (kind : Bracket) : Nest → Nat
  | nil => 0
  | plain _ _ rest => rest.depth kind
  | group other content rest =>
      max (content.depth kind + if other = kind then 1 else 0) (rest.depth kind)

/-- The title without its outermost groups that are no part numbers, blanks in their places. -/
def kept (unicode : Unicode) : Nest → List Char
  | nil => []
  | plain char _ rest => char :: rest.kept unicode
  | group kind content rest =>
      replaceGroup unicode (kind.opening :: (content.text ++ [kind.closing])) ++ rest.kept unicode

/-- No outermost group is empty, or has brackets of its kind nested in brackets of its kind. -/
def Shallow : Nest → Prop
  | nil => True
  | plain _ _ rest => rest.Shallow
  | group kind content rest => content.text ≠ [] ∧ content.depth kind ≤ 1 ∧ rest.Shallow

/-- Only blanks and empty groups. -/
def Hollow : Nest → Prop
  | nil => True
  | plain char _ rest => isSpace char ∧ rest.Hollow
  | group _ content rest => content.text = [] ∧ rest.Hollow

end Nest

variable {unicode : Unicode} {kind : Bracket} {nested : Bool} {rest : List Char}

/-! ## Closing a group -/

section

variable {char : Char}

theorem closeAt_opening : closeAt kind nested (kind.opening :: rest) =
    if nested then none else (closeAt kind true rest).map (· + 1) := by
  rw [closeAt, if_neg (by cases kind <;> decide), if_pos rfl]

theorem closeAt_closing : closeAt kind nested (kind.closing :: rest) =
    if nested then (closeAt kind false rest).map (· + 1) else some 1 := by
  rw [closeAt, if_pos rfl]

theorem closeAt_other (hopening : char ≠ kind.opening) (hclosing : char ≠ kind.closing) :
    closeAt kind nested (char :: rest) = (closeAt kind nested rest).map (· + 1) := by
  rw [closeAt, if_neg hclosing, if_neg hopening]

theorem Bracket.ne_of_ne {other : Bracket} (hne : other ≠ kind) :
    (other.opening ≠ kind.opening ∧ other.opening ≠ kind.closing) ∧
      other.closing ≠ kind.opening ∧ other.closing ≠ kind.closing := by
  cases kind <;> cases other <;> first | decide | exact absurd rfl hne

end

namespace Nest

/-- The bracket that closes a group stands outside of a balanced text, if the brackets of its
kind in the text do not nest too deep. -/
theorem closeAt_append (nest : Nest) : closeAt kind nested (nest.text ++ rest) =
    if nest.depth kind + nested.toNat ≤ 1 then
      (closeAt kind nested rest).map (· + nest.text.length) else none := by
  induction nest generalizing nested rest with
  | nil =>
      cases nested with
      | true => simp [text, depth]
      | false => simp [text, depth]
  | plain char hplain more ih =>
      rw [text, List.cons_append, closeAt_other (hplain kind).1 (hplain kind).2, ih, depth]
      split
      next => rw [Option.map_map, List.length_cons]; rfl
      next => rfl
  | group other content more ihContent ihMore =>
      have htext : (group other content more).text ++ rest = other.opening :: (content.text ++
          (other.closing :: (more.text ++ rest))) := by
        simp [text]
      have hlength : (group other content more).text.length =
          content.text.length + more.text.length + 2 := by
        simp [text]
        omega
      have hsum : ∀ found : Option Nat, ((((found.map (· + more.text.length)).map (· + 1)).map
          (· + content.text.length)).map (· + 1)) =
          found.map (· + (content.text.length + more.text.length + 2)) := by
        rintro (_ | length)
        · rfl
        · simp only [Option.map_some, Option.some.injEq]
          omega
      rw [htext, hlength, depth]
      by_cases hkind : other = kind
      · subst hkind
        rw [closeAt_opening, ihContent, closeAt_closing, ihMore]
        cases nested with
        | true => simp
        | false =>
            simp only [if_true, if_false, Bool.false_eq_true, Bool.toNat_true, Bool.toNat_false]
            split_ifs <;> first | omega | exact hsum _ | rfl
      · obtain ⟨hopening, hclosing⟩ := Bracket.ne_of_ne hkind
        rw [closeAt_other hopening.1 hopening.2, ihContent, closeAt_other hclosing.1 hclosing.2,
          ihMore, if_neg hkind]
        split_ifs <;> first | omega | exact hsum _ | rfl

/-- A group of the nest is matched exactly when it is shallow. -/
theorem bracketGroup_nest (content : Nest) {before : Option Char} :
    bracketGroup before (kind.opening :: (content.text ++ kind.closing :: rest)) =
      if content.text ≠ [] ∧ content.depth kind ≤ 1 then content.text.length + 2 else 0 := by
  rw [bracketGroup_opening, groupLength, if_pos rfl, closeAt_append, closeAt_closing,
    Bool.toNat_false, Nat.add_zero, if_neg Bool.false_ne_true]
  by_cases hdepth : content.depth kind ≤ 1
  · rw [if_pos hdepth]
    by_cases hempty : content.text = []
    · simp [hempty]
    · have hlength := List.length_pos_iff.mpr hempty
      have hlong : 2 ≤ 1 + content.text.length := by omega
      rw [if_pos ⟨hempty, hdepth⟩, Option.map_some]
      dsimp only
      rw [if_pos hlong]
      omega
  · rw [if_neg hdepth]
    simp [hdepth]

theorem opening_mem_text {nest : Nest} (hdepth : nest.depth kind ≠ 0) :
    kind.opening ∈ nest.text := by
  induction nest with
  | nil => exact absurd rfl hdepth
  | plain char hplain more ih => exact List.mem_cons_of_mem _ (ih hdepth)
  | group other content more ihContent ihMore =>
      rw [text, List.mem_cons, List.mem_append, List.mem_cons]
      by_cases hkind : other = kind
      · exact .inl (hkind ▸ rfl)
      · rw [depth, if_neg hkind] at hdepth
        by_cases hcontent : content.depth kind = 0
        · exact .inr (.inr (.inr (ihMore (by omega))))
        · exact .inr (.inl (ihContent hcontent))

/-- A part number is a shallow group. -/
theorem shallow_of_isPartNumber {content : Nest}
    (hpart : isPartNumber unicode (strip content.text)) :
    content.text ≠ [] ∧ content.depth kind ≤ 1 := by
  constructor
  · intro hempty
    rw [hempty] at hpart
    exact Bool.false_ne_true hpart
  · by_contra hdeep
    have hmem : kind.opening ∈ content.text := opening_mem_text (by omega)
    exact opening_not_mem_of_isPartNumber hpart (mem_strip hmem Bracket.isSpace_opening)

theorem withoutGroups_shallow {content : Nest} (hsome : content.text ≠ [])
    (hdepth : content.depth kind ≤ 1) :
    withoutGroups unicode (kind.opening :: (content.text ++ kind.closing :: rest)) =
      replaceGroup unicode (kind.opening :: (content.text ++ [kind.closing])) ++
        withoutGroups unicode rest := by
  have htext : kind.opening :: (content.text ++ kind.closing :: rest) =
      (kind.opening :: (content.text ++ [kind.closing])) ++ rest := by
    simp
  rw [htext, withoutGroups_append (List.cons_ne_nil _ _)]
  rw [← htext, bracketGroup_nest, if_pos ⟨hsome, hdepth⟩]
  simp

theorem withoutGroups_deep {content : Nest}
    (hdeep : ¬(content.text ≠ [] ∧ content.depth kind ≤ 1)) :
    withoutGroups unicode (kind.opening :: (content.text ++ kind.closing :: rest)) =
      kind.opening :: withoutGroups unicode (content.text ++ kind.closing :: rest) :=
  withoutGroups_cons (by rw [bracketGroup_nest, if_neg hdeep])

theorem withoutGroups_closing : withoutGroups unicode (kind.closing :: rest) =
    kind.closing :: withoutGroups unicode rest :=
  withoutGroups_plain (by cases kind <;> rfl) fun other => by
    cases kind <;> cases other <;> decide

/-- A character that is no bracket is kept, up to runs of blanks. -/
theorem withoutGroups_char {char : Char} (hopening : ∀ kind : Bracket, char ≠ kind.opening)
    (first : List Char) : words (first ++ withoutGroups unicode (char :: rest)) =
      words ((first ++ [char]) ++ withoutGroups unicode rest) := by
  rw [List.append_assoc, List.singleton_append]
  cases hword : isSpace char with
  | true => exact withoutGroups_blank hword first
  | false => rw [withoutGroups_plain hword hopening]

/-- Shallow groups are all removed, and part numbers kept. -/
theorem words_withoutGroups_of_shallow {nest : Nest} (hshallow : nest.Shallow)
    (first : List Char) : words (first ++ withoutGroups unicode nest.text) =
      words (first ++ nest.kept unicode) := by
  induction nest generalizing first with
  | nil => rfl
  | plain char hplain more ih =>
      rw [text, withoutGroups_char fun kind => (hplain kind).1, ih hshallow, kept,
        List.append_assoc, List.singleton_append]
  | group kind content more ihContent ihMore =>
      obtain ⟨hsome, hdepth, hmore⟩ := hshallow
      rw [text, withoutGroups_shallow hsome hdepth, kept, ← List.append_assoc, ihMore hmore,
        List.append_assoc]

/-- Nothing is removed from a hollow title. -/
theorem words_withoutGroups_of_hollow {nest : Nest} (hhollow : nest.Hollow) (first : List Char) :
    words (first ++ withoutGroups unicode nest.text) = words (first ++ nest.text) := by
  induction nest generalizing first with
  | nil => rfl
  | plain char hplain more ih =>
      rw [text, withoutGroups_char fun kind => (hplain kind).1, ih hhollow.2, List.append_assoc,
        List.singleton_append]
  | group kind content more ihContent ihMore =>
      obtain ⟨hempty, hmore⟩ := hhollow
      have hdeep : ¬(content.text ≠ [] ∧ content.depth kind ≤ 1) := fun hsome => hsome.1 hempty
      have hrest := ihMore hmore (first ++ [kind.opening, kind.closing])
      rw [text, withoutGroups_deep hdeep, hempty, List.nil_append, withoutGroups_closing]
      simpa using hrest

theorem words_kept_of_hollow {nest : Nest} (hhollow : nest.Hollow) :
    words (nest.kept unicode) = [] := by
  induction nest with
  | nil => rfl
  | plain char hplain more ih => rw [kept, words_cons_of_blank hhollow.1, ih hhollow.2]
  | group kind content more ihContent ihMore =>
      obtain ⟨hempty, hmore⟩ := hhollow
      have hpart : isPartNumber unicode (groupContent
          (kind.opening :: (content.text ++ [kind.closing]))) = false := by
        rw [hempty]
        cases kind <;> rfl
      rw [kept, replaceGroup, hpart, if_neg Bool.false_ne_true, List.singleton_append,
        words_cons_of_blank rfl, ihMore hmore]

/-! ## How many characters are left -/

/-- The characters of a text that are not blank. -/
def weight (text : List Char) : Nat := (text.filter fun char => !isSpace char).length

theorem weight_append (first second : List Char) :
    weight (first ++ second) = weight first + weight second := by
  simp [weight]

theorem weight_cons (char : Char) (text : List Char) :
    weight (char :: text) = weight [char] + weight text :=
  weight_append [char] text

theorem weight_eq_of_words {first second : List Char} (hwords : words first = words second) :
    weight first = weight second := by
  rw [weight, weight, ← flatten_words, ← flatten_words, hwords]

theorem weight_opening : weight (kind.opening :: rest) = weight rest + 1 := by
  rw [weight_cons, Nat.add_comm]
  cases kind <;> rfl

theorem weight_closing : weight (kind.closing :: rest) = weight rest + 1 := by
  rw [weight_cons, Nat.add_comm]
  cases kind <;> rfl

theorem weight_group (content : List Char) :
    weight (kind.opening :: (content ++ [kind.closing])) = weight content + 2 := by
  rw [weight_opening, weight_append, weight_closing]
  rfl

theorem replaceGroup_eq (content : List Char) :
    replaceGroup unicode (kind.opening :: (content ++ [kind.closing])) =
      if isPartNumber unicode (strip content) then kind.opening :: (content ++ [kind.closing])
      else [' '] := by
  have hcontent : groupContent (kind.opening :: (content ++ [kind.closing])) = strip content :=
    @groupContent_eq kind content [] (List.forall_mem_nil _)
  rw [replaceGroup, hcontent]

theorem weight_replaceGroup_le (content : List Char) :
    weight (replaceGroup unicode (kind.opening :: (content ++ [kind.closing]))) ≤
      weight content + 2 := by
  rw [replaceGroup_eq]
  split
  next => rw [weight_group]
  next => exact Nat.zero_le _

theorem weight_withoutGroups_char {char : Char}
    (hopening : ∀ kind : Bracket, char ≠ kind.opening) :
    weight (withoutGroups unicode (char :: rest)) =
      weight [char] + weight (withoutGroups unicode rest) := by
  have hweight := weight_eq_of_words (@withoutGroups_char unicode rest char hopening [])
  rwa [List.nil_append, List.nil_append, weight_append] at hweight

theorem weight_withoutGroups_append (nest : Nest) (rest : List Char) :
    weight (withoutGroups unicode (nest.text ++ rest)) =
      weight (withoutGroups unicode nest.text) + weight (withoutGroups unicode rest) := by
  induction nest generalizing rest with
  | nil =>
      rw [text, List.nil_append]
      exact (Nat.zero_add _).symm
  | plain char hplain more ih =>
      rw [text, List.cons_append, weight_withoutGroups_char fun kind => (hplain kind).1, ih,
        weight_withoutGroups_char fun kind => (hplain kind).1, Nat.add_assoc]
  | group kind content more ihContent ihMore =>
      have htext : (group kind content more).text ++ rest =
          kind.opening :: (content.text ++ kind.closing :: (more.text ++ rest)) := by
        simp [text]
      rw [htext, text]
      by_cases hshallow : content.text ≠ [] ∧ content.depth kind ≤ 1
      · rw [withoutGroups_shallow hshallow.1 hshallow.2,
          withoutGroups_shallow hshallow.1 hshallow.2, weight_append, weight_append, ihMore,
          Nat.add_assoc]
      · rw [withoutGroups_deep hshallow, withoutGroups_deep hshallow, weight_opening, ihContent,
          weight_opening, ihContent, withoutGroups_closing, withoutGroups_closing, weight_closing,
          ihMore, weight_closing]
        omega

/-- The brackets of a group that is not shallow stay. -/
theorem weight_withoutGroups_deep {content : Nest} (more : Nest)
    (hdeep : ¬(content.text ≠ [] ∧ content.depth kind ≤ 1)) :
    weight (withoutGroups unicode (group kind content more).text) =
      weight (withoutGroups unicode content.text) + weight (withoutGroups unicode more.text) +
        2 := by
  rw [text, withoutGroups_deep hdeep, weight_opening, weight_withoutGroups_append,
    withoutGroups_closing, weight_closing]
  omega

theorem weight_withoutGroups_shallow {content : Nest} (more : Nest)
    (hshallow : content.text ≠ [] ∧ content.depth kind ≤ 1) :
    weight (withoutGroups unicode (group kind content more).text) =
      weight (replaceGroup unicode (kind.opening :: (content.text ++ [kind.closing]))) +
        weight (withoutGroups unicode more.text) := by
  rw [text, withoutGroups_shallow hshallow.1 hshallow.2, weight_append]

theorem weight_text_group (content more : Nest) :
    weight (group kind content more).text = weight content.text + weight more.text + 2 := by
  rw [text, weight_opening, weight_append, weight_closing]
  omega

theorem weight_withoutGroups_le (nest : Nest) :
    weight (withoutGroups unicode nest.text) ≤ weight nest.text := by
  induction nest with
  | nil => exact Nat.le_refl _
  | plain char hplain more ih =>
      rw [text, weight_withoutGroups_char fun kind => (hplain kind).1, weight_cons char more.text]
      omega
  | group kind content more ihContent ihMore =>
      rw [weight_text_group]
      by_cases hshallow : content.text ≠ [] ∧ content.depth kind ≤ 1
      · have hgroup := @weight_replaceGroup_le unicode kind content.text
        rw [weight_withoutGroups_shallow more hshallow]
        omega
      · rw [weight_withoutGroups_deep more hshallow]
        omega

/-- Deep brackets have a group in them that is removed. -/
theorem weight_withoutGroups_lt_of_deep {nest : Nest} (hdeep : 2 ≤ nest.depth kind) :
    weight (withoutGroups unicode nest.text) < weight nest.text := by
  induction nest generalizing kind with
  | nil => cases hdeep
  | plain char hplain more ih =>
      have hmore := ih hdeep
      rw [text, weight_withoutGroups_char fun kind => (hplain kind).1, weight_cons char more.text]
      omega
  | group other content more ihContent ihMore =>
      have hreplaced := @weight_replaceGroup_le unicode other content.text
      have hcontent := @weight_withoutGroups_le unicode content
      have hmore := @weight_withoutGroups_le unicode more
      rw [weight_text_group]
      by_cases hmoreDeep : 2 ≤ more.depth kind
      · have hless := ihMore hmoreDeep
        by_cases hshallow : content.text ≠ [] ∧ content.depth other ≤ 1
        · rw [weight_withoutGroups_shallow more hshallow]
          omega
        · rw [weight_withoutGroups_deep more hshallow]
          omega
      · have hopening : kind.opening ∈ content.text := by
          refine opening_mem_text ?_
          rw [depth] at hdeep
          split at hdeep <;> omega
        by_cases hshallow : content.text ≠ [] ∧ content.depth other ≤ 1
        · have hpart : ¬isPartNumber unicode (strip content.text) := fun hpart =>
            opening_not_mem_of_isPartNumber hpart (mem_strip hopening Bracket.isSpace_opening)
          rw [weight_withoutGroups_shallow more hshallow, replaceGroup_eq, if_neg hpart]
          change 0 + _ < _
          omega
        · have hless := @ihContent other (by
            by_contra hdepth
            exact hshallow ⟨List.ne_nil_of_mem hopening, by omega⟩)
          rw [weight_withoutGroups_deep more hshallow]
          omega

/-- Of the outermost groups that are not shallow more is left than should be. -/
theorem weight_kept_le (nest : Nest) :
    weight (nest.kept unicode) ≤ weight (withoutGroups unicode nest.text) ∧
      (¬nest.Shallow → weight (nest.kept unicode) < weight (withoutGroups unicode nest.text)) := by
  induction nest with
  | nil => exact ⟨Nat.le_refl _, fun hdeep => absurd trivial hdeep⟩
  | plain char hplain more ih =>
      rw [text, kept, weight_withoutGroups_char fun kind => (hplain kind).1,
        weight_cons char (more.kept unicode)]
      exact ⟨by omega, fun hdeep => by have := ih.2 hdeep; omega⟩
  | group kind content more ihContent ihMore =>
      rw [kept, weight_append]
      by_cases hshallow : content.text ≠ [] ∧ content.depth kind ≤ 1
      · rw [weight_withoutGroups_shallow more hshallow]
        refine ⟨by omega, fun hdeep => ?_⟩
        have hmore := ihMore.2 fun hmore => hdeep ⟨hshallow.1, hshallow.2, hmore⟩
        omega
      · have hpart : ¬isPartNumber unicode (strip content.text) :=
          fun hpart => hshallow (shallow_of_isPartNumber hpart)
        rw [weight_withoutGroups_deep more hshallow, replaceGroup_eq, if_neg hpart]
        have hblank : weight [' '] = 0 := rfl
        exact ⟨by omega, fun _ => by omega⟩

/-- If nothing but groups was there, some of it is removed unless all is hollow. -/
theorem weight_withoutGroups_lt {nest : Nest} (hkept : weight (nest.kept unicode) = 0)
    (hhollow : ¬nest.Hollow) : weight (withoutGroups unicode nest.text) < weight nest.text := by
  induction nest with
  | nil => exact absurd trivial hhollow
  | plain char hplain more ih =>
      rw [kept, weight_cons] at hkept
      have hblank : isSpace char = true := by
        by_contra hword
        have hweight : weight [char] = 1 := by
          rw [weight, List.filter_cons_of_pos (by simpa using hword)]
          rfl
        omega
      have hless := ih (by omega) fun hmore => hhollow ⟨hblank, hmore⟩
      rw [text, weight_withoutGroups_char fun kind => (hplain kind).1, weight_cons char more.text]
      omega
  | group kind content more ihContent ihMore =>
      rw [kept, weight_append] at hkept
      have hmore := @weight_withoutGroups_le unicode more
      have hcontent := @weight_withoutGroups_le unicode content
      rw [weight_text_group]
      by_cases hshallow : content.text ≠ [] ∧ content.depth kind ≤ 1
      · rw [weight_withoutGroups_shallow more hshallow]
        omega
      · rw [weight_withoutGroups_deep more hshallow]
        by_cases hempty : content.text = []
        · have hless := ihMore (by omega) fun hmore => hhollow ⟨hempty, hmore⟩
          omega
        · have hless := @weight_withoutGroups_lt_of_deep unicode kind content (by
            by_contra hdepth
            exact hshallow ⟨hempty, by omega⟩)
          omega

end Nest

end RetroStation.Normalization
