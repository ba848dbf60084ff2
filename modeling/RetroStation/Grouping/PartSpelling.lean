import Mathlib.Data.List.TakeWhile
import Mathlib.Tactic.Ring
import RetroStation.Grouping.PartNumber
import RetroStation.Text.Decimal

/-! # One spelling per part number

A title whose part number is spelled anew has the same part number, and spells it as it would be
spelled. The numbers Python reads from digits have a greatest length.
-/

namespace RetroStation.Grouping

open Text (MAX_STR_DIGITS)

/-! ## Numbers that can be read -/

inductive TooManyDigits
  | mk
  deriving DecidableEq, Repr

/-- More digits than an integer is read from. -/
def IsTooLong (numeral : List Char) : Prop :=
  numeral.all Char.isDigit = true ∧ MAX_STR_DIGITS < numeral.length

instance (numeral : List Char) : Decidable (IsTooLong numeral) :=
  inferInstanceAs (Decidable (_ ∧ _))

/-- The value of a numeral, as long as it can be read. -/
def readPartValue (numeral : List Char) : Except TooManyDigits (Option Int) :=
  if IsTooLong numeral then .error .mk else .ok (partValue numeral)

/-- The value of the numeral that was found, if any. -/
def readFound (numeral : Option (List Char)) : Except TooManyDigits (Option Int) :=
  match numeral with
  | none => .ok none
  | some numeral => readPartValue numeral

/-- The numeral of a title's first part. -/
def partNumeral (normalizedTitle : String) : Option (List Char) :=
  (findPart false normalizedTitle.toList).map fun (_, numeral, _) => numeral

/-- `title_part_number`, which fails on a number that is too long. -/
def readTitlePartNumber (normalizedTitle : String) : Except TooManyDigits (Option Int) := do
  match ← readFound (partNumeral normalizedTitle) with
  | some value => return some value
  | none => readFound (trailingRoman normalizedTitle.toList)

/-- `canonicalize_part_number`, which fails on a number that is too long. -/
def readCanonical (normalizedTitle : String) : Except TooManyDigits String :=
  match findPart false normalizedTitle.toList with
  | none => .ok normalizedTitle
  | some (before, numeral, after) => do
    match ← readPartValue numeral with
    | none => return normalizedTitle
    | some value => return String.ofList before ++ "part " ++ toString value ++ String.ofList after

/-- Without such a number, they are what they are read as. -/
theorem readCanonical_eq {normalizedTitle : String}
    (hread : ∀ numeral ∈ partNumeral normalizedTitle, ¬ IsTooLong numeral) :
    readCanonical normalizedTitle = .ok (canonicalizePartNumber normalizedTitle) := by
  unfold readCanonical canonicalizePartNumber
  cases hfound : findPart false normalizedTitle.toList with
  | none => rfl
  | some found =>
    obtain ⟨before, numeral, after⟩ := found
    have hshort : ¬ IsTooLong numeral := hread numeral (by rw [partNumeral, hfound]; rfl)
    dsimp only
    rw [readPartValue, if_neg hshort]
    cases partValue numeral <;> rfl

/-! ## Values and their digits -/

theorem foldl_decimal (digits : List Char) (start : Nat) :
    digits.foldl (fun value digit => 10 * value + ((digit.toNat - '0'.toNat : Nat) : Int)) start =
      (Nat.ofDigitChars 10 digits start : Nat) := by
  induction digits generalizing start with
  | nil => rfl
  | cons digit rest ih =>
      rw [List.foldl_cons, Nat.ofDigitChars_cons, ← ih]
      push_cast
      rfl

theorem decimal_eq (digits : List Char) : decimal digits = (Nat.ofDigitChars 10 digits 0 : Nat) :=
  foldl_decimal digits 0

/-- Some digits spell a number below the power of ten of their length. -/
theorem ofDigitChars_lt {digits : List Char} (hdigits : digits.all Char.isDigit = true)
    (start : Nat) : Nat.ofDigitChars 10 digits start < (start + 1) * 10 ^ digits.length := by
  induction digits generalizing start with
  | nil => simp
  | cons digit rest ih =>
      rw [List.all_cons, Bool.and_eq_true] at hdigits
      have hdigit : digit.toNat - '0'.toNat ≤ 9 := by
        have hcode : digit.toNat ≤ 57 := by
          have hboth := hdigits.1
          simp only [Char.isDigit, Bool.and_eq_true, decide_eq_true_eq,
            UInt32.le_iff_toNat_le] at hboth
          exact hboth.2
        have hzero : '0'.toNat = 48 := rfl
        omega
      rw [Nat.ofDigitChars_cons, List.length_cons, Nat.pow_succ]
      calc Nat.ofDigitChars 10 rest (10 * start + (digit.toNat - '0'.toNat))
          < (10 * start + (digit.toNat - '0'.toNat) + 1) * 10 ^ rest.length := ih hdigits.2 _
        _ ≤ (10 * start + 10) * 10 ^ rest.length := Nat.mul_le_mul_right _ (by omega)
        _ = (start + 1) * (10 ^ rest.length * 10) := by ring

theorem romanNumerals_values : romanNumerals.all (fun numeral =>
    decide (0 ≤ romanSum numeral ∧ romanSum numeral < 1000)) = true := by
  decide +kernel

/-- A value is a natural number that can be read back. -/
theorem partValue_spec {numeral : List Char} {value : Int} (hvalue : partValue numeral = some value)
    (hshort : ¬ IsTooLong numeral) :
    ∃ number : Nat, value = number ∧ (Nat.toDigits 10 number).length ≤ MAX_STR_DIGITS := by
  have hsmall : ∀ number : Nat, number < 1000 →
      (Nat.toDigits 10 number).length ≤ MAX_STR_DIGITS := fun number hlt =>
    ((Nat.length_toDigits_le_iff (k := 3) (by decide) (by decide)).mpr hlt).trans (by decide)
  unfold partValue at hvalue
  split at hvalue
  next hdigits =>
    obtain rfl := Option.some.inj hvalue
    refine ⟨_, decimal_eq numeral, ?_⟩
    have hlength : 0 < numeral.length := List.length_pos_iff.mpr hdigits.1
    have hfits : numeral.length ≤ MAX_STR_DIGITS := Nat.not_lt.mp fun hlong =>
      hshort ⟨hdigits.2, hlong⟩
    refine le_trans ((Nat.length_toDigits_le_iff (by decide) hlength).mpr ?_) hfits
    simpa using ofDigitChars_lt hdigits.2 0
  next =>
    split at hvalue
    next index hindex =>
      obtain rfl := Option.some.inj hvalue
      have hlt : index < partWords.length := (List.findIdx?_eq_some_iff_findIdx_eq.mp hindex).1
      exact ⟨index + 1, rfl, hsmall _ (Nat.lt_of_le_of_lt hlt (by decide))⟩
    · split at hvalue
      next hroman =>
        obtain rfl := Option.some.inj hvalue
        obtain ⟨hpos, hlt⟩ := of_decide_eq_true (List.all_eq_true.mp romanNumerals_values _ hroman)
        exact ⟨(romanSum numeral).toNat, (Int.toNat_of_nonneg hpos).symm, hsmall _ (by omega)⟩
      · cases hvalue

theorem toDigits_all (number : Nat) : (Nat.toDigits 10 number).all Char.isDigit = true :=
  List.all_eq_true.mpr fun _ hdigit => Nat.isDigit_of_mem_toDigits (by decide) (by decide) hdigit

/-- A number is read from its digits. -/
theorem readPartValue_toDigits {number : Nat}
    (hfits : (Nat.toDigits 10 number).length ≤ MAX_STR_DIGITS) :
    readPartValue (Nat.toDigits 10 number) = .ok (some (number : Int)) := by
  rw [readPartValue, if_neg fun hlong => Nat.not_lt.mpr hfits hlong.2, partValue,
    if_pos ⟨Nat.toDigits_ne_nil, toDigits_all number⟩, decimal_eq, Nat.ofDigitChars_ten_toDigits]

/-! ## What a part begins with -/

/-- The numeral and the rest of a part that begins right here. -/
def partAt (title : List Char) : Option (List Char × List Char) :=
  (partByLetters title).or (partByDigits title)

def isLetterNumeral (word : List Char) : Bool :=
  (word ≠ [] && word.all isRomanLetter) || partWords.any fun spelled => spelled.toList = word

def isDigitNumeral (word : List Char) : Bool := word ≠ [] && word.all Char.isDigit

/-- A title's first word and what follows it begin a part. -/
def SaysPart (word rest : List Char) : Prop :=
  (∃ lead ∈ ["part", "pt"], word = lead.toList ∧
      ∃ more, rest = ' ' :: more ∧ isLetterNumeral (more.takeWhile isWordChar) = true) ∨
    ∃ lead ∈ ["part", "pt", "no"],
      (word = lead.toList ∧
          ∃ more, rest = ' ' :: more ∧ isDigitNumeral (more.takeWhile isWordChar) = true) ∨
        ∃ digits, word = lead.toList ++ digits ∧ isDigitNumeral digits = true

theorem dropText_eq_some {text : String} {title rest : List Char} :
    dropText text title = some rest ↔ title = text.toList ++ rest := by
  unfold dropText
  rw [Option.ite_none_right_eq_some, List.isPrefixOf_iff_prefix, Option.some.injEq]
  constructor
  · rintro ⟨⟨more, rfl⟩, hrest⟩
    rw [← hrest, ← String.length_toList, List.drop_left]
  · rintro rfl
    exact ⟨List.prefix_append _ _, by rw [← String.length_toList, List.drop_left]⟩

theorem numeralAt_isSome {numeral : List Char → Bool} {title : List Char} :
    (numeralAt numeral title).isSome = numeral (title.takeWhile isWordChar) := by
  unfold numeralAt
  dsimp only
  split
  next hnumeral => rw [hnumeral]; rfl
  next hnone => rw [Bool.eq_false_iff.mpr hnone]; rfl

theorem firstM_isSome {Item Result : Type} (find : Item → Option Result) (items : List Item) :
    (items.firstM find).isSome = true ↔ ∃ item ∈ items, (find item).isSome = true := by
  induction items with
  | nil => simp [List.firstM]
  | cons item rest ih =>
      rw [List.firstM]
      cases hfind : find item with
      | none => simpa [hfind] using ih
      | some result => simp [hfind]

theorem splits_at_blank {lead : String} (hlead : lead.toList.all isWordChar = true)
    {title more : List Char} : title = lead.toList ++ ' ' :: more ↔
      title.takeWhile isWordChar = lead.toList ∧ title.dropWhile isWordChar = ' ' :: more := by
  constructor
  · rintro rfl
    have hall := List.all_eq_true.mp hlead
    rw [List.takeWhile_append_of_pos hall, List.dropWhile_append_of_pos hall]
    exact ⟨List.append_nil _, rfl⟩
  · rintro ⟨hword, hrest⟩
    rw [← List.takeWhile_append_dropWhile (p := isWordChar) (l := title), hword, hrest]

theorem lettersAt_isSome {lead spaced : String} (hspaced : spaced.toList = lead.toList ++ [' '])
    (hlead : lead.toList.all isWordChar = true) (title : List Char) :
    ((dropText spaced title).bind (numeralAt isLetterNumeral)).isSome = true ↔
      title.takeWhile isWordChar = lead.toList ∧ ∃ more,
        title.dropWhile isWordChar = ' ' :: more ∧
          isLetterNumeral (more.takeWhile isWordChar) = true := by
  rw [Option.isSome_bind, Option.any_eq_true]
  constructor
  · rintro ⟨more, hmore, hnumeral⟩
    rw [dropText_eq_some, hspaced, List.append_assoc, List.singleton_append,
      splits_at_blank hlead] at hmore
    exact ⟨hmore.1, more, hmore.2, by rwa [numeralAt_isSome] at hnumeral⟩
  · rintro ⟨hword, more, hrest, hnumeral⟩
    refine ⟨more, ?_, by rwa [numeralAt_isSome]⟩
    rw [dropText_eq_some, hspaced, List.append_assoc, List.singleton_append, splits_at_blank hlead]
    exact ⟨hword, hrest⟩

theorem partByLetters_isSome (title : List Char) : (partByLetters title).isSome = true ↔
    ∃ lead ∈ ["part", "pt"], title.takeWhile isWordChar = lead.toList ∧
      ∃ more, title.dropWhile isWordChar = ' ' :: more ∧
        isLetterNumeral (more.takeWhile isWordChar) = true := by
  have hpart := @lettersAt_isSome "part" "part " rfl (by decide) title
  have hpt := @lettersAt_isSome "pt" "pt " rfl (by decide) title
  rw [partByLetters, firstM_isSome]
  simp only [List.mem_cons, List.not_mem_nil, or_false, exists_eq_or_imp, exists_eq_left]
  exact or_congr hpart hpt

/-- What a numeral of digits is looked for in. -/
def afterBlank (rest : List Char) : List Char :=
  match rest with
  | ' ' :: digits => digits
  | _ => rest

theorem digitsAt_isSome {lead : String} (hlead : lead.toList.all isWordChar = true)
    (title : List Char) :
    ((dropText lead title).bind fun rest => numeralAt isDigitNumeral (afterBlank rest)).isSome =
        true ↔
      (title.takeWhile isWordChar = lead.toList ∧ ∃ more, title.dropWhile isWordChar = ' ' :: more ∧
          isDigitNumeral (more.takeWhile isWordChar) = true) ∨
        ∃ digits, title.takeWhile isWordChar = lead.toList ++ digits ∧
          isDigitNumeral digits = true := by
  have hall := List.all_eq_true.mp hlead
  rw [Option.isSome_bind, Option.any_eq_true]
  constructor
  · rintro ⟨rest, hrest, hnumeral⟩
    rw [dropText_eq_some] at hrest
    rw [numeralAt_isSome] at hnumeral
    unfold afterBlank at hnumeral
    split at hnumeral
    next more =>
      obtain ⟨hword, hblank⟩ := (splits_at_blank hlead).mp hrest
      exact .inl ⟨hword, more, hblank, hnumeral⟩
    next =>
      refine .inr ⟨rest.takeWhile isWordChar, ?_, hnumeral⟩
      rw [hrest, List.takeWhile_append_of_pos hall]
  · rintro (⟨hword, more, hblank, hnumeral⟩ | ⟨digits, hword, hnumeral⟩)
    · refine ⟨' ' :: more, ?_, by rwa [numeralAt_isSome]⟩
      rw [dropText_eq_some, splits_at_blank hlead]
      exact ⟨hword, hblank⟩
    · have htitle : title = lead.toList ++ (digits ++ title.dropWhile isWordChar) := by
        rw [← List.append_assoc, ← hword, List.takeWhile_append_dropWhile]
      refine ⟨_, dropText_eq_some.mpr htitle, ?_⟩
      have hdigits : (digits ++ title.dropWhile isWordChar).takeWhile isWordChar = digits := by
        have hsplit := congrArg (List.takeWhile isWordChar) htitle
        rw [hword, List.takeWhile_append_of_pos hall] at hsplit
        exact (List.append_cancel_left hsplit).symm
      have hblank : afterBlank (digits ++ title.dropWhile isWordChar) =
          digits ++ title.dropWhile isWordChar := by
        cases digits with
        | nil => simp [isDigitNumeral] at hnumeral
        | cons digit others =>
          unfold afterBlank
          split
          next hspace =>
            obtain ⟨rfl, -⟩ := List.cons.inj hspace
            simp [isDigitNumeral] at hnumeral
          · rfl
      rw [numeralAt_isSome, hblank, hdigits]
      exact hnumeral

theorem partByDigits_isSome (title : List Char) : (partByDigits title).isSome = true ↔
    ∃ lead ∈ ["part", "pt", "no"],
      (title.takeWhile isWordChar = lead.toList ∧ ∃ more, title.dropWhile isWordChar = ' ' :: more ∧
          isDigitNumeral (more.takeWhile isWordChar) = true) ∨
        ∃ digits, title.takeWhile isWordChar = lead.toList ++ digits ∧
          isDigitNumeral digits = true := by
  have hpart := @digitsAt_isSome "part" (by decide) title
  have hpt := @digitsAt_isSome "pt" (by decide) title
  have hno := @digitsAt_isSome "no" (by decide) title
  rw [partByDigits, firstM_isSome]
  simp only [List.mem_cons, List.not_mem_nil, or_false, exists_eq_or_imp, exists_eq_left]
  exact or_congr hpart (or_congr hpt hno)

theorem partAt_isSome (title : List Char) : (partAt title).isSome = true ↔
    SaysPart (title.takeWhile isWordChar) (title.dropWhile isWordChar) := by
  rw [partAt, Option.isSome_or, Bool.or_eq_true, partByLetters_isSome,
    partByDigits_isSome, SaysPart]

/-! ## The text around a part -/

section

variable {before tail more : List Char}

/-- A text that ends between words: it is empty, or ends with no character of a word. -/
def EndsApart (before : List Char) : Prop := ∀ last ∈ before.getLast?, isWordChar last = false

theorem EndsApart.exists_apart (hbefore : EndsApart before) (hsome : before ≠ []) :
    ∃ char ∈ before, ¬ isWordChar char = true :=
  ⟨before.getLast hsome, List.getLast_mem hsome, Bool.eq_false_iff.mp
    (hbefore _ (List.getLast?_eq_some_getLast hsome))⟩

/-- The first word of a text that ends between words does not depend on what follows it. -/
theorem split_append (hapart : ∃ char ∈ before, ¬ isWordChar char = true) (tail : List Char) :
    (before ++ tail).takeWhile isWordChar = before.takeWhile isWordChar ∧
      (before ++ tail).dropWhile isWordChar = before.dropWhile isWordChar ++ tail := by
  induction before with
  | nil => simp at hapart
  | cons first rest ih =>
      by_cases hfirst : isWordChar first = true
      · have hrest : ∃ char ∈ rest, ¬ isWordChar char = true := by
          obtain ⟨char, hchar, hnot⟩ := hapart
          rcases List.mem_cons.mp hchar with rfl | hlater
          · exact absurd hfirst hnot
          · exact ⟨char, hlater, hnot⟩
        simpa [List.takeWhile_cons, List.dropWhile_cons, hfirst] using ih hrest
      · simp [hfirst]

/-- What a text says at its start, it says without the "part" that follows it. -/
theorem saysPart_of_append (hbefore : EndsApart before) (hsome : before ≠ [])
    (htail : tail.takeWhile isWordChar = "part".toList)
    (hbegins : (partAt (before ++ tail)).isSome = true) (other : List Char) :
    (partAt (before ++ other)).isSome = true := by
  have hapart := hbefore.exists_apart hsome
  rw [partAt_isSome, (split_append hapart tail).1, (split_append hapart tail).2] at hbegins
  rw [partAt_isSome, (split_append hapart other).1, (split_append hapart other).2]
  have hsame : ∀ more, before.dropWhile isWordChar ++ tail = ' ' :: more →
      ∃ next, before.dropWhile isWordChar ++ other = ' ' :: next ∧
        (more.takeWhile isWordChar = next.takeWhile isWordChar ∨
          more.takeWhile isWordChar = "part".toList) := by
    intro more hmore
    cases hdrop : before.dropWhile isWordChar with
    | nil =>
      obtain ⟨char, hchar, hnot⟩ := hapart
      exact absurd (List.dropWhile_eq_nil_iff.mp hdrop char hchar) hnot
    | cons blank rest =>
      rw [hdrop, List.cons_append] at hmore
      obtain ⟨rfl, rfl⟩ := List.cons.inj hmore
      refine ⟨rest ++ other, rfl, ?_⟩
      by_cases hrest : rest = []
      · subst hrest
        exact .inr htail
      · have hlast : EndsApart rest := by
          intro last hmem
          refine hbefore last ?_
          rw [← List.takeWhile_append_dropWhile (p := isWordChar) (l := before), hdrop,
            List.append_cons, List.getLast?_append, hmem]
          rfl
        have hinner := hlast.exists_apart hrest
        rw [(split_append hinner tail).1, (split_append hinner other).1]
        exact .inl rfl
  have hletters : isLetterNumeral "part".toList = false := by decide
  have hdigits : isDigitNumeral "part".toList = false := by decide
  rcases hbegins with ⟨lead, hlead, hword, more, hmore, hnumeral⟩ |
    ⟨lead, hlead, ⟨hword, more, hmore, hnumeral⟩ | hglued⟩
  · obtain ⟨next, hnext, heq | hpart⟩ := hsame more hmore
    · exact .inl ⟨lead, hlead, hword, next, hnext, heq ▸ hnumeral⟩
    · rw [hpart, hletters] at hnumeral
      cases hnumeral
  · obtain ⟨next, hnext, heq | hpart⟩ := hsame more hmore
    · exact .inr ⟨lead, hlead, .inl ⟨hword, next, hnext, heq ▸ hnumeral⟩⟩
    · rw [hpart, hdigits] at hnumeral
      cases hnumeral
  · exact .inr ⟨lead, hlead, .inr hglued⟩

theorem numeralAt_after {numeral : List Char → Bool} {title found after : List Char}
    (hat : numeralAt numeral title = some (found, after)) :
    ∀ char ∈ after.head?, isWordChar char = false := by
  intro char hchar
  unfold numeralAt at hat
  dsimp only at hat
  split at hat
  · obtain ⟨-, rfl⟩ := Prod.mk.inj (Option.some.inj hat)
    have hnot := List.head?_dropWhile_not isWordChar title
    rw [hchar] at hnot
    exact hnot
  · cases hat

theorem firstM_head {Item Result : Type} {find : Item → Option Result} {item : Item}
    {items : List Item} {result : Result} (hfound : find item = some result) :
    (item :: items).firstM find = some result := by
  rw [List.firstM, hfound]
  rfl

theorem firstM_some {Item Result : Type} {find : Item → Option Result} {items : List Item}
    {result : Result} (hfound : items.firstM find = some result) :
    ∃ item ∈ items, find item = some result := by
  induction items with
  | nil => simp [List.firstM] at hfound
  | cons item rest ih =>
      rw [List.firstM] at hfound
      cases hfind : find item with
      | none =>
        obtain ⟨other, hother, hresult⟩ := ih (by simpa [hfind] using hfound)
        exact ⟨other, List.mem_cons_of_mem _ hother, hresult⟩
      | some first => exact ⟨item, List.mem_cons_self, by simpa [hfind] using hfound⟩

/-- What a part is followed by is no character of a word. -/
theorem partAt_after {title numeral after : List Char}
    (hpart : partAt title = some (numeral, after)) :
    ∀ char ∈ after.head?, isWordChar char = false := by
  rw [partAt, Option.or_eq_some_iff] at hpart
  rcases hpart with hletters | ⟨-, hdigits⟩
  · obtain ⟨lead, -, hlead⟩ := firstM_some hletters
    obtain ⟨rest, -, hnumeral⟩ := Option.bind_eq_some_iff.mp hlead
    exact numeralAt_after hnumeral
  · obtain ⟨lead, -, hlead⟩ := firstM_some hdigits
    obtain ⟨rest, -, hnumeral⟩ := Option.bind_eq_some_iff.mp hlead
    exact numeralAt_after hnumeral

/-- The first part is found behind a text that ends between words. -/
theorem findPart_spec {title : List Char} : ∀ {afterWord : Bool} {before numeral after : List Char},
    findPart afterWord title = some (before, numeral, after) →
      ∃ tail, title = before ++ tail ∧ partAt tail = some (numeral, after) ∧ EndsApart before ∧
        (before = [] → afterWord = false) := by
  induction title with
  | nil =>
      intro afterWord before numeral after hfound
      cases hfound
  | cons char rest ih =>
      intro afterWord before numeral after hfound
      unfold findPart at hfound
      dsimp only at hfound
      split at hfound
      next found more hhere =>
        cases hfound
        refine ⟨char :: rest, rfl, ?_, fun last hlast => (by cases hlast), fun _ => ?_⟩
        · cases afterWord
          · exact hhere
          · cases hhere
        · cases afterWord
          · rfl
          · cases hhere
      next hhere =>
        rw [Option.map_eq_some_iff] at hfound
        obtain ⟨⟨later, found, more⟩, hlater, heq⟩ := hfound
        cases heq
        obtain ⟨tail, rfl, hpart, hends, hfirst⟩ := ih hlater
        refine ⟨tail, rfl, hpart, fun last hlast => ?_, fun hnil => by cases hnil⟩
        by_cases hnone : later = []
        · subst hnone
          obtain rfl := Option.some.inj hlast
          exact hfirst rfl
        · refine hends last ?_
          rwa [List.getLast?_cons_of_ne_nil hnone] at hlast

/-- A part that begins right here is found here. -/
theorem findPart_here {title numeral after : List Char}
    (hpart : partAt title = some (numeral, after)) :
    findPart false title = some ([], numeral, after) := by
  cases title with
  | nil => cases hpart
  | cons char rest =>
    rw [partAt] at hpart
    simp [findPart, hpart]

/-- Another part in the place of the first one is the first one, if it is a word "part". -/
theorem findPart_replaced {other numeral after numeral' after' : List Char}
    (hword : other.takeWhile isWordChar = "part".toList)
    (hpart : partAt other = some (numeral', after')) : ∀ {afterWord : Bool},
    findPart afterWord (before ++ tail) = some (before, numeral, after) →
      findPart afterWord (before ++ other) = some (before, numeral', after') := by
  induction before with
  | nil =>
      intro afterWord hfound
      obtain ⟨-, -, -, -, hfirst⟩ := findPart_spec hfound
      cases hfirst rfl
      exact findPart_here hpart
  | cons char rest ih =>
      intro afterWord hfound
      obtain ⟨-, -, -, hends, -⟩ := findPart_spec hfound
      rw [List.cons_append, findPart] at hfound ⊢
      dsimp only at hfound ⊢
      split at hfound
      · cases hfound
      next hnone =>
        have hlater : findPart (isWordChar char) (rest ++ tail) = some (rest, numeral, after) := by
          obtain ⟨⟨later, found, more⟩, hlater, heq⟩ := Option.map_eq_some_iff.mp hfound
          cases heq
          exact hlater
        have hhere : (if afterWord = true then none else partAt (char :: rest ++ other)) =
          none := by
          split
          · rfl
          next hapart =>
            rw [if_neg hapart] at hnone
            rw [← Option.not_isSome_iff_eq_none]
            intro hbegins
            have hsaid := saysPart_of_append hends (List.cons_ne_nil _ _) hword hbegins tail
            rw [partAt, List.cons_append, hnone] at hsaid
            cases hsaid
        rw [partAt, List.cons_append] at hhere
        rw [hhere, ih hlater]
        rfl

end

/-! ## The one spelling -/

theorem isWordChar_digit {char : Char} (hdigit : char.isDigit = true) : isWordChar char = true := by
  rw [isWordChar, Char.isAlphanum, hdigit, Bool.or_true, Bool.true_or]

theorem not_letterNumeral_digits {digits : List Char} (hsome : digits ≠ [])
    (hdigits : digits.all Char.isDigit = true) : isLetterNumeral digits = false := by
  have hletters : ∀ letters : List Char, letters.any Char.isDigit = false → letters ≠ digits := by
    rintro letters hnone rfl
    cases letters with
    | nil => exact hsome rfl
    | cons letter rest =>
      rw [List.all_cons, Bool.and_eq_true] at hdigits
      rw [List.any_cons, hdigits.1] at hnone
      cases hnone
  have hroman : digits.all isRomanLetter = false := by
    cases digits with
    | nil => exact absurd rfl hsome
    | cons digit rest =>
      rw [List.all_cons, Bool.and_eq_true] at hdigits
      rw [List.all_cons, Bool.and_eq_false_iff]
      refine .inl (Bool.eq_false_iff.mpr fun hletter => ?_)
      have hnone : "ivxlc".toList.all (fun letter => !letter.isDigit) = true := by decide
      have hnot := List.all_eq_true.mp hnone digit (List.contains_iff_mem.mp hletter)
      rw [hdigits.1] at hnot
      cases hnot
  have hwords : (partWords.any fun spelled => decide (spelled.toList = digits)) = false := by
    have hspelled : partWords.all (fun spelled => !spelled.toList.any Char.isDigit) = true := by
      decide
    rw [List.any_eq_false]
    intro spelled hmem heq
    refine hletters spelled.toList ?_ (of_decide_eq_true heq)
    simpa using List.all_eq_true.mp hspelled spelled hmem
  rw [isLetterNumeral, hroman, hwords, Bool.and_false, Bool.or_false]

/-- The number of a part is found behind the word "part". -/
theorem partAt_part {digits after : List Char} (hsome : digits ≠ [])
    (hdigits : digits.all Char.isDigit = true)
    (hafter : ∀ char ∈ after.head?, isWordChar char = false) :
    partAt ("part ".toList ++ (digits ++ after)) =
      some (digits, after) := by
  have hword : ∀ digit ∈ digits, isWordChar digit = true := fun digit hdigit =>
    isWordChar_digit (List.all_eq_true.mp hdigits digit hdigit)
  have htake : (digits ++ after).takeWhile isWordChar = digits := by
    rw [List.takeWhile_append_of_pos hword]
    cases after with
    | nil => exact List.append_nil _
    | cons char rest => rw [List.takeWhile_cons_of_neg (by simp [hafter char rfl]), List.append_nil]
  have hdrop : (digits ++ after).dropWhile isWordChar = after := by
    rw [List.dropWhile_append_of_pos hword]
    cases after with
    | nil => rfl
    | cons char rest => rw [List.dropWhile_cons_of_neg (by simp [hafter char rfl])]
  have hletters : partByLetters ("part ".toList ++ (digits ++ after)) = none := by
    rw [← Option.not_isSome_iff_eq_none, partByLetters_isSome]
    rintro ⟨lead, -, -, more, hmore, hnumeral⟩
    change ' ' :: (digits ++ after) = ' ' :: more at hmore
    obtain ⟨-, rfl⟩ := List.cons.inj hmore
    rw [htake, not_letterNumeral_digits hsome hdigits] at hnumeral
    cases hnumeral
  have hfound : partByDigits ("part ".toList ++ (digits ++ after)) =
      some (digits, after) := by
    have hlead : dropText "part" ("part ".toList ++ (digits ++ after)) =
        some (' ' :: (digits ++ after)) := dropText_eq_some.mpr rfl
    have hnumeral : numeralAt isDigitNumeral (digits ++ after) =
        some (digits, after) := by
      rw [numeralAt, htake, hdrop, isDigitNumeral, hdigits]
      simp [hsome]
    refine firstM_head ?_
    rw [hlead]
    exact hnumeral
  rw [partAt, hletters, hfound]
  rfl

/-- A trailing roman numeral can always be read. -/
theorem readFound_trailingRoman (title : List Char) :
    ∃ number, readFound (trailingRoman title) = .ok number := by
  cases htrailing : trailingRoman title with
  | none => exact ⟨none, rfl⟩
  | some numeral =>
    have hroman : numeral ≠ [] ∧ numeral.all isRomanLetter = true := by
      unfold trailingRoman at htrailing
      dsimp only at htrailing
      split at htrailing
      · rw [Option.ite_none_right_eq_some] at htrailing
        obtain ⟨⟨hsome, -⟩, heq⟩ := htrailing
        obtain rfl := Option.some.inj heq
        refine ⟨by simpa using hsome, ?_⟩
        rw [List.all_reverse]
        exact List.all_takeWhile
      · cases htrailing
    refine ⟨partValue numeral, ?_⟩
    have hshort : ¬ IsTooLong numeral := by
      rintro ⟨hdigits, -⟩
      have hletters := not_letterNumeral_digits hroman.1 hdigits
      rw [isLetterNumeral, hroman.2, Bool.and_true, Bool.or_eq_false_iff] at hletters
      simp [hroman.1] at hletters
    rw [readFound, readPartValue, if_neg hshort]

/-- What carries no part keeps its text. -/
theorem readCanonical_unchanged {title : String}
    (hnone : ∀ numeral ∈ partNumeral title, ¬ IsTooLong numeral ∧ partValue numeral = none) :
    readCanonical title = .ok title := by
  rw [readCanonical]
  cases hfound : findPart false title.toList with
  | none => rfl
  | some found =>
    obtain ⟨before, numeral, after⟩ := found
    obtain ⟨hshort, hvalue⟩ := hnone numeral (by rw [partNumeral, hfound]; rfl)
    dsimp only
    rw [readPartValue, if_neg hshort, hvalue]
    rfl

/-- A title without a number that is too long carries a part number or none. -/
theorem readTitlePartNumber_ok {title : String}
    (hread : ∀ numeral ∈ partNumeral title, ¬ IsTooLong numeral) :
    ∃ number, readTitlePartNumber title = .ok number := by
  have hfirst : ∃ value, readFound (partNumeral title) = .ok value := by
    cases hfound : partNumeral title with
    | none => exact ⟨none, rfl⟩
    | some numeral => exact ⟨partValue numeral, if_neg (hread numeral hfound)⟩
  obtain ⟨value, hvalue⟩ := hfirst
  rw [readTitlePartNumber, hvalue]
  cases value with
  | none => exact readFound_trailingRoman _
  | some value => exact ⟨some value, rfl⟩

theorem readTitlePartNumber_found {title : String} {numeral : List Char} {value : Int}
    (hfound : partNumeral title = some numeral)
    (hvalue : readPartValue numeral = .ok (some value)) :
    readTitlePartNumber title = .ok (some value) := by
  rw [readTitlePartNumber, hfound, readFound, hvalue]
  rfl

/-- A title has a spelling of its part number that is its own, with the same part number. -/
def KeepsPart (normalizedTitle : String) : Prop :=
  ∃ canonical number, readCanonical normalizedTitle = .ok canonical ∧
    readCanonical canonical = .ok canonical ∧
      readTitlePartNumber canonical = .ok number ∧ readTitlePartNumber normalizedTitle = .ok number

theorem keepsPart_of_unchanged {title : String}
    (hnone : ∀ numeral ∈ partNumeral title, ¬ IsTooLong numeral ∧ partValue numeral = none) :
    KeepsPart title := by
  have hsame := readCanonical_unchanged hnone
  obtain ⟨number, hnumber⟩ := readTitlePartNumber_ok fun numeral hmem => (hnone numeral hmem).1
  exact ⟨title, number, hsame, hsame, hnumber, hnumber⟩

/-- A title whose part number can be read is spelled with that number, once and for all. -/
theorem keepsPart_of_value {title : String} {before numeral after : List Char} {value : Int}
    (hfound : findPart false title.toList = some (before, numeral, after))
    (hshort : ¬ IsTooLong numeral) (hvalue : partValue numeral = some value) : KeepsPart title := by
  obtain ⟨number, rfl, hfits⟩ := partValue_spec hvalue hshort
  obtain ⟨tail, htitle, hpart, -, -⟩ := findPart_spec hfound
  have hread : readPartValue numeral = .ok (some (number : Int)) := by
    rw [readPartValue, if_neg hshort, hvalue]
  have hdigits := readPartValue_toDigits hfits
  set canonical : String :=
    String.ofList before ++ "part " ++ toString (number : Int) ++
      String.ofList after with hcanonical
  have hlist : canonical.toList =
      before ++ ("part ".toList ++ (Nat.toDigits 10 number ++ after)) := by
    have hnumber : (toString (number : Int)).toList = Nat.toDigits 10 number := Nat.toList_repr
    simp only [hcanonical, String.toList_append, String.toList_ofList, hnumber, List.append_assoc]
  have hagain : findPart false canonical.toList =
      some (before, Nat.toDigits 10 number, after) := by
    rw [hlist]
    rw [htitle] at hfound
    exact findPart_replaced rfl
      (partAt_part Nat.toDigits_ne_nil (toDigits_all number) (partAt_after hpart)) hfound
  refine ⟨canonical, some number, ?_, ?_, ?_, ?_⟩
  · rw [readCanonical, hfound]
    dsimp only
    rw [hread]
    rfl
  · rw [readCanonical, hagain]
    dsimp only
    rw [hdigits]
    rfl
  · exact readTitlePartNumber_found (by rw [partNumeral, hagain]; rfl) hdigits
  · exact readTitlePartNumber_found (by rw [partNumeral, hfound]; rfl) hread

theorem not_keepsPart {title : String} {numeral : List Char}
    (hnumeral : partNumeral title = some numeral) (hlong : IsTooLong numeral) :
    ¬ KeepsPart title := by
  rintro ⟨canonical, number, -, -, -, hnumber⟩
  rw [readTitlePartNumber, hnumeral, readFound, readPartValue, if_pos hlong] at hnumber
  cases hnumber

/-- Exactly the titles whose part's number is not too long to be read keep their part number
    when it is spelled anew; and titles that are spelled anew differ in their part numbers as
    they did before. -/
theorem canonical_keeps_part (normalizedTitle : String) :
    (KeepsPart normalizedTitle ↔ ∀ numeral ∈ partNumeral normalizedTitle, ¬ IsTooLong numeral) ∧
      ∀ other, KeepsPart normalizedTitle → KeepsPart other →
        ∃ canonical canonical', readCanonical normalizedTitle = .ok canonical ∧
          readCanonical other = .ok canonical' ∧
            (readTitlePartNumber canonical ≠ readTitlePartNumber canonical' ↔
              readTitlePartNumber normalizedTitle ≠ readTitlePartNumber other) := by
  refine ⟨⟨?_, ?_⟩, ?_⟩
  · exact fun hkeeps numeral hnumeral hlong => not_keepsPart hnumeral hlong hkeeps
  · intro hread
    cases hfound : findPart false normalizedTitle.toList with
    | none =>
      refine keepsPart_of_unchanged fun numeral hnumeral => ?_
      rw [partNumeral, hfound] at hnumeral
      cases hnumeral
    | some found =>
      obtain ⟨before, numeral, after⟩ := found
      have hnumeral : partNumeral normalizedTitle = some numeral := by rw [partNumeral, hfound]; rfl
      have hshort := hread numeral hnumeral
      -- A numeral of no value stays as it is spelled; one with a value is written in digits.
      cases hvalue : partValue numeral with
      | some value => exact keepsPart_of_value hfound hshort hvalue
      | none =>
        refine keepsPart_of_unchanged fun other hother => ?_
        obtain rfl := Option.some.inj (hnumeral.symm.trans hother)
        exact ⟨hshort, hvalue⟩
  · rintro other ⟨canonical, number, hfirst, -, hpart, hbefore⟩
      ⟨canonical', number', hsecond, -, hpart', hbefore'⟩
    refine ⟨canonical, canonical', hfirst, hsecond, ?_⟩
    rw [hpart, hpart', hbefore, hbefore']

/-- A part whose number has one digit too many. -/
theorem canonical_longNumber :
    ¬ KeepsPart (String.ofList ("part ".toList ++ List.replicate (MAX_STR_DIGITS + 1) '9')) := by
  have hnines : (List.replicate (MAX_STR_DIGITS + 1) '9').all Char.isDigit = true := by
    rw [List.all_replicate]
    rfl
  have hlength : (List.replicate (MAX_STR_DIGITS + 1) '9').length = MAX_STR_DIGITS + 1 :=
    List.length_replicate
  generalize List.replicate (MAX_STR_DIGITS + 1) '9' = nines at hnines hlength
  have hsome : nines ≠ [] := List.ne_nil_of_length_eq_add_one hlength
  have hpart := @partAt_part nines [] hsome hnines fun char hchar => by cases hchar
  rw [List.append_nil] at hpart
  refine not_keepsPart ?_ (⟨hnines, by omega⟩ : IsTooLong nines)
  rw [partNumeral, String.toList_ofList, findPart_here hpart]
  rfl

end RetroStation.Grouping
