import RetroStation.Normalization.Titles

/-! # Normalized titles are plain

A normalized title is lower-case words of letters and digits with one blank between them.
-/

namespace RetroStation.Normalization

open Text

variable {unicode : Unicode} {text raw word : List Char} {char : Char}

/-! ## Characters -/

theorem isAscii_of_isAlphanum (hword : char.isAlphanum) : isAscii char := by
  have hranges : ((decide ('A'.val ≤ char.val ∧ char.val ≤ 'Z'.val) ||
      decide ('a'.val ≤ char.val) && decide (char.val ≤ 'z'.val)) ||
      decide ('0'.val ≤ char.val) && decide (char.val ≤ '9'.val)) = true := hword
  simp only [Bool.or_eq_true, Bool.and_eq_true, decide_eq_true_eq, UInt32.le_iff_toNat_le]
    at hranges
  have hcode : char.val.toNat < 128 := by
    rcases hranges with (⟨-, hle⟩ | ⟨-, hle⟩) | ⟨-, hle⟩ <;>
      exact Nat.lt_of_le_of_lt hle (by decide)
  exact decide_eq_true hcode

theorem isAlphanum_of_isPlain (hplain : isPlain char) : char.isAlphanum := by
  have hletters : (char.isLower || char.isDigit) = true := hplain
  change ((char.isUpper || char.isLower) || char.isDigit) = true
  rw [Bool.or_assoc, hletters, Bool.or_true]

theorem isAscii_of_isPlain (hplain : isPlain char) : isAscii char :=
  isAscii_of_isAlphanum (isAlphanum_of_isPlain hplain)

/-- What the ASCII characters are like, looked up one by one. -/
theorem ascii_spec : ∀ char, isAscii char → isAscii char.toLower ∧
    (char.isAlphanum → isSpace char = false ∧ isPlain char.toLower) ∧
    (isPlain char → char.toLower = char) ∧ ('0' ≤ char → char ≤ '9' → char.isAlphanum) :=
  forall_ascii (by decide +kernel)

theorem toLower_of_isPlain (hplain : isPlain char) : char.toLower = char :=
  (ascii_spec char (isAscii_of_isPlain hplain)).2.2.1 hplain

theorem isPlain_toLower (hascii : isAscii char) (hword : char.isAlphanum) : isPlain char.toLower :=
  ((ascii_spec char hascii).2.1 hword).2

theorem isAscii_toLower (hascii : isAscii char) : isAscii char.toLower :=
  (ascii_spec char hascii).1

theorem isSpace_of_isAlphanum (hword : char.isAlphanum) : isSpace char = false :=
  ((ascii_spec char (isAscii_of_isAlphanum hword)).2.1 hword).1

theorem isSpace_of_isPlain (hplain : isPlain char) : isSpace char = false :=
  isSpace_of_isAlphanum (isAlphanum_of_isPlain hplain)

/-! ## The title before its years are removed is ASCII -/

theorem isAscii_strip (htext : IsAscii text) : IsAscii (strip text) := by
  intro char hchar
  have hdrop : char ∈ text.dropWhile isSpace := (List.rdropWhile_prefix _ _).subset hchar
  exact htext char ((List.dropWhile_sublist _).subset hdrop)

theorem isAscii_substitute {pattern : Pattern} {replacement : List Char} (htext : IsAscii text)
    (hreplacement : IsAscii replacement) : IsAscii (substitute pattern replacement text) :=
  fun char hchar => (mem_substitute hchar).elim (htext char) (hreplacement char)

theorem isAscii_replaceChar {old : Char} {new : List Char} (htext : IsAscii text)
    (hnew : IsAscii new) : IsAscii (replaceChar old new text) :=
  fun char hchar => (mem_replaceChar.mp hchar).elim (fun hkept => htext char hkept.1)
    fun hput => hnew char hput.2

theorem isAscii_removeRemasterYearTruncation (htext : IsAscii text) :
    IsAscii (removeRemasterYearTruncation unicode text) := by
  have hblank : IsAscii [' '] := fun _ hchar => List.mem_singleton.mp hchar ▸ rfl
  refine isAscii_strip ?_
  iterate 6 refine isAscii_substitute ?_ hblank
  exact isAscii_substitute (isAscii_replaceChar htext hblank) (List.forall_mem_nil _)

theorem isAscii_lower (htext : IsAscii text) : IsAscii (unicode.lower text) := by
  rw [unicode.lower_ascii text htext]
  intro char hchar
  obtain ⟨upper, hupper, rfl⟩ := List.mem_map.mp hchar
  exact isAscii_toLower (htext upper hupper)

theorem isAscii_titleWithYears : IsAscii (titleWithYears unicode raw) :=
  isAscii_removeRemasterYearTruncation (isAscii_lower (unicode.unidecode_isAscii _))

theorem isAscii_removeYears (htext : IsAscii text) : IsAscii (removeYears unicode text) :=
  isAscii_substitute htext (List.forall_mem_nil _)

/-! ## What is left of the punctuation -/

/-- The characters that leave something in a normalized title. -/
def survives (char : Char) : Bool := char.isAlphanum || char = '&' || char = '+'

theorem isSpace_of_survives (hsurvives : survives char) : isSpace char = false := by
  simp only [survives, Bool.or_eq_true, decide_eq_true_eq] at hsurvives
  rcases hsurvives with (hword | rfl) | rfl
  · exact isSpace_of_isAlphanum hword
  · rfl
  · rfl

def IsPlainWord (word : List Char) : Prop := word ≠ [] ∧ ∀ char ∈ word, isPlain char

theorem IsPlainWord.isWord (hword : IsPlainWord word) : IsWord word :=
  ⟨hword.1, fun char hchar => isSpace_of_isPlain (hword.2 char hchar)⟩

theorem mem_blankSeparators (hchar : char ∈ blankSeparators text) :
    char = ' ' ∨ (char ∈ text ∧ char ≠ '_') := by
  obtain ⟨old, hold, rfl⟩ := List.mem_map.mp hchar
  split
  next => exact .inl rfl
  next hkept => exact .inr ⟨hold, fun heq => hkept (.inr (.inl heq))⟩

theorem mem_spellSigns (hascii : IsAscii text) (hchar : char ∈ spellSigns unicode text) :
    isAscii char ∧ (isSpace char ∨ (char.isAlphanum ∧ ∃ kept ∈ text, survives kept)) := by
  obtain ⟨hchar, hclass⟩ := List.mem_filter.mp hchar
  have hletters : ∀ char ∈ " plus ".toList ++ " and ".toList,
      isAscii char ∧ (isSpace char ∨ char.isAlphanum) := by
    have hall : (" plus ".toList ++ " and ".toList).all (fun char =>
        isAscii char && (isSpace char || char.isAlphanum)) = true := rfl
    simpa only [List.all_eq_true, Bool.and_eq_true, Bool.or_eq_true] using hall
  have hput : char ∈ " plus ".toList ++ " and ".toList → (∃ kept ∈ text, survives kept) →
      isAscii char ∧ (isSpace char ∨ (char.isAlphanum ∧ ∃ kept ∈ text, survives kept)) :=
    fun hletter hkept => (hletters char hletter).imp_right (.imp_right fun hword => ⟨hword, hkept⟩)
  have hsign : ∀ sign, sign ≠ ' ' → sign ∈ blankSeparators text → sign ∈ text :=
    fun sign hsign hmem => (mem_blankSeparators hmem).elim (absurd · hsign) (·.1)
  rcases mem_replaceChar.mp hchar with ⟨hchar, -⟩ | ⟨hplus, hletter⟩
  · rcases mem_replaceChar.mp hchar with ⟨hchar, -⟩ | ⟨hand, hletter⟩
    · rcases mem_blankSeparators hchar with rfl | ⟨hkept, hne⟩
      · exact ⟨rfl, .inl rfl⟩
      · refine ⟨hascii char hkept, ?_⟩
        rw [Bool.or_eq_true, unicode.isWord_ascii char (hascii char hkept)] at hclass
        rcases hclass with hword | hspace
        · have hword : char.isAlphanum := by simpa [hne] using hword
          exact .inr ⟨hword, char, hkept, by simp [survives, hword]⟩
        · exact .inl hspace
    · exact hput (List.mem_append_right _ hletter) ⟨'&', hsign '&' (by decide) hand, rfl⟩
  · refine hput (List.mem_append_left _ hletter) ⟨'+', ?_, rfl⟩
    rcases mem_replaceChar.mp hplus with ⟨hplus, -⟩ | ⟨-, hletter⟩
    · exact hsign '+' (by decide) hplus
    · exact absurd hletter (by decide)

/-- A character that no sign of words replaces is still there. -/
theorem mem_spellSigns_of_isAlphanum (hascii : IsAscii text) (hchar : char ∈ text)
    (hword : char.isAlphanum) : char ∈ spellSigns unicode text := by
  have hnot : ∀ sign, sign.isAlphanum = false → char ≠ sign := by
    rintro sign hsign rfl
    rw [hword] at hsign
    cases hsign
  have hblank : char ∈ blankSeparators text :=
    List.mem_map.mpr ⟨char, hchar, if_neg (by
      rintro (heq | heq | heq | heq | heq) <;> exact hnot _ rfl heq)⟩
  refine List.mem_filter.mpr ⟨mem_replaceChar.mpr (.inl ⟨mem_replaceChar.mpr (.inl ⟨hblank, ?_⟩),
    ?_⟩), ?_⟩
  · exact hnot '&' rfl
  · exact hnot '+' rfl
  · rw [unicode.isWord_ascii char (hascii char hchar), hword]
    rfl

theorem exists_mem_spellSigns (hascii : IsAscii text) (hchar : char ∈ text)
    (hsurvives : survives char) : ∃ left ∈ spellSigns unicode text, isSpace left = false := by
  have hblank : ∀ sign, sign = '&' ∨ sign = '+' → sign ∈ text → sign ∈ blankSeparators text := by
    rintro sign hsign hmem
    exact List.mem_map.mpr ⟨sign, hmem, if_neg (by rcases hsign with rfl | rfl <;> decide)⟩
  have hword : ∀ letter, isAscii letter → letter.isAlphanum →
      (unicode.isWord letter || isSpace letter) = true := by
    intro letter hletter hword
    rw [unicode.isWord_ascii letter hletter, hword]
    rfl
  simp only [survives, Bool.or_eq_true, decide_eq_true_eq] at hsurvives
  rcases hsurvives with (hletter | rfl) | rfl
  · exact ⟨char, mem_spellSigns_of_isAlphanum hascii hchar hletter,
      isSpace_of_isAlphanum hletter⟩
  · have hand := mem_replaceChar.mpr (.inr ⟨hblank '&' (.inl rfl) hchar,
      (by decide : 'a' ∈ " and ".toList)⟩)
    exact ⟨'a', List.mem_filter.mpr ⟨mem_replaceChar.mpr (.inl ⟨hand, by decide⟩),
      hword 'a' rfl rfl⟩, rfl⟩
  · have hplus : '+' ∈ replaceChar '&' " and ".toList (blankSeparators text) :=
      mem_replaceChar.mpr (.inl ⟨hblank '+' (.inr rfl) hchar, by decide⟩)
    exact ⟨'p', List.mem_filter.mpr ⟨mem_replaceChar.mpr (.inr ⟨hplus, by decide⟩),
      hword 'p' rfl rfl⟩, rfl⟩

theorem isAscii_spellSigns (hascii : IsAscii text) : IsAscii (spellSigns unicode text) :=
  fun _ hchar => (mem_spellSigns hascii hchar).1

theorem isAscii_squeeze (htext : IsAscii text) : IsAscii (squeeze text) := by
  intro char hchar
  rcases mem_joinWords hchar with rfl | ⟨word, hword, hchar⟩
  · rfl
  · exact htext char (mem_of_mem_words hword hchar)

theorem normalizeSpecialCharsAndWhitespace_eq (hascii : IsAscii text) :
    normalizeSpecialCharsAndWhitespace unicode text =
      joinWords ((words (spellSigns unicode text)).map (List.map Char.toLower)) := by
  rw [normalizeSpecialCharsAndWhitespace,
    unicode.lower_ascii _ (isAscii_squeeze (isAscii_spellSigns hascii))]
  exact map_joinWords rfl

/-- Nothing is left of a text exactly when none of its characters leaves something. -/
theorem normalizeSpecialCharsAndWhitespace_eq_nil_iff (hascii : IsAscii text) :
    normalizeSpecialCharsAndWhitespace unicode text = [] ↔
      ∀ char ∈ text, survives char = false := by
  rw [normalizeSpecialCharsAndWhitespace,
    unicode.lower_ascii _ (isAscii_squeeze (isAscii_spellSigns hascii)), List.map_eq_nil_iff,
    squeeze_eq_nil_iff]
  constructor
  · intro hblank char hchar
    by_contra hsurvives
    rw [Bool.not_eq_false] at hsurvives
    obtain ⟨left, hleft, hword⟩ := exists_mem_spellSigns hascii hchar hsurvives
    rw [hblank left hleft] at hword
    cases hword
  · intro hnone char hchar
    rcases (mem_spellSigns hascii hchar).2 with hspace | ⟨-, kept, hkept, hsurvives⟩
    · exact hspace
    · rw [hnone kept hkept] at hsurvives
      cases hsurvives

/-- What is left of a text is plain words. -/
theorem words_normalizeSpecialCharsAndWhitespace (hascii : IsAscii text) :
    ∃ plain, (∀ word ∈ plain, IsPlainWord word) ∧
      normalizeSpecialCharsAndWhitespace unicode text = joinWords plain := by
  refine ⟨_, ?_, normalizeSpecialCharsAndWhitespace_eq hascii⟩
  intro word hword
  obtain ⟨upper, hupper, rfl⟩ := List.mem_map.mp hword
  obtain ⟨hsome, hchars⟩ := isWord_of_mem_words hupper
  refine ⟨by simpa using hsome, ?_⟩
  intro char hchar
  obtain ⟨old, hold, rfl⟩ := List.mem_map.mp hchar
  obtain ⟨holdAscii, hclass⟩ := mem_spellSigns hascii (mem_of_mem_words hupper hold)
  rcases hclass with hspace | ⟨hword, -⟩
  · rw [hchars old hold] at hspace
    cases hspace
  · exact isPlain_toLower holdAscii hword

/-- A normalized title is plain words with one blank between them. -/
theorem normalizeTitle_plain : ∃ plain, (∀ word ∈ plain, IsPlainWord word) ∧
    normalizeTitle unicode raw = joinWords plain := by
  unfold normalizeTitle
  split
  next => exact ⟨[], by simp, rfl⟩
  next =>
    refine words_normalizeSpecialCharsAndWhitespace ?_
    split
    next => exact isAscii_removeYears isAscii_titleWithYears
    next => exact isAscii_titleWithYears

end RetroStation.Normalization

/-! ## Removing years from titles

The years in a title are removed unless only blanks would be left. Other marks than blanks may
be left and vanish later.
-/

namespace RetroStation.Normalization

open Text

/-- The normalized title, but with its years. -/
def normalizeTitleKeepingYears (unicode : Unicode) (raw : List Char) : List Char :=
  if strip raw = [] then []
  else normalizeSpecialCharsAndWhitespace unicode (titleWithYears unicode raw)

/-- The text has years, and what stands around them vanishes but is not all blank. -/
def YearsAmongMarks (unicode : Unicode) (text : List Char) : Prop :=
  removeYears unicode text ≠ text ∧
    (∀ char ∈ removeYears unicode text, survives char = false) ∧
    strip (removeYears unicode text) ≠ []

variable {unicode : Unicode} {text raw : List Char}

theorem survives_of_standaloneYear {before : Option Char} {start : List Char}
    (hyear : standaloneYear unicode before start ≠ 0) : ∃ char ∈ start, survives char := by
  unfold standaloneYear at hyear
  rw [ne_eq, ite_eq_right_iff, Classical.not_imp] at hyear
  obtain ⟨hyear, -⟩ := hyear
  rw [Bool.and_eq_true, Bool.and_eq_true] at hyear
  match start, hyear.1.1 with
  | first :: second :: third :: fourth :: rest, hyear =>
      refine ⟨first, List.mem_cons_self, ?_⟩
      simp only [List.take_succ_cons, List.take_zero, isYear, Bool.and_eq_true, Bool.or_eq_true,
        decide_eq_true_eq] at hyear
      rcases hyear.1 with ⟨⟨⟨rfl, -⟩, -⟩, -⟩ | ⟨⟨⟨rfl, -⟩, -⟩, -⟩
      · rfl
      · rfl

/-- A text without letters, digits and signs of words has no years. -/
theorem removeYears_of_not_survives (hnone : ∀ char ∈ text, survives char = false) :
    removeYears unicode text = text := by
  refine substitute_of_not_match fun before start hstart => ?_
  by_contra hyear
  obtain ⟨char, hchar, hsurvives⟩ := survives_of_standaloneYear hyear
  rw [hnone char (hstart.subset hchar)] at hsurvives
  cases hsurvives

/-- What the guard of the year removal lets through leaves nothing exactly when the years stand
among marks, or nothing was there. -/
theorem guarded_leaves_nothing_iff :
    (∀ char ∈ if strip (removeYears unicode text) ≠ [] ∨ strip text = []
      then removeYears unicode text else text, survives char = false) ↔
    YearsAmongMarks unicode text ∨ ∀ char ∈ text, survives char = false := by
  constructor
  · intro hnone
    by_cases hsame : removeYears unicode text = text
    · rw [hsame, ite_self] at hnone
      exact .inr hnone
    · split at hnone
      next hguard =>
        rcases hguard with hleft | hblank
        · exact .inl ⟨hsame, hnone, hleft⟩
        · refine .inr fun char hchar => ?_
          by_contra hsurvives
          rw [Bool.not_eq_false] at hsurvives
          have hword := isSpace_of_survives hsurvives
          rw [strip_eq_nil_iff.mp hblank char hchar] at hword
          cases hword
      next => exact .inr hnone
  · rintro (⟨-, hmarks, hleft⟩ | hnone)
    · rwa [if_pos (.inl hleft)]
    · rw [removeYears_of_not_survives hnone, ite_self]
      exact hnone

/-- A title that is more than nothing with its years is more than nothing without them, unless
its years stand among marks only. -/
theorem year_removal_keeps_title :
    (normalizeTitleKeepingYears unicode raw ≠ [] → normalizeTitle unicode raw ≠ []) ↔
      ¬(strip raw ≠ [] ∧ YearsAmongMarks unicode (titleWithYears unicode raw)) := by
  by_cases hraw : strip raw = []
  · simp [normalizeTitleKeepingYears, hraw]
  rw [normalizeTitleKeepingYears, normalizeTitle, if_neg hraw, if_neg hraw, ← not_imp_not,
    not_not, not_not]
  have hascii : IsAscii (titleWithYears unicode raw) := isAscii_titleWithYears
  have hguarded : IsAscii (if strip (removeYears unicode (titleWithYears unicode raw)) ≠ [] ∨
      strip (titleWithYears unicode raw) = []
      then removeYears unicode (titleWithYears unicode raw) else titleWithYears unicode raw) := by
    split
    next => exact isAscii_removeYears hascii
    next => exact hascii
  -- The last pass leaves nothing exactly when no character survives it, on either side.
  rw [normalizeSpecialCharsAndWhitespace_eq_nil_iff hascii]
  dsimp only
  rw [normalizeSpecialCharsAndWhitespace_eq_nil_iff hguarded, guarded_leaves_nothing_iff]
  constructor
  · rintro hkept ⟨-, hmarks⟩
    exact hmarks.1 (removeYears_of_not_survives (hkept (.inl hmarks)))
  · rintro hmarks (hyears | hnone)
    · exact absurd ⟨hraw, hyears⟩ hmarks
    · exact hnone

/-- Two songs named by a year are nothing both, where the years alone would tell them apart. -/
theorem years_erased : normalizeTitle .ascii "1999!".toList = [] ∧
    normalizeTitle .ascii "2000?".toList = [] ∧
    normalizeTitleKeepingYears .ascii "1999!".toList = "1999".toList ∧
    normalizeTitleKeepingYears .ascii "2000?".toList = "2000".toList := by
  decide +kernel

end RetroStation.Normalization
