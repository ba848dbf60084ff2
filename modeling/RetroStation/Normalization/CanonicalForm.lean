import RetroStation.Normalization.PlainTitles

/-! # Titles normalized twice

A normalized title has no marks left to take out, but a word of it may be a year that the
punctuation hid before.
-/

namespace RetroStation.Normalization

open Text

variable {unicode : Unicode} {text raw word rest : List Char} {others : List (List Char)}
  {char : Char} {before : Option Char}

/-! ## A plain title keeps its form -/

theorem mem_joinWords_plain (hplain : ∀ word ∈ others, IsPlainWord word)
    (hchar : char ∈ joinWords others) : isPlain char ∨ char = ' ' := by
  rcases mem_joinWords hchar with rfl | ⟨word, hword, hchar⟩
  · exact .inr rfl
  · exact .inl ((hplain word hword).2 char hchar)

theorem isAscii_of_plain (htext : ∀ char ∈ text, isPlain char ∨ char = ' ') : IsAscii text := by
  intro char hchar
  rcases htext char hchar with hplain | rfl
  · exact isAscii_of_isPlain hplain
  · rfl

theorem not_mem_of_plain (htext : ∀ char ∈ text, isPlain char ∨ char = ' ')
    (hmark : isPlain char = false) (hblank : char ≠ ' ') : char ∉ text := by
  intro hmem
  rcases htext char hmem with hplain | rfl
  · rw [hmark] at hplain
    cases hplain
  · exact hblank rfl

/-- A bracketed text has its opening bracket. -/
theorem bracketed_of_not_mem {opening closing : Char} {inner : List Char → Option (List Char)}
    {start : List Char} (hbracket : opening ∉ text) (hstart : start <:+ text) :
    bracketed opening closing inner before start = 0 := by
  cases start with
  | nil => rfl
  | cons first rest =>
      have hfirst : first ≠ opening :=
        fun heq => hbracket (heq ▸ hstart.subset List.mem_cons_self)
      rw [bracketed, if_neg hfirst]

theorem trailingDots_of_not_mem {start : List Char} (hdot : '.' ∉ text) (hstart : start <:+ text) :
    trailingDots before start = 0 := by
  have hkept : (start.dropWhile isSpace).dropWhile (· = '.') = start.dropWhile isSpace := by
    cases hdots : start.dropWhile isSpace with
    | nil => rfl
    | cons first rest =>
        have hfirst : first ∈ start :=
          (List.dropWhile_sublist _).subset (hdots ▸ List.mem_cons_self)
        exact List.dropWhile_cons_of_neg (by
          simpa using fun heq : first = '.' => hdot (heq ▸ hstart.subset hfirst))
  unfold trailingDots
  dsimp only
  rw [hkept]
  exact if_neg fun hlong => absurd hlong.1 (by omega)

theorem removeRemasterYearTruncation_of_plain
    (htext : ∀ char ∈ text, isPlain char ∨ char = ' ') :
    removeRemasterYearTruncation unicode text = strip text := by
  have hparen : '(' ∉ text := not_mem_of_plain htext rfl (by decide)
  have hsquare : '[' ∉ text := not_mem_of_plain htext rfl (by decide)
  have hround : ∀ inner, substitute (bracketed '(' ')' inner) [' '] text = text := fun inner =>
    substitute_of_not_match fun _ _ hstart => bracketed_of_not_mem hparen hstart
  have hbox : ∀ inner, substitute (bracketed '[' ']' inner) [' '] text = text := fun inner =>
    substitute_of_not_match fun _ _ hstart => bracketed_of_not_mem hsquare hstart
  have hdots : substitute trailingDots [] text = text := substitute_of_not_match fun _ _ hstart =>
    trailingDots_of_not_mem (not_mem_of_plain htext rfl (by decide)) hstart
  unfold removeRemasterYearTruncation
  dsimp only
  rw [replaceChar_of_not_mem (not_mem_of_plain htext rfl (by decide)), hdots, hround, hbox, hround,
    hround, hround, hbox]

theorem lower_of_plain (htext : ∀ char ∈ text, isPlain char ∨ char = ' ') :
    unicode.lower text = text := by
  rw [unicode.lower_ascii text (isAscii_of_plain htext)]
  refine (List.map_congr_left fun char hchar => ?_).trans (List.map_id text)
  rcases htext char hchar with hplain | rfl
  · exact toLower_of_isPlain hplain
  · rfl

theorem normalizeSmartQuotes_of_isAscii (htext : IsAscii text) :
    normalizeSmartQuotes text = text := by
  refine (List.map_congr_left fun char hchar => ?_).trans (List.map_id text)
  have hcode : char.toNat < 128 := of_decide_eq_true (htext char hchar)
  have hquote : ∀ quote, 128 ≤ quote.toNat → char ≠ quote := by
    rintro quote hquote rfl
    omega
  have hdash : ¬('\u2010' ≤ char ∧ char ≤ '\u2014') := fun hrange =>
    absurd (UInt32.le_iff_toNat_le.mp hrange.1) (by simpa using Nat.lt_trans hcode (by decide))
  rw [if_neg (not_or.mpr ⟨hquote _ (by decide), hquote _ (by decide)⟩),
    if_neg (not_or.mpr ⟨hquote _ (by decide), hquote _ (by decide)⟩), if_neg hdash]
  rfl

theorem titleWithYears_of_plain (htext : ∀ char ∈ text, isPlain char ∨ char = ' ') :
    titleWithYears unicode text = strip text := by
  have hascii := isAscii_of_plain htext
  rw [titleWithYears, normalizeSmartQuotes_of_isAscii hascii, unicode.unidecode_ascii text hascii,
    lower_of_plain htext, removeRemasterYearTruncation_of_plain htext]

theorem spellSigns_of_plain (htext : ∀ char ∈ text, isPlain char ∨ char = ' ') :
    spellSigns unicode text = text := by
  have hseparators : blankSeparators text = text := by
    refine (List.map_congr_left fun char hchar => ?_).trans (List.map_id text)
    refine if_neg ?_
    rintro (rfl | rfl | rfl | rfl | rfl)
    all_goals exact not_mem_of_plain htext rfl (by decide) hchar
  rw [spellSigns, hseparators, replaceChar_of_not_mem (not_mem_of_plain htext rfl (by decide)),
    replaceChar_of_not_mem (not_mem_of_plain htext rfl (by decide)), List.filter_eq_self]
  intro char hchar
  rcases htext char hchar with hplain | rfl
  · rw [unicode.isWord_ascii char (isAscii_of_isPlain hplain), isAlphanum_of_isPlain hplain]
    rfl
  · exact Bool.or_true _

theorem normalizeSpecialCharsAndWhitespace_of_plain
    (htext : ∀ char ∈ text, isPlain char ∨ char = ' ') :
    normalizeSpecialCharsAndWhitespace unicode text = squeeze text := by
  rw [normalizeSpecialCharsAndWhitespace, spellSigns_of_plain htext, lower_of_plain]
  intro char hchar
  rcases mem_joinWords hchar with rfl | ⟨word, hword, hchar⟩
  · exact .inr rfl
  · exact htext char (mem_of_mem_words hword hchar)

/-! ## The years of a plain title -/

theorem isYear_isWord (hascii : IsAscii word) (hyear : isYear unicode word) :
    word.length = 4 ∧ ∀ char ∈ word, unicode.isWord char := by
  match word, hyear with
  | [first, second, third, fourth], hyear =>
      have hdigit : ∀ char ∈ [first, second, third, fourth], char.isAlphanum := by
        simp only [isYear, Bool.and_eq_true, Bool.or_eq_true, decide_eq_true_eq] at hyear
        obtain ⟨hdecade, hfourth⟩ := hyear
        have hthird : '0' ≤ third ∧ third ≤ '9' := by
          rcases hdecade with ⟨⟨-, hlow⟩, hhigh⟩ | ⟨⟨-, hlow⟩, hhigh⟩
          · exact ⟨Char.le_trans (by decide) hlow, hhigh⟩
          · exact ⟨hlow, Char.le_trans hhigh (by decide)⟩
        intro char hchar
        simp only [List.mem_cons, List.not_mem_nil, or_false] at hchar
        rcases hchar with rfl | rfl | rfl | rfl
        · rcases hdecade with ⟨⟨⟨rfl, -⟩, -⟩, -⟩ | ⟨⟨⟨rfl, -⟩, -⟩, -⟩ <;> rfl
        · rcases hdecade with ⟨⟨⟨-, rfl⟩, -⟩, -⟩ | ⟨⟨⟨-, rfl⟩, -⟩, -⟩ <;> rfl
        · exact (ascii_spec _ (hascii _ (by simp))).2.2.2 hthird.1 hthird.2
        · rw [unicode.isDigit_ascii _ (hascii _ (by simp))] at hfourth
          rw [Char.isAlphanum, hfourth, Bool.or_true]
      refine ⟨rfl, fun char hchar => ?_⟩
      rw [unicode.isWord_ascii char (hascii char hchar), hdigit char hchar]
      rfl

/-- A standalone year is a whole run of characters of words. -/
theorem standaloneYear_eq (hascii : IsAscii text) (hbefore : before.any unicode.isWord = false) :
    standaloneYear unicode before text =
      if isYear unicode (text.takeWhile unicode.isWord) then 4 else 0 := by
  have htake : IsAscii (text.take 4) := fun char hchar => hascii char (List.mem_of_mem_take hchar)
  have hrun : IsAscii (text.takeWhile unicode.isWord) :=
    fun char hchar => hascii char ((List.takeWhile_sublist _).subset hchar)
  refine if_congr ?_ rfl rfl
  rw [hbefore, Bool.not_false, Bool.and_true, Bool.and_eq_true, Bool.not_eq_true']
  constructor
  · rintro ⟨hyear, hafter⟩
    have hwhole : text.takeWhile unicode.isWord = text.take 4 := by
      have hnone : (text.drop 4).takeWhile unicode.isWord = [] := by
        cases hrest : text.drop 4 with
        | nil => rfl
        | cons next rest =>
            rw [hrest] at hafter
            exact List.takeWhile_cons_of_neg (by simpa using hafter)
      calc text.takeWhile unicode.isWord
          = (text.take 4 ++ text.drop 4).takeWhile unicode.isWord := by
            rw [List.take_append_drop]
        _ = text.take 4 := by
            rw [List.takeWhile_append_of_pos (isYear_isWord htake hyear).2, hnone,
              List.append_nil]
    rwa [hwhole]
  · intro hyear
    have hlength := (isYear_isWord hrun hyear).1
    have hparts : text.takeWhile unicode.isWord ++ text.dropWhile unicode.isWord = text :=
      List.takeWhile_append_dropWhile
    have hwhole : text.take 4 = text.takeWhile unicode.isWord := by
      calc text.take 4
          = (text.takeWhile unicode.isWord ++ text.dropWhile unicode.isWord).take 4 := by
            rw [hparts]
        _ = text.takeWhile unicode.isWord := by rw [← hlength, List.take_left]
    have hafter : text.drop 4 = text.dropWhile unicode.isWord := by
      calc text.drop 4
          = (text.takeWhile unicode.isWord ++ text.dropWhile unicode.isWord).drop 4 := by
            rw [hparts]
        _ = text.dropWhile unicode.isWord := by rw [← hlength, List.drop_left]
    rw [hwhole, hafter]
    refine ⟨hyear, ?_⟩
    cases hrest : (text.dropWhile unicode.isWord).head? with
    | none => rfl
    | some next => simpa [hrest] using List.head?_dropWhile_not unicode.isWord text

theorem standaloneYear_after_word (hbefore : before.any unicode.isWord = true) :
    standaloneYear unicode before text = 0 := by
  unfold standaloneYear
  simp [hbefore]

theorem standaloneYear_blank : standaloneYear unicode before (' ' :: rest) = 0 := by
  have hyear : isYear unicode ((' ' :: rest).take 4) = false := by
    unfold isYear
    split
    next first second third fourth heq =>
      obtain rfl : ' ' = first := by simpa using congrArg List.head? heq
      rfl
    next => rfl
  rw [standaloneYear, hyear]
  rfl

/-- Inside a word no year starts. -/
theorem scan_inside_word (hchar : unicode.isWord char)
    (hword : ∀ char ∈ word, unicode.isWord char) :
    scan (standaloneYear unicode) (some char) 0 (word ++ rest) =
      word.map .kept ++ scan (standaloneYear unicode) (char :: word).getLast? 0 rest := by
  induction word generalizing char with
  | nil => rfl
  | cons next word ih =>
      have hnone : standaloneYear unicode (some char) (next :: (word ++ rest)) = 0 :=
        standaloneYear_after_word hchar
      rw [List.cons_append, scan_cons_of_not_match hnone,
        ih (hword next List.mem_cons_self) fun char hchar =>
          hword char (List.mem_cons_of_mem _ hchar), List.getLast?_cons_cons]
      rfl

/-- The text without years, from a place on. -/
def removeYearsFrom (unicode : Unicode) (before : Option Char) (text : List Char) : List Char :=
  (scan (standaloneYear unicode) before 0 text).flatMap (Piece.replace fun _ => [])

/-- A word is removed if it is a year, and kept if not. -/
theorem removeYearsFrom_word (hbefore : before.any unicode.isWord = false)
    (hplain : IsPlainWord word) (hrest : IsAscii rest)
    (hnext : rest.takeWhile unicode.isWord = []) :
    removeYearsFrom unicode before (word ++ rest) =
      (if isYear unicode word then [] else word) ++ removeYearsFrom unicode word.getLast? rest := by
  have hascii : IsAscii word := fun char hchar => isAscii_of_isPlain (hplain.2 char hchar)
  have hword : ∀ char ∈ word, unicode.isWord char := fun char hchar => by
    rw [unicode.isWord_ascii char (hascii char hchar), isAlphanum_of_isPlain (hplain.2 char hchar)]
    rfl
  have hrun : (word ++ rest).takeWhile unicode.isWord = word := by
    rw [List.takeWhile_append_of_pos hword, hnext, List.append_nil]
  have hyear := standaloneYear_eq (fun char hchar =>
    (List.mem_append.mp hchar).elim (hascii char) (hrest char)) hbefore
  rw [hrun] at hyear
  cases word with
  | nil => exact absurd rfl hplain.1
  | cons char word =>
      unfold removeYearsFrom
      split at hyear
      next hisYear =>
        have hlength : word.length = 3 := by simpa using (isYear_isWord hascii hisYear).1
        have hsome : word ≠ [] := by
          rintro rfl
          cases hlength
        have hmatch : standaloneYear unicode before (char :: (word ++ rest)) = 3 + 1 := hyear
        rw [List.cons_append, scan_cons_of_match hmatch, ← hlength, scan_covered hsome,
          if_pos hisYear, List.getLast?_cons_of_ne_nil hsome]
        rfl
      next hnot =>
        have hnone : standaloneYear unicode before (char :: (word ++ rest)) = 0 := hyear
        rw [List.cons_append, scan_cons_of_not_match hnone,
          scan_inside_word (hword char List.mem_cons_self) fun char hchar =>
            hword char (List.mem_cons_of_mem _ hchar), if_neg hnot, List.flatMap_cons,
          List.flatMap_append, List.flatMap_map]
        simp [Piece.replace]

/-- The words of a plain title that are years are removed, and the blanks stay. -/
theorem removeYears_joinWords (hplain : ∀ word ∈ others, IsPlainWord word) :
    removeYears unicode (joinWords others) =
      joinWords (others.map fun word => if isYear unicode word then [] else word) := by
  have hblank : unicode.isWord ' ' = false := unicode.isWord_ascii ' ' rfl
  suffices hfrom : ∀ before, before.any unicode.isWord = false →
      removeYearsFrom unicode before (joinWords others) =
        joinWords (others.map fun word => if isYear unicode word then [] else word) from
    hfrom none rfl
  induction others with
  | nil => exact fun _ _ => rfl
  | cons word others ih =>
      intro before hbefore
      have hword := hplain word List.mem_cons_self
      have hothers := fun other hother => hplain other (List.mem_cons_of_mem _ hother)
      cases others with
      | nil =>
          rw [joinWords_singleton, List.map_singleton, joinWords_singleton]
          have hlast :=
            removeYearsFrom_word hbefore hword (List.forall_mem_nil _) List.takeWhile_nil
          rw [List.append_nil] at hlast
          rw [hlast]
          exact List.append_nil _
      | cons next others =>
          have hascii : IsAscii (' ' :: joinWords (next :: others)) :=
            isAscii_of_plain fun char hchar => (List.mem_cons.mp hchar).elim .inr fun hchar =>
              mem_joinWords_plain hothers hchar
          have hnext : (' ' :: joinWords (next :: others)).takeWhile unicode.isWord = [] :=
            List.takeWhile_cons_of_neg (by simp [hblank])
          have hgap : removeYearsFrom unicode word.getLast? (' ' :: joinWords (next :: others)) =
              ' ' :: removeYearsFrom unicode (some ' ') (joinWords (next :: others)) := by
            unfold removeYearsFrom
            rw [scan_cons_of_not_match standaloneYear_blank]
            rfl
          rw [joinWords_cons_cons, removeYearsFrom_word hbefore hword hascii hnext, hgap,
            ih hothers (some ' ') hblank]
          exact joinWords_cons_cons.symm

/-! ## Normalizing again -/

theorem filter_map_removed (hplain : ∀ word ∈ others, IsPlainWord word) :
    (others.map fun word => if isYear unicode word then [] else word).filter (· ≠ []) =
      others.filter fun word => !isYear unicode word := by
  induction others with
  | nil => rfl
  | cons word others ih =>
      have hword := (hplain word List.mem_cons_self).1
      have hrest := ih fun other hother => hplain other (List.mem_cons_of_mem _ hother)
      rw [List.map_cons, List.filter_cons, List.filter_cons, hrest]
      cases isYear unicode word with
      | true => rfl
      | false => simp [hword]

/-- A plain title normalizes to its words that are no years, or to itself if there are none. -/
theorem normalizeTitle_joinWords (hplain : ∀ word ∈ others, IsPlainWord word) :
    normalizeTitle unicode (joinWords others) =
      if ∀ word ∈ others, isYear unicode word then joinWords others
      else joinWords (others.filter fun word => !isYear unicode word) := by
  have hwords : ∀ word ∈ others, IsWord word := fun word hword => (hplain word hword).isWord
  have htext := fun char => @mem_joinWords_plain others char hplain
  have hyears : ∀ char ∈ removeYears unicode (joinWords others), isPlain char ∨ char = ' ' := by
    intro char hchar
    exact (mem_substitute hchar).elim (htext char) fun hnone => by cases hnone
  have hleft : words (removeYears unicode (joinWords others)) =
      others.filter fun word => !isYear unicode word := by
    rw [removeYears_joinWords hplain, words_joinWords, filter_map_removed hplain]
    intro word hword char hchar
    obtain ⟨whole, hwhole, rfl⟩ := List.mem_map.mp hword
    split at hchar
    next => cases hchar
    next => exact (hwords whole hwhole).2 char hchar
  have hguard : strip (removeYears unicode (joinWords others)) = [] ↔
      ∀ word ∈ others, isYear unicode word := by
    rw [strip_eq_nil_iff, ← words_eq_nil_iff, hleft, List.filter_eq_nil_iff]
    simp
  rw [normalizeTitle, titleWithYears_of_plain htext, strip_joinWords hwords]
  dsimp only
  rw [strip_joinWords hwords]
  split
  next hempty =>
    have hnone : others = [] := by
      rw [← words_joinWords_of_isWord hwords, hempty, words_nil]
    simp [hnone]
  next hsome =>
    by_cases hall : ∀ word ∈ others, isYear unicode word
    · rw [if_pos hall, if_neg (by simp [hguard.mpr hall, hsome]),
        normalizeSpecialCharsAndWhitespace_of_plain htext, squeeze,
        words_joinWords_of_isWord hwords]
    · rw [if_neg hall, if_pos (.inl (mt hguard.mp hall)),
        normalizeSpecialCharsAndWhitespace_of_plain hyears, squeeze, hleft]

/-- A plain title is itself in the strict form. -/
theorem strict_joinWords (hplain : ∀ word ∈ others, IsPlainWord word) :
    squeeze ((joinWords others).map fun char => if isPlain char then char else ' ') =
      joinWords others := by
  have hkept : (joinWords others).map (fun char => if isPlain char then char else ' ') =
      joinWords others := by
    refine (List.map_congr_left fun char hchar => ?_).trans (List.map_id _)
    rcases mem_joinWords_plain hplain hchar with hchar | rfl
    · exact if_pos hchar
    · rfl
  rw [hkept, squeeze, words_joinWords_of_isWord fun word hword => (hplain word hword).isWord]

theorem strictNormalize_eq : strictNormalize unicode text = normalizeTitle unicode text := by
  obtain ⟨plain, hplain, htitle⟩ := @normalizeTitle_plain unicode text
  rw [strictNormalize, htitle, strict_joinWords hplain]

/-- A title normalized twice is as normalized once exactly when its words then are no years, or
all years; else the second time takes its years, and the third time changes nothing. -/
theorem normalize_twice (unicode : Unicode) (raw : List Char) :
    let title := normalizeTitle unicode raw;
    let years := fun word => isYear unicode word;
    let settled := (∀ word ∈ words title, years word = false) ∨ ∀ word ∈ words title, years word;
    (normalizeTitle unicode title = title ↔ settled) ∧
      (¬settled → normalizeTitle unicode title =
        joinWords ((words title).filter fun word => !years word)) ∧
      normalizeTitle unicode (normalizeTitle unicode title) = normalizeTitle unicode title ∧
      strictNormalize unicode raw = title ∧
      strictNormalize unicode title = normalizeTitle unicode title := by
  intro title years settled
  -- A normalised title is plain words; a second pass can only drop the years among them.
  obtain ⟨plain, hplain, htitle⟩ := @normalizeTitle_plain unicode raw
  have hwords : words title = plain := by
    rw [show title = joinWords plain from htitle]
    exact words_joinWords_of_isWord fun word hword => (hplain word hword).isWord
  have htwice : normalizeTitle unicode title =
      if ∀ word ∈ plain, years word then title
      else joinWords (plain.filter fun word => !years word) := by
    rw [show title = joinWords plain from htitle]
    exact normalizeTitle_joinWords hplain
  have hrest : ∀ word ∈ plain.filter fun word => !years word, IsPlainWord word :=
    fun word hword => hplain word (List.mem_of_mem_filter hword)
  refine ⟨?_, ?_, ?_, strictNormalize_eq, strictNormalize_eq⟩
  · rw [htwice, show settled ↔ (∀ word ∈ plain, years word = false) ∨ ∀ word ∈ plain, years word by
      rw [← hwords]]
    split
    next hall => exact iff_of_true rfl (.inr hall)
    next hnot =>
      rw [or_iff_left hnot, show title = joinWords plain from htitle]
      constructor
      · intro heq
        have hfilter := congrArg words heq
        rw [words_joinWords_of_isWord fun word hword => (hrest word hword).isWord,
          words_joinWords_of_isWord fun word hword => (hplain word hword).isWord,
          List.filter_eq_self] at hfilter
        exact fun word hword => by simpa using hfilter word hword
      · intro hnone
        rw [List.filter_eq_self.mpr fun word hword => by simpa using hnone word hword]
  · intro hsettled
    rw [htwice, if_neg fun hall => hsettled (.inr (hwords ▸ hall)), hwords]
  · rw [htwice]
    split
    next hall => rw [htwice, if_pos hall]
    next =>
      rw [normalizeTitle_joinWords hrest]
      split
      next => rfl
      next => rw [List.filter_filter]; simp [years]

/-- The point hides a year the first time. -/
theorem normalize_twice_differs :
    normalizeTitle .ascii "19.99 love".toList = "1999 love".toList ∧
      normalizeTitle .ascii (normalizeTitle .ascii "19.99 love".toList) = "love".toList := by
  decide +kernel

end RetroStation.Normalization
