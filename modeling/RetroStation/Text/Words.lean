import RetroStation.Text.Unicode

/-! # Words

The words of a text are its runs of characters that are not blank. Joined by single blanks
they are the text with its runs of blanks squeezed and none at its ends.
-/

namespace Text

def words (text : List Char) : List (List Char) := (text.splitOnP isSpace).filter (· ≠ [])

def joinWords (words : List (List Char)) : List Char := [' '].intercalate words

/-- The text with each run of blanks made one, and none at the ends. -/
def squeeze (text : List Char) : List Char := joinWords (words text)

/-- A word: some characters, none of them blank. -/
def IsWord (word : List Char) : Prop := word ≠ [] ∧ ∀ char ∈ word, isSpace char = false

variable {text first second word : List Char} {others : List (List Char)} {char : Char}

@[simp] theorem words_nil : words [] = [] := rfl

/-- Blanks part words. -/
theorem words_append_cons (hblank : isSpace char = true) :
    words (first ++ char :: second) = words first ++ words second := by
  simp [words, List.splitOnP_append_cons _ _ hblank]

theorem words_cons_of_blank (hblank : isSpace char = true) : words (char :: text) = words text := by
  simpa using @words_append_cons [] text char hblank

theorem words_of_isWord (hword : IsWord word) : words word = [word] := by
  simp [words, List.splitOnP_eq_singleton hword.2, hword.1]

theorem words_isWord_append (hword : IsWord word) (hblank : isSpace char = true) :
    words (word ++ char :: text) = word :: words text := by
  rw [words_append_cons hblank, words_of_isWord hword, List.singleton_append]

@[simp] theorem joinWords_nil : joinWords [] = [] := rfl

@[simp] theorem joinWords_singleton : joinWords [word] = word := List.intercalate_singleton

theorem joinWords_cons_cons {next : List Char} :
    joinWords (word :: next :: others) = word ++ ' ' :: joinWords (next :: others) := by
  simp [joinWords, List.intercalate_cons_cons]

/-- The words of joined texts without blanks are those that are not empty. -/
theorem words_joinWords (hwords : ∀ word ∈ others, ∀ char ∈ word, isSpace char = false) :
    words (joinWords others) = others.filter (· ≠ []) := by
  induction others with
  | nil => rfl
  | cons word rest ih =>
      have hword := hwords word List.mem_cons_self
      have hrest := ih fun other hother => hwords other (List.mem_cons_of_mem _ hother)
      cases rest with
      | nil =>
          rw [joinWords_singleton]
          by_cases hempty : word = []
          · simp [hempty]
          · rw [words_of_isWord ⟨hempty, hword⟩]
            simp [hempty]
      | cons next rest =>
          rw [joinWords_cons_cons, words_append_cons rfl, hrest]
          by_cases hempty : word = []
          · simp [hempty]
          · rw [words_of_isWord ⟨hempty, hword⟩]
            simp [hempty]

/-- The words of joined words are these words. -/
theorem words_joinWords_of_isWord (hwords : ∀ word ∈ others, IsWord word) :
    words (joinWords others) = others := by
  rw [words_joinWords fun word hword => (hwords word hword).2, List.filter_eq_self]
  exact fun word hword => by simpa using (hwords word hword).1

theorem mem_joinWords (hchar : char ∈ joinWords others) :
    char = ' ' ∨ ∃ word ∈ others, char ∈ word := by
  induction others with
  | nil => cases hchar
  | cons word rest ih =>
      cases rest with
      | nil => exact .inr ⟨word, List.mem_cons_self, by simpa using hchar⟩
      | cons next rest =>
          rw [joinWords_cons_cons, List.mem_append, List.mem_cons] at hchar
          rcases hchar with hword | rfl | hrest
          · exact .inr ⟨word, List.mem_cons_self, hword⟩
          · exact .inl rfl
          · exact (ih hrest).imp_right fun ⟨other, hother, hmem⟩ =>
              ⟨other, List.mem_cons_of_mem _ hother, hmem⟩

theorem map_joinWords {map : Char → Char} (hblank : map ' ' = ' ') :
    (joinWords others).map map = joinWords (others.map (List.map map)) := by
  induction others with
  | nil => rfl
  | cons word rest ih =>
      cases rest with
      | nil => simp
      | cons next rest =>
          rw [joinWords_cons_cons, List.map_append, List.map_cons, ih, hblank]
          exact joinWords_cons_cons.symm

theorem joinWords_ne_nil (hword : word ≠ []) (hmem : word ∈ others) : joinWords others ≠ [] := by
  cases others with
  | nil => cases hmem
  | cons head rest =>
      cases rest with
      | nil =>
          obtain rfl := List.mem_singleton.mp hmem
          rwa [joinWords_singleton]
      | cons next rest => simp [joinWords_cons_cons]

/-! ## What words hold -/

/-- Every text is a blank start, or a word that a blank or the end follows. -/
theorem text_cases (text : List Char) : text = [] ∨
    (∃ char rest, text = char :: rest ∧ isSpace char = true) ∨
    (∃ word, text = word ∧ IsWord word) ∨
    ∃ word char rest, text = word ++ char :: rest ∧ IsWord word ∧ isSpace char = true := by
  induction text with
  | nil => exact .inl rfl
  | cons char rest ih =>
      by_cases hblank : isSpace char = true
      · exact .inr (.inl ⟨char, rest, rfl, hblank⟩)
      rw [Bool.not_eq_true] at hblank
      have hcons : ∀ word, (word = [] ∨ IsWord word) → IsWord (char :: word) := by
        rintro word (rfl | hword)
        · exact ⟨by simp, by simpa using hblank⟩
        · exact ⟨by simp, by simpa [hblank] using hword.2⟩
      rcases ih with rfl | ⟨next, rest, rfl, hnext⟩ | ⟨word, rfl, hword⟩ |
          ⟨word, next, rest, rfl, hword, hnext⟩
      · exact .inr (.inr (.inl ⟨_, rfl, hcons [] (.inl rfl)⟩))
      · exact .inr (.inr (.inr ⟨[char], next, rest, rfl, hcons [] (.inl rfl), hnext⟩))
      · exact .inr (.inr (.inl ⟨_, rfl, hcons rest (.inr hword)⟩))
      · exact .inr (.inr (.inr ⟨char :: word, next, rest, rfl, hcons word (.inr hword), hnext⟩))

theorem isWord_of_mem_words (hword : word ∈ words text) : IsWord word := by
  induction hlength : text.length using Nat.strong_induction_on generalizing text with
  | _ length ih =>
      rcases text_cases text with rfl | ⟨char, rest, rfl, hblank⟩ | ⟨only, rfl, honly⟩ |
          ⟨start, char, rest, rfl, hstart, hblank⟩
      · cases hword
      · rw [words_cons_of_blank hblank] at hword
        exact ih rest.length (by simp [← hlength]) hword rfl
      · rw [words_of_isWord honly, List.mem_singleton] at hword
        exact hword ▸ honly
      · rw [words_isWord_append hstart hblank] at hword
        rcases List.mem_cons.mp hword with rfl | hrest
        · exact hstart
        · exact ih rest.length (by simp [← hlength]; omega) hrest rfl

/-- The characters of the words are those of the text that are not blank. -/
theorem flatten_words (text : List Char) :
    (words text).flatten = text.filter fun char => !isSpace char := by
  induction hlength : text.length using Nat.strong_induction_on generalizing text with
  | _ length ih =>
      have hkeep : ∀ word, IsWord word → word.filter (fun char => !isSpace char) = word := by
        intro word hword
        exact List.filter_eq_self.mpr fun char hchar => by simp [hword.2 char hchar]
      rcases text_cases text with rfl | ⟨char, rest, rfl, hblank⟩ | ⟨only, rfl, honly⟩ |
          ⟨start, char, rest, rfl, hstart, hblank⟩
      · rfl
      · rw [words_cons_of_blank hblank, ih rest.length (by simp [← hlength]) rest rfl]
        simp [hblank]
      · rw [words_of_isWord honly, hkeep text honly]
        simp
      · rw [words_isWord_append hstart hblank, List.flatten_cons,
          ih rest.length (by simp [← hlength]; omega) rest rfl]
        simp [hkeep start hstart, hblank]

theorem exists_mem_words (hchar : char ∈ text) (hword : isSpace char = false) :
    ∃ word ∈ words text, char ∈ word := by
  refine List.mem_flatten.mp ?_
  rw [flatten_words]
  exact List.mem_filter.mpr ⟨hchar, by simp [hword]⟩

theorem mem_of_mem_words (hword : word ∈ words text) (hchar : char ∈ word) : char ∈ text := by
  have hmem : char ∈ (words text).flatten := List.mem_flatten.mpr ⟨word, hword, hchar⟩
  rw [flatten_words] at hmem
  exact List.mem_of_mem_filter hmem

theorem words_eq_nil_iff : words text = [] ↔ ∀ char ∈ text, isSpace char = true := by
  constructor
  · intro hnone char hchar
    by_contra hword
    have hmem : char ∈ (words text).flatten := by
      rw [flatten_words]
      exact List.mem_filter.mpr ⟨hchar, by simpa using hword⟩
    rw [hnone] at hmem
    cases hmem
  · intro hblank
    rw [List.eq_nil_iff_forall_not_mem]
    intro word hword
    obtain ⟨hsome, hchars⟩ := isWord_of_mem_words hword
    obtain ⟨char, hchar⟩ := List.exists_mem_of_ne_nil word hsome
    have hmem : char ∈ (words text).flatten := List.mem_flatten.mpr ⟨word, hword, hchar⟩
    rw [flatten_words] at hmem
    have hall := hblank char (List.mem_of_mem_filter hmem)
    rw [hchars char hchar] at hall
    cases hall

theorem squeeze_eq_nil_iff : squeeze text = [] ↔ ∀ char ∈ text, isSpace char = true := by
  rw [← words_eq_nil_iff]
  constructor
  · intro hnil
    rw [List.eq_nil_iff_forall_not_mem]
    exact fun word hword => joinWords_ne_nil (isWord_of_mem_words hword).1 hword hnil
  · intro hnone
    rw [squeeze, hnone, joinWords_nil]

/-- Stripping takes blanks only. -/
theorem mem_strip (hchar : char ∈ text) (hword : isSpace char = false) : char ∈ strip text := by
  have hdrop : ∀ {text : List Char}, char ∈ text → char ∈ text.dropWhile isSpace := by
    intro text hchar
    rw [← List.takeWhile_append_dropWhile (p := isSpace) (l := text), List.mem_append] at hchar
    refine hchar.resolve_left fun hblank => ?_
    rw [List.mem_takeWhile_imp hblank] at hword
    cases hword
  rw [strip, List.rdropWhile, List.mem_reverse]
  exact hdrop (List.mem_reverse.mpr (hdrop hchar))

theorem strip_of_isSpace_ends (hfirst : ∀ char ∈ text.head?, isSpace char = false)
    (hlast : ∀ char ∈ text.getLast?, isSpace char = false) : strip text = text := by
  have hdrop : text.dropWhile isSpace = text := by
    cases text with
    | nil => rfl
    | cons char rest => exact List.dropWhile_cons_of_neg (by simp [hfirst char rfl])
  rw [strip, hdrop, List.rdropWhile_eq_self_iff]
  intro hsome
  rw [hlast _ (List.getLast?_eq_some_getLast hsome)]
  exact Bool.false_ne_true

theorem strip_joinWords (hwords : ∀ word ∈ others, IsWord word) :
    strip (joinWords others) = joinWords others := by
  refine strip_of_isSpace_ends ?_ ?_
  · cases others with
    | nil => exact fun _ hnone => by cases hnone
    | cons word rest =>
        obtain ⟨hsome, hchars⟩ := hwords word List.mem_cons_self
        have hhead : (joinWords (word :: rest)).head? = word.head? := by
          cases rest with
          | nil => rw [joinWords_singleton]
          | cons next rest => rw [joinWords_cons_cons, List.head?_append_of_ne_nil _ hsome]
        rw [hhead]
        exact fun char hchar => hchars char (List.mem_of_mem_head? hchar)
  · induction others with
    | nil => exact fun _ hnone => by cases hnone
    | cons word rest ih =>
        have hword := hwords word List.mem_cons_self
        cases rest with
        | nil =>
            rw [joinWords_singleton]
            exact fun char hchar => hword.2 char (List.mem_of_mem_getLast? hchar)
        | cons next rest =>
            have hnext : joinWords (next :: rest) ≠ [] :=
              joinWords_ne_nil (hwords next (by simp)).1 List.mem_cons_self
            have hlast := ih fun other hother => hwords other (List.mem_cons_of_mem _ hother)
            rw [joinWords_cons_cons, List.getLast?_append_of_ne_nil _ (List.cons_ne_nil _ _),
              List.getLast?_cons_of_ne_nil hnext]
            exact hlast

theorem strip_eq_nil_iff : strip text = [] ↔ ∀ char ∈ text, isSpace char = true := by
  unfold strip
  rw [List.rdropWhile_eq_nil_iff]
  constructor
  · intro hrest char hchar
    rw [← List.takeWhile_append_dropWhile (p := isSpace) (l := text), List.mem_append] at hchar
    exact hchar.elim List.mem_takeWhile_imp (hrest char)
  · exact fun hall char hchar => hall char ((List.dropWhile_sublist _).subset hchar)

end Text
