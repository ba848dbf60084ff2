import RetroStation.Text.Substitute
import RetroStation.Text.Words

/-! # Bracketed groups of titles

A group stands in round or in square brackets. One level of brackets of its own kind is allowed
inside it; the other kind does not matter there.
-/

namespace RetroStation.Normalization

open Text

inductive Bracket
  | round
  | square
deriving DecidableEq, Repr

def Bracket.opening : Bracket → Char
  | .round => '('
  | .square => '['

def Bracket.closing : Bracket → Char
  | .round => ')'
  | .square => ']'

/-- How many characters there are up to the bracket that closes a group, inside a group that is
nested in it or not. -/
def closeAt (kind : Bracket) : Bool → List Char → Option Nat
  | _, [] => none
  | nested, char :: rest =>
      if char = kind.closing then
        if nested then (closeAt kind false rest).map (· + 1) else some 1
      else if char = kind.opening then
        if nested then none else (closeAt kind true rest).map (· + 1)
      else (closeAt kind nested rest).map (· + 1)

/-- How long the group of one kind is that a text starts with; it must not be empty. -/
def groupLength (kind : Bracket) : List Char → Nat
  | [] => 0
  | char :: body =>
      if char = kind.opening then
        match closeAt kind false body with
        | some length => if 2 ≤ length then length + 1 else 0
        | none => 0
      else 0

/-- A group of either kind, and the blanks before it. -/
def bracketGroup : Pattern := fun _ text =>
  let group := text.dropWhile isSpace
  let length :=
    if groupLength .round group = 0 then groupLength .square group else groupLength .round group
  if length = 0 then 0 else text.length - group.length + length

/-- What stands in the brackets. -/
def groupContent (group : List Char) : List Char :=
  strip (group.dropWhile isSpace).tail.dropLast

/-! ## Part numbers -/

/-- The same letter but for its case. Four letters that are not ASCII count as the cases of some
that are. -/
def sameLetter (letter char : Char) : Bool :=
  char.toLower = letter || letter = 'i' && (char = 'İ' || char = 'ı') ||
    letter = 's' && char = 'ſ' || letter = 'k' && char = '\u212a'

def spells (spelling : String) (text : List Char) : Bool :=
  spelling.toList.isEqv text sameLetter

/-- "Part 1", "Pt. 2", "Part II": a number, or letters of roman numerals. -/
def isPartNumber (unicode : Unicode) (content : List Char) : Bool :=
  match words content with
  | [lead, numeral] =>
      (spells "part" lead || spells "pt" lead || spells "pt." lead) &&
        (numeral.all unicode.isDigit ||
          numeral.all fun char => "ivxlc".toList.any (sameLetter · char))
  | _ => false

/-! ## Stripping -/

/-- A blank in a group's place, unless the group is a part number. -/
def replaceGroup (unicode : Unicode) (group : List Char) : List Char :=
  if isPartNumber unicode (groupContent group) then group else [' ']

def withoutGroups (unicode : Unicode) (text : List Char) : List Char :=
  substituteWith bracketGroup (replaceGroup unicode) text

def stripBracketedGroups (unicode : Unicode) (rawTitle : List Char) : List Char :=
  let base := squeeze (withoutGroups unicode rawTitle)
  if base = [] then rawTitle else base

/-! ## Where groups stand -/

variable {unicode : Unicode} {kind : Bracket} {nested : Bool} {text content rest blanks : List Char}
  {char : Char} {length : Nat} {before : Option Char}

theorem forward_bracketGroup : bracketGroup.Forward := fun _ _ => rfl

/-- A group is closed by a bracket of its kind. -/
theorem closeAt_spec (hclose : closeAt kind nested text = some length) :
    ∃ content rest, text = content ++ kind.closing :: rest ∧ length = content.length + 1 := by
  induction text generalizing nested length with
  | nil => cases hclose
  | cons char text ih =>
      have hmore : ∀ {nested more}, closeAt kind nested text = some more → more + 1 = length →
          ∃ content rest, char :: text = content ++ kind.closing :: rest ∧
            length = content.length + 1 := by
        rintro nested more hmore rfl
        obtain ⟨content, rest, rfl, rfl⟩ := ih hmore
        exact ⟨char :: content, rest, rfl, rfl⟩
      rw [closeAt] at hclose
      split at hclose
      next hclosing =>
        split at hclose
        next =>
          obtain ⟨more, hclose, hlength⟩ := Option.map_eq_some_iff.mp hclose
          exact hmore hclose hlength
        next => exact ⟨[], text, by rw [hclosing]; rfl, (Option.some.inj hclose).symm⟩
      next =>
        split at hclose
        next =>
          split at hclose
          next => cases hclose
          next =>
            obtain ⟨more, hclose, hlength⟩ := Option.map_eq_some_iff.mp hclose
            exact hmore hclose hlength
        next =>
          obtain ⟨more, hclose, hlength⟩ := Option.map_eq_some_iff.mp hclose
          exact hmore hclose hlength

theorem groupLength_spec (hgroup : groupLength kind text ≠ 0) : ∃ content rest, content ≠ [] ∧
    text = kind.opening :: (content ++ kind.closing :: rest) ∧
    groupLength kind text = content.length + 2 := by
  cases text with
  | nil => exact absurd rfl hgroup
  | cons char body =>
      rw [groupLength] at hgroup ⊢
      split at hgroup
      next hopening =>
        cases hclose : closeAt kind false body with
        | none =>
            rw [hclose] at hgroup
            exact absurd rfl hgroup
        | some length =>
            obtain ⟨content, rest, rfl, rfl⟩ := closeAt_spec hclose
            rw [hclose] at hgroup
            dsimp only at hgroup ⊢
            split at hgroup
            next hlong =>
              refine ⟨content, rest, ?_, by rw [hopening], by rw [if_pos hopening, if_pos hlong]⟩
              rintro rfl
              exact absurd hlong (by decide)
            next => exact absurd rfl hgroup
      next => exact absurd rfl hgroup

@[simp] theorem bracketGroup_nil : bracketGroup before [] = 0 := rfl

theorem Bracket.isSpace_opening : isSpace kind.opening = false := by
  cases kind <;> rfl

/-- A group of the other kind does not start with this bracket. -/
theorem groupLength_of_ne {other : Bracket} (hne : other ≠ kind) :
    groupLength other (kind.opening :: rest) = 0 := by
  cases kind <;> cases other <;> first | rfl | exact absurd rfl hne

theorem bracketGroup_opening : bracketGroup before (kind.opening :: rest) =
    groupLength kind (kind.opening :: rest) := by
  have hdrop : (kind.opening :: rest).dropWhile isSpace = kind.opening :: rest :=
    List.dropWhile_cons_of_neg (by simp [Bracket.isSpace_opening])
  unfold bracketGroup
  dsimp only
  rw [hdrop, Nat.sub_self, Nat.zero_add]
  cases kind with
  | round =>
      rw [@groupLength_of_ne .round rest .square (by decide)]
      split_ifs <;> omega
  | square =>
      rw [@groupLength_of_ne .square rest .round (by decide), if_pos rfl]
      split_ifs <;> omega

theorem bracketGroup_of_not_opening (hword : isSpace char = false)
    (hopening : ∀ kind : Bracket, char ≠ kind.opening) :
    bracketGroup before (char :: rest) = 0 := by
  have hdrop : (char :: rest).dropWhile isSpace = char :: rest :=
    List.dropWhile_cons_of_neg (by simp [hword])
  have hnone : ∀ kind, groupLength kind (char :: rest) = 0 := fun kind => by
    rw [groupLength, if_neg (hopening kind)]
  unfold bracketGroup
  dsimp only
  rw [hdrop, hnone, hnone]
  rfl

theorem bracketGroup_blank (hblank : isSpace char = true) : bracketGroup before (char :: rest) =
    if bracketGroup before rest = 0 then 0 else bracketGroup before rest + 1 := by
  have hlength : (rest.dropWhile isSpace).length ≤ rest.length :=
    (List.dropWhile_sublist _).length_le
  unfold bracketGroup
  dsimp only
  rw [List.dropWhile_cons_of_pos hblank, List.length_cons]
  split_ifs <;> omega

/-- What a match looks like: blanks, and a bracketed text that is not empty. -/
theorem bracketGroup_spec (hmatch : bracketGroup before text ≠ 0) : ∃ blanks kind content rest,
    (∀ char ∈ blanks, isSpace char = true) ∧ content ≠ [] ∧
      text = blanks ++ Bracket.opening kind :: (content ++ Bracket.closing kind :: rest) ∧
      bracketGroup before text = blanks.length + content.length + 2 := by
  induction text with
  | nil => exact absurd rfl hmatch
  | cons char text ih =>
      by_cases hblank : isSpace char = true
      · rw [bracketGroup_blank hblank] at hmatch ⊢
        split at hmatch
        next => exact absurd rfl hmatch
        next hrest =>
          obtain ⟨blanks, kind, content, rest, hblanks, hcontent, rfl, hlength⟩ := ih hrest
          refine ⟨char :: blanks, kind, content, rest, ?_, hcontent, rfl, ?_⟩
          · exact List.forall_mem_cons.mpr ⟨hblank, hblanks⟩
          · rw [if_neg hrest, hlength, List.length_cons]
            omega
      · by_cases hopening : ∃ kind : Bracket, char = kind.opening
        · obtain ⟨kind, rfl⟩ := hopening
          rw [bracketGroup_opening] at hmatch ⊢
          obtain ⟨content, rest, hcontent, htext, hlength⟩ := groupLength_spec hmatch
          exact ⟨[], kind, content, rest, List.forall_mem_nil _, hcontent, htext, by
            rw [hlength, List.length_nil]
            omega⟩
        · exact absurd (bracketGroup_of_not_opening (by simpa using hblank)
            (not_exists.mp hopening)) hmatch

theorem groupContent_eq (hblanks : ∀ char ∈ blanks, isSpace char = true) :
    groupContent (blanks ++ kind.opening :: (content ++ [kind.closing])) = strip content := by
  have hdrop : (blanks ++ kind.opening :: (content ++ [kind.closing])).dropWhile isSpace =
      kind.opening :: (content ++ [kind.closing]) := by
    rw [List.dropWhile_append_of_pos hblanks]
    exact List.dropWhile_cons_of_neg (by simp [Bracket.isSpace_opening])
  rw [groupContent, hdrop, List.tail_cons, List.dropLast_concat]

theorem bracketGroup_blanks (hblanks : ∀ char ∈ blanks, isSpace char = true) :
    bracketGroup before (blanks ++ text) =
      if bracketGroup before text = 0 then 0 else blanks.length + bracketGroup before text := by
  induction blanks with
  | nil => split <;> simp_all
  | cons char blanks ih =>
      obtain ⟨hblank, hrest⟩ := List.forall_mem_cons.mp hblanks
      rw [List.cons_append, bracketGroup_blank hblank, ih hrest, List.length_cons]
      split_ifs <;> omega

/-- What follows a group does not change where it is closed. -/
theorem closeAt_prefix (hclose : closeAt kind nested text = some length) (more : List Char) :
    closeAt kind nested (text.take length ++ more) = some length := by
  induction text generalizing nested length with
  | nil => cases hclose
  | cons char text ih =>
      have hnext : ∀ {nested : Bool}, (closeAt kind nested text).map (· + 1) = some length →
          ∃ shorter, length = shorter + 1 ∧
            closeAt kind nested (text.take shorter ++ more) = some shorter := by
        intro nested hnext
        obtain ⟨shorter, hshorter, rfl⟩ := Option.map_eq_some_iff.mp hnext
        exact ⟨shorter, rfl, ih hshorter⟩
      rw [closeAt] at hclose
      split at hclose
      next hclosing =>
        split at hclose
        next hnested =>
          obtain ⟨shorter, rfl, hrest⟩ := hnext hclose
          rw [List.take_succ_cons, List.cons_append, closeAt, if_pos hclosing,
            if_pos hnested, hrest]
          rfl
        next hnested =>
          obtain rfl := Option.some.inj hclose
          rw [List.take_succ_cons, List.cons_append, closeAt, if_pos hclosing, if_neg hnested]
      next hclosing =>
        split at hclose
        next hopening =>
          split at hclose
          next => cases hclose
          next hnested =>
            obtain ⟨shorter, rfl, hrest⟩ := hnext hclose
            rw [List.take_succ_cons, List.cons_append, closeAt, if_neg hclosing, if_pos hopening,
              if_neg hnested, hrest]
            rfl
        next hopening =>
          obtain ⟨shorter, rfl, hrest⟩ := hnext hclose
          rw [List.take_succ_cons, List.cons_append, closeAt, if_neg hclosing, if_neg hopening,
            hrest]
          rfl

/-- A group is matched whatever follows it. -/
theorem bracketGroup_prefix (hmatch : bracketGroup before text = length) (hlength : length ≠ 0)
    (more : List Char) : bracketGroup before (text.take length ++ more) = length := by
  induction text generalizing length with
  | nil => exact absurd hmatch.symm hlength
  | cons char text ih =>
      by_cases hblank : isSpace char = true
      · rw [bracketGroup_blank hblank] at hmatch
        split at hmatch
        next => exact absurd hmatch.symm hlength
        next hrest =>
          obtain rfl := hmatch
          rw [List.take_succ_cons, List.cons_append, bracketGroup_blank hblank, ih rfl hrest,
            if_neg hrest]
      · by_cases hopening : ∃ kind : Bracket, char = kind.opening
        · obtain ⟨kind, rfl⟩ := hopening
          rw [bracketGroup_opening, groupLength, if_pos rfl] at hmatch
          cases hclose : closeAt kind false text with
          | none =>
              rw [hclose] at hmatch
              exact absurd hmatch.symm hlength
          | some inside =>
              rw [hclose] at hmatch
              dsimp only at hmatch
              split at hmatch
              next hlong =>
                obtain rfl := hmatch
                rw [List.take_succ_cons, List.cons_append, bracketGroup_opening, groupLength,
                  if_pos rfl, closeAt_prefix hclose]
                exact if_pos hlong
              next => exact absurd hmatch.symm hlength
        · have hnone := @bracketGroup_of_not_opening text char before (by simpa using hblank)
            (not_exists.mp hopening)
          exact absurd (hmatch.symm.trans hnone) hlength

/-! ## Part numbers have no brackets -/

theorem exists_sameLetter {spelling : List Char} (hsame : spelling.isEqv text sameLetter)
    (hchar : char ∈ text) : ∃ letter ∈ spelling, sameLetter letter char := by
  induction spelling generalizing text with
  | nil =>
      cases text with
      | nil => cases hchar
      | cons => cases hsame
  | cons letter spelling ih =>
      cases text with
      | nil => cases hchar
      | cons head text =>
          obtain ⟨hhead, hrest⟩ := Bool.and_eq_true_iff.mp hsame
          rcases List.mem_cons.mp hchar with rfl | hmem
          · exact ⟨letter, List.mem_cons_self, hhead⟩
          · obtain ⟨other, hother, hsame⟩ := ih hrest hmem
            exact ⟨other, List.mem_cons_of_mem _ hother, hsame⟩

theorem opening_not_mem_of_isPartNumber (hpart : isPartNumber unicode text) :
    kind.opening ∉ text := by
  intro hmem
  obtain ⟨word, hword, hmem⟩ := exists_mem_words hmem Bracket.isSpace_opening
  have hspells : ∀ spelling : String, (spelling.toList.all fun letter =>
      !sameLetter letter kind.opening) = true → spells spelling word = false := by
    intro spelling hletters
    by_contra hsame
    rw [Bool.not_eq_false] at hsame
    obtain ⟨letter, hletter, hsame⟩ := exists_sameLetter hsame hmem
    have hnot := List.all_eq_true.mp hletters letter hletter
    rw [hsame] at hnot
    cases hnot
  have hroman : ("ivxlc".toList.any (sameLetter · kind.opening)) = false := by cases kind <;> rfl
  have hdigit : unicode.isDigit kind.opening = false := by
    rw [unicode.isDigit_ascii _ (by cases kind <;> rfl)]
    cases kind <;> rfl
  unfold isPartNumber at hpart
  split at hpart
  next lead numeral hwords =>
    rw [Bool.and_eq_true, Bool.or_eq_true (numeral.all _), List.all_eq_true,
      List.all_eq_true] at hpart
    obtain ⟨hlead, hnumeral⟩ := hpart
    rw [hwords, List.mem_cons, List.mem_singleton] at hword
    rcases hword with rfl | rfl
    · rw [hspells "part" (by cases kind <;> rfl), hspells "pt" (by cases kind <;> rfl),
        hspells "pt." (by cases kind <;> rfl)] at hlead
      cases hlead
    · rcases hnumeral with hdigits | hletters
      · have hnumber := hdigits _ hmem
        rw [hdigit] at hnumber
        cases hnumber
      · have hletter := hletters _ hmem
        rw [hroman] at hletter
        cases hletter
  next => cases hpart

/-! ## The text without groups -/

theorem withoutGroups_cons (hnone : bracketGroup none (char :: text) = 0) :
    withoutGroups unicode (char :: text) = char :: withoutGroups unicode text :=
  forward_bracketGroup.substituteWith_of_not_match hnone

theorem withoutGroups_append (hword : content ≠ [])
    (hmatch : bracketGroup none (content ++ text) = content.length) :
    withoutGroups unicode (content ++ text) =
      replaceGroup unicode content ++ withoutGroups unicode text :=
  forward_bracketGroup.substituteWith_of_match hword hmatch

theorem withoutGroups_plain (hword : isSpace char = false)
    (hopening : ∀ kind : Bracket, char ≠ kind.opening) :
    withoutGroups unicode (char :: text) = char :: withoutGroups unicode text :=
  withoutGroups_cons (bracketGroup_of_not_opening hword hopening)

/-- A blank may be part of a match, but stands for no more than the blank of that match. -/
theorem withoutGroups_blank (hblank : isSpace char = true) (first : List Char) :
    words (first ++ withoutGroups unicode (char :: text)) =
      words (first ++ char :: withoutGroups unicode text) := by
  by_cases hmatch : bracketGroup none text = 0
  · rw [withoutGroups_cons (by rw [bracketGroup_blank hblank, if_pos hmatch])]
  · obtain ⟨blanks, kind, content, rest, hblanks, -, htext, hlength⟩ := bracketGroup_spec hmatch
    have hgroup : text = (blanks ++ kind.opening :: (content ++ [kind.closing])) ++ rest := by
      simp [htext]
    have hshort : bracketGroup none text =
        (blanks ++ kind.opening :: (content ++ [kind.closing])).length := by
      simp [hlength]
      omega
    have hlong : bracketGroup none (char :: text) =
        (char :: (blanks ++ kind.opening :: (content ++ [kind.closing]))).length := by
      rw [bracketGroup_blank hblank, if_neg hmatch, hshort, List.length_cons]
    rw [hgroup] at hshort hlong ⊢
    rw [withoutGroups_append (by simp) hshort, ← List.cons_append,
      withoutGroups_append (List.cons_ne_nil _ _) hlong]
    have hcontent : groupContent (char :: (blanks ++ kind.opening :: (content ++ [kind.closing]))) =
        strip content :=
      @groupContent_eq kind content (char :: blanks)
        (List.forall_mem_cons.mpr ⟨hblank, hblanks⟩)
    unfold replaceGroup
    rw [hcontent, groupContent_eq hblanks]
    split
    next => rfl
    next =>
      rw [List.singleton_append, words_append_cons rfl, words_append_cons hblank,
        words_cons_of_blank rfl]

/-- A text is taken apart as it is scanned: one character, or a whole group with the blanks
before it. -/
theorem scan_induction {motive : List Char → Prop} (hnil : motive [])
    (hkept : ∀ char text, bracketGroup none (char :: text) = 0 → motive text →
      motive (char :: text))
    (hgroup : ∀ blanks kind content rest, (∀ char ∈ blanks, isSpace char = true) →
      bracketGroup none ((blanks ++ Bracket.opening kind :: (content ++ [kind.closing])) ++ rest) =
        (blanks ++ Bracket.opening kind :: (content ++ [kind.closing])).length → motive rest →
      motive ((blanks ++ Bracket.opening kind :: (content ++ [kind.closing])) ++ rest))
    (text : List Char) : motive text := by
  induction hlength : text.length using Nat.strong_induction_on generalizing text with
  | _ length ih =>
      cases text with
      | nil => exact hnil
      | cons char text =>
          by_cases hmatch : bracketGroup none (char :: text) = 0
          · exact hkept char text hmatch (ih text.length (by simp [← hlength]) text rfl)
          · obtain ⟨blanks, kind, content, rest, hblanks, -, htext, hmatched⟩ :=
              bracketGroup_spec hmatch
            have hparts : char :: text =
                (blanks ++ kind.opening :: (content ++ [kind.closing])) ++ rest := by
              simp [htext]
            rw [hparts] at hmatched hlength ⊢
            refine hgroup blanks kind content rest hblanks (by rw [hmatched]; simp; omega)
              (ih rest.length ?_ rest rfl)
            rw [← hlength]
            simp
            omega

end RetroStation.Normalization
