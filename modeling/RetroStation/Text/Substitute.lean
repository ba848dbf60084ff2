import Mathlib.Data.List.Infix

/-! # Substitution

A text is scanned for a pattern from left to right: a match starts where the one before it
ended, or later. What is between the matches is kept.
-/

namespace Text

/-- How many characters are matched at the start of a text, given the character before it.
No pattern matches the empty text; zero is no match. -/
abbrev Pattern := Option Char → List Char → Nat

inductive Piece
  | kept (char : Char)
  | found (text : List Char)
deriving DecidableEq, Repr

/-- The characters of a text that are kept and the matches found, after some characters that
the last match has covered. -/
def scan (pattern : Pattern) : Option Char → Nat → List Char → List Piece
  | _, _, [] => []
  | _, covered + 1, char :: rest => scan pattern (some char) covered rest
  | before, 0, char :: rest =>
      match pattern before (char :: rest) with
      | 0 => .kept char :: scan pattern (some char) 0 rest
      | more + 1 => .found (char :: rest.take more) :: scan pattern (some char) more rest

def Piece.replace (replacement : List Char → List Char) : Piece → List Char
  | .kept char => [char]
  | .found text => replacement text

/-- The text with each match replaced. -/
def substituteWith (pattern : Pattern) (replacement : List Char → List Char) (text : List Char) :
    List Char :=
  (scan pattern none 0 text).flatMap (Piece.replace replacement)

def substitute (pattern : Pattern) (replacement : List Char) (text : List Char) : List Char :=
  substituteWith pattern (fun _ => replacement) text

def replaceChar (old : Char) (new : List Char) (text : List Char) : List Char :=
  text.flatMap fun char => if char = old then new else [char]

section

variable {pattern : Pattern} {before : Option Char} {text rest word : List Char} {char : Char}
  {replacement : List Char} {replace : List Char → List Char}

@[simp] theorem scan_nil {covered : Nat} : scan pattern before covered [] = [] := by
  cases covered <;> rfl

theorem scan_cons_of_match {more : Nat} (hmatch : pattern before (char :: rest) = more + 1) :
    scan pattern before 0 (char :: rest) =
      .found (char :: rest.take more) :: scan pattern (some char) more rest := by
  rw [scan, hmatch]

theorem scan_cons_of_not_match (hnone : pattern before (char :: rest) = 0) :
    scan pattern before 0 (char :: rest) = .kept char :: scan pattern (some char) 0 rest := by
  rw [scan, hnone]

/-- The scan goes on after the characters a match has covered. -/
theorem scan_covered (hword : word ≠ []) :
    scan pattern before word.length (word ++ rest) = scan pattern word.getLast? 0 rest := by
  induction word generalizing before with
  | nil => exact absurd rfl hword
  | cons char word ih =>
      rw [List.cons_append, List.length_cons, scan]
      by_cases hlast : word = []
      · simp [hlast]
      · rw [ih hlast, List.getLast?_cons, List.getLast?_eq_some_getLast hlast]
        rfl

/-- A text in which the pattern matches nowhere is kept. -/
theorem scan_of_not_match
    (hnone : ∀ before start, start <:+ text → pattern before start = 0) :
    scan pattern before 0 text = text.map .kept := by
  induction text generalizing before with
  | nil => rfl
  | cons char rest ih =>
      rw [scan_cons_of_not_match (hnone before _ (List.suffix_refl _)),
        ih fun before start hstart => hnone before start (hstart.trans (List.suffix_cons _ _)),
        List.map_cons]

theorem substituteWith_of_not_match
    (hnone : ∀ before start, start <:+ text → pattern before start = 0) :
    substituteWith pattern replace text = text := by
  rw [substituteWith, scan_of_not_match hnone, List.flatMap_map]
  exact List.flatMap_singleton' text

theorem substitute_of_not_match
    (hnone : ∀ before start, start <:+ text → pattern before start = 0) :
    substitute pattern replacement text = text :=
  substituteWith_of_not_match hnone

theorem mem_of_kept_mem_scan {covered : Nat}
    (hkept : .kept char ∈ scan pattern before covered text) : char ∈ text := by
  induction text generalizing before covered with
  | nil => simp at hkept
  | cons head rest ih =>
      cases covered with
      | succ covered =>
          rw [scan] at hkept
          exact List.mem_cons_of_mem _ (ih hkept)
      | zero =>
          cases hmatch : pattern before (head :: rest) with
          | zero =>
              rw [scan_cons_of_not_match hmatch, List.mem_cons] at hkept
              rcases hkept with hhead | hrest
              · obtain rfl := Piece.kept.inj hhead
                exact List.mem_cons_self
              · exact List.mem_cons_of_mem _ (ih hrest)
          | succ more =>
              rw [scan_cons_of_match hmatch, List.mem_cons] at hkept
              rcases hkept with hhead | hrest
              · cases hhead
              · exact List.mem_cons_of_mem _ (ih hrest)

/-- A character of the result is the text's or the replacement's. -/
theorem mem_substitute (hchar : char ∈ substitute pattern replacement text) :
    char ∈ text ∨ char ∈ replacement := by
  obtain ⟨piece, hpiece, hchar⟩ := List.mem_flatMap.mp hchar
  cases piece with
  | kept kept =>
      obtain rfl := List.mem_singleton.mp hchar
      exact .inl (mem_of_kept_mem_scan hpiece)
  | found text => exact .inr hchar

theorem mem_replaceChar {old : Char} {new : List Char} :
    char ∈ replaceChar old new text ↔ (char ∈ text ∧ char ≠ old) ∨ (old ∈ text ∧ char ∈ new) := by
  unfold replaceChar
  rw [List.mem_flatMap]
  constructor
  · rintro ⟨other, hother, hchar⟩
    split at hchar
    next heq => exact .inr ⟨heq ▸ hother, hchar⟩
    next hne =>
      obtain rfl := List.mem_singleton.mp hchar
      exact .inl ⟨hother, hne⟩
  · rintro (⟨hchar, hne⟩ | ⟨hold, hchar⟩)
    · exact ⟨char, hchar, by simp [hne]⟩
    · exact ⟨old, hold, by simpa using hchar⟩

theorem replaceChar_of_not_mem {old : Char} {new : List Char} (hold : old ∉ text) :
    replaceChar old new text = text := by
  induction text with
  | nil => rfl
  | cons char rest ih =>
      rw [List.mem_cons, not_or] at hold
      have hrest := ih hold.2
      unfold replaceChar at hrest ⊢
      rw [List.flatMap_cons, hrest, if_neg (Ne.symm hold.1), List.singleton_append]

/-! ## Patterns that do not look back -/

/-- Where the pattern matches does not depend on the character before. -/
def Pattern.Forward (pattern : Pattern) : Prop :=
  ∀ before text, pattern before text = pattern none text

theorem Pattern.Forward.scan_eq (hforward : pattern.Forward) (covered : Nat) :
    scan pattern before covered text = scan pattern none 0 (text.drop covered) := by
  induction text generalizing before covered with
  | nil => simp
  | cons char rest ih =>
      cases covered with
      | succ covered => rw [scan, ih, List.drop_succ_cons]
      | zero =>
          rw [List.drop_zero]
          cases hmatch : pattern none (char :: rest) with
          | zero =>
              rw [scan_cons_of_not_match ((hforward before _).trans hmatch),
                scan_cons_of_not_match hmatch]
          | succ more =>
              rw [scan_cons_of_match ((hforward before _).trans hmatch),
                scan_cons_of_match hmatch]

theorem Pattern.Forward.substituteWith_of_not_match (hforward : pattern.Forward)
    (hnone : pattern none (char :: rest) = 0) :
    substituteWith pattern replace (char :: rest) =
      char :: substituteWith pattern replace rest := by
  rw [substituteWith, scan_cons_of_not_match hnone, hforward.scan_eq]
  rfl

theorem Pattern.Forward.substituteWith_of_match (hforward : pattern.Forward) (hword : word ≠ [])
    (hmatch : pattern none (word ++ rest) = word.length) :
    substituteWith pattern replace (word ++ rest) =
      replace word ++ substituteWith pattern replace rest := by
  cases word with
  | nil => exact absurd rfl hword
  | cons char word =>
      have hmatch : pattern none (char :: (word ++ rest)) = word.length + 1 := hmatch
      rw [substituteWith, List.cons_append, scan_cons_of_match hmatch, hforward.scan_eq]
      simp [substituteWith, Piece.replace]

end

end Text
