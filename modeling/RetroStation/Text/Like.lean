import RetroStation.Text.Substitute

/-! # LIKE patterns

A pattern of SQL's LIKE is a text in which `%` stands for any text, `_` for any character, and
the escape character takes the meaning off the character behind it.
-/

namespace Text

/-- What a pattern says, piece by piece. -/
inductive LikePiece
  | char (char : Char)
  | one
  | run
  deriving DecidableEq, Repr

/-- What a character says that is not escaped. -/
def likePiece (char : Char) : LikePiece :=
  if char = '%' then .run else if char = '_' then .one else .char char

/-- The pieces of a pattern, unless it ends with its escape character. -/
def likePieces (escaped : Bool) : List Char → Option (List LikePiece)
  | [] => if escaped then none else some []
  | char :: rest =>
    if escaped then (likePieces false rest).map (.char char :: ·)
    else if char = '\\' then likePieces true rest
    else (likePieces false rest).map (likePiece char :: ·)

/-- Whether the whole text is made of what the pieces stand for. -/
def likeAccepts : List LikePiece → List Char → Bool
  | [], text => text.isEmpty
  | .char char :: pieces, text =>
    match text with
    | first :: rest => first = char && likeAccepts pieces rest
    | [] => false
  | .one :: pieces, text =>
    match text with
    | _ :: rest => likeAccepts pieces rest
    | [] => false
  | .run :: pieces, text => text.tails.any (likeAccepts pieces)

/-- `text LIKE pattern`, which fails on a pattern that ends with its escape character. -/
def like (pattern text : List Char) : Option Bool :=
  (likePieces false pattern).map fun pieces => likeAccepts pieces text

example : like "a\\_%c".toList "a_b/c".toList = some true := by decide

example : like "a\\_%c".toList "axb/c".toList = some false := by decide

variable {pattern other text : List Char} {pieces more : List LikePiece}

/-- A pattern behind a whole one says what both of them say. -/
theorem likePieces_append {escaped : Bool} (hpieces : likePieces escaped pattern = some pieces) :
    likePieces escaped (pattern ++ other) = (likePieces false other).map (pieces ++ ·) := by
  induction pattern generalizing escaped pieces with
  | nil =>
      cases escaped
      · cases hpieces
        simp
      · cases hpieces
  | cons char rest ih =>
      unfold likePieces at hpieces
      rw [List.cons_append, likePieces]
      split at hpieces
      next hescaped =>
        obtain ⟨later, hlater, rfl⟩ := Option.map_eq_some_iff.mp hpieces
        rw [if_pos hescaped, ih hlater, Option.map_map]
        rfl
      next hescaped =>
        rw [if_neg hescaped]
        split at hpieces
        next hescape => rw [if_pos hescape, ih hpieces]
        next hescape =>
          obtain ⟨later, hlater, rfl⟩ := Option.map_eq_some_iff.mp hpieces
          rw [if_neg hescape, ih hlater, Option.map_map]
          rfl

/-- A character that stands for itself, escaped where it would not. -/
def escapeLike (char : Char) : List Char :=
  if char = '\\' ∨ char = '%' ∨ char = '_' then ['\\', char] else [char]

/-- An escaped text says its own characters. -/
theorem likePieces_escaped (text : List Char) :
    likePieces false (text.flatMap escapeLike) = some (text.map .char) := by
  induction text with
  | nil => rfl
  | cons char rest ih =>
      have hchar : likePieces false (escapeLike char) = some [.char char] := by
        unfold escapeLike
        split
        · simp [likePieces]
        next hplain =>
          rw [not_or, not_or] at hplain
          simp [likePieces, likePiece, hplain]
      rw [List.flatMap_cons, likePieces_append hchar, ih]
      rfl

/-- Escaping one character after another, the escape character first. -/
theorem replaceChar_escapes (text : List Char) :
    replaceChar '_' ['\\', '_'] (replaceChar '%' ['\\', '%'] (replaceChar '\\' ['\\', '\\'] text)) =
      text.flatMap escapeLike := by
  unfold replaceChar
  rw [List.flatMap_assoc, List.flatMap_assoc]
  refine congrArg (text.flatMap ·) (funext fun char => ?_)
  unfold escapeLike
  by_cases hescape : char = '\\'
  · subst hescape
    rfl
  · by_cases hrun : char = '%'
    · subst hrun
      rfl
    · by_cases hone : char = '_'
      · subst hone
        rfl
      · simp [hescape, hrun, hone]

/-- Characters before the other pieces are the text's first ones. -/
theorem likeAccepts_chars (chars : List Char) :
    likeAccepts (chars.map .char ++ pieces) text = true ↔
      ∃ rest, text = chars ++ rest ∧ likeAccepts pieces rest = true := by
  induction chars generalizing text with
  | nil => simp
  | cons char chars ih =>
      cases text with
      | nil => simp [likeAccepts]
      | cons first rest =>
        rw [List.map_cons, List.cons_append, likeAccepts]
        rw [Bool.and_eq_true, decide_eq_true_eq, ih]
        constructor
        · rintro ⟨rfl, more, rfl, haccepts⟩
          exact ⟨more, rfl, haccepts⟩
        · rintro ⟨more, htext, haccepts⟩
          obtain ⟨rfl, rfl⟩ := List.cons.inj htext
          exact ⟨rfl, more, rfl, haccepts⟩

/-- A run stands for any text before what the other pieces stand for. -/
theorem likeAccepts_run : likeAccepts (.run :: pieces) text = true ↔
    ∃ front rest, text = front ++ rest ∧ likeAccepts pieces rest = true := by
  rw [likeAccepts, List.any_eq_true]
  constructor
  · rintro ⟨rest, hrest, haccepts⟩
    obtain ⟨front, rfl⟩ := (List.mem_tails _ _).mp hrest
    exact ⟨front, rest, rfl, haccepts⟩
  · rintro ⟨front, rest, rfl, haccepts⟩
    exact ⟨rest, (List.mem_tails _ _).mpr (List.suffix_append _ _), haccepts⟩

theorem likeAccepts_anything : likeAccepts [.run] text = true :=
  likeAccepts_run.mpr ⟨text, [], (List.append_nil _).symm, rfl⟩

end Text
