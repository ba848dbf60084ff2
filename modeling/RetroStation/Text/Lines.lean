import Mathlib.Data.List.Basic

/-! # Lines

A text is split at its line breaks, of which a carriage return with a line feed is one. Lines
without breaks are read back from the text that they make.
-/

namespace Text

/-- The characters that end a line. -/
def isLineBreak (char : Char) : Bool :=
  let code := char.toNat
  (0x0A ≤ code && code ≤ 0x0D) || (0x1C ≤ code && code ≤ 0x1E) || code = 0x85 || code = 0x2028 ||
    code = 0x2029

/-- The text with each line break passed over: whether the character before was a carriage
return whose line feed is still to come, and the line so far. -/
def splitLinesFrom (returned : Bool) (line : List Char) : List Char → List (List Char)
  | [] => if line = [] then [] else [line]
  | char :: rest =>
    if returned ∧ char = '\n' then splitLinesFrom false [] rest
    else if isLineBreak char then line :: splitLinesFrom (char = '\r') [] rest
    else splitLinesFrom false (line ++ [char]) rest

/-- `text.splitlines()`. -/
def splitLines (text : List Char) : List (List Char) := splitLinesFrom false [] text

example : splitLines "one\r\ntwo\n\rthree".toList =
    ["one".toList, "two".toList, [], "three".toList] := by decide

variable {returned : Bool} {line text : List Char} {lines : List (List Char)}

/-- No line that was split off holds a line break. -/
theorem mem_splitLinesFrom (hline : ∀ char ∈ line, isLineBreak char = false) :
    ∀ part ∈ splitLinesFrom returned line text, ∀ char ∈ part, isLineBreak char = false := by
  induction text generalizing returned line with
  | nil =>
      intro part hpart
      unfold splitLinesFrom at hpart
      split at hpart
      · cases hpart
      · rw [List.mem_singleton.mp hpart]
        exact hline
  | cons first rest ih =>
      intro part hpart
      unfold splitLinesFrom at hpart
      split at hpart
      · exact ih (fun _ hchar => by cases hchar) part hpart
      · split at hpart
        next hbreak =>
          rcases List.mem_cons.mp hpart with rfl | hrest
          · exact hline
          · exact ih (fun _ hchar => by cases hchar) part hrest
        next hnone =>
          refine ih (fun char hchar => ?_) part hpart
          rcases List.mem_append.mp hchar with hold | hnew
          · exact hline char hold
          · rw [List.mem_singleton.mp hnew]
            exact Bool.eq_false_iff.mpr hnone

theorem mem_splitLines : ∀ part ∈ splitLines text, ∀ char ∈ part, isLineBreak char = false :=
  mem_splitLinesFrom fun _ hchar => by cases hchar

/-- A line without breaks is read up to its line feed. -/
theorem splitLinesFrom_append {before : List Char}
    (hline : ∀ char ∈ line, isLineBreak char = false) :
    splitLinesFrom false before (line ++ '\n' :: text) = (before ++ line) :: splitLines text := by
  induction line generalizing before with
  | nil => simp [splitLinesFrom, splitLines, isLineBreak]
  | cons first rest ih =>
      have hfirst := hline first List.mem_cons_self
      rw [List.cons_append, splitLinesFrom, if_neg (by simp), hfirst, if_neg (by simp),
        ih fun char hchar => hline char (List.mem_cons_of_mem _ hchar)]
      simp

/-- Lines without breaks, each with its line feed, are read back. -/
theorem splitLines_flatMap (hlines : ∀ line ∈ lines, ∀ char ∈ line, isLineBreak char = false) :
    splitLines (lines.flatMap (· ++ ['\n'])) = lines := by
  induction lines with
  | nil => rfl
  | cons line rest ih =>
      rw [List.flatMap_cons, List.append_assoc, List.singleton_append, splitLines,
        splitLinesFrom_append (hlines line List.mem_cons_self), List.nil_append,
        ih fun other hother => hlines other (List.mem_cons_of_mem _ hother)]

end Text
