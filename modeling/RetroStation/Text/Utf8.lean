import Mathlib.Data.List.Basic

/-! # UTF-8 cut at any byte

Decoding skips what is not a character. A cut through encoded text leaves part of a
character at most, and none of the bytes in that part starts another, so what is decoded
is the whole characters before the cut.
-/

namespace Utf8

def encode (text : List Char) : List UInt8 := text.flatMap String.utf8EncodeChar

/-- The character that starts with the first byte. -/
def decodeFirst (bytes : List UInt8) : Option Char := bytes.toByteArray.utf8DecodeChar? 0

/-- The characters after `skip` bytes, without the bytes that are in none. -/
def decodeFrom (skip : Nat) : List UInt8 → List Char
  | [] => []
  | byte :: rest =>
    match skip with
    | skip + 1 => decodeFrom skip rest
    | 0 =>
      match decodeFirst (byte :: rest) with
      | some char => char :: decodeFrom (char.utf8Size - 1) rest
      | none => decodeFrom 0 rest

def decodeIgnoring (bytes : List UInt8) : List Char := decodeFrom 0 bytes

@[simp] theorem encode_nil : encode [] = [] := rfl

@[simp] theorem encode_cons (char : Char) (text : List Char) :
    encode (char :: text) = String.utf8EncodeChar char ++ encode text := List.flatMap_cons

@[simp] theorem encode_append (first second : List Char) :
    encode (first ++ second) = encode first ++ encode second := List.flatMap_append

theorem utf8EncodeChar_eq_cons (char : Char) :
    ∃ byte rest, String.utf8EncodeChar char = byte :: rest ∧ rest.length + 1 = char.utf8Size := by
  cases hbytes : String.utf8EncodeChar char with
  | nil =>
      have hlength := String.length_utf8EncodeChar char
      rw [hbytes, List.length_nil] at hlength
      have hpos := char.utf8Size_pos
      omega
  | cons byte rest =>
      refine ⟨byte, rest, rfl, ?_⟩
      rw [← String.length_utf8EncodeChar char, hbytes, List.length_cons]

/-- A character is read back from the front of the bytes. -/
@[simp] theorem decodeFirst_append (char : Char) (rest : List UInt8) :
    decodeFirst (String.utf8EncodeChar char ++ rest) = some char := by
  rw [decodeFirst, List.toByteArray_append]
  exact ByteArray.utf8DecodeChar?_utf8EncodeChar_append

/-- Bytes are read as a character only if they start with all of it. -/
theorem eq_append_of_decodeFirst {bytes : List UInt8} {char : Char}
    (hchar : decodeFirst bytes = some char) :
    ∃ rest, bytes = String.utf8EncodeChar char ++ rest := by
  obtain ⟨rest, hrest⟩ := ByteArray.exists_of_utf8DecodeChar?_eq_some hchar
  refine ⟨rest.data.toList, List.toByteArray_inj.mp ?_⟩
  rw [hrest, List.toByteArray_append]
  congr 1
  exact ByteArray.ext (by simp)

theorem decodeFrom_eq_drop (skip : Nat) (bytes : List UInt8) :
    decodeFrom skip bytes = decodeFrom 0 (bytes.drop skip) := by
  induction skip generalizing bytes with
  | zero => rfl
  | succ skip ih =>
      cases bytes with
      | nil => rfl
      | cons byte rest => exact ih rest

theorem decodeIgnoring_append (char : Char) (rest : List UInt8) :
    decodeIgnoring (String.utf8EncodeChar char ++ rest) = char :: decodeIgnoring rest := by
  obtain ⟨byte, tail, hbytes, hsize⟩ := utf8EncodeChar_eq_cons char
  have hfirst := decodeFirst_append char rest
  rw [hbytes, List.cons_append] at hfirst ⊢
  have hskip : (tail ++ rest).drop (char.utf8Size - 1) = rest := List.drop_left' (by omega)
  rw [decodeIgnoring, decodeFrom, hfirst]
  dsimp only
  rw [decodeFrom_eq_drop, hskip]
  rfl

/-- Nothing is read from bytes none of which starts a character there. -/
theorem decodeIgnoring_eq_nil {bytes : List UInt8}
    (hnone : ∀ start, decodeFirst (bytes.drop start) = none) : decodeIgnoring bytes = [] := by
  induction bytes with
  | nil => rfl
  | cons byte rest ih =>
      rw [decodeIgnoring, decodeFrom, show decodeFirst (byte :: rest) = none from hnone 0]
      exact ih fun start => hnone (start + 1)

/-- No character starts in part of another one. -/
theorem decodeFirst_part (char : Char) {length start : Nat} (hlength : length < char.utf8Size) :
    decodeFirst (((String.utf8EncodeChar char).take length).drop start) = none := by
  cases hfound : decodeFirst (((String.utf8EncodeChar char).take length).drop start) with
  | none => rfl
  | some found =>
      exfalso
      have hsome : (ByteArray.utf8DecodeChar?
          (((String.utf8EncodeChar char).take length).drop start).toByteArray 0).isSome := by
        rw [decodeFirst] at hfound
        rw [hfound]
        rfl
      have hfirst := ByteArray.isUTF8FirstByte_of_isSome_utf8DecodeChar? hsome
      obtain ⟨rest, hrest⟩ := eq_append_of_decodeFirst hfound
      have hzero : start = 0 := by
        simpa only [List.getElem_toByteArray, List.getElem_drop, List.getElem_take, Nat.add_zero,
          UInt8.isUTF8FirstByte_getElem_utf8EncodeChar] using hfirst
      subst hzero
      have hwhole : String.utf8EncodeChar char =
          String.utf8EncodeChar found ++ (rest ++ (String.utf8EncodeChar char).drop length) := by
        rw [← List.append_assoc, ← hrest, List.drop_zero, List.take_append_drop]
      have hsame : decodeFirst (String.utf8EncodeChar char) = some found := by
        rw [hwhole, decodeFirst_append]
      obtain rfl : char = found := by
        have hchar := decodeFirst_append char []
        rw [List.append_nil, hsame] at hchar
        exact (Option.some.inj hchar).symm
      have hsize := congrArg List.length hrest
      rw [List.drop_zero, List.length_append, List.length_take] at hsize
      simp only [String.length_utf8EncodeChar] at hsize
      omega

/-- A text that is cut is read as its longest beginning that fits. -/
theorem decodeIgnoring_take (text : List Char) (room : Nat) :
    ∃ count, decodeIgnoring ((encode text).take room) = text.take count ∧
      (encode (text.take count)).length ≤ room ∧
      ∀ more, (encode (text.take more)).length ≤ room → text.take more <+: text.take count := by
  induction text generalizing room with
  | nil => exact ⟨0, by simp [decodeIgnoring, decodeFrom], by simp, by simp⟩
  | cons char text ih =>
      rw [encode_cons]
      by_cases hfits : char.utf8Size ≤ room
      · obtain ⟨count, hdecode, hcount, hlongest⟩ := ih (room - char.utf8Size)
        refine ⟨count + 1, ?_, ?_, fun more hmore => ?_⟩
        · rw [List.take_append, List.take_of_length_le (by simpa using hfits),
            String.length_utf8EncodeChar, decodeIgnoring_append, hdecode, List.take_succ_cons]
        · rw [List.take_succ_cons, encode_cons, List.length_append, String.length_utf8EncodeChar]
          omega
        · cases more with
          | zero => simp
          | succ more =>
              rw [List.take_succ_cons, encode_cons, List.length_append,
                String.length_utf8EncodeChar] at hmore
              rw [List.take_succ_cons, List.take_succ_cons, List.cons_prefix_cons]
              exact ⟨rfl, hlongest more (by omega)⟩
      · refine ⟨0, ?_, by simp, fun more hmore => ?_⟩
        · rw [List.take_append_of_le_length (by rw [String.length_utf8EncodeChar]; omega)]
          exact decodeIgnoring_eq_nil fun start => decodeFirst_part char (by omega)
        · cases more with
          | zero => simp
          | succ more =>
              rw [List.take_succ_cons, encode_cons, List.length_append,
                String.length_utf8EncodeChar] at hmore
              omega

end Utf8
