import Mathlib.Algebra.Order.Ring.Nat
import Mathlib.Tactic.Ring

/-! # Byte strings

Slices of a byte string, which stop at its end, and the numbers that bytes spell, the
most significant digit first or last, in any base.
-/

namespace RetroStation.Bytes

abbrev ByteString := List UInt8

/-- `data[start:stop]`. -/
def slice (data : ByteString) (start stop : Nat) : ByteString :=
  (data.drop start).take (stop - start)

/-- The number that digits spell in a base, the most significant first. -/
def ofBigEndian (base : Nat) (digits : List Nat) : Nat :=
  digits.foldl (fun number digit => number * base + digit) 0

/-- `width` digits of a number, the most significant first. -/
def toBigEndian (base : Nat) : Nat → Nat → List Nat
  | 0, _ => []
  | width + 1, number => toBigEndian base width (number / base) ++ [number % base]

/-- The byte of each digit. -/
def ofDigits (digits : List Nat) : ByteString := digits.map UInt8.ofNat

/-- `int.from_bytes(data, "big")`. -/
def bigEndian (data : ByteString) : Nat := ofBigEndian 256 (data.map UInt8.toNat)

/-- `int.from_bytes(data, "little")`. -/
def littleEndian (data : ByteString) : Nat := bigEndian data.reverse

/-! ## Slices -/

section Slices

variable {data front rest : ByteString} {start stop : Nat}

theorem length_slice (data : ByteString) (start stop : Nat) :
    (slice data start stop).length = min (stop - start) (data.length - start) := by
  simp [slice]

/-- A slice within the front of a byte string. -/
theorem slice_append_of_le (hstop : stop ≤ front.length) :
    slice (front ++ rest) start stop = slice front start stop := by
  unfold slice
  rcases Nat.le_total stop start with hle | hle
  · simp [Nat.sub_eq_zero_of_le hle]
  · rw [List.drop_append_of_le_length (hle.trans hstop), List.take_append_of_le_length]
    rw [List.length_drop]
    omega

/-- A slice past the front of a byte string. -/
theorem slice_append_add (front rest : ByteString) (start stop : Nat) :
    slice (front ++ rest) (front.length + start) (front.length + stop) =
      slice rest start stop := by
  have hfront : front.drop (front.length + start) = [] := List.drop_eq_nil_of_le (by omega)
  simp [slice, List.drop_append, hfront, Nat.add_sub_add_left]

/-- A slice that starts where the front ends. -/
theorem slice_append_at (front rest : ByteString) (length : Nat) :
    slice (front ++ rest) front.length (front.length + length) = rest.take length := by
  simp [slice]

theorem slice_zero (data : ByteString) (stop : Nat) : slice data 0 stop = data.take stop := by
  simp [slice]

theorem slice_of_length_le (hstart : data.length ≤ start) : slice data start stop = [] := by
  simp [slice, List.drop_eq_nil_of_le hstart]

/-- Two slices that meet. -/
theorem slice_append_slice {middle : Nat} (hstart : start ≤ middle) (hstop : middle ≤ stop) :
    slice data start middle ++ slice data middle stop = slice data start stop := by
  have hmiddle : data.drop middle = (data.drop start).drop (middle - start) := by
    rw [List.drop_drop, Nat.add_sub_cancel' hstart]
  have hlength : stop - start = (middle - start) + (stop - middle) := by omega
  rw [slice, slice, slice, hmiddle, hlength, List.take_add]

/-- A slice ends where its bytes do. -/
theorem slice_of_length (data : ByteString) (start stop : Nat) :
    slice data start (start + (slice data start stop).length) = slice data start stop := by
  rw [length_slice, slice, slice, Nat.add_sub_cancel_left, ← List.length_drop,
    ← List.length_take, List.length_take, ← List.take_take, List.take_length]

end Slices

/-! ## Numbers -/

section Numbers

variable {base : Nat}

theorem ofBigEndian_append (digits : List Nat) (digit : Nat) :
    ofBigEndian base (digits ++ [digit]) = ofBigEndian base digits * base + digit := by
  simp [ofBigEndian]

@[simp] theorem length_toBigEndian (base width number : Nat) :
    (toBigEndian base width number).length = width := by
  induction width generalizing number with
  | zero => rfl
  | succ width ih => simp [toBigEndian, ih]

/-- The digits of a number that fits spell it. -/
theorem ofBigEndian_toBigEndian {width number : Nat} (hfits : number < base ^ width) :
    ofBigEndian base (toBigEndian base width number) = number := by
  induction width generalizing number with
  | zero =>
    have hzero : number = 0 := by simpa using hfits
    rw [hzero]
    rfl
  | succ width ih =>
    have hbase : 0 < base := Nat.pos_of_ne_zero fun hzero => by simp [hzero] at hfits
    have hhigh : number / base < base ^ width := by
      rw [Nat.div_lt_iff_lt_mul hbase, ← pow_succ]
      exact hfits
    rw [toBigEndian, ofBigEndian_append, ih hhigh, Nat.div_add_mod']

theorem lt_of_mem_toBigEndian (hbase : 0 < base) {width number digit : Nat}
    (hdigit : digit ∈ toBigEndian base width number) : digit < base := by
  induction width generalizing number with
  | zero => cases hdigit
  | succ width ih =>
    rcases List.mem_append.mp hdigit with hhigh | hlow
    · exact ih hhigh
    · rw [List.mem_singleton.mp hlow]
      exact Nat.mod_lt number hbase

/-- Digits below a byte's bound are read back from their bytes. -/
theorem map_toNat_ofDigits {digits : List Nat} (hdigits : ∀ digit ∈ digits, digit < 256) :
    (ofDigits digits).map UInt8.toNat = digits := by
  have hback : digits.map (UInt8.toNat ∘ UInt8.ofNat) = digits.map id := by
    apply List.map_congr_left
    intro digit hdigit
    exact UInt8.toNat_ofNat_of_lt' (hdigits digit hdigit)
  rw [ofDigits, List.map_map, hback, List.map_id]

@[simp] theorem length_ofDigits (digits : List Nat) : (ofDigits digits).length = digits.length := by
  simp [ofDigits]

theorem bigEndian_toBigEndian {width number : Nat} (hfits : number < 256 ^ width) :
    bigEndian (ofDigits (toBigEndian 256 width number)) = number := by
  rw [bigEndian, map_toNat_ofDigits fun _ hdigit => lt_of_mem_toBigEndian (by decide) hdigit,
    ofBigEndian_toBigEndian hfits]

end Numbers

end RetroStation.Bytes
