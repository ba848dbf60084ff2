import RetroStation.Bytes.Slices

/-! # ID3 tags

The tags an MP3 may carry before and after its audio, and the size of a leading one.
-/

namespace RetroStation.Audio

open Bytes

def ID3V2_MARKER : ByteString := [0x49, 0x44, 0x33]
def ID3V2_HEADER_SIZE : Nat := 10
def ID3V2_FOOTER_FLAG : UInt8 := 0x10
def ID3V1_MARKER : ByteString := [0x54, 0x41, 0x47]
def ID3V1_SIZE : Nat := 128

/-- A size of seven bits a byte. -/
def syncsafe (data : ByteString) : Nat :=
  data.foldl (fun size byte => size <<< 7 ||| (byte &&& 0x7F).toNat) 0

/-- Bytes a leading ID3v2 tag takes (header, body, footer); 0 without one. -/
def id3v2Size (head : ByteString) : Nat :=
  if head.length < ID3V2_HEADER_SIZE ∨ head.take 3 ≠ ID3V2_MARKER then 0
  else
    let body := syncsafe (slice head 6 10)
    let footer := if head.getD 5 0 &&& ID3V2_FOOTER_FLAG ≠ 0 then ID3V2_HEADER_SIZE else 0
    ID3V2_HEADER_SIZE + body + footer

/-! ## Well-formed tags -/

/-- A leading tag: a header that states the size of the body, and the footer if the header's
flags state one. -/
structure Id3v2Tag where
  version : UInt8
  revision : UInt8
  flags : UInt8
  body : ByteString
  footer : ByteString
  body_fits : body.length < 128 ^ 4
  footer_length : footer.length =
    if flags &&& ID3V2_FOOTER_FLAG ≠ 0 then ID3V2_HEADER_SIZE else 0

namespace Id3v2Tag

def header (tag : Id3v2Tag) : ByteString :=
  ID3V2_MARKER ++ [tag.version, tag.revision, tag.flags] ++
    ofDigits (toBigEndian 128 4 tag.body.length)

def bytes (tag : Id3v2Tag) : ByteString := tag.header ++ tag.body ++ tag.footer

end Id3v2Tag

/-- A trailing tag: its marker and 125 bytes of text fields. -/
structure Id3v1Tag where
  fields : ByteString
  fields_length : fields.length = 125

def Id3v1Tag.bytes (tag : Id3v1Tag) : ByteString := ID3V1_MARKER ++ tag.fields

/-! ## Sizes -/

theorem syncsafe_eq (data : ByteString) :
    syncsafe data = ofBigEndian 128 (data.map fun byte => byte.toNat % 128) := by
  have hstep : ∀ (size : Nat) (byte : UInt8),
      size <<< 7 ||| (byte &&& 0x7F).toNat = size * 128 + byte.toNat % 128 := by
    intro size byte
    have hlow : (byte &&& 0x7F).toNat = byte.toNat % 128 := by
      rw [UInt8.toNat_and]
      exact Nat.and_two_pow_sub_one_eq_mod byte.toNat 7
    rw [hlow, ← Nat.shiftLeft_add_eq_or_of_lt (Nat.mod_lt _ (by decide)), Nat.shiftLeft_eq]
  simp only [syncsafe, ofBigEndian, hstep, List.foldl_map]

theorem syncsafe_toBigEndian {size : Nat} (hfits : size < 128 ^ 4) :
    syncsafe (ofDigits (toBigEndian 128 4 size)) = size := by
  have hdigit {digit : Nat} (hmem : digit ∈ toBigEndian 128 4 size) : digit < 128 :=
    lt_of_mem_toBigEndian (by decide) hmem
  have hback : (ofDigits (toBigEndian 128 4 size)).map UInt8.toNat = toBigEndian 128 4 size :=
    map_toNat_ofDigits fun _ hmem => (hdigit hmem).trans (by decide)
  have hmod : (toBigEndian 128 4 size).map (· % 128) = (toBigEndian 128 4 size).map id :=
    List.map_congr_left fun _ hmem => Nat.mod_eq_of_lt (hdigit hmem)
  calc syncsafe (ofDigits (toBigEndian 128 4 size))
      = ofBigEndian 128 (((ofDigits (toBigEndian 128 4 size)).map UInt8.toNat).map (· % 128)) := by
        rw [syncsafe_eq, List.map_map]
        rfl
    _ = ofBigEndian 128 (toBigEndian 128 4 size) := by rw [hback, hmod, List.map_id]
    _ = size := ofBigEndian_toBigEndian hfits

namespace Id3v2Tag

@[simp] theorem length_header (tag : Id3v2Tag) : tag.header.length = ID3V2_HEADER_SIZE := by
  simp [header, ID3V2_MARKER, ID3V2_HEADER_SIZE]

/-- The size read from a tag's first bytes is the size of the tag. -/
theorem id3v2Size_bytes (tag : Id3v2Tag) (rest : ByteString) :
    id3v2Size ((tag.bytes ++ rest).take ID3V2_HEADER_SIZE) = tag.bytes.length := by
  have hhead : (tag.bytes ++ rest).take ID3V2_HEADER_SIZE = tag.header := by
    rw [bytes, List.append_assoc, List.append_assoc, ← tag.length_header, List.take_left]
  have hsize : slice tag.header 6 10 = ofDigits (toBigEndian 128 4 tag.body.length) := by
    rw [header]
    exact (slice_append_at _ _ 4).trans (List.take_of_length_le (by simp))
  rw [hhead, id3v2Size, if_neg]
  · rw [hsize, syncsafe_toBigEndian tag.body_fits]
    simp only [bytes, List.length_append, length_header, tag.footer_length]
    rfl
  · rintro (hshort | hmarker)
    · simp at hshort
    · exact hmarker rfl

end Id3v2Tag

theorem Id3v1Tag.length_bytes (tag : Id3v1Tag) : tag.bytes.length = ID3V1_SIZE := by
  simp [bytes, ID3V1_MARKER, ID3V1_SIZE, tag.fields_length]

/-! ## What reads as a tag -/

/-- The last 128 bytes read as a trailing tag. -/
def ReadsAsId3v1 (data : ByteString) : Prop :=
  ID3V1_SIZE ≤ data.length ∧
    slice data (data.length - ID3V1_SIZE) (data.length - ID3V1_SIZE + ID3V1_MARKER.length) =
      ID3V1_MARKER

instance (data : ByteString) : Decidable (ReadsAsId3v1 data) :=
  inferInstanceAs (Decidable (_ ∧ _))

/-- Bytes that do not begin with the marker do not with what follows them either, if that
begins with none of the marker's bytes. -/
theorem take_three_append {front rest : ByteString} (hfront : front.take 3 ≠ ID3V2_MARKER)
    (hrest : ∀ byte, rest.head? = some byte → byte ∉ ID3V2_MARKER) :
    (front ++ rest).take 3 ≠ ID3V2_MARKER := by
  cases rest with
  | nil => simpa using hfront
  | cons byte rest =>
    have hbyte := hrest byte rfl
    simp only [ID3V2_MARKER, List.mem_cons, not_or] at hbyte
    rcases front with _ | ⟨first, _ | ⟨second, _ | ⟨third, front⟩⟩⟩
    · simp [ID3V2_MARKER, hbyte]
    · simp [ID3V2_MARKER, hbyte]
    · simp [ID3V2_MARKER, hbyte]
    · simpa [ID3V2_MARKER] using hfront

/-- Audio of 128 bytes and more has the last 128 bytes of the file. -/
theorem readsAsId3v1_append {front audio : ByteString} (hlong : ID3V1_SIZE ≤ audio.length) :
    ReadsAsId3v1 (front ++ audio) ↔ ReadsAsId3v1 audio := by
  have hat : (front ++ audio).length - ID3V1_SIZE = front.length + (audio.length - ID3V1_SIZE) := by
    rw [List.length_append, Nat.add_sub_assoc hlong]
  have hfits : ID3V1_SIZE ≤ (front ++ audio).length := by
    rw [List.length_append]
    omega
  simp only [ReadsAsId3v1, hat, hfits, hlong, true_and, Nat.add_assoc, slice_append_add]

theorem readsAsId3v1_tag (front : ByteString) (tag : Id3v1Tag) :
    ReadsAsId3v1 (front ++ tag.bytes) := by
  have hlength := tag.length_bytes
  have hat : (front ++ tag.bytes).length - ID3V1_SIZE = front.length := by
    rw [List.length_append, hlength, Nat.add_sub_cancel]
  refine ⟨by rw [List.length_append, hlength]; omega, ?_⟩
  rw [hat, slice_append_at]
  rfl

end RetroStation.Audio
