import RetroStation.Audio.MpegFrames

/-! # The bounds of tagged audio

Any ID3v2 tags before the audio, and an APEv2 tag, an ID3v1 tag or both after it: the audio
is found between them, as long as it and the tags do not read as other tags.
-/

namespace RetroStation.Audio

open Bytes

/-- An APEv2 tag: its items and the footer, after a header if the flags state one. The size
counts the items and the footer. -/
structure ApeTag where
  header : ByteString
  items : ByteString
  version : ByteString
  count : ByteString
  flags : Nat
  reserved : ByteString
  version_length : version.length = 4
  count_length : count.length = 4
  flags_fit : flags < 256 ^ 4
  reserved_length : reserved.length = 8
  items_fit : items.length + APE_FOOTER_BYTES < 256 ^ 4
  header_length : header.length = if flags &&& APE_HAS_HEADER ≠ 0 then APE_FOOTER_BYTES else 0

/-- `number.to_bytes(4, "little")`. -/
def littleBytes (number : Nat) : ByteString := (ofDigits (toBigEndian 256 4 number)).reverse

namespace ApeTag

def size (tag : ApeTag) : Nat := tag.items.length + APE_FOOTER_BYTES

def footer (tag : ApeTag) : ByteString :=
  APE_MARKER ++ tag.version ++ littleBytes tag.size ++ tag.count ++ littleBytes tag.flags ++
    tag.reserved

def bytes (tag : ApeTag) : ByteString := tag.header ++ tag.items ++ tag.footer

end ApeTag

/-- The tags after the audio, the APEv2 tag first. -/
structure TrailingTags where
  ape : Option ApeTag := none
  id3v1 : Option Id3v1Tag := none

namespace TrailingTags

def apeBytes (tags : TrailingTags) : ByteString := tags.ape.elim [] ApeTag.bytes

def bytes (tags : TrailingTags) : ByteString :=
  tags.apeBytes ++ tags.id3v1.elim [] Id3v1Tag.bytes

end TrailingTags

def leadingBytes (tags : List Id3v2Tag) : ByteString := tags.flatMap Id3v2Tag.bytes

/-- The last 32 bytes read as the footer of an APEv2 tag. -/
def ReadsAsApe (data : ByteString) : Prop :=
  APE_FOOTER_BYTES ≤ data.length ∧
    slice data (data.length - APE_FOOTER_BYTES) (data.length - APE_FOOTER_BYTES + 8) = APE_MARKER

instance (data : ByteString) : Decidable (ReadsAsApe data) :=
  inferInstanceAs (Decidable (_ ∧ _))

/-- Audio that reads as no tag, before tags that read as what they are: with no ID3v1 tag,
nothing reads as one. -/
structure ReadsAsTagged (audio : ByteString) (tags : TrailingTags) : Prop where
  no_leading : (audio ++ tags.bytes).take 3 ≠ ID3V2_MARKER
  no_id3v1 : tags.id3v1 = none → ¬ ReadsAsId3v1 (audio ++ tags.apeBytes)
  no_ape : tags.ape = none → ¬ ReadsAsApe audio

/-! ## The fields of a footer -/

theorem littleEndian_littleBytes {number : Nat} (hfits : number < 256 ^ 4) :
    littleEndian (littleBytes number) = number := by
  rw [littleEndian, littleBytes, List.reverse_reverse, bigEndian_toBigEndian hfits]

@[simp] theorem length_littleBytes (number : Nat) : (littleBytes number).length = 4 := by
  simp [littleBytes]

/-- A field of known length between others. -/
theorem slice_field {front field rest : ByteString} {start stop : Nat}
    (hstart : front.length = start) (hstop : start + field.length = stop) :
    slice (front ++ (field ++ rest)) start stop = field := by
  rw [← hstop, ← hstart, slice_append_at, List.take_left]

namespace ApeTag

@[simp] theorem length_footer (tag : ApeTag) : tag.footer.length = APE_FOOTER_BYTES := by
  simp [footer, APE_MARKER, APE_FOOTER_BYTES, tag.version_length, tag.count_length,
    tag.reserved_length]

/-- The marker, the size and the flags of a footer, in a file. -/
theorem footer_fields (tag : ApeTag) (front rest : ByteString) :
    slice (front ++ (tag.footer ++ rest)) front.length (front.length + 8) = APE_MARKER ∧
      littleEndian (slice (front ++ (tag.footer ++ rest)) (front.length + 12)
        (front.length + 16)) = tag.size ∧
      littleEndian (slice (front ++ (tag.footer ++ rest)) (front.length + 20)
        (front.length + 24)) = tag.flags := by
  have hmarker : slice (front ++ (tag.footer ++ rest)) front.length (front.length + 8) =
      APE_MARKER := by
    simp only [footer, List.append_assoc]
    exact slice_field rfl rfl
  have hsize : slice (front ++ (tag.footer ++ rest)) (front.length + 12) (front.length + 16) =
      littleBytes tag.size := by
    simp only [footer, List.append_assoc]
    rw [← List.append_assoc, ← List.append_assoc]
    exact slice_field (by simp [APE_MARKER, tag.version_length]) (by simp)
  have hflags : slice (front ++ (tag.footer ++ rest)) (front.length + 20) (front.length + 24) =
      littleBytes tag.flags := by
    simp only [footer, List.append_assoc]
    rw [← List.append_assoc, ← List.append_assoc, ← List.append_assoc, ← List.append_assoc]
    exact slice_field (by simp [APE_MARKER, tag.version_length, tag.count_length]) (by simp)
  rw [hmarker, hsize, hflags]
  exact ⟨rfl, littleEndian_littleBytes tag.items_fit, littleEndian_littleBytes tag.flags_fit⟩

end ApeTag

/-! ## The bounds -/

/-- A leading tag is skipped. -/
theorem skipId3v2_tag (front : ByteString) (tag : Id3v2Tag) (rest : ByteString) :
    skipId3v2 (front ++ (tag.bytes ++ rest)) front.length =
      skipId3v2 (front ++ (tag.bytes ++ rest)) (front ++ tag.bytes).length := by
  have hdata : front ++ (tag.bytes ++ rest) =
      front ++ (tag.header ++ (tag.body ++ (tag.footer ++ rest))) := by
    simp only [Id3v2Tag.bytes, List.append_assoc]
  have hmarker : slice (front ++ (tag.bytes ++ rest)) front.length (front.length + 3) =
      ID3V2_MARKER := by
    rw [hdata, slice_append_at]
    rfl
  have hsize : slice (front ++ (tag.bytes ++ rest)) (front.length + 6)
      (front.length + ID3V2_HEADER_SIZE) = ofDigits (toBigEndian 128 4 tag.body.length) := by
    rw [hdata, Id3v2Tag.header, List.append_assoc, ← List.append_assoc]
    exact slice_field (by simp [ID3V2_MARKER]) (by simp [ID3V2_HEADER_SIZE])
  have hflags : (front ++ (tag.bytes ++ rest)).getD (front.length + 5) 0 = tag.flags := by
    rw [hdata, List.getD_eq_getElem?_getD, List.getElem?_append_right (Nat.le_add_right _ _),
      Nat.add_sub_cancel_left]
    rfl
  have hlong : front.length + ID3V2_HEADER_SIZE ≤ (front ++ (tag.bytes ++ rest)).length := by
    rw [hdata, List.length_append, List.length_append, tag.length_header]
    omega
  have hlength : (front ++ tag.bytes).length = front.length + (ID3V2_HEADER_SIZE +
      tag.body.length + if tag.flags &&& ID3V2_FOOTER_FLAG ≠ 0 then ID3V2_HEADER_SIZE else 0) := by
    simp only [Id3v2Tag.bytes, List.length_append, tag.length_header, tag.footer_length]
  rw [skipId3v2, dif_pos ⟨hmarker, hlong⟩, hsize, hflags, syncsafe_toBigEndian tag.body_fits,
    hlength]

/-- Every leading tag is skipped, up to what does not begin with a tag's marker. -/
theorem skipId3v2_tags (front : ByteString) (tags : List Id3v2Tag) {rest : ByteString}
    (hrest : rest.take 3 ≠ ID3V2_MARKER) :
    skipId3v2 (front ++ (leadingBytes tags ++ rest)) front.length =
      (front ++ leadingBytes tags).length := by
  induction tags generalizing front with
  | nil =>
    have hstop : slice (front ++ rest) front.length (front.length + 3) ≠ ID3V2_MARKER := by
      rwa [slice_append_at]
    rw [skipId3v2]
    simp [leadingBytes, hstop]
  | cons tag tags ih =>
    have hnext := ih (front ++ tag.bytes)
    simp only [leadingBytes, List.flatMap_cons, List.append_assoc] at hnext ⊢
    rw [skipId3v2_tag, hnext]

section Bounds

variable (front : ByteString)

/-- The last 128 bytes are looked at from the audio's start on. -/
theorem beforeId3v1_append (rest : ByteString) :
    beforeId3v1 (front ++ rest) front.length (front ++ rest).length =
      if ReadsAsId3v1 rest then front.length + (rest.length - ID3V1_SIZE)
      else (front ++ rest).length := by
  have hlength : (front ++ rest).length = front.length + rest.length := List.length_append
  by_cases hlong : ID3V1_SIZE ≤ rest.length
  · have hat : front.length + rest.length - ID3V1_SIZE =
        front.length + (rest.length - ID3V1_SIZE) := Nat.add_sub_assoc hlong _
    have hend : front.length + rest.length - 125 =
        front.length + (rest.length - ID3V1_SIZE + ID3V1_MARKER.length) := by
      simp only [ID3V1_SIZE, ID3V1_MARKER, List.length_cons, List.length_nil] at hlong ⊢
      omega
    simp only [beforeId3v1, ReadsAsId3v1, hlength, hat, hend, slice_append_add, hlong,
      Nat.add_le_add_iff_left, true_and]
  · have hnot : ¬ ReadsAsId3v1 rest := fun hreads => hlong hreads.1
    rw [if_neg hnot, beforeId3v1, if_neg]
    rintro ⟨hfits, -⟩
    omega

/-- A trailing ID3v1 tag is left out, and nothing else. -/
theorem TrailingTags.beforeId3v1_eq {audio : ByteString} {tags : TrailingTags}
    (hid3v1 : tags.id3v1 = none → ¬ ReadsAsId3v1 (audio ++ tags.apeBytes)) :
    beforeId3v1 (front ++ (audio ++ tags.bytes)) front.length
        (front ++ (audio ++ tags.bytes)).length =
      (front ++ (audio ++ tags.apeBytes)).length := by
  rw [beforeId3v1_append]
  cases htag : tags.id3v1 with
  | none =>
    have hbytes : tags.bytes = tags.apeBytes := by simp [TrailingTags.bytes, htag]
    rw [hbytes, if_neg (hid3v1 htag)]
  | some tag =>
    have hbytes : audio ++ tags.bytes = audio ++ tags.apeBytes ++ tag.bytes := by
      simp [TrailingTags.bytes, htag]
    rw [hbytes, if_pos (readsAsId3v1_tag _ tag), List.length_append, tag.length_bytes,
      Nat.add_sub_cancel, ← List.length_append]

/-- The APEv2 tag is left out, and nothing else. -/
theorem TrailingTags.beforeApe_eq {audio : ByteString} {tags : TrailingTags}
    (hape : tags.ape = none → ¬ ReadsAsApe audio) :
    beforeApe (front ++ (audio ++ tags.bytes)) front.length
        (front ++ (audio ++ tags.apeBytes)).length = (front ++ audio).length := by
  cases htag : tags.ape with
  | none =>
    have hnone : tags.apeBytes = [] := by simp [TrailingTags.apeBytes, htag]
    rw [hnone, List.append_nil, beforeApe, if_neg]
    rintro ⟨hfits, hmarker⟩
    rw [List.length_append] at hfits hmarker
    have hlong : APE_FOOTER_BYTES ≤ audio.length := by omega
    rw [Nat.add_sub_assoc hlong, Nat.add_assoc, slice_append_add, slice_append_of_le] at hmarker
    · exact hape htag ⟨hlong, hmarker⟩
    · simp only [APE_FOOTER_BYTES] at hlong ⊢
      omega
  | some tag =>
    have hbytes : tags.apeBytes = tag.header ++ tag.items ++ tag.footer := by
      simp [TrailingTags.apeBytes, htag, ApeTag.bytes]
    have hdata : front ++ (audio ++ tags.bytes) = front ++ audio ++ tag.header ++ tag.items ++
        (tag.footer ++ tags.id3v1.elim [] Id3v1Tag.bytes) := by
      rw [TrailingTags.bytes, hbytes]
      simp only [List.append_assoc]
    have hstop : (front ++ (audio ++ tags.apeBytes)).length =
        (front ++ audio ++ tag.header ++ tag.items).length + APE_FOOTER_BYTES := by
      rw [hbytes, ← tag.length_footer, ← List.length_append]
      simp only [List.append_assoc]
    obtain ⟨hmarker, hsize, hflags⟩ := tag.footer_fields
      (front ++ audio ++ tag.header ++ tag.items) (tags.id3v1.elim [] Id3v1Tag.bytes)
    have hheader := tag.header_length
    rw [beforeApe, hstop, hdata]
    dsimp only
    rw [Nat.add_sub_cancel, hmarker, hsize, hflags, ← hheader, if_pos]
    · simp only [List.length_append, ApeTag.size]
      omega
    · refine ⟨?_, rfl⟩
      simp only [List.length_append]
      omega

/-- The bounds of tagged audio are those of the audio. -/
theorem audioBounds_tagged (leading : List Id3v2Tag) {audio : ByteString} {tags : TrailingTags}
    (htagged : ReadsAsTagged audio tags) :
    audioBounds (leadingBytes leading ++ (audio ++ tags.bytes)) =
      ((leadingBytes leading).length, (leadingBytes leading).length + audio.length) := by
  have hstart := skipId3v2_tags [] leading htagged.no_leading
  simp only [List.nil_append, List.length_nil] at hstart
  rw [audioBounds, hstart, TrailingTags.beforeId3v1_eq _ htagged.no_id3v1,
    TrailingTags.beforeApe_eq _ htagged.no_ape]
  simp only [List.length_append]
  congr 1
  omega

end Bounds

end RetroStation.Audio
