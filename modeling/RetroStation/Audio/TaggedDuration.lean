import RetroStation.Audio.AudioHash
import RetroStation.Audio.TrailingTags

/-! # The duration of tagged audio

The scan of a tagged file runs as the scan of its audio, at an offset, as long as no header
is completed by the bytes past the audio's end.
-/

namespace RetroStation.Audio

open Bytes

/-- No frame header of the last three bytes is completed by what follows the audio, and no
length header either. -/
structure ReadsWithin (audio rest : ByteString) : Prop where
  no_header : ∀ pos, pos < audio.length → audio.length < pos + HEADER_BYTES →
    parseFrame (audio ++ rest) pos = none
  length_header : ∀ pos frame, pos < audio.length → parseFrame audio pos = some frame →
    carriesLengthHeader (audio ++ rest) pos frame = carriesLengthHeader audio pos frame

/-! ## Reading at an offset -/

/-- A file answers at an offset as the audio does. -/
structure Agrees (data audio : ByteString) (offset : Nat) : Prop where
  parseFrame_eq : ∀ pos, pos < audio.length → parseFrame data (offset + pos) = parseFrame audio pos
  findSync_eq : ∀ start stop, stop ≤ audio.length →
    findSync data (offset + start) (offset + stop) =
      (findSync audio start stop).map (offset + ·)
  lengthHeader_eq : ∀ pos frame, pos < audio.length → parseFrame audio pos = some frame →
    carriesLengthHeader data (offset + pos) frame = carriesLengthHeader audio pos frame

theorem parseFrame_append_add (front rest : ByteString) (pos : Nat) :
    parseFrame (front ++ rest) (front.length + pos) = parseFrame rest pos := by
  simp only [parseFrame, List.length_append, Nat.add_assoc, slice_append_add, gt_iff_lt,
    Nat.add_lt_add_iff_left]

theorem parseFrame_append {audio : ByteString} {pos : Nat}
    (hfits : pos + HEADER_BYTES ≤ audio.length) (rest : ByteString) :
    parseFrame (audio ++ rest) pos = parseFrame audio pos := by
  have hlong : ¬ pos + HEADER_BYTES > (audio ++ rest).length := by
    rw [List.length_append]
    omega
  simp only [parseFrame, slice_append_of_le hfits, if_neg hlong, if_neg (Nat.not_lt.mpr hfits)]

theorem parseFrame_short {data : ByteString} {pos : Nat}
    (hshort : data.length < pos + HEADER_BYTES) : parseFrame data pos = none :=
  if_pos hshort

theorem carriesLengthHeader_append_add (front rest : ByteString) (pos : Nat) (frame : Frame) :
    carriesLengthHeader (front ++ rest) (front.length + pos) frame =
      carriesLengthHeader rest pos frame := by
  simp only [carriesLengthHeader, Nat.add_assoc, slice_append_add]

theorem findSync_append_add (front rest : ByteString) (start stop : Nat) :
    findSync (front ++ rest) (front.length + start) (front.length + stop) =
      (findSync rest start stop).map (front.length + ·) := by
  simp only [findSync, slice_append_add, Option.map_map, Function.comp_def, Nat.add_assoc]

/-- A length header within the audio is read from the audio alone. -/
theorem carriesLengthHeader_append {audio : ByteString} {pos : Nat}
    (hfits : pos + 44 ≤ audio.length) (rest : ByteString) (frame : Frame) :
    carriesLengthHeader (audio ++ rest) pos frame = carriesLengthHeader audio pos frame := by
  unfold carriesLengthHeader
  dsimp only
  rw [slice_append_of_le (by split_ifs <;> omega), slice_append_of_le (by split_ifs <;> omega),
    slice_append_of_le (by simp only [VBRI_OFFSET]; omega)]

/-- A file agrees with its audio where nothing past the end completes a header. -/
theorem ReadsWithin.agrees {audio rest : ByteString} (hwithin : ReadsWithin audio rest)
    (front : ByteString) : Agrees (front ++ (audio ++ rest)) audio front.length where
  parseFrame_eq pos hpos := by
    rw [parseFrame_append_add]
    by_cases hfits : pos + HEADER_BYTES ≤ audio.length
    · exact parseFrame_append hfits rest
    · rw [Nat.not_le] at hfits
      rw [hwithin.no_header pos hpos hfits, parseFrame_short hfits]
  findSync_eq start stop hstop := by
    rw [findSync_append_add]
    simp only [findSync, slice_append_of_le hstop]
  lengthHeader_eq pos frame hpos hframe := by
    rw [carriesLengthHeader_append_add]
    exact hwithin.length_header pos frame hpos hframe

/-! ## The scan at an offset -/

namespace Agrees

variable {data audio : ByteString} {offset : Nat} (hagrees : Agrees data audio offset)
include hagrees

theorem framePairAt_eq (first : Option Frame) {pos stop : Nat} (hpos : pos < audio.length)
    (hstop : stop ≤ audio.length) :
    framePairAt data (offset + pos) (offset + stop) first = framePairAt audio pos stop first := by
  unfold framePairAt
  rw [hagrees.parseFrame_eq pos hpos]
  cases parseFrame audio pos with
  | none => rfl
  | some frame =>
    have hafter : (if offset + pos + frame.length < offset + stop
        then parseFrame data (offset + pos + frame.length) else none) =
          if pos + frame.length < stop then parseFrame audio (pos + frame.length) else none := by
      by_cases hmore : pos + frame.length < stop
      · rw [if_pos hmore, if_pos (by omega), Nat.add_assoc,
          hagrees.parseFrame_eq _ (hmore.trans_le hstop)]
      · rw [if_neg hmore, if_neg (by omega)]
    dsimp only
    rw [hafter]
    simp only [Nat.add_assoc, Nat.add_left_cancel_iff]

theorem searchSync_eq (first : Option Frame) {last stop : Nat} (hlast : last ≤ audio.length)
    (hstop : stop ≤ audio.length) (budget start : Nat) :
    searchSync data (offset + last) (offset + stop) first budget (offset + start) =
      ((searchSync audio last stop first budget start).1.map (offset + ·),
        (searchSync audio last stop first budget start).2) := by
  induction budget generalizing start with
  | zero => rfl
  | succ remaining ih =>
    unfold searchSync
    rw [hagrees.findSync_eq start last hlast]
    cases hfound : findSync audio start last with
    | none => rfl
    | some candidate =>
      have hcandidate := (findSync_lt hfound).trans_le hlast
      simp only [Option.map_some, hagrees.framePairAt_eq first hcandidate hstop]
      split
      · rfl
      · exact ih (candidate + 1)

theorem sync_eq (first : Option Frame) {stop : Nat} (hstop : stop ≤ audio.length)
    (start window budget : Nat) :
    sync data (offset + start) (offset + stop) window first budget =
      ((sync audio start stop window first budget).1.map (offset + ·),
        (sync audio start stop window first budget).2) := by
  have hlast : min (offset + stop) (offset + start + window) =
      offset + min stop (start + window) := by omega
  rw [sync, hlast]
  exact hagrees.searchSync_eq first ((Nat.min_le_left _ _).trans hstop) hstop budget start

/-- Where no frame of the stream is parsed, both resync alike. -/
theorem totalSamples_resync_eq (first : Frame) {stop pos : Nat} (hstop : stop ≤ audio.length)
    (hmore : pos < stop) (hnone : (parseFrame audio pos).filter (·.continues first) = none)
    {budget left : Nat} {found : Option Nat}
    (hsync : sync audio (pos + 1) stop RESYNC_WINDOW (some first) budget = (found, left))
    (samples : Nat) :
    totalSamples data (offset + stop) first (offset + pos) budget samples =
      match found with
      | none => if left = 0 then none else some samples
      | some resynced =>
        totalSamples data (offset + stop) first (offset + resynced) left samples := by
  have hshift := hagrees.sync_eq (some first) hstop (pos + 1) RESYNC_WINDOW budget
  rw [hsync] at hshift
  rw [totalSamples_resync _ _ (by omega), Nat.add_assoc, hshift]
  · cases found <;> rfl
  · rwa [hagrees.parseFrame_eq pos (hmore.trans_le hstop)]

theorem totalSamples_eq (first : Frame) {stop : Nat} (hstop : stop ≤ audio.length)
    (pos budget samples : Nat) :
    totalSamples data (offset + stop) first (offset + pos) budget samples =
      totalSamples audio stop first pos budget samples := by
  fun_induction totalSamples audio stop first pos budget samples with
  | case1 pos budget samples hmore hnone hsync =>
    rw [hagrees.totalSamples_resync_eq first hstop hmore hnone hsync]
    rfl
  | case2 pos budget samples hmore hnone left hsync hleft =>
    rw [hagrees.totalSamples_resync_eq first hstop hmore hnone hsync]
    exact if_neg hleft
  | case3 pos budget samples hmore hnone resynced left hsync ih =>
    rw [hagrees.totalSamples_resync_eq first hstop hmore hnone hsync]
    exact ih
  | case4 pos budget samples hmore frame hframe hcut =>
    rw [← hagrees.parseFrame_eq pos (hmore.trans_le hstop)] at hframe
    rw [totalSamples_frame _ _ (by omega) hframe, if_pos (by omega)]
  | case5 pos budget samples hmore frame hframe hwhole ih =>
    rw [← hagrees.parseFrame_eq pos (hmore.trans_le hstop)] at hframe
    rw [totalSamples_frame _ _ (by omega) hframe, if_neg (by omega), Nat.add_assoc]
    exact ih
  | case6 pos budget samples hdone =>
    rw [totalSamples_done _ _ (by omega)]

/-- The scan gives the duration of the audio. -/
theorem durationWithin_eq :
    durationWithin data offset (offset + audio.length) = durationWithin audio 0 audio.length := by
  have hsync := hagrees.sync_eq none le_rfl 0 FIRST_SYNC_WINDOW SYNC_BUDGET
  rw [Nat.add_zero] at hsync
  unfold durationWithin
  rw [hsync]
  cases hfound : sync audio 0 audio.length FIRST_SYNC_WINDOW none SYNC_BUDGET with
  | mk found left =>
    cases found with
    | none => rfl
    | some pos =>
      have hpos : pos < audio.length := by
        have hlt := searchSync_lt (congrArg Prod.fst hfound)
        omega
      simp only [Option.map_some, hagrees.parseFrame_eq pos hpos]
      cases hframe : parseFrame audio pos with
      | none => rfl
      | some first =>
        simp only [hagrees.lengthHeader_eq pos first hpos hframe,
          hagrees.totalSamples_eq first le_rfl]

end Agrees

/-- Tags that read as what they are do not change the duration, where nothing past the audio's
end completes a header. -/
theorem headerlessDuration_tagged (leading : List Id3v2Tag) {audio : ByteString}
    {tags : TrailingTags} (haudio : ReadsAsTagged audio {}) (htagged : ReadsAsTagged audio tags)
    (hwithin : ReadsWithin audio tags.bytes) :
    headerlessDuration (leadingBytes leading ++ (audio ++ tags.bytes)) =
      headerlessDuration audio := by
  have hbare := audioBounds_tagged [] haudio
  simp only [leadingBytes, List.flatMap_nil, List.nil_append, TrailingTags.bytes,
    TrailingTags.apeBytes, Option.elim, List.append_nil, List.length_nil, Nat.zero_add] at hbare
  simp only [headerlessDuration, hbare, audioBounds_tagged leading htagged]
  exact (hwithin.agrees (leadingBytes leading)).durationWithin_eq

/-! ## Tags and the duration -/

/-- Tags leave the duration, and every header is read from the audio alone, where the audio and
the tags read as what they are and no header is completed past the audio's end. -/
theorem tags_keep_duration (leading : List Id3v2Tag) {audio : ByteString} {tags : TrailingTags}
    (haudio : ReadsAsTagged audio {}) (htagged : ReadsAsTagged audio tags)
    (hwithin : ReadsWithin audio tags.bytes) :
    let data := leadingBytes leading ++ (audio ++ tags.bytes)
    headerlessDuration data = headerlessDuration audio ∧
      ∀ pos, pos < audio.length →
        parseFrame data ((leadingBytes leading).length + pos) = parseFrame audio pos ∧
          ∀ frame, parseFrame audio pos = some frame →
            carriesLengthHeader data ((leadingBytes leading).length + pos) frame =
              carriesLengthHeader audio pos frame := by
  have hagrees := hwithin.agrees (leadingBytes leading)
  refine ⟨headerlessDuration_tagged leading haudio htagged hwithin, fun pos hpos => ?_⟩
  exact ⟨hagrees.parseFrame_eq pos hpos, fun frame => hagrees.lengthHeader_eq pos frame hpos⟩

def blankId3v1 : Id3v1Tag := ⟨List.replicate 125 0, List.length_replicate⟩

/-- One frame between an empty ID3v2 tag and a blank ID3v1 tag. -/
theorem tags_keep_duration_blank :
    headerlessDuration (leadingBytes [⟨3, 0, 0, [], [], by decide, rfl⟩] ++
        (shortFrame ++ ({ id3v1 := some blankId3v1 } : TrailingTags).bytes)) =
      headerlessDuration shortFrame := by
  have hplain : ReadsAsTagged shortFrame {} :=
    ⟨by decide, fun _ => by decide, fun _ => by decide⟩
  have htagged : ReadsAsTagged shortFrame { id3v1 := some blankId3v1 } :=
    ⟨by decide, fun hnone => (Option.some_ne_none _ hnone).elim, fun _ => by decide⟩
  have hzeros : ∀ pos : Fin 96, pos ≠ 0 → parseFrame
      (shortFrame ++ ({ id3v1 := some blankId3v1 } : TrailingTags).bytes) pos = none := by
    decide +kernel
  have hwithin : ReadsWithin shortFrame ({ id3v1 := some blankId3v1 } : TrailingTags).bytes := by
    constructor
    · intro pos hpos hlast
      have hlength : shortFrame.length = 96 := rfl
      rw [hlength, HEADER_BYTES] at hlast
      exact hzeros ⟨pos, hpos⟩ (Fin.ne_of_val_ne (by dsimp only; omega))
    · intro pos frame hpos hframe
      have hfits : pos + HEADER_BYTES ≤ shortFrame.length := by
        by_contra hshort
        rw [parseFrame_short (Nat.not_le.mp hshort)] at hframe
        cases hframe
      have hfirst : pos = 0 := by
        by_contra hlater
        have hnone := hzeros ⟨pos, hpos⟩ (Fin.ne_of_val_ne hlater)
        rw [parseFrame_append hfits, hframe] at hnone
        cases hnone
      rw [hfirst]
      exact carriesLengthHeader_append (by decide) _ frame
  exact (tags_keep_duration _ hplain htagged hwithin).1

/-- An APEv2 tag of one item, whose value reads as an ID3v1 tag 128 bytes from the end. -/
def titleTag : ApeTag where
  header := APE_MARKER ++ littleBytes 2000 ++ littleBytes 142 ++ littleBytes 1 ++
    littleBytes 0xA0000000 ++ List.replicate 8 0
  items := littleBytes 96 ++ littleBytes 0 ++ [0x54, 0x69, 0x74, 0x6C, 0x65, 0x00] ++
    ID3V1_MARKER ++ List.replicate 93 0x61
  version := littleBytes 2000
  count := littleBytes 1
  flags := APE_HAS_HEADER
  reserved := List.replicate 8 0
  version_length := length_littleBytes 2000
  count_length := length_littleBytes 1
  flags_fit := by decide
  reserved_length := List.length_replicate
  items_fit := by decide
  header_length := by decide

/-- With it, a frame has no duration. -/
theorem tags_keep_duration_title : ¬ ∀ (leading : List Id3v2Tag) (audio : ByteString)
    (tags : TrailingTags), ReadsAsTagged audio {} →
      headerlessDuration (leadingBytes leading ++ (audio ++ tags.bytes)) =
        headerlessDuration audio := by
  intro hkeeps
  have hplain : ReadsAsTagged shortFrame {} :=
    ⟨by decide, fun _ => by decide, fun _ => by decide⟩
  have hsame := hkeeps [] shortFrame { ape := some titleTag } hplain
  revert hsame
  decide +kernel

end RetroStation.Audio
