import RetroStation.Audio.TaggedDuration

/-! # The duration of whole frames

A frame is a header that states its fields and as many bytes as they give. The scan lands
on every boundary of a stream of such frames.
-/

namespace RetroStation.Audio

open Bytes

/-! ## Frames as bytes -/

/-- The fields of a frame header, from the sync on; `rest` holds the fields after the mode. -/
structure FrameHeader where
  version : Nat
  layer : Nat
  protection : Nat
  bitrateIndex : Nat
  rateIndex : Nat
  padding : Nat
  privateBit : Nat
  mode : Nat
  rest : Nat
  valid : ValidFields version layer bitrateIndex rateIndex
  protection_lt : protection < 2
  padding_lt : padding < 2
  privateBit_lt : privateBit < 2
  mode_lt : mode < 4
  rest_lt : rest < 64

namespace FrameHeader

variable (header : FrameHeader)

/-- The header's 32 bits: eleven of sync, then the fields. -/
def number : Nat :=
  0x7FF * 2 ^ 21 + header.version * 2 ^ 19 + header.layer * 2 ^ 17 + header.protection * 2 ^ 16 +
    header.bitrateIndex * 2 ^ 12 + header.rateIndex * 2 ^ 10 + header.padding * 2 ^ 9 +
    header.privateBit * 2 ^ 8 + header.mode * 2 ^ 6 + header.rest

def bytes : ByteString := ofDigits (toBigEndian 256 HEADER_BYTES header.number)

/-- The frame that the fields describe. -/
def frame : Frame where
  version := header.version
  layer := header.layer
  rateIndex := header.rateIndex
  mode := header.mode
  sampleRate := (sampleRates header.version).getD header.rateIndex 0
  samples := samplesPerFrame header.version header.layer
  length := frameLength header.version header.layer header.bitrateIndex header.rateIndex
    header.padding
  header_lt_length := header.valid.header_lt_frameLength header.padding

end FrameHeader

/-- A whole frame: its header, and contents up to its length. -/
structure MpegFrame where
  header : FrameHeader
  contents : ByteString
  length_eq : HEADER_BYTES + contents.length = header.frame.length

def MpegFrame.bytes (frame : MpegFrame) : ByteString := frame.header.bytes ++ frame.contents

/-- Frames of one version, layer and sample rate. -/
def MpegFrame.SameStream (frame first : MpegFrame) : Prop :=
  frame.header.frame.continues first.header.frame = true

def framesBytes (frames : List MpegFrame) : ByteString := frames.flatMap MpegFrame.bytes

/-- The samples of whole frames. -/
def samplesOf (frames : List MpegFrame) : Nat := (frames.map (·.header.frame.samples)).sum

/-! ## Reading one frame -/

namespace FrameHeader

variable (header : FrameHeader)

theorem number_lt : header.number < 256 ^ 4 := by
  obtain ⟨⟨hversion, -⟩, ⟨hlayer, -⟩, ⟨hbitrate, -⟩, hrate⟩ := header.valid
  have hprotection := header.protection_lt
  have hpadding := header.padding_lt
  have hprivate := header.privateBit_lt
  have hmode := header.mode_lt
  have hrest := header.rest_lt
  unfold number
  omega

/-- The fields read back from the header's bits. -/
theorem number_fields :
    header.number >>> 21 = 0x7FF ∧ header.number >>> 19 &&& 0b11 = header.version ∧
      header.number >>> 17 &&& 0b11 = header.layer ∧
      header.number >>> 12 &&& 0b1111 = header.bitrateIndex ∧
      header.number >>> 10 &&& 0b11 = header.rateIndex ∧
      header.number >>> 9 &&& 1 = header.padding ∧ header.number >>> 6 &&& 0b11 = header.mode := by
  obtain ⟨⟨hversion, -⟩, ⟨hlayer, -⟩, ⟨hbitrate, -⟩, hrate⟩ := header.valid
  have hprotection := header.protection_lt
  have hpadding := header.padding_lt
  have hprivate := header.privateBit_lt
  have hmode := header.mode_lt
  have hrest := header.rest_lt
  have hone (value : Nat) : value &&& 1 = value % 2 ^ 1 := Nat.and_two_pow_sub_one_eq_mod value 1
  have htwo (value : Nat) : value &&& 0b11 = value % 2 ^ 2 :=
    Nat.and_two_pow_sub_one_eq_mod value 2
  have hfour (value : Nat) : value &&& 0b1111 = value % 2 ^ 4 :=
    Nat.and_two_pow_sub_one_eq_mod value 4
  simp only [hone, htwo, hfour, Nat.shiftRight_eq_div_pow, number]
  omega

@[simp] theorem length_bytes : header.bytes.length = HEADER_BYTES := by
  simp [bytes]

/-- The header is parsed where it stands. -/
theorem parseFrame_bytes (front rest : ByteString) :
    parseFrame (front ++ (header.bytes ++ rest)) front.length = some header.frame := by
  have hread : slice (front ++ (header.bytes ++ rest)) front.length
      (front.length + HEADER_BYTES) = header.bytes := by
    rw [slice_append_at, ← header.length_bytes, List.take_left]
  have hnumber : bigEndian header.bytes = header.number := bigEndian_toBigEndian header.number_lt
  have hlong : ¬ front.length + HEADER_BYTES > (front ++ (header.bytes ++ rest)).length := by
    simp only [List.length_append, header.length_bytes]
    omega
  obtain ⟨hsync, hversion, hlayer, hbitrate, hrate, hpadding, hmode⟩ := header.number_fields
  obtain ⟨⟨-, hmpeg⟩, ⟨-, hknown⟩, ⟨hfixed, hnotFree⟩, hsampled⟩ := header.valid
  unfold parseFrame
  rw [if_neg hlong]
  simp only [hread, hnumber, hsync, hversion, hlayer, hbitrate, hrate, hpadding, hmode]
  rw [dif_neg (by simp [hmpeg, hknown]), dif_neg (by omega)]
  rfl

end FrameHeader

theorem FrameHeader.bytes_eq (header : FrameHeader) :
    ∃ rest, header.bytes = 0xFF :: rest := by
  have hlt := header.number_lt
  have hsync := header.number_fields.1
  have hfirst : header.number / 256 / 256 / 256 % 256 = 255 := by
    rw [Nat.shiftRight_eq_div_pow] at hsync
    omega
  simp only [bytes, HEADER_BYTES, toBigEndian, ofDigits, List.nil_append, List.map_append,
    List.map_cons, hfirst]
  exact ⟨_, rfl⟩

namespace MpegFrame

variable (frame : MpegFrame)

@[simp] theorem length_bytes : frame.bytes.length = frame.header.frame.length := by
  rw [bytes, List.length_append, frame.header.length_bytes, frame.length_eq]

/-- A frame is parsed where it stands, even if it is cut after its header. -/
theorem parseFrame_take (front rest : ByteString) {kept : Nat} (hkept : HEADER_BYTES ≤ kept) :
    parseFrame (front ++ (frame.bytes.take kept ++ rest)) front.length =
      some frame.header.frame := by
  have htake : frame.bytes.take kept =
      frame.header.bytes ++ frame.contents.take (kept - HEADER_BYTES) := by
    rw [bytes, List.take_append, frame.header.length_bytes,
      List.take_of_length_le (frame.header.length_bytes.trans_le hkept)]
  rw [htake, List.append_assoc]
  exact frame.header.parseFrame_bytes front _

theorem parseFrame_bytes (front rest : ByteString) :
    parseFrame (front ++ (frame.bytes ++ rest)) front.length = some frame.header.frame := by
  have htake := frame.parseFrame_take front rest
    (frame.header.frame.header_lt_length.le.trans_eq frame.length_bytes.symm)
  rwa [List.take_length] at htake

end MpegFrame

/-! ## The scan over whole frames -/

section Scan

variable {first : MpegFrame}

/-- The scan passes a list of whole frames, and counts each. -/
theorem totalSamples_frames (front : ByteString) {frames : List MpegFrame}
    (hstream : ∀ frame ∈ frames, frame.SameStream first) (rest : ByteString)
    {stop : Nat} (hstop : (front ++ framesBytes frames).length ≤ stop) (budget samples : Nat) :
    totalSamples (front ++ (framesBytes frames ++ rest)) stop first.header.frame front.length
        budget samples =
      totalSamples (front ++ (framesBytes frames ++ rest)) stop first.header.frame
        (front ++ framesBytes frames).length budget
        (samples + samplesOf frames) := by
  induction frames generalizing front samples with
  | nil => simp [framesBytes, samplesOf]
  | cons frame frames ih =>
    have hsame : frame.header.frame.continues first.header.frame = true :=
      hstream frame List.mem_cons_self
    have hlong := frame.header.frame.header_lt_length
    have hdata : front ++ (framesBytes (frame :: frames) ++ rest) =
        front ++ (frame.bytes ++ (framesBytes frames ++ rest)) := by
      simp only [framesBytes, List.flatMap_cons, List.append_assoc]
    have hframe : (parseFrame (front ++ (frame.bytes ++ (framesBytes frames ++ rest)))
        front.length).filter (·.continues first.header.frame) = some frame.header.frame := by
      rw [frame.parseFrame_bytes, Option.filter_some, if_pos hsame]
    have hlength : front.length + frame.header.frame.length = (front ++ frame.bytes).length := by
      rw [List.length_append, frame.length_bytes]
    have hends : (front ++ frame.bytes ++ framesBytes frames).length ≤ stop := by
      rw [List.append_assoc]
      exact hstop
    have hwithin : (front ++ frame.bytes).length ≤ stop := by
      rw [List.length_append] at hends
      omega
    rw [hdata, totalSamples_frame budget samples (by omega) hframe, if_neg (by omega), hlength,
      ← List.append_assoc, ih (front ++ frame.bytes)
        (fun other hother => hstream other (List.mem_cons_of_mem _ hother)) hends]
    simp only [framesBytes, samplesOf, List.flatMap_cons, List.map_cons, List.sum_cons,
      List.append_assoc, Nat.add_assoc]

/-- A search among candidates that are no frames costs at most one unit each. -/
theorem searchSync_none {data : ByteString} {start : Nat} (last stop : Nat)
    (expected : Option Frame) (hnone : ∀ pos, start ≤ pos → parseFrame data pos = none)
    (budget : Nat) :
    ∃ left, searchSync data last stop expected budget start = (none, left) ∧
      budget ≤ left + (last - start) := by
  induction budget generalizing start with
  | zero => exact ⟨0, rfl, Nat.zero_le _⟩
  | succ remaining ih =>
    unfold searchSync
    cases hfound : findSync data start last with
    | none => exact ⟨remaining + 1, rfl, Nat.le_add_right _ _⟩
    | some candidate =>
      have hge := findSync_ge hfound
      have hlt := findSync_lt hfound
      have hpair : framePairAt data candidate stop expected = none := by
        rw [framePairAt, hnone candidate hge]
      obtain ⟨left, hleft, hspent⟩ :=
        ih fun pos (hpos : candidate + 1 ≤ pos) => hnone pos (by omega)
      refine ⟨left, ?_, by omega⟩
      simp only [hpair, Option.isSome_none, Bool.false_eq_true, if_false, hleft]

/-- A final frame cut short ends the scan, and is not counted. -/
theorem totalSamples_cut (front : ByteString) {last : MpegFrame} (hlast : last.SameStream first)
    {kept : Nat} (hkept : kept < last.bytes.length) {budget : Nat} (hbudget : 4 ≤ budget)
    (samples : Nat) :
    totalSamples (front ++ last.bytes.take kept) (front ++ last.bytes.take kept).length
      first.header.frame front.length budget samples = some samples := by
  have hlength : (front ++ last.bytes.take kept).length = front.length + kept := by
    rw [List.length_append, List.length_take, Nat.min_eq_left hkept.le]
  by_cases hheader : HEADER_BYTES ≤ kept
  · have hparsed := last.parseFrame_take front [] hheader
    rw [List.append_nil] at hparsed
    have hframe : (parseFrame (front ++ last.bytes.take kept) front.length).filter
        (·.continues first.header.frame) = some last.header.frame := by
      rw [hparsed, Option.filter_some]
      exact if_pos hlast
    rw [last.length_bytes] at hkept
    have hpos : 0 < HEADER_BYTES := by decide
    rw [totalSamples_frame budget samples (by omega) hframe, if_pos (by omega)]
  · have hshort : ∀ pos, front.length ≤ pos →
        parseFrame (front ++ last.bytes.take kept) pos = none :=
      fun pos hpos => parseFrame_short (by omega)
    by_cases hdone : (front ++ last.bytes.take kept).length ≤ front.length
    · rw [totalSamples_done budget samples hdone]
    · obtain ⟨left, hsync, hleft⟩ := searchSync_none
        (min (front ++ last.bytes.take kept).length (front.length + 1 + RESYNC_WINDOW))
        (front ++ last.bytes.take kept).length (some first.header.frame)
        (fun pos (hpos : front.length + 1 ≤ pos) => hshort pos (by omega)) budget
      have hheaderBytes : HEADER_BYTES = 4 := rfl
      rw [totalSamples_resync budget samples (by omega) (by rw [hshort _ le_rfl]; rfl), sync, hsync]
      exact if_neg (by omega)

/-- The first frame is found where it stands, for one unit of the budget. -/
theorem sync_first {second : MpegFrame} (hsame : second.SameStream first) (rest : ByteString)
    {stop window : Nat} (hstop : (first.bytes ++ second.bytes).length ≤ stop)
    (hwindow : 0 < window) (budget : Nat) :
    sync (first.bytes ++ (second.bytes ++ rest)) 0 stop window none (budget + 1) =
      (some 0, budget) := by
  obtain ⟨tail, htail⟩ := first.header.bytes_eq
  have hfirst := first.parseFrame_bytes [] (second.bytes ++ rest)
  have hsecond := second.parseFrame_bytes first.bytes rest
  have hlong := second.header.frame.header_lt_length
  rw [List.length_append, first.length_bytes, second.length_bytes] at hstop
  rw [List.nil_append, List.length_nil] at hfirst
  rw [first.length_bytes] at hsecond
  have hfound : findSync (first.bytes ++ (second.bytes ++ rest)) 0 (min stop (0 + window)) =
      some 0 := by
    have hlast : ∃ last, min stop (0 + window) = last + 1 :=
      Nat.exists_eq_add_one_of_ne_zero (by omega)
    obtain ⟨last, hlast⟩ := hlast
    rw [findSync, slice_zero, hlast, MpegFrame.bytes, htail]
    rfl
  have hpair : framePairAt (first.bytes ++ (second.bytes ++ rest)) 0 stop none =
      some first.header.frame := by
    have hnext : ¬ first.header.frame.length = stop := by omega
    have hmore : first.header.frame.length < stop := by omega
    have hcontinues : second.header.frame.continues first.header.frame = true := hsame
    rw [framePairAt, hfirst]
    simp only [Option.any_none, Bool.false_eq_true, if_false, Nat.zero_add, if_neg hnext,
      if_pos hmore, hsecond, hcontinues, Bool.not_true]
  rw [sync, searchSync, hfound]
  simp only [hpair, Option.isSome_some, if_true]

end Scan

/-! ## The duration -/

theorem readsWithin_nil (audio : ByteString) : ReadsWithin audio [] where
  no_header pos _ hlast := by
    rw [List.append_nil]
    exact parseFrame_short hlast
  length_header pos frame _ _ := by rw [List.append_nil]

/-- The audio of whole frames and a last one cut short. -/
def streamBytes (frames : List MpegFrame) (last : MpegFrame) (kept : Nat) : ByteString :=
  framesBytes frames ++ last.bytes.take kept

theorem FrameHeader.samples_pos (header : FrameHeader) : 0 < header.frame.samples := by
  simp only [frame, samplesPerFrame]
  split_ifs <;> decide

section Duration

variable {first second : MpegFrame} {more : List MpegFrame} {last : MpegFrame} {kept : Nat}

/-- Every whole frame is counted, and the last one is not. -/
theorem totalSamples_stream (hstream : ∀ frame ∈ second :: more, frame.SameStream first)
    (hlast : last.SameStream first) (hkept : kept < last.bytes.length) {budget : Nat}
    (hbudget : 4 ≤ budget) :
    totalSamples (streamBytes (first :: second :: more) last kept)
        (streamBytes (first :: second :: more) last kept).length first.header.frame 0 budget 0 =
      some (samplesOf (first :: second :: more)) := by
  have hall : ∀ frame ∈ first :: second :: more, frame.SameStream first := by
    intro frame hframe
    rcases List.mem_cons.mp hframe with rfl | hframe
    · simp [MpegFrame.SameStream, Frame.continues]
    · exact hstream frame hframe
  have hfits : ([] ++ framesBytes (first :: second :: more)).length ≤
      (streamBytes (first :: second :: more) last kept).length := by
    rw [List.nil_append]
    exact (List.prefix_append _ _).length_le
  have hframes := totalSamples_frames [] hall (last.bytes.take kept) hfits budget 0
  rw [List.nil_append, List.length_nil, List.nil_append, Nat.zero_add] at hframes
  rw [streamBytes] at hframes ⊢
  rw [hframes, totalSamples_cut _ hlast hkept hbudget]

theorem streamBytes_eq : streamBytes (first :: second :: more) last kept =
    first.bytes ++ (second.bytes ++ (framesBytes more ++ last.bytes.take kept)) := by
  simp only [streamBytes, framesBytes, List.flatMap_cons, List.append_assoc]

theorem sync_stream (more : List MpegFrame) (last : MpegFrame) (kept : Nat)
    (hsame : second.SameStream first) (budget : Nat) :
    sync (streamBytes (first :: second :: more) last kept) 0
        (streamBytes (first :: second :: more) last kept).length FIRST_SYNC_WINDOW none
        (budget + 1) = (some 0, budget) := by
  have hstop : (first.bytes ++ second.bytes).length ≤
      (streamBytes (first :: second :: more) last kept).length := by
    rw [streamBytes_eq, ← List.append_assoc]
    exact (List.prefix_append _ _).length_le
  have hfound := sync_first hsame (framesBytes more ++ last.bytes.take kept) hstop
    (by decide : 0 < FIRST_SYNC_WINDOW) budget
  rwa [← streamBytes_eq] at hfound

/-- The duration from what each part of the scan finds. -/
theorem durationWithin_of_first {data : ByteString} {start stop pos left samples : Nat}
    {found : Frame}
    (hsync : sync data start stop FIRST_SYNC_WINDOW none SYNC_BUDGET = (some pos, left))
    (hfound : parseFrame data pos = some found)
    (hlength : carriesLengthHeader data pos found = false)
    (htotal : totalSamples data stop found pos left 0 = some samples) (hcounted : ¬ samples = 0) :
    durationWithin data start stop = some ((samples : Rat) / found.sampleRate) := by
  simp only [durationWithin, hsync, hfound, hlength, htotal, hcounted, Bool.false_eq_true, if_false]

theorem durationWithin_stream (hstream : ∀ frame ∈ second :: more, frame.SameStream first)
    (hlast : last.SameStream first) (hkept : kept < last.bytes.length)
    (hlength : carriesLengthHeader (streamBytes (first :: second :: more) last kept) 0
      first.header.frame = false) :
    durationWithin (streamBytes (first :: second :: more) last kept) 0
        (streamBytes (first :: second :: more) last kept).length =
      some ((samplesOf (first :: second :: more) : Rat) / first.header.frame.sampleRate) := by
  obtain ⟨left, hbudget, hleft⟩ : ∃ left, SYNC_BUDGET = left + 1 ∧ 4 ≤ left :=
    ⟨19999, rfl, by decide⟩
  have hfirst := first.parseFrame_bytes [] (second.bytes ++ (framesBytes more ++
    last.bytes.take kept))
  rw [List.nil_append, List.length_nil, ← streamBytes_eq] at hfirst
  have hcounted : ¬ samplesOf (first :: second :: more) = 0 := by
    have hpos := first.header.samples_pos
    rw [samplesOf, List.map_cons, List.sum_cons]
    omega
  have hsync := sync_stream more last kept (hstream second List.mem_cons_self) left
  rw [← hbudget] at hsync
  exact durationWithin_of_first hsync hfirst hlength
    (totalSamples_stream hstream hlast hkept hleft) hcounted

/-- Two or more whole frames of one stream and a last one cut short, behind any leading tags:
the duration is that of the whole frames, as long as the end does not read as a trailing tag and
the first frame as one with a length header. -/
theorem headerlessDuration_frames (leading : List Id3v2Tag)
    (hstream : ∀ frame ∈ second :: more, frame.SameStream first) (hlast : last.SameStream first)
    (hkept : kept < last.bytes.length)
    (hid3v1 : ¬ ReadsAsId3v1 (streamBytes (first :: second :: more) last kept))
    (hape : ¬ ReadsAsApe (streamBytes (first :: second :: more) last kept))
    (hlength : carriesLengthHeader (streamBytes (first :: second :: more) last kept) 0
      first.header.frame = false) :
    headerlessDuration (leadingBytes leading ++ streamBytes (first :: second :: more) last kept) =
      some ((samplesOf (first :: second :: more) : Rat) / first.header.frame.sampleRate) := by
  obtain ⟨tail, htail⟩ := first.header.bytes_eq
  -- The frames themselves read as no tag at either end.
  have hplain : ReadsAsTagged (streamBytes (first :: second :: more) last kept) {} := by
    refine ⟨?_, fun _ => ?_, fun _ => hape⟩
    · simp [streamBytes, framesBytes, MpegFrame.bytes, htail, ID3V2_MARKER]
    · simpa [TrailingTags.apeBytes] using hid3v1
  have hbounds := audioBounds_tagged leading hplain
  have hagrees := (readsWithin_nil (streamBytes (first :: second :: more) last kept)).agrees
    (leadingBytes leading)
  have hnone : ({} : TrailingTags).bytes = [] := rfl
  simp only [hnone, List.append_nil] at hbounds hagrees
  rw [headerlessDuration, hbounds]
  dsimp only
  rw [hagrees.durationWithin_eq, durationWithin_stream hstream hlast hkept hlength]

end Duration

/-- An MPEG 1 Layer III header at 32 kbit/s and 48 kHz: frames of 96 bytes. -/
def silentHeader : FrameHeader where
  version := MPEG1
  layer := LAYER3
  protection := 1
  bitrateIndex := 1
  rateIndex := 1
  padding := 0
  privateBit := 0
  mode := 0
  rest := 0
  valid := by constructor <;> decide
  protection_lt := by decide
  padding_lt := by decide
  privateBit_lt := by decide
  mode_lt := by decide
  rest_lt := by decide

def silentFrame : MpegFrame where
  header := silentHeader
  contents := List.replicate 92 0
  length_eq := by decide

/-- Two frames, and the first bytes of a third. -/
theorem headerlessDuration_frames_silent :
    headerlessDuration (leadingBytes [] ++ streamBytes [silentFrame, silentFrame] silentFrame 2) =
      some ((samplesOf [silentFrame, silentFrame] : Rat) /
        silentFrame.header.frame.sampleRate) := by
  have hsame : silentFrame.SameStream silentFrame := rfl
  obtain ⟨hkept, hid3v1, hape, hlength⟩ : 2 < silentFrame.bytes.length ∧
      ¬ ReadsAsId3v1 (streamBytes [silentFrame, silentFrame] silentFrame 2) ∧
      ¬ ReadsAsApe (streamBytes [silentFrame, silentFrame] silentFrame 2) ∧
      carriesLengthHeader (streamBytes [silentFrame, silentFrame] silentFrame 2) 0
        silentFrame.header.frame = false := by
    decide +kernel
  exact headerlessDuration_frames []
    (fun frame hframe => by rw [List.mem_singleton.mp hframe]; exact hsame)
    hsame hkept hid3v1 hape hlength

/-- A frame whose contents read as an ID3v1 tag, 128 bytes from the end of the next frame. -/
def taggedFrame : MpegFrame where
  header := silentHeader
  contents := List.replicate 60 0 ++ ID3V1_MARKER ++ List.replicate 29 0
  length_eq := by decide

/-- Those two frames have no duration. -/
theorem headerlessDuration_frames_tagged : ¬ ∀ (leading : List Id3v2Tag)
    (first second last : MpegFrame) (kept : Nat), second.SameStream first →
      last.SameStream first → kept < last.bytes.length →
      carriesLengthHeader (streamBytes [first, second] last kept) 0 first.header.frame = false →
      headerlessDuration (leadingBytes leading ++ streamBytes [first, second] last kept) =
        some ((samplesOf [first, second] : Rat) / first.header.frame.sampleRate) := by
  intro hexact
  obtain ⟨hkept, hlength, hnone⟩ : 0 < silentFrame.bytes.length ∧
      carriesLengthHeader (streamBytes [taggedFrame, silentFrame] silentFrame 0) 0
        taggedFrame.header.frame = false ∧
      headerlessDuration (leadingBytes [] ++ streamBytes [taggedFrame, silentFrame] silentFrame 0) =
        none := by
    decide +kernel
  have hsome := hexact [] taggedFrame silentFrame silentFrame 0 rfl rfl hkept hlength
  rw [hnone] at hsome
  cases hsome

end RetroStation.Audio
