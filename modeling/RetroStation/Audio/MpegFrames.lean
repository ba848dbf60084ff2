import Mathlib.Data.Rat.Defs
import RetroStation.Audio.Id3

/-! # The duration of an MPEG stream, from its frames

For a stream with no length header the duration is summed frame by frame, past any ID3v2
tags and before a trailing ID3v1 or APEv2 tag. Each search for a frame spends a budget that
the whole scan shares.
-/

namespace RetroStation.Audio

open Bytes

/-! ## Frame headers -/

def V1_L1 : List Nat := [32, 64, 96, 128, 160, 192, 224, 256, 288, 320, 352, 384, 416, 448]
def V1_L2 : List Nat := [32, 48, 56, 64, 80, 96, 112, 128, 160, 192, 224, 256, 320, 384]
def V1_L3 : List Nat := [32, 40, 48, 56, 64, 80, 96, 112, 128, 160, 192, 224, 256, 320]
def V2_L1 : List Nat := [32, 48, 56, 64, 80, 96, 112, 128, 144, 160, 176, 192, 224, 256]
def V2_L23 : List Nat := [8, 16, 24, 32, 40, 48, 56, 64, 80, 96, 112, 128, 144, 160]

def MPEG1 : Nat := 0b11
def MPEG2 : Nat := 0b10
def MPEG25 : Nat := 0b00
def LAYER1 : Nat := 0b11
def LAYER2 : Nat := 0b10
def LAYER3 : Nat := 0b01
def MONO : Nat := 0b11

/-- Bitrates in kbit/s for the bitrate indexes from 1 on. -/
def bitratesKbps (version layer : Nat) : List Nat :=
  if version = MPEG1 then
    if layer = LAYER1 then V1_L1 else if layer = LAYER2 then V1_L2 else V1_L3
  else if layer = LAYER1 then V2_L1 else V2_L23

def sampleRates (version : Nat) : List Nat :=
  if version = MPEG1 then [44100, 48000, 32000]
  else if version = MPEG2 then [22050, 24000, 16000]
  else [11025, 12000, 8000]

def HEADER_BYTES : Nat := 4
def FIRST_SYNC_WINDOW : Nat := 1024 * 1024
def RESYNC_WINDOW : Nat := 8 * 1024
def SYNC_BUDGET : Nat := 20000

def samplesPerFrame (version layer : Nat) : Nat :=
  if layer = LAYER1 then 384
  else if layer = LAYER3 ∧ version ≠ MPEG1 then 576
  else 1152

/-- The values of a header's fields that a frame may have: no reserved version, layer or
sample rate, and a bitrate that is neither free nor bad. -/
structure ValidFields (version layer bitrateIndex rateIndex : Nat) : Prop where
  version_mem : version < 4 ∧ version ≠ 0b01
  layer_mem : layer < 4 ∧ layer ≠ 0b00
  bitrateIndex_mem : bitrateIndex < 15 ∧ bitrateIndex ≠ 0
  rateIndex_lt : rateIndex < 3

/-- The bytes of a frame, its header included. -/
def frameLength (version layer bitrateIndex rateIndex padding : Nat) : Nat :=
  let bitrate := (bitratesKbps version layer).getD (bitrateIndex - 1) 0 * 1000
  let sampleRate := (sampleRates version).getD rateIndex 0
  if layer = LAYER1 then (12 * bitrate / sampleRate + padding) * 4
  else samplesPerFrame version layer / 8 * bitrate / sampleRate + padding

theorem frameLength_table (version layer : Fin 4) (bitrateIndex : Fin 15) (rateIndex : Fin 3)
    (hversion : version ≠ 1) (hlayer : layer ≠ 0) (hbitrate : bitrateIndex ≠ 0) :
    HEADER_BYTES < frameLength version layer bitrateIndex rateIndex 0 := by
  revert version layer bitrateIndex rateIndex
  decide +kernel

/-- Every frame is longer than its header. -/
theorem ValidFields.header_lt_frameLength {version layer bitrateIndex rateIndex : Nat}
    (hvalid : ValidFields version layer bitrateIndex rateIndex) (padding : Nat) :
    HEADER_BYTES < frameLength version layer bitrateIndex rateIndex padding := by
  obtain ⟨⟨hversion, hmpeg⟩, ⟨hlayer, hknown⟩, ⟨hbitrate, hfixed⟩, hrate⟩ := hvalid
  have hunpadded := frameLength_table ⟨version, hversion⟩ ⟨layer, hlayer⟩
    ⟨bitrateIndex, hbitrate⟩ ⟨rateIndex, hrate⟩ (by simpa [Fin.ext_iff] using hmpeg)
    (by simpa [Fin.ext_iff] using hknown) (by simpa [Fin.ext_iff] using hfixed)
  refine hunpadded.trans_le ?_
  unfold frameLength
  dsimp only
  split <;> omega

/-- What passes the checks of a header has valid fields. -/
theorem validFields_of_header {header : Nat}
    (hsync : ¬ (header >>> 21 ≠ 0x7FF ∨ header >>> 19 &&& 0b11 = 0b01 ∨
      header >>> 17 &&& 0b11 = 0b00))
    (hrates : ¬ (header >>> 12 &&& 0b1111 = 0 ∨ header >>> 12 &&& 0b1111 = 0b1111 ∨
      header >>> 10 &&& 0b11 = 0b11)) :
    ValidFields (header >>> 19 &&& 0b11) (header >>> 17 &&& 0b11) (header >>> 12 &&& 0b1111)
      (header >>> 10 &&& 0b11) := by
  have hversion : header >>> 19 &&& 0b11 = header >>> 19 % 2 ^ 2 :=
    Nat.and_two_pow_sub_one_eq_mod _ 2
  have hlayer : header >>> 17 &&& 0b11 = header >>> 17 % 2 ^ 2 :=
    Nat.and_two_pow_sub_one_eq_mod _ 2
  have hbitrate : header >>> 12 &&& 0b1111 = header >>> 12 % 2 ^ 4 :=
    Nat.and_two_pow_sub_one_eq_mod _ 4
  have hrate : header >>> 10 &&& 0b11 = header >>> 10 % 2 ^ 2 :=
    Nat.and_two_pow_sub_one_eq_mod _ 2
  constructor <;> omega

/-- One parsed frame header. -/
structure Frame where
  version : Nat
  layer : Nat
  rateIndex : Nat
  mode : Nat
  sampleRate : Nat
  samples : Nat
  length : Nat
  header_lt_length : HEADER_BYTES < length
  deriving DecidableEq, Repr

/-- Whether this frame belongs to the same stream as the first. -/
def Frame.continues (frame first : Frame) : Bool :=
  (frame.version, frame.layer, frame.rateIndex) = (first.version, first.layer, first.rateIndex)

/-- The frame whose header starts at `pos`, or none when no valid header is there. -/
def parseFrame (data : ByteString) (pos : Nat) : Option Frame :=
  if pos + HEADER_BYTES > data.length then none
  else
    let header := bigEndian (slice data pos (pos + HEADER_BYTES))
    let version := header >>> 19 &&& 0b11
    let layer := header >>> 17 &&& 0b11
    let bitrateIndex := header >>> 12 &&& 0b1111
    let rateIndex := header >>> 10 &&& 0b11
    if hsync : header >>> 21 ≠ 0x7FF ∨ version = 0b01 ∨ layer = 0b00 then none
    else if hrates : bitrateIndex = 0 ∨ bitrateIndex = 0b1111 ∨ rateIndex = 0b11 then none
    else
      let padding := header >>> 9 &&& 1
      some {
        version := version
        layer := layer
        rateIndex := rateIndex
        mode := header >>> 6 &&& 0b11
        sampleRate := (sampleRates version).getD rateIndex 0
        samples := samplesPerFrame version layer
        length := frameLength version layer bitrateIndex rateIndex padding
        header_lt_length := (validFields_of_header hsync hrates).header_lt_frameLength padding }

/-! ## The bounds of the audio -/

def APE_FOOTER_BYTES : Nat := 32
def APE_HAS_HEADER : Nat := 0x80000000
def APE_MARKER : ByteString := [0x41, 0x50, 0x45, 0x54, 0x41, 0x47, 0x45, 0x58]

/-- Past any ID3v2 tags. -/
def skipId3v2 (data : ByteString) (start : Nat) : Nat :=
  if _hmore : slice data start (start + 3) = ID3V2_MARKER ∧
      start + ID3V2_HEADER_SIZE ≤ data.length then
    let size := syncsafe (slice data (start + 6) (start + ID3V2_HEADER_SIZE))
    let footer :=
      if data.getD (start + 5) 0 &&& ID3V2_FOOTER_FLAG ≠ 0 then ID3V2_HEADER_SIZE else 0
    skipId3v2 data (start + (ID3V2_HEADER_SIZE + size + footer))
  else start
  termination_by data.length - start
  decreasing_by
    simp only [ID3V2_HEADER_SIZE] at _hmore ⊢
    omega

/-- Before a trailing ID3v1 tag. -/
def beforeId3v1 (data : ByteString) (start stop : Nat) : Nat :=
  if start + ID3V1_SIZE ≤ stop ∧ slice data (stop - ID3V1_SIZE) (stop - 125) = ID3V1_MARKER
  then stop - ID3V1_SIZE else stop

/-- Before a trailing APEv2 tag. -/
def beforeApe (data : ByteString) (start stop : Nat) : Nat :=
  let footerAt := stop - APE_FOOTER_BYTES
  if start + APE_FOOTER_BYTES ≤ stop ∧ slice data footerAt (footerAt + 8) = APE_MARKER then
    let size := littleEndian (slice data (footerAt + 12) (footerAt + 16))
    let flags := littleEndian (slice data (footerAt + 20) (footerAt + 24))
    let header := if flags &&& APE_HAS_HEADER ≠ 0 then APE_FOOTER_BYTES else 0
    max start (stop - size - header)
  else stop

/-- The range of the audio, past any ID3v2 tags and before ID3v1 and APE tags. -/
def audioBounds (data : ByteString) : Nat × Nat :=
  let start := skipId3v2 data 0
  let stop := beforeApe data start (beforeId3v1 data start data.length)
  (start, min stop data.length)

/-! ## Finding frames -/

/-- The frame at `pos` when it, and the frame after it, are valid and continue the first, if
given. A frame that ends at `stop` needs no successor. -/
def framePairAt (data : ByteString) (pos stop : Nat) (first : Option Frame) : Option Frame :=
  match parseFrame data pos with
  | none => none
  | some frame =>
    if first.any fun first => !frame.continues first then none
    else
      let after := pos + frame.length
      if after = stop then some frame
      else
        match if after < stop then parseFrame data after else none with
        | none => none
        | some successor => if !successor.continues frame then none else some frame

/-- `data.find(b"\xff", start, stop)`. -/
def findSync (data : ByteString) (start stop : Nat) : Option Nat :=
  ((slice data start stop).findIdx? (· = 0xFF)).map (start + ·)

/-- The offset of the first frame pair among the candidates before `last`, or none when there
is none or the budget runs out, and what is left of the budget. -/
def searchSync (data : ByteString) (last stop : Nat) (first : Option Frame) :
    Nat → Nat → Option Nat × Nat
  | 0, _ => (none, 0)
  | remaining + 1, start =>
    match findSync data start last with
    | none => (none, remaining + 1)
    | some candidate =>
      if (framePairAt data candidate stop first).isSome then (some candidate, remaining)
      else searchSync data last stop first remaining (candidate + 1)

/-- Search from `start` over a window, never past `stop`. -/
def sync (data : ByteString) (start stop window : Nat) (first : Option Frame) (budget : Nat) :
    Option Nat × Nat :=
  searchSync data (min stop (start + window)) stop first budget start

theorem findSync_ge {data : ByteString} {start stop candidate : Nat}
    (hfound : findSync data start stop = some candidate) : start ≤ candidate := by
  obtain ⟨index, -, rfl⟩ := Option.map_eq_some_iff.mp hfound
  exact Nat.le_add_right start index

theorem findSync_lt {data : ByteString} {start stop candidate : Nat}
    (hfound : findSync data start stop = some candidate) : candidate < stop := by
  obtain ⟨index, hindex, rfl⟩ := Option.map_eq_some_iff.mp hfound
  have hlt := (List.findIdx?_eq_some_iff_findIdx_eq.mp hindex).1
  rw [length_slice] at hlt
  omega

theorem searchSync_ge {data : ByteString} {last stop : Nat} {first : Option Frame}
    {budget start found : Nat}
    (hfound : (searchSync data last stop first budget start).1 = some found) : start ≤ found := by
  induction budget generalizing start with
  | zero => cases hfound
  | succ remaining ih =>
    unfold searchSync at hfound
    split at hfound
    · cases hfound
    next candidate hcandidate =>
      have hge := findSync_ge hcandidate
      split at hfound
      · cases hfound
        exact hge
      · exact (Nat.le_succ_of_le hge).trans (ih hfound)

theorem searchSync_lt {data : ByteString} {last stop : Nat} {first : Option Frame}
    {budget start found : Nat}
    (hfound : (searchSync data last stop first budget start).1 = some found) : found < last := by
  induction budget generalizing start with
  | zero => cases hfound
  | succ remaining ih =>
    unfold searchSync at hfound
    split at hfound
    · cases hfound
    next candidate hcandidate =>
      split at hfound
      · cases hfound
        exact findSync_lt hcandidate
      · exact ih hfound

/-! ## The sum of the frames -/

def XING_FRAMES_FLAG : Nat := 0x1
def VBRI_OFFSET : Nat := 36
def XING : ByteString := [0x58, 0x69, 0x6E, 0x67]
def INFO : ByteString := [0x49, 0x6E, 0x66, 0x6F]
def VBRI : ByteString := [0x56, 0x42, 0x52, 0x49]

/-- Whether the frame at `pos` holds a Xing or Info header with a frame count, or a VBRI
header. -/
def carriesLengthHeader (data : ByteString) (pos : Nat) (frame : Frame) : Bool :=
  if frame.layer ≠ LAYER3 then false
  else
    let xingOffset :=
      if frame.version = MPEG1 then if frame.mode = MONO then 21 else 36
      else if frame.mode = MONO then 13 else 21
    let xingAt := pos + xingOffset
    let marker := slice data xingAt (xingAt + 4)
    let flags := bigEndian (slice data (xingAt + 4) (xingAt + 8))
    if (marker = XING ∨ marker = INFO) ∧ flags &&& XING_FRAMES_FLAG ≠ 0 then true
    else slice data (pos + VBRI_OFFSET) (pos + VBRI_OFFSET + 4) = VBRI

/-- The samples in the frames from `pos` to `stop`, or none when resyncing spends the budget. -/
def totalSamples (data : ByteString) (stop : Nat) (first : Frame) (pos budget samples : Nat) :
    Option Nat :=
  if _hmore : pos < stop then
    match (parseFrame data pos).filter (·.continues first) with
    | none =>
      match _hsync : sync data (pos + 1) stop RESYNC_WINDOW (some first) budget with
      | (none, left) => if left = 0 then none else some samples
      | (some resynced, left) => totalSamples data stop first resynced left samples
    | some frame =>
      -- a final frame cut short is not counted
      if pos + frame.length > stop then some samples
      else totalSamples data stop first (pos + frame.length) budget (samples + frame.samples)
  else some samples
  termination_by stop - pos
  decreasing_by
    · have hge : pos + 1 ≤ resynced := searchSync_ge (congrArg Prod.fst _hsync)
      omega
    · have hlength := frame.header_lt_length
      omega

section TotalSamples

variable {data : ByteString} {stop : Nat} {first : Frame} {pos : Nat} (budget samples : Nat)

theorem totalSamples_done (hdone : stop ≤ pos) :
    totalSamples data stop first pos budget samples = some samples := by
  rw [totalSamples, dif_neg (Nat.not_lt.mpr hdone)]

/-- A frame of the stream is counted, unless it is cut short. -/
theorem totalSamples_frame {frame : Frame} (hmore : pos < stop)
    (hframe : (parseFrame data pos).filter (·.continues first) = some frame) :
    totalSamples data stop first pos budget samples =
      if pos + frame.length > stop then some samples
      else totalSamples data stop first (pos + frame.length) budget (samples + frame.samples) := by
  rw [totalSamples, dif_pos hmore]
  split
  next hnone =>
    rw [hnone] at hframe
    cases hframe
  next found hfound =>
    rw [hfound] at hframe
    cases hframe
    rfl

/-- Anything else is searched past. -/
theorem totalSamples_resync (hmore : pos < stop)
    (hnone : (parseFrame data pos).filter (·.continues first) = none) :
    totalSamples data stop first pos budget samples =
      match sync data (pos + 1) stop RESYNC_WINDOW (some first) budget with
      | (none, left) => if left = 0 then none else some samples
      | (some resynced, left) => totalSamples data stop first resynced left samples := by
  rw [totalSamples, dif_pos hmore]
  split
  next =>
    split
    next left hsync => rw [hsync]
    next resynced left hsync => rw [hsync]
  next found hfound =>
    rw [hfound] at hnone
    cases hnone

end TotalSamples

/-- The duration in seconds of the frames between two bounds. None when the first frame
carries a length header, when there are no frames, or when the budget runs out. -/
def durationWithin (data : ByteString) (start stop : Nat) : Option Rat :=
  match sync data start stop FIRST_SYNC_WINDOW none SYNC_BUDGET with
  | (none, _) => none
  | (some pos, left) =>
    match parseFrame data pos with
    | none => none
    | some first =>
      if carriesLengthHeader data pos first then none
      else
        match totalSamples data stop first pos left 0 with
        | none => none
        | some samples => if samples = 0 then none else some (samples / first.sampleRate)

/-- The duration in seconds of the MPEG audio in a file, summed from its frames. -/
def headerlessDuration (data : ByteString) : Option Rat :=
  let (start, stop) := audioBounds data
  durationWithin data start stop

end RetroStation.Audio
