import RetroStation.Audio.Id3

/-! # Audio fingerprints

What a file sounds like, not how it is labelled: a FLAC's stored MD5, or else the SHA-256
of a FLAC's frames after its metadata blocks, or of an MP3 without its leading ID3v2 and its
trailing ID3v1 tag. A file is its bytes; reads past its end give fewer bytes.
-/

namespace RetroStation.Audio

open Bytes

def FLAC_MARKER : ByteString := [0x66, 0x4C, 0x61, 0x43]
def FLAC_BLOCK_HEADER_SIZE : Nat := 4
def FLAC_LAST_BLOCK : UInt8 := 0x80
def FLAC_BLOCK_TYPE : UInt8 := 0x7F
def STREAMINFO : UInt8 := 0
def READ_CHUNK : Nat := 2 ^ 20

inductive AudioHashKind
  | flacMd5
  | audioSha256
  deriving DecidableEq, Repr

structure AudioHash where
  kind : AudioHashKind
  digest : String
  deriving DecidableEq, Repr

/-- 32 lower-case hexadecimal digits. -/
def hex32 (number : Nat) : String :=
  let digits := Nat.toDigits 16 number
  String.ofList (List.replicate (32 - digits.length) '0' ++ digits)

/-- The fingerprint of a stored MD5; none when the encoder stored none. -/
def storedFlacMd5 (md5Signature : Nat) : Option AudioHash :=
  if md5Signature = 0 then none else some ⟨.flacMd5, hex32 md5Signature⟩

structure FlacLayout where
  framesOffset : Nat
  storedMd5 : Nat
  deriving DecidableEq, Repr

/-- The walk over a FLAC's metadata blocks from one on. A block is skipped by its length,
which may lead past the end of the file. -/
def flacBlocks (data : ByteString) (pos md5 : Nat) : Option FlacLayout :=
  let header := slice data pos (pos + FLAC_BLOCK_HEADER_SIZE)
  if _hshort : header.length < FLAC_BLOCK_HEADER_SIZE then none
  else
    let isLast := header.headD 0 &&& FLAC_LAST_BLOCK ≠ 0
    let length := bigEndian (header.drop 1)
    let bodyStart := pos + FLAC_BLOCK_HEADER_SIZE
    let isStreamInfo := header.headD 0 &&& FLAC_BLOCK_TYPE = STREAMINFO
    let body := slice data bodyStart (bodyStart + length)
    if isStreamInfo ∧ body.length < length then none
    else
      let md5 := if isStreamInfo then bigEndian (slice body 18 34) else md5
      if isLast then some ⟨bodyStart + length, md5⟩
      else flacBlocks data (bodyStart + length) md5
  termination_by data.length - pos
  decreasing_by
    rw [length_slice] at _hshort
    simp only [FLAC_BLOCK_HEADER_SIZE] at _hshort ⊢
    omega

/-- Where a FLAC's frames start, and its STREAMINFO MD5; none if it is not a FLAC. -/
def flacLayout (data : ByteString) : Option FlacLayout :=
  let start := id3v2Size (data.take ID3V2_HEADER_SIZE)
  if slice data start (start + FLAC_MARKER.length) ≠ FLAC_MARKER then none
  else flacBlocks data (start + FLAC_MARKER.length) 0

/-- What is fed to the digest: the bytes from `pos`, a chunk at a time, until `remaining`
are read or the file ends. -/
def readRange (data : ByteString) (pos remaining : Nat) (fed : ByteString) : ByteString :=
  if _hdone : remaining = 0 then fed
  else
    let chunk := slice data pos (pos + min READ_CHUNK remaining)
    if _hend : chunk.length = 0 then fed
    else readRange data (pos + chunk.length) (remaining - chunk.length) (fed ++ chunk)
  termination_by remaining
  decreasing_by exact Nat.sub_lt (Nat.pos_of_ne_zero _hdone) (Nat.pos_of_ne_zero _hend)

section

variable (sha256 : ByteString → String)

/-- The fingerprint of the bytes from `start` to `stop`; none when the range is empty. -/
def sha256OfRange (data : ByteString) (start stop : Nat) : Option AudioHash :=
  if stop ≤ start then none
  else some ⟨.audioSha256, sha256 (readRange data start (stop - start) [])⟩

def flacHash (data : ByteString) : Option AudioHash :=
  match flacLayout data with
  | none => none
  | some layout =>
    if layout.framesOffset ≥ data.length then none
    else
      match storedFlacMd5 layout.storedMd5 with
      | some stored => some stored
      | none => sha256OfRange sha256 data layout.framesOffset data.length

/-- Where an MP3's audio ends: before a trailing ID3v1 tag when it has one. -/
def mp3AudioEnd (data : ByteString) : Nat :=
  let size := data.length
  if size < ID3V1_SIZE then size
  else
    let marker := slice data (size - ID3V1_SIZE) (size - ID3V1_SIZE + ID3V1_MARKER.length)
    if marker = ID3V1_MARKER then size - ID3V1_SIZE else size

def mp3Hash (data : ByteString) : Option AudioHash :=
  let start := id3v2Size (data.take ID3V2_HEADER_SIZE)
  sha256OfRange sha256 data start (mp3AudioEnd data)

/-- A file's audio fingerprint by its suffix; none for another format or a file with no audio. -/
def computeAudioHash (suffix : String) (data : ByteString) : Option AudioHash :=
  if suffix.toLower = ".flac" then flacHash sha256 data
  else if suffix.toLower = ".mp3" then mp3Hash sha256 data
  else none

end

/-! ## The bytes of a range -/

theorem readRange_eq (data : ByteString) (pos remaining : Nat) (fed : ByteString) :
    readRange data pos remaining fed = fed ++ slice data pos (pos + remaining) := by
  fun_induction readRange data pos remaining fed with
  | case1 pos fed => simp [slice]
  | case2 pos remaining fed hmore chunk hend =>
    have hlength : chunk.length = min (pos + min READ_CHUNK remaining - pos) (data.length - pos) :=
      length_slice data pos _
    have hchunk : 0 < READ_CHUNK := Nat.two_pow_pos 20
    rw [slice_of_length_le (by omega), List.append_nil]
  | case3 pos remaining fed hmore chunk hend ih =>
    have hlength : chunk.length = min (pos + min READ_CHUNK remaining - pos) (data.length - pos) :=
      length_slice data pos _
    have hchunk : slice data pos (pos + chunk.length) = chunk := slice_of_length data pos _
    rw [ih, List.append_assoc]
    congr 1
    nth_rewrite 1 [← hchunk]
    rw [slice_append_slice (by omega) (by omega)]
    congr 1
    omega

theorem sha256OfRange_eq (sha256 : ByteString → String) (data : ByteString) (start stop : Nat) :
    sha256OfRange sha256 data start stop =
      if stop ≤ start then none else some ⟨.audioSha256, sha256 (slice data start stop)⟩ := by
  unfold sha256OfRange
  split
  · rfl
  next hrange =>
    rw [readRange_eq, List.nil_append, Nat.add_sub_cancel' (Nat.le_of_not_le hrange)]

/-! ## Tagged MP3s -/

/-- Audio that carries no tag of its own. -/
structure IsUntagged (audio : ByteString) : Prop where
  no_leading : audio.take 3 ≠ ID3V2_MARKER
  no_trailing : ¬ ReadsAsId3v1 audio

/-- The tags around an MP3's audio. -/
structure Mp3Tags where
  leading : Option Id3v2Tag := none
  trailing : Option Id3v1Tag := none

namespace Mp3Tags

def leadingBytes (tags : Mp3Tags) : ByteString := tags.leading.elim [] Id3v2Tag.bytes

def trailingBytes (tags : Mp3Tags) : ByteString := tags.trailing.elim [] Id3v1Tag.bytes

/-- The file of this audio with these tags. -/
def wrap (tags : Mp3Tags) (audio : ByteString) : ByteString :=
  tags.leadingBytes ++ audio ++ tags.trailingBytes

/-- No leading tag reaches into the last 128 bytes so that they read as a trailing one. -/
def Apart (tags : Mp3Tags) (audio : ByteString) : Prop :=
  audio = [] ∨ tags.trailing.isSome ∨ ¬ ReadsAsId3v1 (tags.leadingBytes ++ audio)

instance (tags : Mp3Tags) (audio : ByteString) : Decidable (tags.Apart audio) :=
  inferInstanceAs (Decidable (_ ∨ _))

end Mp3Tags

theorem id3v2Size_leading (leading : Option Id3v2Tag) {rest : ByteString}
    (hrest : rest.take 3 ≠ ID3V2_MARKER) :
    id3v2Size ((leading.elim [] Id3v2Tag.bytes ++ rest).take ID3V2_HEADER_SIZE) =
      (leading.elim [] Id3v2Tag.bytes).length := by
  cases leading with
  | some tag => exact tag.id3v2Size_bytes rest
  | none =>
    have htake : (rest.take ID3V2_HEADER_SIZE).take 3 = rest.take 3 := by
      rw [List.take_take]
      rfl
    simp [id3v2Size, htake, hrest]

theorem mp3AudioEnd_eq (data : ByteString) :
    mp3AudioEnd data = if ReadsAsId3v1 data then data.length - ID3V1_SIZE else data.length := by
  unfold mp3AudioEnd
  dsimp only
  by_cases hshort : data.length < ID3V1_SIZE
  · have hnot : ¬ ReadsAsId3v1 data := fun hreads => absurd hreads.1 (Nat.not_le.mpr hshort)
    rw [if_pos hshort, if_neg hnot]
  · simp only [ReadsAsId3v1, if_neg hshort, Nat.not_lt.mp hshort, true_and]

section Mp3

variable {audio : ByteString}

theorem IsUntagged.take_three (haudio : IsUntagged audio) (tags : Mp3Tags) :
    (audio ++ tags.trailingBytes).take 3 ≠ ID3V2_MARKER := by
  apply take_three_append haudio.no_leading
  intro byte hbyte
  cases htrailing : tags.trailing with
  | none => simp [Mp3Tags.trailingBytes, htrailing] at hbyte
  | some tag =>
    simp only [Mp3Tags.trailingBytes, htrailing, Option.elim, Id3v1Tag.bytes, ID3V1_MARKER,
      List.cons_append, List.head?_cons, Option.some.injEq] at hbyte
    subst hbyte
    decide

/-- The audio ends where it does in the file, unless the leading tag reads as a trailing one. -/
theorem Mp3Tags.audioEnd_wrap (tags : Mp3Tags) :
    mp3AudioEnd (tags.wrap audio) =
      if tags.trailing.isSome ∨ ¬ ReadsAsId3v1 (tags.leadingBytes ++ audio)
      then tags.leadingBytes.length + audio.length
      else tags.leadingBytes.length + audio.length - ID3V1_SIZE := by
  rw [mp3AudioEnd_eq, wrap]
  cases htrailing : tags.trailing with
  | none =>
    simp only [trailingBytes, htrailing, Option.elim, List.append_nil, List.length_append,
      Option.isSome_none, Bool.false_eq_true, false_or]
    split_ifs <;> rfl
  | some tag =>
    simp only [trailingBytes, htrailing, Option.elim, Option.isSome_some, true_or, if_true]
    rw [if_pos (readsAsId3v1_tag _ tag), List.length_append, List.length_append, tag.length_bytes,
      Nat.add_sub_cancel]

theorem slice_wrap (tags : Mp3Tags) :
    slice (tags.wrap audio) tags.leadingBytes.length (tags.leadingBytes.length + audio.length) =
      audio := by
  rw [Mp3Tags.wrap, List.append_assoc, slice_append_at, List.take_left]

/-- A tagged MP3's fingerprint. -/
theorem mp3Hash_wrap (sha256 : ByteString → String) (haudio : IsUntagged audio)
    (tags : Mp3Tags) :
    mp3Hash sha256 (tags.wrap audio) =
      if audio = [] ∨ ¬ tags.Apart audio then none else some ⟨.audioSha256, sha256 audio⟩ := by
  have hstart : id3v2Size ((tags.wrap audio).take ID3V2_HEADER_SIZE) =
    tags.leadingBytes.length := by
    rw [Mp3Tags.wrap, List.append_assoc]
    exact id3v2Size_leading tags.leading (haudio.take_three tags)
  rw [mp3Hash, hstart, sha256OfRange_eq, tags.audioEnd_wrap]
  by_cases hnil : audio = []
  · have hempty : audio.length = 0 := by rw [hnil, List.length_nil]
    rw [if_pos, if_pos (.inl hnil)]
    split <;> omega
  · have hpos : 0 < audio.length := List.length_pos_iff.mpr hnil
    by_cases hapart : tags.trailing.isSome ∨ ¬ ReadsAsId3v1 (tags.leadingBytes ++ audio)
    · rw [if_pos hapart, slice_wrap, if_neg (by omega), if_neg]
      rintro (hempty | hnot)
      · exact hnil hempty
      · exact hnot (.inr hapart)
    · have hoverlaps : audio.length < ID3V1_SIZE := by
        by_contra hlong
        rw [Nat.not_lt] at hlong
        rw [not_or, not_not, readsAsId3v1_append hlong] at hapart
        exact haudio.no_trailing hapart.2
      rw [if_neg hapart, if_pos (by omega), if_pos]
      exact .inr fun hnot => hnot.elim hnil hapart

theorem mp3Hash_untagged (sha256 : ByteString → String) (haudio : IsUntagged audio) :
    mp3Hash sha256 audio = if audio = [] then none else some ⟨.audioSha256, sha256 audio⟩ := by
  have hbare := mp3Hash_wrap sha256 haudio {}
  have hapart : ({} : Mp3Tags).Apart audio := .inr (.inr haudio.no_trailing)
  simpa only [Mp3Tags.wrap, Mp3Tags.leadingBytes, Mp3Tags.trailingBytes, Option.elim,
    List.nil_append, List.append_nil, hapart, not_true_eq_false, or_false] using hbare

end Mp3

/-! ## FLAC metadata -/

/-- A metadata block of some type, with a length of three bytes. -/
structure FlacBlock where
  blockType : UInt8
  body : ByteString
  blockType_lt : blockType < FLAC_LAST_BLOCK
  body_fits : body.length < 256 ^ 3

namespace FlacBlock

def isStreamInfo (block : FlacBlock) : Bool := block.blockType = STREAMINFO

/-- The type, marked if the block is the last, and the length. -/
def header (block : FlacBlock) (isLast : Bool) : ByteString :=
  (if isLast then block.blockType ||| FLAC_LAST_BLOCK else block.blockType) ::
    ofDigits (toBigEndian 256 3 block.body.length)

def bytes (block : FlacBlock) (isLast : Bool) : ByteString := block.header isLast ++ block.body

end FlacBlock

/-- The blocks of a FLAC in order, the last of them marked. -/
def blocksBytes : List FlacBlock → ByteString
  | [] => []
  | [block] => block.bytes true
  | block :: next :: rest => block.bytes false ++ blocksBytes (next :: rest)

/-- The MD5 that the blocks store: that of the last STREAMINFO, or none. -/
def blocksMd5 (blocks : List FlacBlock) (md5 : Nat) : Nat :=
  blocks.foldl
    (fun md5 block => if block.isStreamInfo then bigEndian (slice block.body 18 34) else md5) md5

/-- The file of these frames after these metadata blocks. -/
def flacFile (leading : Option Id3v2Tag) (blocks : List FlacBlock) (frames : ByteString) :
    ByteString :=
  leading.elim [] Id3v2Tag.bytes ++ FLAC_MARKER ++ blocksBytes blocks ++ frames

section Flac

theorem blocksMd5_filter (blocks : List FlacBlock) (md5 : Nat) :
    blocksMd5 blocks md5 = blocksMd5 (blocks.filter FlacBlock.isStreamInfo) md5 := by
  rw [blocksMd5, blocksMd5, List.foldl_filter]
  congr 1
  funext kept block
  split <;> simp_all

@[simp] theorem FlacBlock.length_header (block : FlacBlock) (isLast : Bool) :
    (block.header isLast).length = FLAC_BLOCK_HEADER_SIZE := by
  simp [header, FLAC_BLOCK_HEADER_SIZE]

/-- Seven bits leave the mark of the last block clear, and survive it. -/
theorem marked_bits (value : Fin 128) :
    let blockType := UInt8.ofNat value
    blockType &&& FLAC_LAST_BLOCK = 0 ∧ blockType &&& FLAC_BLOCK_TYPE = blockType ∧
      (blockType ||| FLAC_LAST_BLOCK) &&& FLAC_LAST_BLOCK ≠ 0 ∧
      (blockType ||| FLAC_LAST_BLOCK) &&& FLAC_BLOCK_TYPE = blockType := by
  revert value
  decide +kernel

/-- The type of a block, and whether it is the last, from its first byte. -/
theorem FlacBlock.first_byte (block : FlacBlock) (isLast : Bool) :
    ((block.header isLast).headD 0 &&& FLAC_LAST_BLOCK ≠ 0 ↔ isLast = true) ∧
      (block.header isLast).headD 0 &&& FLAC_BLOCK_TYPE = block.blockType := by
  have hlt : block.blockType.toNat < 128 := block.blockType_lt
  obtain ⟨hclear, htype, hset, hmarked⟩ := marked_bits ⟨block.blockType.toNat, hlt⟩
  simp only [UInt8.ofNat_toNat] at hclear htype hset hmarked
  cases isLast with
  | false => simp [header, hclear, htype]
  | true => simp [header, hset, hmarked]

/-- One step of the walk, where a whole header is read. -/
theorem flacBlocks_header {data : ByteString} {pos : Nat} (block : FlacBlock) {isLast : Bool}
    (hheader : slice data pos (pos + FLAC_BLOCK_HEADER_SIZE) = block.header isLast) (md5 : Nat) :
    flacBlocks data pos md5 =
      let stop := pos + FLAC_BLOCK_HEADER_SIZE + block.body.length
      let body := slice data (pos + FLAC_BLOCK_HEADER_SIZE) stop
      if block.isStreamInfo ∧ body.length < block.body.length then none
      else
        let md5 := if block.isStreamInfo then bigEndian (slice body 18 34) else md5
        if isLast then some ⟨stop, md5⟩ else flacBlocks data stop md5 := by
  have hlength : bigEndian ((block.header isLast).drop 1) = block.body.length :=
    bigEndian_toBigEndian block.body_fits
  obtain ⟨hlast, htype⟩ := block.first_byte isLast
  rw [flacBlocks]
  simp only [hheader, hlength, htype, hlast, block.length_header, Nat.lt_irrefl, dite_false,
    FlacBlock.isStreamInfo, decide_eq_true_eq]

/-- One step of the walk, at a whole block. -/
theorem flacBlocks_block (front : ByteString) (block : FlacBlock) (isLast : Bool)
    (rest : ByteString) (md5 : Nat) :
    flacBlocks (front ++ (block.bytes isLast ++ rest)) front.length md5 =
      let md5 := if block.isStreamInfo then bigEndian (slice block.body 18 34) else md5
      if isLast then some ⟨(front ++ block.bytes isLast).length, md5⟩
      else flacBlocks (front ++ (block.bytes isLast ++ rest)) (front ++ block.bytes isLast).length
        md5 := by
  have hheader : slice (front ++ (block.bytes isLast ++ rest)) front.length
      (front.length + FLAC_BLOCK_HEADER_SIZE) = block.header isLast := by
    rw [FlacBlock.bytes, List.append_assoc, slice_append_at, ← block.length_header isLast,
      List.take_left]
  have hbody : slice (front ++ (block.bytes isLast ++ rest))
      (front.length + FLAC_BLOCK_HEADER_SIZE)
      (front.length + FLAC_BLOCK_HEADER_SIZE + block.body.length) = block.body := by
    rw [FlacBlock.bytes, List.append_assoc, ← List.append_assoc, ← block.length_header isLast,
      ← List.length_append, slice_append_at, List.take_left]
  have hend : front.length + FLAC_BLOCK_HEADER_SIZE + block.body.length =
      (front ++ block.bytes isLast).length := by
    simp [FlacBlock.bytes, Nat.add_assoc]
  rw [hend] at hbody
  rw [flacBlocks_header block hheader]
  simp only [hend, hbody, Nat.lt_irrefl, and_false, if_false]

/-- The walk over whole blocks ends at the frames. -/
theorem flacBlocks_blocks (front : ByteString) {blocks : List FlacBlock} (hblocks : blocks ≠ [])
    (frames : ByteString) (md5 : Nat) :
    flacBlocks (front ++ (blocksBytes blocks ++ frames)) front.length md5 =
      some ⟨(front ++ blocksBytes blocks).length, blocksMd5 blocks md5⟩ := by
  induction blocks generalizing front md5 with
  | nil => exact absurd rfl hblocks
  | cons block rest ih =>
    cases rest with
    | nil =>
      rw [blocksBytes, flacBlocks_block]
      rfl
    | cons next rest =>
      have hrest := ih (front ++ block.bytes false) (List.cons_ne_nil next rest)
        (if block.isStreamInfo then bigEndian (slice block.body 18 34) else md5)
      rw [blocksBytes, List.append_assoc, flacBlocks_block]
      simp only [Bool.false_eq_true, if_false]
      rw [← List.append_assoc, hrest, ← List.append_assoc]
      rfl

/-- At the end of the file the walk finds no header. -/
theorem flacBlocks_of_length_le {data : ByteString} {pos : Nat} (hpast : data.length ≤ pos)
    (md5 : Nat) : flacBlocks data pos md5 = none := by
  rw [flacBlocks]
  simp [slice_of_length_le hpast, FLAC_BLOCK_HEADER_SIZE]

/-- The walk leaves the file: it finds no layout, or one whose frames start past the end. -/
def LeavesFile (data : ByteString) (found : Option FlacLayout) : Prop :=
  ∀ layout, found = some layout → data.length ≤ layout.framesOffset

theorem flacBlocks_cutBlock (front : ByteString) (block : FlacBlock) (isLast : Bool) {kept : Nat}
    (hcut : kept < (block.bytes isLast).length) (md5 : Nat) :
    LeavesFile (front ++ (block.bytes isLast).take kept)
      (flacBlocks (front ++ (block.bytes isLast).take kept) front.length md5) := by
  have hlength : (front ++ (block.bytes isLast).take kept).length = front.length + kept := by
    rw [List.length_append, List.length_take, Nat.min_eq_left hcut.le]
  have hblock : (block.bytes isLast).length = FLAC_BLOCK_HEADER_SIZE + block.body.length := by
    rw [FlacBlock.bytes, List.length_append, block.length_header]
  by_cases hheader : kept < FLAC_BLOCK_HEADER_SIZE
  · have hnone : flacBlocks (front ++ (block.bytes isLast).take kept) front.length md5 = none := by
      rw [flacBlocks]
      simp only [length_slice, hlength]
      rw [dif_pos (by omega)]
    intro layout hlayout
    rw [hnone] at hlayout
    cases hlayout
  · have hread : slice (front ++ (block.bytes isLast).take kept) front.length
        (front.length + FLAC_BLOCK_HEADER_SIZE) = block.header isLast := by
      rw [slice_append_at, List.take_take, Nat.min_eq_left (Nat.le_of_not_lt hheader),
        FlacBlock.bytes, ← block.length_header isLast, List.take_left]
    have hpast : (front ++ (block.bytes isLast).take kept).length ≤
        front.length + FLAC_BLOCK_HEADER_SIZE + block.body.length := by omega
    rw [flacBlocks_header block hread]
    dsimp only
    rw [flacBlocks_of_length_le hpast]
    intro layout hlayout
    split at hlayout
    · cases hlayout
    · split at hlayout
      · cases hlayout
        exact hpast
      · cases hlayout

/-- Blocks cut short lead out of the file. -/
theorem flacBlocks_cut (front : ByteString) (blocks : List FlacBlock) {kept : Nat}
    (hcut : kept < (blocksBytes blocks).length) (md5 : Nat) :
    LeavesFile (front ++ (blocksBytes blocks).take kept)
      (flacBlocks (front ++ (blocksBytes blocks).take kept) front.length md5) := by
  induction blocks generalizing front kept md5 with
  | nil => exact absurd hcut (Nat.not_lt_zero kept)
  | cons block rest ih =>
    cases rest with
    | nil => exact flacBlocks_cutBlock front block true hcut md5
    | cons next rest =>
      simp only [blocksBytes, List.length_append] at hcut ⊢
      by_cases hwhole : kept < (block.bytes false).length
      · rw [List.take_append_of_le_length hwhole.le]
        exact flacBlocks_cutBlock front block false hwhole md5
      · rw [Nat.not_lt] at hwhole
        rw [List.take_append, List.take_of_length_le hwhole, flacBlocks_block]
        simp only [Bool.false_eq_true, if_false]
        rw [← List.append_assoc]
        exact ih (front ++ block.bytes false) (by omega) _

theorem flacLayout_eq (leading : Option Id3v2Tag) (rest : ByteString) :
    flacLayout (leading.elim [] Id3v2Tag.bytes ++ (FLAC_MARKER ++ rest)) =
      flacBlocks (leading.elim [] Id3v2Tag.bytes ++ (FLAC_MARKER ++ rest))
        (leading.elim [] Id3v2Tag.bytes ++ FLAC_MARKER).length 0 := by
  have hmarker : (FLAC_MARKER ++ rest).take 3 ≠ ID3V2_MARKER := by
    simp [FLAC_MARKER, ID3V2_MARKER]
  rw [flacLayout, id3v2Size_leading leading hmarker]
  simp only [slice_append_at, List.take_left, ne_eq, not_true_eq_false, if_false,
    List.length_append]

/-- A FLAC's fingerprint: the MD5 its blocks store, or the hash of its frames. -/
theorem flacHash_file (sha256 : ByteString → String) (leading : Option Id3v2Tag)
    {blocks : List FlacBlock} (hblocks : blocks ≠ []) (frames : ByteString) :
    flacHash sha256 (flacFile leading blocks frames) =
      if frames = [] then none
      else (storedFlacMd5 (blocksMd5 blocks 0)).or (some ⟨.audioSha256, sha256 frames⟩) := by
  have hdata : flacFile leading blocks frames =
      (leading.elim [] Id3v2Tag.bytes ++ FLAC_MARKER) ++ (blocksBytes blocks ++ frames) := by
    simp only [flacFile, List.append_assoc]
  have hlayout : flacLayout (flacFile leading blocks frames) = some
      ⟨(leading.elim [] Id3v2Tag.bytes ++ FLAC_MARKER ++ blocksBytes blocks).length,
        blocksMd5 blocks 0⟩ := by
    rw [← flacBlocks_blocks _ hblocks frames, hdata, List.append_assoc, flacLayout_eq]
  rw [flacHash, hlayout]
  dsimp only
  rw [sha256OfRange_eq]
  by_cases hframes : frames = []
  · rw [if_pos hframes, if_pos]
    rw [flacFile, hframes, List.append_nil]
  · have hpos : 0 < frames.length := List.length_pos_iff.mpr hframes
    have hsize : (flacFile leading blocks frames).length =
        (leading.elim [] Id3v2Tag.bytes ++ FLAC_MARKER ++ blocksBytes blocks).length +
          frames.length := by
      rw [flacFile, List.length_append]
    have hslice : slice (flacFile leading blocks frames)
        (leading.elim [] Id3v2Tag.bytes ++ FLAC_MARKER ++ blocksBytes blocks).length
        (flacFile leading blocks frames).length = frames := by
      rw [hsize, flacFile, slice_append_at, List.take_length]
    rw [if_neg hframes, if_neg (by omega), if_neg (by omega), hslice]
    cases storedFlacMd5 (blocksMd5 blocks 0) <;> rfl

/-- A FLAC whose blocks are cut short has no fingerprint. -/
theorem flacHash_cut (sha256 : ByteString → String) (leading : Option Id3v2Tag)
    {blocks : List FlacBlock} {kept : Nat} (hcut : kept < (blocksBytes blocks).length) :
    flacHash sha256 (leading.elim [] Id3v2Tag.bytes ++
      (FLAC_MARKER ++ (blocksBytes blocks).take kept)) = none := by
  have hleaves := flacBlocks_cut (leading.elim [] Id3v2Tag.bytes ++ FLAC_MARKER) blocks hcut 0
  rw [List.append_assoc, ← flacLayout_eq] at hleaves
  rw [flacHash]
  split
  · rfl
  next layout hlayout => rw [if_pos (hleaves layout hlayout)]

end Flac

/-! ## Fingerprints and tags -/

section Fingerprints

variable (sha256 : ByteString → String) {suffix : String}

theorem computeAudioHash_mp3 (hsuffix : suffix.toLower = ".mp3") (data : ByteString) :
    computeAudioHash sha256 suffix data = mp3Hash sha256 data := by
  simp [computeAudioHash, hsuffix]

theorem computeAudioHash_flac (hsuffix : suffix.toLower = ".flac") (data : ByteString) :
    computeAudioHash sha256 suffix data = flacHash sha256 data := by
  simp [computeAudioHash, hsuffix]

/-- An MP3's tags change nothing exactly when the leading one stays out of the last 128 bytes,
or does not read as a trailing one there. A FLAC's metadata other than STREAMINFO never changes
anything. -/
theorem audioHash_ignores_tags :
    (∀ suffix : String, suffix.toLower = ".mp3" → ∀ audio, IsUntagged audio → ∀ tags : Mp3Tags,
      (computeAudioHash sha256 suffix (tags.wrap audio) = computeAudioHash sha256 suffix audio ∧
        (computeAudioHash sha256 suffix (tags.wrap audio) = none ↔ audio = [])) ↔
        tags.Apart audio) ∧
    ∀ suffix : String, suffix.toLower = ".flac" → ∀ leading blocks, blocks ≠ [] → ∀ frames,
      (computeAudioHash sha256 suffix (flacFile leading blocks frames) = none ↔ frames = []) ∧
      (∀ kept, kept < (blocksBytes blocks).length →
        computeAudioHash sha256 suffix (leading.elim [] Id3v2Tag.bytes ++
          (FLAC_MARKER ++ (blocksBytes blocks).take kept)) = none) ∧
      ∀ other others, others ≠ [] →
        (others.filter FlacBlock.isStreamInfo = blocks.filter FlacBlock.isStreamInfo →
          computeAudioHash sha256 suffix (flacFile other others frames) =
            computeAudioHash sha256 suffix (flacFile leading blocks frames)) ∧
        (blocksMd5 blocks 0 = 0 → blocksMd5 others 0 = 0 → Function.Injective sha256 →
          ∀ otherFrames, computeAudioHash sha256 suffix (flacFile other others otherFrames) =
            computeAudioHash sha256 suffix (flacFile leading blocks frames) ↔
              otherFrames = frames) := by
  constructor
  · intro suffix hsuffix audio haudio tags
    simp only [computeAudioHash_mp3 sha256 hsuffix, mp3Hash_wrap sha256 haudio,
      mp3Hash_untagged sha256 haudio]
    by_cases hnil : audio = []
    · simp [hnil, Mp3Tags.Apart]
    · by_cases htags : tags.Apart audio <;> simp [hnil, htags]
  · intro suffix hsuffix leading blocks hblocks frames
    simp only [computeAudioHash_flac sha256 hsuffix]
    refine ⟨?_, fun kept hcut => flacHash_cut sha256 leading hcut, ?_⟩
    · rw [flacHash_file sha256 leading hblocks]
      split
      next hnil => simp [hnil]
      next hframes => cases storedFlacMd5 (blocksMd5 blocks 0) <;> simp [hframes]
    · intro other others hothers
      refine ⟨fun hsame => ?_, fun hmd5 hotherMd5 hinjective otherFrames => ?_⟩
      · rw [flacHash_file sha256 leading hblocks, flacHash_file sha256 other hothers,
          blocksMd5_filter blocks, ← hsame, ← blocksMd5_filter others]
      · rw [flacHash_file sha256 leading hblocks, flacHash_file sha256 other hothers, hmd5,
          hotherMd5]
        -- Without a stored MD5 the hash is of the frames, and no frames give none.
        by_cases hnil : frames = [] <;> by_cases hother : otherFrames = []
        · simp [hnil, hother]
        · simp [hnil, hother, storedFlacMd5]
        · simp [hnil, hother, storedFlacMd5, eq_comm]
        · simp [hnil, hother, storedFlacMd5, hinjective.eq_iff]

/-- A frame of 96 bytes behind a leading tag whose text reads as a trailing tag. -/
def overlappingTags : Mp3Tags where
  leading := some ⟨3, 0, 0, ID3V1_MARKER ++ List.replicate 29 0, [], by decide, rfl⟩

def shortFrame : ByteString := [0xFF, 0xFB, 0x14, 0x00] ++ List.replicate 92 0

/-- The tag takes the fingerprint of a file that has audio. -/
theorem audioHash_tag_overlaps : ¬ ∀ (sha256 : ByteString → String) (audio : ByteString),
    IsUntagged audio → ∀ tags : Mp3Tags,
      computeAudioHash sha256 ".mp3" (tags.wrap audio) = computeAudioHash sha256 ".mp3" audio := by
  intro hignores
  have haudio : IsUntagged shortFrame :=
    ⟨by decide, fun hreads => absurd hreads.1 (by simp [shortFrame, ID3V1_SIZE])⟩
  obtain ⟨hmp3, hoverlaps⟩ : ".mp3".toLower = ".mp3" ∧ ¬ overlappingTags.Apart shortFrame := by
    decide +kernel
  have hsame := hignores (fun _ => "") shortFrame haudio overlappingTags
  rw [computeAudioHash_mp3 _ hmp3, computeAudioHash_mp3 _ hmp3, mp3Hash_wrap _ haudio,
    mp3Hash_untagged _ haudio, if_pos (.inr hoverlaps), if_neg (by simp [shortFrame])] at hsame
  cases hsame

end Fingerprints

end RetroStation.Audio
