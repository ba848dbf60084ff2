import RetroStation.Text.Utf8

/-! # Titles in a listener's stream

After every `metaint` audio bytes a client that asked for titles is sent a metadata block:
a length byte, and sixteen bytes for each it counts. The title is cut so that the length
fits its byte.
-/

namespace RetroStation.Playout

/-- A character of a title. A lone surrogate has no encoding. -/
inductive CodePoint
  | scalar (char : Char)
  | surrogate (code : Nat)
  deriving DecidableEq, Repr

abbrev Title := List CodePoint

/-- The characters that are sent for a title: a question mark for one with no encoding. -/
def encodable (title : Title) : List Char :=
  title.map fun
    | .scalar char => char
    | .surrogate _ => '?'

def ICY_MAX_BLOCKS : Nat := 255
def ICY_BLOCK : Nat := 16
def TITLE_OPEN : List UInt8 := Utf8.encode "StreamTitle='".toList
def TITLE_CLOSE : List UInt8 := Utf8.encode "';".toList
def TITLE_ROOM : Nat := ICY_MAX_BLOCKS * ICY_BLOCK - TITLE_OPEN.length - TITLE_CLOSE.length

/-- What a block holds before its padding: the title, cut between characters. -/
def titlePayload (title : Title) : List UInt8 :=
  let fitted := Utf8.encode (Utf8.decodeIgnoring ((Utf8.encode (encodable title)).take TITLE_ROOM))
  TITLE_OPEN ++ fitted ++ TITLE_CLOSE

/-- How many times sixteen bytes the payload takes. -/
def blocksFor (payload : List UInt8) : Nat := (payload.length + ICY_BLOCK - 1) / ICY_BLOCK

/-- The payload, padded with zeros. -/
def padded (payload : List UInt8) : List UInt8 :=
  payload ++ List.replicate (blocksFor payload * ICY_BLOCK - payload.length) 0

/-- One metadata block. -/
def icyBlock (title : Title) : List UInt8 :=
  let payload := titlePayload title
  UInt8.ofNat (blocksFor payload) :: padded payload

/-- The framer of one client. `asked` counts the titles it has been told. -/
structure IcyFramer where
  metaint : Nat
  untilBlock : Nat
  sent : Option Title
  asked : Nat
  untilBlock_pos : 0 < untilBlock
  untilBlock_le : untilBlock ≤ metaint

namespace IcyFramer

def make (metaint : Int) : Except String IcyFramer :=
  if hpos : metaint ≤ 0 then .error s!"IcyFramer.metaint must be > 0, got {metaint}"
  else .ok ⟨metaint.toNat, metaint.toNat, none, 0, by omega, Nat.le_refl _⟩

variable (titles : Nat → Title)

/-- The block due now: the title when it has changed, else an empty one. -/
def block (framer : IcyFramer) : List UInt8 × IcyFramer :=
  let title := titles framer.asked
  let asked := { framer with asked := framer.asked + 1 }
  if some title = framer.sent then ([0], asked)
  else (icyBlock title, { asked with sent := some title })

def frame (framer : IcyFramer) (chunk : List UInt8) : List UInt8 × IcyFramer :=
  if hblock : framer.untilBlock ≤ chunk.length then
    let told := (framer.block titles).2
    let next : IcyFramer :=
      ⟨framer.metaint, framer.metaint, told.sent, told.asked,
        Nat.lt_of_lt_of_le framer.untilBlock_pos framer.untilBlock_le, Nat.le_refl _⟩
    let (out, last) := next.frame (chunk.drop framer.untilBlock)
    (chunk.take framer.untilBlock ++ (framer.block titles).1 ++ out, last)
  else
    (chunk, { framer with
      untilBlock := framer.untilBlock - chunk.length
      untilBlock_pos := by omega
      untilBlock_le := Nat.le_trans (Nat.sub_le ..) framer.untilBlock_le })
termination_by chunk.length
decreasing_by
  have := framer.untilBlock_pos
  simp only [List.length_drop]
  omega

/-- Everything sent for a run of chunks. -/
def frames (framer : IcyFramer) : List (List UInt8) → List UInt8
  | [] => []
  | chunk :: chunks => (framer.frame titles chunk).1 ++ (framer.frame titles chunk).2.frames chunks

end IcyFramer

/-! ## Reading a stream back -/

/-- The audio and the metadata blocks of a stream, as a client reads them; `none` is a
stream that ends inside a block. -/
def deframe (metaint : Nat) (stream : List UInt8) :
    Option (List UInt8 × List (List UInt8)) :=
  if stream.length < metaint then some (stream, [])
  else
    match hrest : stream.drop metaint with
    | [] => none
    | length :: rest =>
      have hshorter : rest.length < stream.length := by
        have hlength := congrArg List.length hrest
        simp only [List.length_drop, List.length_cons] at hlength
        omega
      if rest.length < ICY_BLOCK * length.toNat then none
      else do
        let (audio, blocks) ← deframe metaint (rest.drop (ICY_BLOCK * length.toNat))
        pure (stream.take metaint ++ audio, rest.take (ICY_BLOCK * length.toNat) :: blocks)
termination_by stream.length
decreasing_by
  simp only [List.length_drop]
  omega

/-- Audio with a block after every `metaint` bytes, each as long as its length byte says. -/
inductive Framed (metaint : Nat) : List UInt8 → List UInt8 → List (List UInt8) → Prop
  | rest {audio : List UInt8} (hshort : audio.length < metaint) : Framed metaint audio audio []
  | block {before payload stream audio : List UInt8} {length : UInt8} {blocks : List (List UInt8)}
      (hbefore : before.length = metaint) (hlength : payload.length = ICY_BLOCK * length.toNat)
      (hstream : Framed metaint stream audio blocks) :
      Framed metaint (before ++ length :: (payload ++ stream)) (before ++ audio) (payload :: blocks)

/-- A stream can be read in one way only. -/
theorem Framed.deframe_eq {metaint : Nat} {stream audio : List UInt8}
    {blocks : List (List UInt8)} (hframed : Framed metaint stream audio blocks) :
    deframe metaint stream = some (audio, blocks) := by
  induction hframed with
  | rest hshort =>
      unfold deframe
      rw [if_pos hshort]
  | @block before payload stream audio length blocks hbefore hlength hstream ih =>
      unfold deframe
      have hlong : ¬ (before ++ length :: (payload ++ stream)).length < metaint := by
        rw [List.length_append]
        omega
      have hdrop : (before ++ length :: (payload ++ stream)).drop metaint =
          length :: (payload ++ stream) := List.drop_left' hbefore
      rw [if_neg hlong]
      split
      next hnil =>
        rw [hdrop] at hnil
        cases hnil
      next found rest hrest =>
        rw [hdrop] at hrest
        obtain ⟨rfl, rfl⟩ := List.cons.inj hrest
        have hroom : ¬ (payload ++ stream).length < ICY_BLOCK * length.toNat := by
          rw [List.length_append]
          omega
        rw [if_neg hroom, List.drop_left' hlength, List.take_left' hlength,
          List.take_left' hbefore, ih]
        rfl

end RetroStation.Playout

/-! ## A framed stream and its audio

What the framer sends for some audio depends on the audio and the titles alone, byte by
byte: `emit` is that stream, and every cut into chunks gives it. It is audio with a block
after every `metaint` bytes, which can be read back in one way only.
-/

namespace RetroStation.Playout

variable {metaint : Nat} {titles : Nat → Title}

/-- The title that was told before the block at this index. -/
def toldBefore (titles : Nat → Title) : Nat → Option Title
  | 0 => none
  | index + 1 => some (titles index)

def blockAt (titles : Nat → Title) (index : Nat) : List UInt8 :=
  if some (titles index) = toldBefore titles index then [0] else icyBlock (titles index)

/-- The stream for some audio, `untilBlock` bytes before the block at `index`. -/
def emit (titles : Nat → Title) (metaint : Nat) (index untilBlock : Nat) : List UInt8 → List UInt8
  | [] => []
  | byte :: rest =>
    if untilBlock ≤ 1
    then byte :: (blockAt titles index ++ emit titles metaint (index + 1) metaint rest)
    else byte :: emit titles metaint index (untilBlock - 1) rest

theorem emit_short {index untilBlock : Nat} {before : List UInt8} (rest : List UInt8)
    (hbefore : before.length < untilBlock) :
    emit titles metaint index untilBlock (before ++ rest) =
      before ++ emit titles metaint index (untilBlock - before.length) rest := by
  induction before generalizing untilBlock with
  | nil => rfl
  | cons byte before ih =>
      rw [List.length_cons] at hbefore
      rw [List.cons_append, emit, if_neg (by omega), ih (by omega), List.length_cons,
        Nat.sub_sub, Nat.add_comm 1]
      rfl

theorem emit_block {index untilBlock : Nat} {before : List UInt8} (rest : List UInt8)
    (hbefore : before.length = untilBlock) (hpos : 0 < untilBlock) :
    emit titles metaint index untilBlock (before ++ rest) =
      before ++ blockAt titles index ++ emit titles metaint (index + 1) metaint rest := by
  induction before generalizing untilBlock with
  | nil =>
      rw [List.length_nil] at hbefore
      omega
  | cons byte before ih =>
      rw [List.length_cons] at hbefore
      rw [List.cons_append, emit]
      cases before with
      | nil =>
          rw [List.length_nil] at hbefore
          rw [if_pos (by omega)]
          rfl
      | cons next before =>
          rw [List.length_cons] at hbefore
          rw [if_neg (by omega), ih (by rw [List.length_cons]; omega) (by omega)]
          rfl

/-! ## The framer -/

/-- The framer remembers the title it was told last. -/
def IcyFramer.Told (titles : Nat → Title) (framer : IcyFramer) : Prop :=
  framer.sent = toldBefore titles framer.asked

theorem block_eq {framer : IcyFramer} (htold : framer.Told titles) :
    (framer.block titles).1 = blockAt titles framer.asked ∧
      (framer.block titles).2.sent = toldBefore titles (framer.asked + 1) ∧
      (framer.block titles).2.asked = framer.asked + 1 := by
  unfold IcyFramer.block blockAt
  rw [← htold]
  dsimp only
  split
  next hsame => exact ⟨rfl, hsame.symm, rfl⟩
  · exact ⟨rfl, rfl, rfl⟩

/-- One chunk is sent as its part of the stream, whatever comes after it. -/
theorem frame_emit {framer : IcyFramer} (htold : framer.Told titles) (chunk more : List UInt8) :
    (framer.frame titles chunk).2.Told titles ∧
      (framer.frame titles chunk).2.metaint = framer.metaint ∧
      (framer.frame titles chunk).1 ++ emit titles framer.metaint
          (framer.frame titles chunk).2.asked (framer.frame titles chunk).2.untilBlock more =
        emit titles framer.metaint framer.asked framer.untilBlock (chunk ++ more) := by
  fun_induction IcyFramer.frame titles framer chunk with
  | case1 framer chunk hblock told next out last hlast ih =>
      obtain ⟨hblockAt, hsent, hasked⟩ := block_eq htold
      have hnext : next.Told titles := by
        rw [IcyFramer.Told]
        change told.sent = toldBefore titles told.asked
        rw [hsent, hasked]
      obtain ⟨hlastTold, hlastMetaint, hrest⟩ := ih hnext
      rw [hlast] at hlastTold hlastMetaint hrest
      refine ⟨hlastTold, hlastMetaint, ?_⟩
      have hsplit : chunk ++ more = chunk.take framer.untilBlock ++
          (chunk.drop framer.untilBlock ++ more) := by
        rw [← List.append_assoc, List.take_append_drop]
      rw [hsplit, emit_block _ (List.length_take_of_le hblock) framer.untilBlock_pos, ← hblockAt,
        List.append_assoc, ← hasked]
      exact congrArg _ hrest
  | case2 framer chunk hshort =>
      exact ⟨htold, rfl, (emit_short more (Nat.lt_of_not_le hshort)).symm⟩

theorem frames_emit {framer : IcyFramer} (htold : framer.Told titles)
    (chunks : List (List UInt8)) : framer.frames titles chunks =
      emit titles framer.metaint framer.asked framer.untilBlock chunks.flatten := by
  induction chunks generalizing framer with
  | nil => rfl
  | cons chunk chunks ih =>
      obtain ⟨hlater, hmetaint, hstream⟩ := frame_emit htold chunk chunks.flatten
      rw [IcyFramer.frames, ih hlater, hmetaint, hstream]
      rfl

/-! ## One block -/

theorem length_titlePayload (title : Title) :
    (titlePayload title).length ≤ ICY_MAX_BLOCKS * ICY_BLOCK := by
  obtain ⟨count, hdecode, hfits, -⟩ := Utf8.decodeIgnoring_take (encodable title) TITLE_ROOM
  have hopen : TITLE_OPEN.length = 13 := by decide
  have hclose : TITLE_CLOSE.length = 2 := by decide
  simp only [TITLE_ROOM, ICY_MAX_BLOCKS, ICY_BLOCK, hopen, hclose] at hfits
  simp only [titlePayload, hdecode, List.length_append, ICY_MAX_BLOCKS, ICY_BLOCK, hopen, hclose]
  omega

/-- The title in a block: its longest beginning that fits, between its marks, and less than
sixteen zeros. -/
def HoldsTitle (title : Title) (payload : List UInt8) : Prop :=
  ∃ count zeros, zeros < ICY_BLOCK ∧
    payload = TITLE_OPEN ++ Utf8.encode ((encodable title).take count) ++ TITLE_CLOSE ++
      List.replicate zeros 0 ∧
    ∀ more, (TITLE_OPEN ++ Utf8.encode ((encodable title).take more) ++ TITLE_CLOSE).length ≤
        ICY_MAX_BLOCKS * ICY_BLOCK →
      (encodable title).take more <+: (encodable title).take count

theorem holdsTitle_padded (title : Title) : HoldsTitle title (padded (titlePayload title)) := by
  obtain ⟨count, hdecode, hfits, hlongest⟩ :=
    Utf8.decodeIgnoring_take (encodable title) TITLE_ROOM
  refine ⟨count, _, ?_, by rw [padded, titlePayload, hdecode], fun more hmore => ?_⟩
  · simp only [blocksFor, ICY_BLOCK]
    omega
  · refine hlongest more ?_
    rw [List.length_append, List.length_append] at hmore
    rw [TITLE_ROOM]
    omega

/-- A block's length byte counts the rest of it. -/
theorem blockAt_eq (titles : Nat → Title) (index : Nat) : ∃ length payload,
    blockAt titles index = length :: payload ∧ payload.length = ICY_BLOCK * length.toNat ∧
      (payload ≠ [] ↔ toldBefore titles index ≠ some (titles index)) ∧
      (payload ≠ [] → HoldsTitle (titles index) payload) := by
  unfold blockAt
  split
  next hsame => exact ⟨0, [], rfl, rfl, by simp [hsame], by simp⟩
  next hnew =>
    have hroom := length_titlePayload (titles index)
    have hopen : 0 < (titlePayload (titles index)).length := by
      simp only [titlePayload, List.length_append]
      have hlength : TITLE_OPEN.length = 13 := by decide
      omega
    simp only [ICY_MAX_BLOCKS, ICY_BLOCK] at hroom
    refine ⟨_, _, rfl, ?_, ?_, fun _ => holdsTitle_padded _⟩
    · have hbyte : blocksFor (titlePayload (titles index)) < 256 := by
        simp only [blocksFor, ICY_BLOCK]
        omega
      rw [padded, List.length_append, List.length_replicate, UInt8.toNat_ofNat_of_lt' hbyte]
      simp only [blocksFor, ICY_BLOCK]
      omega
    · have hfull : padded (titlePayload (titles index)) ≠ [] := by
        refine List.ne_nil_of_length_pos ?_
        rw [padded, List.length_append]
        omega
      simp only [ne_eq, hfull, not_false_eq_true, true_iff]
      exact fun heq => hnew heq.symm

/-! ## The stream -/

/-- The blocks of the stream, from the one at `index` on. -/
def BlocksFrom (titles : Nat → Title) (index : Nat) (blocks : List (List UInt8)) : Prop :=
  ∀ (place : Nat) (payload : List UInt8), blocks[place]? = some payload →
    ∃ length, blockAt titles (index + place) = length :: payload

/-- The stream is its audio with a block after every `metaint` bytes. -/
theorem framed_emit (hpos : 0 < metaint) (index : Nat) (audio : List UInt8) :
    ∃ blocks, Framed metaint (emit titles metaint index metaint audio) audio blocks ∧
      blocks.length = audio.length / metaint ∧ BlocksFrom titles index blocks := by
  induction hsize : audio.length using Nat.strongRecOn generalizing index audio with
  | ind size ih =>
      subst hsize
      by_cases hshort : audio.length < metaint
      · refine ⟨[], ?_, by rw [Nat.div_eq_of_lt hshort]; rfl, by simp [BlocksFrom]⟩
        have hemit := @emit_short metaint titles index metaint audio [] hshort
        rw [List.append_nil, emit, List.append_nil] at hemit
        rw [hemit]
        exact .rest hshort
      · obtain ⟨blocks, hframed, hlength, hblocks⟩ := ih (audio.drop metaint).length
          (by rw [List.length_drop]; omega) (index + 1) (audio.drop metaint) rfl
        obtain ⟨length, payload, hblock, hpayload, -, -⟩ := blockAt_eq titles index
        have hbefore : (audio.take metaint).length = metaint :=
          List.length_take_of_le (Nat.le_of_not_lt hshort)
        have hemit := @emit_block metaint titles index metaint (audio.take metaint)
          (audio.drop metaint) hbefore hpos
        rw [List.take_append_drop, hblock, List.append_assoc, List.cons_append] at hemit
        have hwhole := Framed.block hbefore hpayload hframed
        rw [List.take_append_drop] at hwhole
        refine ⟨payload :: blocks, by rw [hemit]; exact hwhole, ?_, fun place found hfound => ?_⟩
        · rw [List.length_cons, hlength, List.length_drop,
            ← Nat.div_eq_sub_div hpos (Nat.le_of_not_lt hshort)]
        · cases place with
          | zero =>
              obtain rfl := Option.some.inj hfound
              exact ⟨length, hblock⟩
          | succ place =>
              rw [← Nat.succ_add_eq_add_succ]
              exact hblocks place found hfound

/-- The title of the last block before `index` that was not empty. -/
def lastSent (titles : Nat → Title) (blocks : List (List UInt8)) : Nat → Option Title
  | 0 => none
  | index + 1 =>
    if blocks[index]? = some [] then lastSent titles blocks index else some (titles index)

/-- A block is left empty only while the title stays the same. -/
theorem lastSent_eq {blocks : List (List UInt8)} (hblocks : BlocksFrom titles 0 blocks)
    {index : Nat} (hindex : index ≤ blocks.length) :
    lastSent titles blocks index = toldBefore titles index := by
  induction index with
  | zero => rfl
  | succ index ih =>
      have hplace : blocks[index]? = some blocks[index] := List.getElem?_eq_getElem hindex
      obtain ⟨length, hblock⟩ := hblocks index _ hplace
      obtain ⟨other, payload, hother, -, hempty, -⟩ := blockAt_eq titles index
      rw [Nat.zero_add, hother] at hblock
      obtain ⟨-, hsame⟩ := List.cons.inj hblock
      rw [lastSent, hplace, ← hsame]
      split
      next hnil =>
        rw [ih (Nat.le_of_succ_le hindex)]
        by_contra hchanged
        exact (hempty.mpr hchanged) (Option.some.inj hnil)
      · rfl

/-- The framing round trip. However the audio is cut into chunks, what the framer sends is
the same stream, and it can be read in one way only: as the audio, with a block after every
`metaint` bytes that holds the title when it is not the one last sent and is empty when it is. -/
theorem icy_roundTrip {metaint : Int} {framer : IcyFramer}
    (hmake : IcyFramer.make metaint = .ok framer) (titles : Nat → Title)
    (chunks : List (List UInt8)) :
    let audio := chunks.flatten
    let stream := framer.frames titles chunks
    (framer.metaint : Int) = metaint ∧
    (∀ others : List (List UInt8), others.flatten = audio →
      framer.frames titles others = stream) ∧
    ∃ blocks, Framed framer.metaint stream audio blocks ∧
      (∀ other payloads, Framed framer.metaint stream other payloads →
        other = audio ∧ payloads = blocks) ∧
      deframe framer.metaint stream = some (audio, blocks) ∧
      blocks.length = audio.length / framer.metaint ∧
      ∀ (index : Nat) (payload : List UInt8), blocks[index]? = some payload →
        (payload ≠ [] ↔ lastSent titles blocks index ≠ some (titles index)) ∧
        (payload ≠ [] → HoldsTitle (titles index) payload) := by
  intro audio stream
  obtain ⟨htold, hasked, huntil, hmetaint⟩ : framer.Told titles ∧ framer.asked = 0 ∧
      framer.untilBlock = framer.metaint ∧ (framer.metaint : Int) = metaint := by
    unfold IcyFramer.make at hmake
    split at hmake
    · cases hmake
    next hpos =>
      cases hmake
      exact ⟨rfl, rfl, rfl, Int.toNat_of_nonneg (by omega)⟩
  have hpos : 0 < framer.metaint :=
    Nat.lt_of_lt_of_le framer.untilBlock_pos framer.untilBlock_le
  -- Framing depends on the bytes alone, not on how they were cut into chunks.
  have hframes : ∀ others, framer.frames titles others =
      emit titles framer.metaint 0 framer.metaint others.flatten := by
    intro others
    rw [frames_emit htold, hasked, huntil]
  have hstream : stream = emit titles framer.metaint 0 framer.metaint audio := hframes chunks
  obtain ⟨blocks, hframed, hlength, hblocks⟩ := @framed_emit framer.metaint titles hpos 0 audio
  rw [← hstream] at hframed
  refine ⟨hmetaint, fun others hothers => ?_, blocks, hframed, ?_, hframed.deframe_eq, hlength, ?_⟩
  · rw [hframes others, hothers, hstream]
  · intro other payloads hother
    have hsame := hother.deframe_eq.symm.trans hframed.deframe_eq
    exact Prod.mk.inj (Option.some.inj hsame)
  · intro index payload hpayload
    obtain ⟨length, hblock⟩ := hblocks index payload hpayload
    obtain ⟨other, found, hother, -, hempty, htitle⟩ := blockAt_eq titles index
    rw [Nat.zero_add, hother] at hblock
    obtain ⟨-, rfl⟩ := List.cons.inj hblock
    rw [lastSent_eq hblocks (Nat.le_of_lt (List.getElem?_eq_some_iff.mp hpayload).1)]
    exact ⟨hempty, htitle⟩

/-- One title for the first two blocks, and another from then on. -/
def twoTitles (index : Nat) : Title :=
  (if index < 2 then "Ágætis byrjun" else "Jóga").toList.map .scalar

/-- Seven bytes cut after the third, a block after every two of them: the first and the last
hold a title, and the one between is empty. -/
theorem icy_roundTrip_twoTitles : ∃ framer first last,
    IcyFramer.make 2 = .ok framer ∧
      deframe 2 (framer.frames twoTitles [[1, 2, 3], [4, 5, 6, 7]]) =
        some ([1, 2, 3, 4, 5, 6, 7], [first, [], last]) ∧
      HoldsTitle (twoTitles 0) first ∧ HoldsTitle (twoTitles 2) last := by
  obtain ⟨-, -, blocks, -, -, hread, hlength, hblocks⟩ :=
    icy_roundTrip (show IcyFramer.make 2 = .ok ⟨2, 2, none, 0, by decide, by decide⟩ from rfl)
      twoTitles [[1, 2, 3], [4, 5, 6, 7]]
  obtain ⟨first, middle, last, rfl⟩ := List.length_eq_three.mp hlength
  have hstays : twoTitles 0 = twoTitles 1 := rfl
  have hturns : twoTitles 0 ≠ twoTitles 2 := by decide
  obtain ⟨hfirst, hfirstHolds⟩ := hblocks 0 first rfl
  obtain ⟨hmiddle, -⟩ := hblocks 1 middle rfl
  obtain ⟨hlast, hlastHolds⟩ := hblocks 2 last rfl
  have hchanges : first ≠ [] := hfirst.mpr (by simp [lastSent])
  have hsame : middle = [] := by
    by_contra hne
    exact hmiddle.mp hne (by simp [lastSent, hchanges, hstays])
  subst hsame
  have hchangesLast : last ≠ [] := hlast.mpr (by simp [lastSent, hchanges, hturns])
  exact ⟨_, first, last, rfl, hread, hfirstHolds hchanges, hlastHolds hchangesLast⟩

end RetroStation.Playout
