import RetroStation.Streaming.Values

/-! # Liners and payloads

A station's own audio is played between songs at its cadence.
-/

namespace RetroStation.Streaming

def MIN_CADENCE : Nat := 1
def MAX_CADENCE : Nat := 1000

/-- A liner plays after every `songs` songs. -/
structure LinerCadence where
  songs : Nat
  songs_range : MIN_CADENCE ≤ songs ∧ songs ≤ MAX_CADENCE
  deriving DecidableEq, Repr

/-- A liner the radio can play: its stored file and the points to play it with. -/
structure PlayableLiner where
  linerId : Uuid
  fileName : String
  cues : CuePoints
  deriving DecidableEq, Repr

/-- A session's liner shuffle: the ids still to play, and the liner played last. -/
structure LinerRotation where
  order : List Uuid := []
  last : Option Uuid := none
  deriving DecidableEq, Repr

def swapEnds : List Uuid → List Uuid
  | [] => []
  | [only] => [only]
  | first :: second :: rest =>
    let tail := second :: rest
    tail.getLast (by simp [tail]) :: (tail.dropLast ++ [first])

/-- The next liner to play and the rotation after it. With no id left the
available ones are reshuffled, and never start with the liner played last. -/
def nextLiner (rotation : LinerRotation) (available : List Uuid)
    (shuffle : List Uuid → List Uuid) : Option Uuid × LinerRotation :=
  let present := rotation.order.filter fun linerId => linerId ∈ available
  let order :=
    if present.isEmpty && !available.isEmpty then
      let shuffled := shuffle available
      if shuffled.length > 1 && shuffled.head? = rotation.last then swapEnds shuffled else shuffled
    else present
  match order with
  | [] => (none, ⟨[], rotation.last⟩)
  | picked :: rest => (some picked, ⟨rest, some picked⟩)

/-- A liner is due once the cadence's songs have played since the last. -/
def linerDue (songsSinceLiner : Nat) (cadence : Option LinerCadence) : Bool :=
  match cadence with
  | some cadence => songsSinceLiner ≥ cadence.songs
  | none => false

theorem linerDue_iff {songsSinceLiner : Nat} {cadence : Option LinerCadence} :
    linerDue songsSinceLiner cadence ↔ ∃ kept, cadence = some kept ∧
      kept.songs ≤ songsSinceLiner := by
  cases cadence <;> simp [linerDue]

end RetroStation.Streaming

/-! ## What the engine is sent for one item

The engine always needs a cue-out after the cue-in. A song with no cues plays to
its end with no overlap and no gain change, and so does the sign-off clip.
-/

namespace RetroStation.Streaming

/-! ## What a seq is handed out -/

/-- A song's position, its item, and the offset it lands at. -/
structure Assigned where
  ref : ItemRef
  item : ScheduleItem
  offsetMs : Nat
  deriving DecidableEq, Repr

/-- The clip that signs the station off. -/
structure FinalClip where
  path : String
  spanMs : Nat
  spanMs_pos : 0 < spanMs
  deriving DecidableEq, Repr

/-- A liner handed out for a seq: the song it follows, the span that song was
sent with, and the song the stream walked to after it. -/
structure LinerSlot where
  liner : PlayableLiner
  path : String
  after : Assigned
  afterSpanMs : Int
  nextSong : Option Assigned
  deriving DecidableEq, Repr

inductive Slot
  | song (assigned : Assigned)
  | clip (clip : FinalClip)
  | liner (slot : LinerSlot)
  deriving DecidableEq, Repr

/-! ## Text -/

/-- The host's path functions: what `pathlib` and `os.path` answer. -/
structure HostPaths where
  text : String → String
  isAbsolute : String → Bool
  resolve : String → String
  normpath : String → String
  join : String → String → String

def LONG_PREFIX : String := "\\\\?\\"
def UNC_PREFIX : String := LONG_PREFIX ++ "UNC\\"

/-- The path with the long-path prefix. -/
def longPath (host : HostPaths) (path : String) : String :=
  let text := if host.isAbsolute path then host.text path else host.resolve path
  if text.startsWith LONG_PREFIX then text
  else
    let text := host.normpath text
    if text.startsWith "\\\\" then UNC_PREFIX ++ String.ofList (text.toList.drop 2)
    else LONG_PREFIX ++ text

/-- Three digits, padded with zeros. -/
def millis (ms : Nat) : String :=
  let digits := toString ms
  String.ofList (List.replicate (3 - digits.length) '0') ++ digits

/-- Seconds to the millisecond. -/
def seconds (ms : Nat) : String := toString (ms / 1000) ++ "." ++ millis (ms % 1000)

def roundHalfEven (value : Rat) : Int :=
  let below := value.floor
  let rest := value - below
  if rest < 1 / 2 then below
  else if 1 / 2 < rest then below + 1
  else if below % 2 = 0 then below
  else below + 1

/-- One decimal, the sign kept on what rounds to zero. -/
def oneDecimal (value : Rat) : String :=
  let size := if value < 0 then -value else value
  let tenths := (roundHalfEven (size * 10)).toNat
  (if value < 0 then "-" else "") ++ toString (tenths / 10) ++ "." ++ toString (tenths % 10)

def decibels (gainDb : Rat) : String := oneDecimal gainDb ++ " dB"

/-! ## Payloads -/

/-- One item's annotations, keyed as the engine reads them. -/
structure ItemPayload where
  path : String
  annotations : List (String × String)
  deriving DecidableEq, Repr

def NO_CUES_START_NEXT_MS : Nat := 0

section

variable (host : HostPaths) (timing : StreamTiming)

/-- The annotations for one logged play, landing `offsetMs` into its cue-in. -/
def itemPayload (seq : Nat) (item : ScheduleItem) (offsetMs : Nat) :
    Except StreamError ItemPayload :=
  match item.file with
  | none => .error (.noResolvedFile item.eventId)
  | some file =>
    let (cueInMs, cueOutMs, fadeOutMs, startNextMs, gainDb) := match file.cues with
      | none => (offsetMs, file.durationMs.getD 0, timing.defaultFadeOutMs,
          NO_CUES_START_NEXT_MS, NO_CUES_GAIN_DB)
      | some cues => (cues.cueInMs + offsetMs, cues.cueOutMs, cues.fadeOutMs,
          cues.startNextMs, cues.gainDb)
    if cueOutMs ≤ cueInMs then
      .error (.cueOutNotAfterCueIn cueOutMs cueInMs file.durationMs offsetMs item.eventId)
    else .ok {
      path := longPath host file.path
      annotations := [
        ("item_seq", toString seq),
        ("liq_cue_in", seconds cueInMs),
        ("liq_cue_out", seconds cueOutMs),
        ("liq_fade_in", seconds 0),
        ("liq_fade_out", seconds fadeOutMs),
        ("sn_rem", seconds startNextMs),
        ("liq_amplify", decibels gainDb),
        ("title", item.title),
        ("artist", item.artist)] }

/-- Whether a landing's cues are dropped because its tail is too short for them. -/
def dropsCues (file : PlayableFile) (offsetMs : Nat) : Bool :=
  file.cues.isSome && (file.cuesToPlay offsetMs timing).isNone

/-- The annotations for an item played from `offsetMs`. With its cues dropped it
plays from the same moment of the song on the file's own timeline. -/
def landingPayload (seq : Nat) (item : ScheduleItem) (offsetMs : Nat) :
    Except StreamError ItemPayload :=
  match item.file with
  | none => itemPayload host timing seq item offsetMs
  | some file =>
    match file.cues with
    | none => itemPayload host timing seq item offsetMs
    | some cues =>
      if (file.cuesToPlay offsetMs timing).isSome then itemPayload host timing seq item offsetMs
      else
        itemPayload host timing seq { item with file := some { file with cues := none } }
          (offsetMs + cues.cueInMs)

/-- The sign-off clip, whole, marked final. -/
def finalPayload (seq : Nat) (clip : FinalClip) : ItemPayload where
  path := longPath host clip.path
  annotations := [
    ("item_seq", toString seq),
    ("liq_cue_in", seconds 0),
    ("liq_cue_out", seconds clip.spanMs),
    ("liq_fade_in", seconds 0),
    ("liq_fade_out", seconds 0),
    ("sn_rem", seconds 0),
    ("liq_amplify", decibels NO_CUES_GAIN_DB),
    ("title", ""),
    ("artist", ""),
    ("final", "true")]

/-- A liner at its own cues, the next item starting at its end of message. -/
def linerPayload (seq : Nat) (slot : LinerSlot) : ItemPayload where
  path := longPath host slot.path
  annotations := [
    ("item_seq", toString seq),
    ("liq_cue_in", seconds slot.liner.cues.cueInMs),
    ("liq_cue_out", seconds slot.liner.cues.cueOutMs),
    ("liq_fade_in", seconds 0),
    ("liq_fade_out", seconds 0),
    ("sn_rem", seconds slot.liner.cues.startNextMs),
    ("liq_amplify", decibels slot.liner.cues.gainDb),
    ("title", ""),
    ("artist", "")]

def payload (seq : Nat) : Slot → Except StreamError ItemPayload
  | .clip clip => .ok (finalPayload host seq clip)
  | .liner slot => .ok (linerPayload host seq slot)
  | .song assigned => landingPayload host timing seq assigned.item assigned.offsetMs

/-! ## Songs that can be sent -/

/-- The song is sent with its cues as stored, and its cue-out leaves the fade-out
and the margin after its cue-in. -/
def SentWhole (seq : Nat) (item : ScheduleItem) (offsetMs : Nat) : Prop :=
  (∀ file, item.file = some file → dropsCues timing file offsetMs = false) ∧
  ∃ sent, landingPayload host timing seq item offsetMs = .ok sent ∧
    ∃ cueInMs cueOutMs fadeOutMs,
      ("liq_cue_in", seconds cueInMs) ∈ sent.annotations ∧
      ("liq_cue_out", seconds cueOutMs) ∈ sent.annotations ∧
      ("liq_fade_out", seconds fadeOutMs) ∈ sent.annotations ∧
      cueInMs < cueOutMs ∧ cueInMs + fadeOutMs + timing.marginMs ≤ cueOutMs

variable {host timing}

/-- A song whose tail fits is sent whole. -/
theorem sentWhole_of_tailFits (seq : Nat) {item : ScheduleItem} {file : PlayableFile}
    {offsetMs : Nat} (hfile : item.file = some file) (hspan : offsetMs < file.spanMs)
    (hfits : file.tailFits offsetMs timing) : SentWhole host timing seq item offsetMs := by
  have htail := (file.tailFits_iff offsetMs timing).mp hfits
  have hkept : dropsCues timing file offsetMs = false := by
    cases hcues : file.cues <;> simp [dropsCues, PlayableFile.cuesToPlay, hcues, hfits]
  refine ⟨fun other hother => by rwa [Option.some.inj (hother.symm.trans hfile)], ?_⟩
  cases hcues : file.cues with
  | none =>
      simp only [PlayableFile.spanMs, PlayableFile.minSpanMs, hcues] at hspan htail
      have hsent : ¬ file.durationMs.getD 0 ≤ offsetMs := by omega
      simp only [landingPayload, itemPayload, hfile, hcues, hsent, if_false, Except.ok.injEq,
        exists_eq_left']
      refine ⟨offsetMs, file.durationMs.getD 0, timing.defaultFadeOutMs, ?_⟩
      simp
      omega
  | some cues =>
      simp only [PlayableFile.spanMs, PlayableFile.minSpanMs, hcues] at hspan htail
      have hsent : ¬ cues.cueOutMs ≤ cues.cueInMs + offsetMs := by omega
      have hplay : (file.cuesToPlay offsetMs timing).isSome := by
        simp [PlayableFile.cuesToPlay, hcues, hfits]
      simp only [landingPayload, itemPayload, hfile, hcues, hplay, hsent, if_true, if_false,
        Except.ok.injEq, exists_eq_left']
      refine ⟨cues.cueInMs + offsetMs, cues.cueOutMs, cues.fadeOutMs, ?_⟩
      simp
      omega

end

end RetroStation.Streaming
