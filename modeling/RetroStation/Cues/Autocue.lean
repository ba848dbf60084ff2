import RetroStation.Cues.Values
import RetroStation.Effect.Simulation
import RetroStation.Streaming.Payload
import RetroStation.Text.Decimal

/-! # Autocue's output

The metadata of a file is read as cue points: five texts are seconds and one is a gain. What
cannot be read says why. A gain at the floor of the meter says that the file is silent.
-/

namespace RetroStation.Cues

open Text Effect
open Streaming (roundHalfEven)

/-- The errors that neither the reader nor the store documents. -/
inductive Raised
  | overflow
  | outOfRange (column : String)
  | badHash
  deriving DecidableEq, Repr

/-- Why a text was not read: a reason that is returned, or an error that is raised. -/
inductive Stop
  | unusable (reason : String)
  | raised (error : Raised)
  deriving DecidableEq, Repr

def METER_FLOOR_LUFS : Rat := -70
def AUTOCUE_LUFS_TARGET : Rat := -18
def SILENT_GAIN_DB : Rat := AUTOCUE_LUFS_TARGET - METER_FLOOR_LUFS
def ECHO_CHARS : Nat := 200

/-- The texts that a cue analysis needs. -/
structure AutocueTexts where
  cueIn : String
  cueOut : String
  fadeIn : String
  fadeOut : String
  crossEnd : String
  amplify : String

def AutocueTexts.seconds (texts : AutocueTexts) : List String :=
  [texts.cueIn, texts.cueOut, texts.fadeIn, texts.fadeOut, texts.crossEnd]

def required (metadata : Metadata) (key : String) : Except Stop String :=
  match metadata.lookup key with
  | some text => .ok text
  | none => .error (.unusable s!"missing {key}")

def autocueTexts (metadata : Metadata) : Except Stop AutocueTexts := do
  let cueIn ← required metadata "liq_cue_in"
  let cueOut ← required metadata "liq_cue_out"
  let fadeIn ← required metadata "liq_fade_in"
  let fadeOut ← required metadata "liq_fade_out"
  let crossEnd ← required metadata "liq_cross_end_duration"
  let amplify ← required metadata "liq_amplify"
  return ⟨cueIn, cueOut, fadeIn, fadeOut, crossEnd, amplify⟩

/-- The first check of the constructor that the points fail. -/
def CuePoints.problem (points : CuePoints) : Option String :=
  let nonNegative := [
    ("cue_in_ms", points.cueInMs), ("fade_in_ms", points.fadeInMs),
    ("fade_out_ms", points.fadeOutMs), ("start_next_ms", points.startNextMs)]
  let span := points.cueOutMs - points.cueInMs
  match nonNegative.find? (·.2 < 0) with
  | some (name, value) => some s!"CuePoints.{name} must be >= 0, got {value}"
  | none =>
    if points.cueOutMs ≤ points.cueInMs then
      some (s!"CuePoints.cue_out_ms ({points.cueOutMs}) must be greater than " ++
        s!"cue_in_ms ({points.cueInMs})")
    else if points.startNextMs ≥ span then
      some (s!"CuePoints.start_next_ms ({points.startNextMs}) must be less than the span " ++
        s!"({span})")
    else none

section

variable (digits : Digits) (repr : String → String)

/-- `round(value)`: a float beyond the doubles is infinite. -/
def roundMs (value : ℚ) : Except Stop Int :=
  if |value| < DOUBLE_LIMIT then .ok (roundHalfEven value) else .error (.raised .overflow)

/-- A text's seconds as whole milliseconds, or why not. -/
def secondsToMs (key value : String) : Except Stop Int :=
  match readFloat digits value with
  | some (.finite seconds) => roundMs (seconds * 1000)
  | _ => .error (.unusable s!"{key} is not a number of seconds: {repr value}")

def isDigitOf (char : Char) : Bool := (digits.value char).isSome

/-- The pattern `-?\d+(\.\d+)?`. -/
def isSignedDecimal (text : List Char) : Bool :=
  let unsigned := if text.head? = some '-' then text.tail else text
  let whole := unsigned.takeWhile (isDigitOf digits)
  let after := unsigned.dropWhile (isDigitOf digits)
  whole ≠ [] && (after = [] ||
    (after.head? = some '.' && after.tail ≠ [] && after.tail.all (isDigitOf digits)))

/-- What stands before the unit of a gain: some whole and decimal digits. -/
def gainText (value : String) : Option String :=
  let chars := value.toList
  let start := chars.take (chars.length - " dB".length)
  if chars.drop (chars.length - " dB".length) = " dB".toList ∧ isSignedDecimal digits start then
    some (String.ofList start)
  else none

/-- A text's gain, if it is finite. -/
def readGain (value : String) : Option ℚ :=
  match gainText digits value with
  | none => none
  | some text =>
    match readFloat digits text with
    | some (.finite gain) => some gain
    | _ => none

def gainDb (value : String) : Except Stop ℚ :=
  match readGain digits value with
  | some gain => .ok gain
  | none =>
    let echo := String.ofList ((repr value).toList.take ECHO_CHARS)
    .error (.unusable s!"liq_amplify is not a gain in dB: {echo}")

/-- The parsed values as cue points, or the check they fail. -/
def cuePoints (points : CuePoints) : Except Stop Verdict :=
  match points.problem with
  | none => .ok (.points points)
  | some problem => .error (.unusable problem)

/-- The reading of some metadata, up to where it stops. -/
def readMetadata (metadata : Metadata) : Except Stop Verdict := do
  if metadata = [] then throw (.unusable "autocue returned no metadata")
  let texts ← autocueTexts metadata
  let cueInMs ← secondsToMs digits repr "liq_cue_in" texts.cueIn
  let cueOutMs ← secondsToMs digits repr "liq_cue_out" texts.cueOut
  let fadeInMs ← secondsToMs digits repr "liq_fade_in" texts.fadeIn
  let fadeOutMs ← secondsToMs digits repr "liq_fade_out" texts.fadeOut
  let startNextMs ← secondsToMs digits repr "liq_cross_end_duration" texts.crossEnd
  let gain ← gainDb digits repr texts.amplify
  if gain ≥ SILENT_GAIN_DB then return .silent
  cuePoints ⟨cueInMs, cueOutMs, fadeInMs, fadeOutMs, startNextMs, gain⟩

/-- The cue points that the metadata holds, silence, or why they cannot be used. -/
def autocuePoints (metadata : Metadata) : Except Raised Verdict :=
  match readMetadata digits repr metadata with
  | .ok verdict => .ok verdict
  | .error (.unusable reason) => .ok (.unusable reason)
  | .error (.raised error) => .error error

end

/-! ## What the texts write -/

/-- Points that pass the checks of the constructor. -/
structure CuePoints.Valid (points : CuePoints) : Prop where
  cueIn_nonneg : 0 ≤ points.cueInMs
  fadeIn_nonneg : 0 ≤ points.fadeInMs
  fadeOut_nonneg : 0 ≤ points.fadeOutMs
  startNext_nonneg : 0 ≤ points.startNextMs
  cueIn_lt_cueOut : points.cueInMs < points.cueOutMs
  startNext_lt_span : points.startNextMs < points.cueOutMs - points.cueInMs

theorem CuePoints.problem_eq_none_iff (points : CuePoints) :
    points.problem = none ↔ points.Valid := by
  unfold CuePoints.problem
  dsimp only
  split
  next name value hfound =>
    have hmem := List.mem_of_find?_eq_some hfound
    have hneg := List.find?_some hfound
    simp only [decide_eq_true_eq] at hneg
    refine ⟨nofun, fun hvalid => ?_⟩
    obtain ⟨hin, hfadeIn, hfadeOut, hnext, -, -⟩ := hvalid
    simp only [List.mem_cons, Prod.mk.injEq, List.not_mem_nil, or_false] at hmem
    omega
  next hnone =>
    simp only [List.find?_eq_none, List.mem_cons, List.not_mem_nil, or_false,
      decide_eq_true_eq, forall_eq_or_imp, forall_eq, not_lt] at hnone
    obtain ⟨hin, hfadeIn, hfadeOut, hnext⟩ := hnone
    split
    next hempty => exact ⟨nofun, fun hvalid => absurd hvalid.cueIn_lt_cueOut (by omega)⟩
    next hspan =>
      split
      next hlate => exact ⟨nofun, fun hvalid => absurd hvalid.startNext_lt_span (by omega)⟩
      next hfits =>
        exact ⟨fun _ => ⟨hin, hfadeIn, hfadeOut, hnext, by omega, by omega⟩, fun _ => rfl⟩

variable (digits : Digits) (repr : String → String)

/-- The text is a number of seconds whose milliseconds are within the doubles. -/
def IsSeconds (text : String) : Prop :=
  ∃ seconds, readFloat digits text = some (.finite seconds) ∧ |seconds * 1000| < DOUBLE_LIMIT

/-- The text is a number of seconds whose milliseconds are beyond the doubles. -/
def TooLong (text : String) : Prop :=
  ∃ seconds, readFloat digits text = some (.finite seconds) ∧ DOUBLE_LIMIT ≤ |seconds * 1000|

/-- A text is too long, and those before it are seconds. -/
def MeetsTooLong : List String → Prop
  | [] => False
  | text :: rest => TooLong digits text ∨ (IsSeconds digits text ∧ MeetsTooLong rest)

/-- Some metadata, none of whose texts is missing, meets a text that is too long. -/
def Overflows (metadata : Metadata) : Prop :=
  ∃ texts, autocueTexts metadata = .ok texts ∧ MeetsTooLong digits texts.seconds

/-- The text of a key writes these milliseconds, to the nearest one. -/
def WritesMs (metadata : Metadata) (key : String) (ms : Int) : Prop :=
  ∃ text ∈ metadata.lookup key, ∃ seconds,
    readFloat digits text = some (.finite seconds) ∧ ms = roundHalfEven (seconds * 1000)

/-- The metadata writes these cue points: its texts are their values, which pass the checks, and
its gain is one of audio that is heard. -/
structure Writes (metadata : Metadata) (points : CuePoints) : Prop where
  cueIn : WritesMs digits metadata "liq_cue_in" points.cueInMs
  cueOut : WritesMs digits metadata "liq_cue_out" points.cueOutMs
  fadeIn : WritesMs digits metadata "liq_fade_in" points.fadeInMs
  fadeOut : WritesMs digits metadata "liq_fade_out" points.fadeOutMs
  startNext : WritesMs digits metadata "liq_cross_end_duration" points.startNextMs
  gain : ∃ text ∈ metadata.lookup "liq_amplify", readGain digits text = some points.gainDb
  audible : points.gainDb < SILENT_GAIN_DB
  valid : points.Valid

variable {digits repr} {metadata : Metadata} {key text : String} {ms : Int} {error : Raised}

theorem required_eq_ok_iff :
    required metadata key = .ok text ↔ metadata.lookup key = some text := by
  unfold required
  split
  next found hfound => simp [hfound]
  next hnone => simp [hnone]

theorem required_ne_raised : required metadata key ≠ .error (.raised error) := by
  unfold required
  split <;> simp

theorem autocueTexts_eq_ok_iff {texts : AutocueTexts} :
    autocueTexts metadata = .ok texts ↔
      metadata.lookup "liq_cue_in" = some texts.cueIn ∧
      metadata.lookup "liq_cue_out" = some texts.cueOut ∧
      metadata.lookup "liq_fade_in" = some texts.fadeIn ∧
      metadata.lookup "liq_fade_out" = some texts.fadeOut ∧
      metadata.lookup "liq_cross_end_duration" = some texts.crossEnd ∧
      metadata.lookup "liq_amplify" = some texts.amplify := by
  obtain ⟨cueIn, cueOut, fadeIn, fadeOut, crossEnd, amplify⟩ := texts
  simp [autocueTexts, bind_eq_ok_iff, required_eq_ok_iff, pure, Except.pure]

theorem autocueTexts_ne_raised : autocueTexts metadata ≠ .error (.raised error) := by
  simp [autocueTexts, bind_eq_error_iff, required_ne_raised, pure, Except.pure]

theorem secondsToMs_eq_ok_iff : secondsToMs digits repr key text = .ok ms ↔
    ∃ seconds, readFloat digits text = some (.finite seconds) ∧
      |seconds * 1000| < DOUBLE_LIMIT ∧ ms = roundHalfEven (seconds * 1000) := by
  unfold secondsToMs
  split
  next seconds hread =>
    unfold roundMs
    split
    next hfits => simp [-abs_mul, hread, hfits, eq_comm]
    next hlong => simp [-abs_mul, hread, hlong]
  next hnot => exact ⟨nofun, fun ⟨seconds, hread, _⟩ => absurd hread (hnot seconds)⟩

theorem secondsToMs_eq_raised_iff :
    secondsToMs digits repr key text = .error (.raised error) ↔
      TooLong digits text ∧ error = .overflow := by
  unfold secondsToMs TooLong
  split
  next seconds hread =>
    unfold roundMs
    split
    next hfits => simp [-abs_mul, hread, hfits]
    next hlong => simp [-abs_mul, hread, not_lt.mp hlong, eq_comm]
  next hnot => exact ⟨nofun, fun ⟨⟨seconds, hread, _⟩, _⟩ => absurd hread (hnot seconds)⟩

theorem isSeconds_iff :
    IsSeconds digits text ↔ ∃ ms, secondsToMs digits repr key text = .ok ms := by
  simp only [IsSeconds, secondsToMs_eq_ok_iff]
  exact ⟨fun ⟨seconds, hread, hshort⟩ => ⟨_, seconds, hread, hshort, rfl⟩,
    fun ⟨_, seconds, hread, hshort, _⟩ => ⟨seconds, hread, hshort⟩⟩

theorem gainDb_eq_ok_iff {gain : ℚ} :
    gainDb digits repr text = .ok gain ↔ readGain digits text = some gain := by
  unfold gainDb
  split
  next found hfound => simp [hfound]
  next hnone => simp [hnone]

theorem gainDb_ne_raised : gainDb digits repr text ≠ .error (.raised error) := by
  unfold gainDb
  split <;> simp

theorem cuePoints_eq_points_iff {points found : CuePoints} :
    cuePoints points = .ok (.points found) ↔ found = points ∧ points.Valid := by
  unfold cuePoints
  rw [← CuePoints.problem_eq_none_iff]
  split
  next hnone => simp [hnone, eq_comm]
  next problem hsome => simp [hsome]

theorem cuePoints_ne_raised {points : CuePoints} : cuePoints points ≠ .error (.raised error) := by
  unfold cuePoints
  split <;> simp

theorem heard_ne_raised {points : CuePoints} {gain : ℚ} :
    (if gain ≥ SILENT_GAIN_DB then pure .silent else cuePoints points) ≠
      Except.error (.raised error) := by
  split
  · nofun
  · exact cuePoints_ne_raised

/-- An error is raised by a text that is too long, and by nothing else. -/
theorem readMetadata_eq_raised_iff :
    readMetadata digits repr metadata = .error (.raised error) ↔
      Overflows digits metadata ∧ error = .overflow := by
  unfold readMetadata
  split
  next hempty =>
    subst hempty
    simp [Overflows, autocueTexts_eq_ok_iff, throw, throwThe, MonadExceptOf.throw, bind,
      Except.bind]
  next hsome =>
    simp only [bind_eq_error_iff, autocueTexts_ne_raised, false_or, gainDb_ne_raised,
      secondsToMs_eq_raised_iff, heard_ne_raised, and_false, exists_false, or_false,
      exists_and_right, ← isSeconds_iff, ← and_assoc, ← or_and_right]
    simp only [Overflows, AutocueTexts.seconds, MeetsTooLong, or_false, and_false]

/-- When no text is met that is too long, all are seconds if all are numbers. -/
theorem isSeconds_of_not_meetsTooLong {texts : List String} (hshort : ¬MeetsTooLong digits texts)
    (hreads : ∀ text ∈ texts, ∃ seconds, readFloat digits text = some (.finite seconds)) :
    ∀ text ∈ texts, IsSeconds digits text := by
  induction texts with
  | nil => simp
  | cons first rest ih =>
      simp only [MeetsTooLong, not_or, not_and] at hshort
      simp only [List.forall_mem_cons] at hreads ⊢
      obtain ⟨⟨seconds, hread⟩, hrest⟩ := hreads
      have hfirst : IsSeconds digits first :=
        ⟨seconds, hread, not_le.mp fun hlong => hshort.1 ⟨seconds, hread, hlong⟩⟩
      exact ⟨hfirst, ih (hshort.2 hfirst) hrest⟩

theorem writesMs_of_secondsToMs (hlookup : metadata.lookup key = some text)
    (hms : secondsToMs digits repr key text = .ok ms) : WritesMs digits metadata key ms := by
  obtain ⟨seconds, hread, -, hround⟩ := secondsToMs_eq_ok_iff.mp hms
  exact ⟨text, hlookup, seconds, hread, hround⟩

theorem secondsToMs_of_writesMs (hwrites : WritesMs digits metadata key ms)
    (hlookup : metadata.lookup key = some text) (hseconds : IsSeconds digits text) :
    secondsToMs digits repr key text = .ok ms := by
  obtain ⟨found, hfound, seconds, hread, hround⟩ := hwrites
  obtain rfl : found = text := Option.some.inj (hfound.symm.trans hlookup)
  obtain ⟨same, hsame, hshort⟩ := hseconds
  obtain rfl : seconds = same := by simpa [hread] using hsame
  exact secondsToMs_eq_ok_iff.mpr ⟨seconds, hread, hshort, hround⟩

theorem readMetadata_eq_points {points : CuePoints}
    (hread : readMetadata digits repr metadata = .ok (.points points)) :
    Writes digits metadata points := by
  unfold readMetadata at hread
  split at hread
  next hempty => cases hread
  next hsome =>
    simp only [bind_eq_ok_iff, gainDb_eq_ok_iff] at hread
    obtain ⟨texts, htexts, cueInMs, hcueIn, cueOutMs, hcueOut, fadeInMs, hfadeIn, fadeOutMs,
      hfadeOut, startNextMs, hstartNext, gain, hgain, hheard⟩ := hread
    obtain ⟨hin, hout, hinFade, houtFade, hcross, hamplify⟩ := autocueTexts_eq_ok_iff.mp htexts
    split at hheard
    next hsilent => cases hheard
    next haudible =>
      obtain ⟨rfl, hvalid⟩ := cuePoints_eq_points_iff.mp hheard
      exact {
        cueIn := writesMs_of_secondsToMs hin hcueIn
        cueOut := writesMs_of_secondsToMs hout hcueOut
        fadeIn := writesMs_of_secondsToMs hinFade hfadeIn
        fadeOut := writesMs_of_secondsToMs houtFade hfadeOut
        startNext := writesMs_of_secondsToMs hcross hstartNext
        gain := ⟨texts.amplify, hamplify, hgain⟩
        audible := not_le.mp haudible
        valid := hvalid }

theorem readMetadata_of_writes (hshort : ¬Overflows digits metadata) {points : CuePoints}
    (hwrites : Writes digits metadata points) :
    readMetadata digits repr metadata = .ok (.points points) := by
  have hsome : metadata ≠ [] := by
    rintro rfl
    obtain ⟨text, hlookup, -⟩ := hwrites.cueIn
    cases hlookup
  obtain ⟨cueIn, hin, inSeconds, hreadIn, -⟩ := hwrites.cueIn
  obtain ⟨cueOut, hout, outSeconds, hreadOut, -⟩ := hwrites.cueOut
  obtain ⟨fadeIn, hinFade, inFadeSeconds, hreadInFade, -⟩ := hwrites.fadeIn
  obtain ⟨fadeOut, houtFade, outFadeSeconds, hreadOutFade, -⟩ := hwrites.fadeOut
  obtain ⟨crossEnd, hcross, crossSeconds, hreadCross, -⟩ := hwrites.startNext
  obtain ⟨amplify, hamplify, hgain⟩ := hwrites.gain
  have htexts : autocueTexts metadata = .ok ⟨cueIn, cueOut, fadeIn, fadeOut, crossEnd, amplify⟩ :=
    autocueTexts_eq_ok_iff.mpr ⟨hin, hout, hinFade, houtFade, hcross, hamplify⟩
  have hseconds := isSeconds_of_not_meetsTooLong (fun hlong => hshort ⟨_, htexts, hlong⟩) (by
    simp only [AutocueTexts.seconds, List.forall_mem_cons]
    exact ⟨⟨_, hreadIn⟩, ⟨_, hreadOut⟩, ⟨_, hreadInFade⟩, ⟨_, hreadOutFade⟩, ⟨_, hreadCross⟩,
      nofun⟩)
  simp only [AutocueTexts.seconds, List.forall_mem_cons] at hseconds
  obtain ⟨hcueIn, hcueOut, hfadeIn, hfadeOut, hcrossEnd, -⟩ := hseconds
  unfold readMetadata
  rw [if_neg hsome]
  simp only [bind_eq_ok_iff, gainDb_eq_ok_iff]
  refine ⟨_, htexts, _, secondsToMs_of_writesMs hwrites.cueIn hin hcueIn,
    _, secondsToMs_of_writesMs hwrites.cueOut hout hcueOut,
    _, secondsToMs_of_writesMs hwrites.fadeIn hinFade hfadeIn,
    _, secondsToMs_of_writesMs hwrites.fadeOut houtFade hfadeOut,
    _, secondsToMs_of_writesMs hwrites.startNext hcross hcrossEnd, _, hgain, ?_⟩
  rw [if_neg (not_le.mpr hwrites.audible)]
  exact cuePoints_eq_points_iff.mpr ⟨rfl, hwrites.valid⟩

/-! ## What is decided -/

/-- The reading is decided unless a text is too long. -/
theorem autocuePoints_cases (metadata : Metadata) :
    (Overflows digits metadata ∧ autocuePoints digits repr metadata = .error .overflow) ∨
      (¬Overflows digits metadata ∧ ∃ verdict, autocuePoints digits repr metadata = .ok verdict ∧
        ∀ points, verdict = .points points ↔ Writes digits metadata points) := by
  unfold autocuePoints
  by_cases hlong : Overflows digits metadata
  · have hraised : readMetadata digits repr metadata = .error (.raised .overflow) :=
      readMetadata_eq_raised_iff.mpr ⟨hlong, rfl⟩
    rw [hraised]
    exact .inl ⟨hlong, rfl⟩
  · have hpoints : ∀ points, readMetadata digits repr metadata = .ok (.points points) ↔
        Writes digits metadata points := fun points =>
      ⟨readMetadata_eq_points, readMetadata_of_writes hlong⟩
    refine .inr ⟨hlong, ?_⟩
    cases hread : readMetadata digits repr metadata with
    | ok verdict =>
        refine ⟨verdict, rfl, fun points => ?_⟩
        rw [← hpoints points, hread, Except.ok.injEq]
    | error stop =>
        cases stop with
        | unusable reason =>
            refine ⟨.unusable reason, rfl, fun points => ?_⟩
            rw [← hpoints points, hread]
            exact ⟨nofun, nofun⟩
        | raised error => exact absurd (readMetadata_eq_raised_iff.mp hread).1 hlong

end RetroStation.Cues
