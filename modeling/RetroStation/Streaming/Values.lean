import Mathlib.Data.Rat.Defs

/-! # Streaming values

Schedule positions, cue points and timing. A value that the source refuses to
build has no counterpart here: what its constructor checks is a field. Days are
counted from the first day of the calendar, datetimes and lengths of time in
microseconds.
-/

namespace RetroStation.Streaming

/-- Identifiers are only ever compared. -/
abbrev Uuid := Nat

def MICROS_PER_DAY : Int := 86400000000

/-- Whole milliseconds in `delta`, rounded down. -/
def toMs (delta : Int) : Int := delta / 1000

/-- Analysed playback points of one file. `startNextMs` counts back from `cueOutMs`. -/
@[ext]
structure CuePoints where
  cueInMs : Nat
  cueOutMs : Nat
  fadeInMs : Nat
  fadeOutMs : Nat
  startNextMs : Nat
  gainDb : Rat
  cueIn_lt_cueOut : cueInMs < cueOutMs
  startNext_lt_span : startNextMs < cueOutMs - cueInMs
  deriving DecidableEq, Repr

/-- A song with no cues plays at its recorded level. -/
def NO_CUES_GAIN_DB : Rat := 0

structure StreamTiming where
  defaultFadeOutMs : Nat := 4000
  marginMs : Nat := 3000
  window : Int := 10800000000
  maxDaysAhead : Nat := 2
  window_pos : 0 < window := by decide
  maxDaysAhead_pos : 1 ≤ maxDaysAhead := by decide
  deriving DecidableEq, Repr

/-- The library file a play resolves to. -/
structure PlayableFile where
  fileId : Uuid
  path : String
  durationMs : Option Nat
  cues : Option CuePoints
  deriving DecidableEq, Repr

namespace PlayableFile

/-- Audible length: cue-in to cue-out when analysed, else the tagged duration. -/
def spanMs (file : PlayableFile) : Nat :=
  match file.cues with
  | some cues => cues.cueOutMs - cues.cueInMs
  | none => file.durationMs.getD 0

/-- The shortest audible stretch that fades out cleanly. -/
def minSpanMs (file : PlayableFile) (timing : StreamTiming) : Nat :=
  let fadeOut := match file.cues with
    | some cues => cues.fadeOutMs
    | none => timing.defaultFadeOutMs
  fadeOut + timing.marginMs

/-- Whether starting `offsetMs` after cue-in leaves the minimum span. -/
def tailFits (file : PlayableFile) (offsetMs : Int) (timing : StreamTiming) : Bool :=
  (file.spanMs : Int) - offsetMs ≥ file.minSpanMs timing

def isPlayable (file : PlayableFile) (timing : StreamTiming) : Bool :=
  file.spanMs > 0 && file.tailFits 0 timing

/-- The cues to play from `offsetMs` after cue-in, when they leave the minimum span. -/
def cuesToPlay (file : PlayableFile) (offsetMs : Int) (timing : StreamTiming) :
    Option CuePoints :=
  match file.cues with
  | some cues => if file.tailFits offsetMs timing then some cues else none
  | none => none

/-- This file with the cues stored now, unless they would leave it unplayable. -/
def withStoredCues (file : PlayableFile) (cues : Option CuePoints) (timing : StreamTiming) :
    PlayableFile :=
  let candidate := { file with cues := cues }
  if candidate.isPlayable timing then candidate else file

theorem tailFits_iff (file : PlayableFile) (offsetMs : Nat) (timing : StreamTiming) :
    file.tailFits offsetMs timing ↔ offsetMs + file.minSpanMs timing ≤ file.spanMs := by
  simp only [tailFits, ge_iff_le, decide_eq_true_eq]
  omega

theorem isPlayable_iff (file : PlayableFile) (timing : StreamTiming) :
    file.isPlayable timing ↔ 0 < file.spanMs ∧ file.minSpanMs timing ≤ file.spanMs := by
  have hzero := file.tailFits_iff 0 timing
  simp only [Nat.zero_add] at hzero
  simp only [isPlayable, Bool.and_eq_true, gt_iff_lt, decide_eq_true_eq]
  exact and_congr_right fun _ => hzero

/-- Stored cues never make a playable file unplayable, nor change which file it is. -/
theorem withStoredCues_isPlayable {file : PlayableFile} {timing : StreamTiming}
    (hfile : file.isPlayable timing) (cues : Option CuePoints) :
    (file.withStoredCues cues timing).isPlayable timing := by
  unfold withStoredCues
  dsimp only
  split
  next hcandidate => exact hcandidate
  · exact hfile

@[simp] theorem withStoredCues_fileId (file : PlayableFile) (cues : Option CuePoints)
    (timing : StreamTiming) : (file.withStoredCues cues timing).fileId = file.fileId := by
  unfold withStoredCues
  dsimp only
  split <;> rfl

end PlayableFile

/-- One logged play with the file it resolves to, or none. -/
structure ScheduleItem where
  eventId : Uuid
  loggedAt : Int
  title : String
  artist : String
  file : Option PlayableFile
  deriving DecidableEq, Repr

def ScheduleItem.isPlayable (item : ScheduleItem) (timing : StreamTiming) : Bool :=
  match item.file with
  | some file => file.isPlayable timing
  | none => false

theorem ScheduleItem.isPlayable_iff (item : ScheduleItem) (timing : StreamTiming) :
    item.isPlayable timing ↔ ∃ file, item.file = some file ∧ file.isPlayable timing := by
  unfold ScheduleItem.isPlayable
  cases item.file <;> simp

/-- One station day in logged order, empty when the day has no log. The same
day is always answered with the same items. -/
abbrev DayLoader := Nat → List ScheduleItem

/-- Position of a play: its day and its index in that day's logged order. -/
structure ItemRef where
  day : Nat
  index : Nat
  deriving DecidableEq, Repr

namespace ItemRef

/-- Earlier in the log. -/
instance : LT ItemRef where
  lt first second := first.day < second.day ∨ first.day = second.day ∧ first.index < second.index

theorem lt_def (first second : ItemRef) :
    first < second ↔ first.day < second.day ∨
      first.day = second.day ∧ first.index < second.index := Iff.rfl

instance (first second : ItemRef) : Decidable (first < second) :=
  decidable_of_iff' _ (lt_def first second)

theorem lt_trans {first second third : ItemRef} (hfirst : first < second)
    (hsecond : second < third) : first < third := by
  simp only [lt_def] at *
  omega

theorem lt_irrefl (ref : ItemRef) : ¬ ref < ref := by
  simp only [lt_def]
  omega

end ItemRef

/-- Why nothing playable is scheduled at this time. -/
inductive NoBroadcast
  | noLeapDay (year : Nat)
  | noPlays (day : Nat)
  | nothingPlayable (wall : Int)
  | beyondWindow (loggedAt wall : Int)
  deriving DecidableEq, Repr

inductive StreamError
  | invalidOffset (offsetMs : Int)
  | noBroadcast (why : NoBroadcast)
  | endOfSchedule (after : ItemRef)
  | staleSchedule (ref : ItemRef) (length : Nat)
  | yearOutOfRange (year : Nat)
  | dateOverflow
  | noResolvedFile (eventId : Uuid)
  | cueOutNotAfterCueIn (cueOutMs cueInMs : Nat) (durationMs : Option Nat) (offsetMs : Nat)
      (eventId : Uuid)
  deriving DecidableEq, Repr

/-- Where playback starts: an item, and ms after its cue-in. -/
structure Landing where
  ref : ItemRef
  offsetMs : Nat
  deriving DecidableEq, Repr

namespace Landing

/-- A negative offset is refused. -/
def make (ref : ItemRef) (offsetMs : Int) : Except StreamError Landing :=
  if offsetMs < 0 then .error (.invalidOffset offsetMs) else .ok ⟨ref, offsetMs.toNat⟩

/-- The same item, further in by `elapsed`; negative elapsed counts as zero. -/
def advancedBy (landing : Landing) (elapsed : Int) : Landing :=
  ⟨landing.ref, landing.offsetMs + (toMs (max 0 elapsed)).toNat⟩

@[simp] theorem advancedBy_ref (landing : Landing) (elapsed : Int) :
    (landing.advancedBy elapsed).ref = landing.ref := rfl

theorem make_eq_ok {ref : ItemRef} {offsetMs : Int} {landing : Landing}
    (hmake : make ref offsetMs = .ok landing) :
    landing.ref = ref ∧ (landing.offsetMs : Int) = offsetMs := by
  unfold make at hmake
  split at hmake
  · cases hmake
  next hnonneg =>
    cases hmake
    exact ⟨rfl, Int.toNat_of_nonneg (by omega)⟩

end Landing

/-- Result of a clock tune-in. -/
structure TuneIn where
  landing : Landing
  clockOffset : Int
  deriving DecidableEq, Repr

/-- Where a listener left. -/
structure Bookmark where
  landing : Landing
  loggedAt : Int
  leftAt : Int
  clockOffset : Int
  deriving DecidableEq, Repr

namespace Bookmark

/-- The station time at which the bookmarked position stops being ahead. -/
def expiresAt (bookmark : Bookmark) : Int :=
  bookmark.loggedAt + bookmark.landing.offsetMs * 1000

def isExpired (bookmark : Bookmark) (now : Int) : Bool :=
  now + bookmark.clockOffset ≥ bookmark.expiresAt

end Bookmark

end RetroStation.Streaming
