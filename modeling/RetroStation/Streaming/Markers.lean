import RetroStation.Streaming.Payload

/-! # Cue markers

The four positions a person edits, and the engine's points for them. Markers are
positions from the start of the file; a fade-out and a next start are lengths back
from the stop.
-/

namespace RetroStation.Streaming

@[ext]
structure CueMarkers where
  startMs : Nat
  eomMs : Nat
  fadeAtMs : Nat
  stopMs : Nat
  start_lt_eom : startMs < eomMs
  eom_le_stop : eomMs ≤ stopMs
  start_le_fadeAt : startMs ≤ fadeAtMs
  fadeAt_le_stop : fadeAtMs ≤ stopMs
  deriving Repr

instance : DecidableEq CueMarkers := fun first second =>
  decidable_of_iff (first.startMs = second.startMs ∧ first.eomMs = second.eomMs ∧
    first.fadeAtMs = second.fadeAtMs ∧ first.stopMs = second.stopMs) CueMarkers.ext_iff.symm

namespace CueMarkers

/-- What the constructor asks of its four numbers. -/
def Fit (startMs eomMs fadeAtMs stopMs : Int) : Prop :=
  0 ≤ startMs ∧ (startMs < eomMs ∧ eomMs ≤ stopMs) ∧ startMs ≤ fadeAtMs ∧ fadeAtMs ≤ stopMs

instance (startMs eomMs fadeAtMs stopMs : Int) : Decidable (Fit startMs eomMs fadeAtMs stopMs) :=
  inferInstanceAs (Decidable (_ ∧ _))

/-- The markers at these positions, or none where the constructor refuses them. -/
def init? (startMs eomMs fadeAtMs stopMs : Int) : Option CueMarkers :=
  if h : Fit startMs eomMs fadeAtMs stopMs then
    some ⟨startMs.toNat, eomMs.toNat, fadeAtMs.toNat, stopMs.toNat,
      by unfold Fit at h; omega, by unfold Fit at h; omega,
      by unfold Fit at h; omega, by unfold Fit at h; omega⟩
  else none

/-- The markers a song opens with. A fade longer than the span begins at the start. -/
def fromPoints (points : CuePoints) : CueMarkers where
  startMs := points.cueInMs
  eomMs := points.cueOutMs - points.startNextMs
  fadeAtMs := max points.cueInMs (points.cueOutMs - points.fadeOutMs)
  stopMs := points.cueOutMs
  start_lt_eom := by have := points.startNext_lt_span; omega
  eom_le_stop := Nat.sub_le _ _
  start_le_fadeAt := Nat.le_max_left _ _
  fadeAt_le_stop := by have := points.cueIn_lt_cueOut; omega

/-- The engine's points for these markers: no fade-in, the next deck starts at EOM. -/
def toPoints (markers : CueMarkers) (gainDb : Rat) : CuePoints where
  cueInMs := markers.startMs
  cueOutMs := markers.stopMs
  fadeInMs := 0
  fadeOutMs := markers.stopMs - markers.fadeAtMs
  startNextMs := markers.stopMs - markers.eomMs
  gainDb := gainDb
  cueIn_lt_cueOut := lt_of_lt_of_le markers.start_lt_eom markers.eom_le_stop
  startNext_lt_span := by have := markers.start_lt_eom; have := markers.eom_le_stop; omega

end CueMarkers

/-- A liner's edit: its fade-out is always its stop. -/
def linerMarkers? (startMs eomMs stopMs : Int) : Option CueMarkers :=
  CueMarkers.init? startMs eomMs stopMs stopMs

/-- The points an edit plays: its positions, and the gain of the stored row. -/
def editedCues (markers : CueMarkers) (stored : Option CuePoints) : CuePoints :=
  let gainDb := match stored with
    | some stored => stored.gainDb
    | none => NO_CUES_GAIN_DB
  markers.toPoints gainDb

namespace CueMarkers

theorem init?_eq_some_iff {startMs eomMs fadeAtMs stopMs : Int} {markers : CueMarkers} :
    init? startMs eomMs fadeAtMs stopMs = some markers ↔
      startMs = markers.startMs ∧ eomMs = markers.eomMs ∧
        fadeAtMs = markers.fadeAtMs ∧ stopMs = markers.stopMs := by
  unfold init?
  constructor
  · intro hinit
    split at hinit
    next hfit =>
      obtain ⟨hstart, ⟨heom, hstop⟩, hfade, hfadeStop⟩ := hfit
      cases hinit
      refine ⟨?_, ?_, ?_, ?_⟩ <;> dsimp only <;> omega
    · cases hinit
  · rintro ⟨rfl, rfl, rfl, rfl⟩
    have hfit : Fit markers.startMs markers.eomMs markers.fadeAtMs markers.stopMs :=
      ⟨by omega, ⟨by exact_mod_cast markers.start_lt_eom, by exact_mod_cast markers.eom_le_stop⟩,
        by exact_mod_cast markers.start_le_fadeAt, by exact_mod_cast markers.fadeAt_le_stop⟩
    rw [dif_pos hfit]
    rfl

theorem init?_of_fit {startMs eomMs fadeAtMs stopMs : Int}
    (hfit : Fit startMs eomMs fadeAtMs stopMs) :
    ∃ markers, init? startMs eomMs fadeAtMs stopMs = some markers :=
  ⟨_, dif_pos hfit⟩

/-- An edit opens again as the markers it was saved with. -/
theorem fromPoints_toPoints (markers : CueMarkers) (gainDb : Rat) :
    fromPoints (markers.toPoints gainDb) = markers := by
  have heom := markers.eom_le_stop
  have hfade := markers.start_le_fadeAt
  have hfadeStop := markers.fadeAt_le_stop
  ext <;> simp only [fromPoints, toPoints] <;> omega

end CueMarkers

end RetroStation.Streaming
