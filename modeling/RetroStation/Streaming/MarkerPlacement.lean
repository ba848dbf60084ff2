import Mathlib.Data.Rat.Floor
import Mathlib.Tactic.Linarith
import RetroStation.Streaming.Markers

/-! # Placing markers in the cue editor

The editor's own arithmetic. A position of the pointer is any number; a placed
marker is rounded to whole milliseconds and held between the other three.
-/

namespace RetroStation.Streaming

inductive MarkerKey
  | start
  | eom
  | fadeAt
  | stop
  deriving DecidableEq, Repr

/-- The editor's markers: numbers, with nothing that keeps them in order. -/
@[ext]
structure Markers where
  start : Rat
  eom : Rat
  fadeAt : Rat
  stop : Rat
  deriving DecidableEq, Repr

/-- `m[key]`. -/
def Markers.get (m : Markers) : MarkerKey → Rat
  | .start => m.start
  | .eom => m.eom
  | .fadeAt => m.fadeAt
  | .stop => m.stop

/-- `{ ...m, [key]: placed }`. -/
def Markers.set (m : Markers) (key : MarkerKey) (placed : Rat) : Markers :=
  match key with
  | .start => { m with start := placed }
  | .eom => { m with eom := placed }
  | .fadeAt => { m with fadeAt := placed }
  | .stop => { m with stop := placed }

/-- `Math.round`: halves go up. -/
def mathRound (x : Rat) : Rat := (x + 1 / 2).floor

def clamp (value lo hi : Rat) : Rat := min (max value lo) (max lo hi)

/-- Place one marker, rounded to whole ms, inside what the other three allow. -/
def placeMarker (m : Markers) (key : MarkerKey) (ms durationMs : Rat) : Markers :=
  let value := mathRound ms
  let placed := match key with
    | .start => clamp value 0 (min (min (m.eom - 1) m.fadeAt) (m.stop - 1))
    | .eom => clamp value (m.start + 1) m.stop
    | .fadeAt => clamp value m.start m.stop
    | .stop => clamp value (max m.eom m.fadeAt) durationMs
  m.set key placed

/-- Place a marker where Fade-out is pinned to Stop. -/
def placeMarkerFadeAtStop (m : Markers) (key : MarkerKey) (ms durationMs : Rat) : Markers :=
  -- With Fade-out at EOM for the placement, it limits nothing that EOM does not.
  let placed := placeMarker { m with fadeAt := m.eom } key ms durationMs
  { placed with fadeAt := placed.stop }

def nudge (m : Markers) (key : MarkerKey) (deltaMs durationMs : Rat) : Markers :=
  placeMarker m key (m.get key + deltaMs) durationMs

/-- The number as the server reads it: whole, or refused. -/
def asInt? (x : Rat) : Option Int := if x.den = 1 then some x.num else none

/-- The markers that the server builds from what the editor sends. -/
def Markers.received? (m : Markers) : Option CueMarkers := do
  let startMs ← asInt? m.start
  let eomMs ← asInt? m.eom
  let fadeAtMs ← asInt? m.fadeAt
  let stopMs ← asInt? m.stop
  CueMarkers.init? startMs eomMs fadeAtMs stopMs

/-- The markers that the server builds from what a liner's editor sends. -/
def Markers.receivedLiner? (m : Markers) : Option CueMarkers := do
  let startMs ← asInt? m.start
  let eomMs ← asInt? m.eom
  let stopMs ← asInt? m.stop
  linerMarkers? startMs eomMs stopMs

/-- Markers as the server sends them. -/
def CueMarkers.toMarkers (markers : CueMarkers) : Markers :=
  ⟨markers.startMs, markers.eomMs, markers.fadeAtMs, markers.stopMs⟩

/-- One change that a person makes. -/
inductive MarkerChange
  | place (key : MarkerKey) (ms : Rat)
  | placeFadeAtStop (key : MarkerKey) (ms : Rat)
  | nudge (key : MarkerKey) (deltaMs : Rat)
  deriving DecidableEq, Repr

def MarkerChange.apply (durationMs : Rat) (m : Markers) : MarkerChange → Markers
  | .place key ms => placeMarker m key ms durationMs
  | .placeFadeAtStop key ms => placeMarkerFadeAtStop m key ms durationMs
  | .nudge key deltaMs => RetroStation.Streaming.nudge m key deltaMs durationMs

/-- The markers that a change may move. -/
def MarkerChange.moves : MarkerChange → MarkerKey → Bool
  | .place key _, other => other == key
  | .placeFadeAtStop key _, other => other == key || other == .fadeAt
  | .nudge key _, other => other == key

/-- The markers after a sequence of changes. -/
def Markers.after (durationMs : Rat) (m : Markers) (changes : List MarkerChange) : Markers :=
  changes.foldl (MarkerChange.apply durationMs) m

/-- Whole milliseconds. -/
def IsWhole (x : Rat) : Prop := ∃ ms : Int, x = ms

/-- Whole milliseconds in the order that the server asks for, within the duration. -/
structure Markers.Valid (m : Markers) (durationMs : Rat) : Prop where
  whole : ∀ key, IsWhole (m.get key)
  start_nonneg : 0 ≤ m.start
  start_lt_eom : m.start < m.eom
  eom_le_stop : m.eom ≤ m.stop
  stop_le_duration : m.stop ≤ durationMs
  start_le_fadeAt : m.start ≤ m.fadeAt
  fadeAt_le_stop : m.fadeAt ≤ m.stop

/-! ## Rounding and clamping -/

section Whole

variable {x y : Rat}

theorem isWhole_natCast (n : Nat) : IsWhole n := ⟨n, by simp⟩

theorem isWhole_mathRound (x : Rat) : IsWhole (mathRound x) := ⟨_, rfl⟩

theorem IsWhole.add_one (hx : IsWhole x) : IsWhole (x + 1) := by
  obtain ⟨n, rfl⟩ := hx
  exact ⟨n + 1, by push_cast; rfl⟩

theorem IsWhole.sub_one (hx : IsWhole x) : IsWhole (x - 1) := by
  obtain ⟨n, rfl⟩ := hx
  exact ⟨n - 1, by push_cast; rfl⟩

theorem IsWhole.min (hx : IsWhole x) (hy : IsWhole y) : IsWhole (min x y) := by
  cases le_total x y with
  | inl hle => rwa [min_eq_left hle]
  | inr hle => rwa [min_eq_right hle]

theorem IsWhole.max (hx : IsWhole x) (hy : IsWhole y) : IsWhole (max x y) := by
  cases le_total x y with
  | inl hle => rwa [max_eq_right hle]
  | inr hle => rwa [max_eq_left hle]

theorem IsWhole.clamp {value : Rat} (hvalue : IsWhole value) (hx : IsWhole x) (hy : IsWhole y) :
    IsWhole (clamp value x y) :=
  (hvalue.max hx).min (hx.max hy)

/-- Between whole numbers there is a gap of at least one. -/
theorem IsWhole.add_one_le (hx : IsWhole x) (hy : IsWhole y) (hlt : x < y) : x + 1 ≤ y := by
  obtain ⟨n, rfl⟩ := hx
  obtain ⟨k, rfl⟩ := hy
  exact_mod_cast Int.add_one_le_of_lt (by exact_mod_cast hlt)

theorem IsWhole.mathRound_eq (hx : IsWhole x) : mathRound x = x := by
  obtain ⟨n, rfl⟩ := hx
  have hle : n ≤ ((n : Rat) + 1 / 2).floor := Rat.le_floor_iff.mpr (by linarith)
  have hlt : ((n : Rat) + 1 / 2).floor < n + 1 := Rat.floor_lt_iff.mpr (by push_cast; linarith)
  rw [mathRound, le_antisymm (Int.lt_add_one_iff.mp hlt) hle]

theorem IsWhole.asInt?_eq {n : Int} (hx : x = n) : asInt? x = some n := by
  subst hx
  simp [asInt?]

end Whole

theorem clamp_mem (value : Rat) {lo hi : Rat} (hle : lo ≤ hi) :
    lo ≤ clamp value lo hi ∧ clamp value lo hi ≤ hi := by
  rw [clamp, max_eq_right hle]
  exact ⟨le_min (le_max_right _ _) hle, min_le_right _ _⟩

theorem clamp_of_mem {value lo hi : Rat} (hlo : lo ≤ value) (hhi : value ≤ hi) :
    clamp value lo hi = value := by
  rw [clamp, max_eq_left hlo, max_eq_right (hlo.trans hhi), min_eq_left hhi]

/-! ## One placement -/

namespace Markers

/-- The range that the other three markers leave for one. -/
def limits (m : Markers) (durationMs : Rat) : MarkerKey → Rat × Rat
  | .start => (0, min (min (m.eom - 1) m.fadeAt) (m.stop - 1))
  | .eom => (m.start + 1, m.stop)
  | .fadeAt => (m.start, m.stop)
  | .stop => (max m.eom m.fadeAt, durationMs)

@[simp] theorem get_set (m : Markers) (key : MarkerKey) (placed : Rat) :
    (m.set key placed).get key = placed := by
  cases key <;> rfl

theorem get_set_of_ne (m : Markers) {key other : MarkerKey} (hne : other ≠ key) (placed : Rat) :
    (m.set key placed).get other = m.get other := by
  cases key <;> cases other <;> first | rfl | exact absurd rfl hne

@[simp] theorem set_get (m : Markers) (key : MarkerKey) : m.set key (m.get key) = m := by
  cases key <;> rfl

namespace Valid

variable {m : Markers} {durationMs : Rat} (hm : m.Valid durationMs)
include hm

/-- A valid marker lies in its own range. -/
theorem get_mem_limits (key : MarkerKey) :
    (m.limits durationMs key).1 ≤ m.get key ∧ m.get key ≤ (m.limits durationMs key).2 := by
  have hstart := (hm.whole .start).add_one_le (hm.whole .eom) hm.start_lt_eom
  simp only [Markers.get] at hstart
  have heom := hm.eom_le_stop
  cases key with
  | start =>
    refine ⟨hm.start_nonneg, le_min (le_min ?_ hm.start_le_fadeAt) ?_⟩
    · simp only [Markers.get]
      linarith
    · simp only [Markers.get]
      linarith
  | eom => exact ⟨hstart, heom⟩
  | fadeAt => exact ⟨hm.start_le_fadeAt, hm.fadeAt_le_stop⟩
  | stop => exact ⟨max_le heom hm.fadeAt_le_stop, hm.stop_le_duration⟩

theorem limits_whole (hduration : IsWhole durationMs) (key : MarkerKey) :
    IsWhole (m.limits durationMs key).1 ∧ IsWhole (m.limits durationMs key).2 := by
  cases key with
  | start =>
    exact ⟨isWhole_natCast 0, ((hm.whole .eom).sub_one.min (hm.whole .fadeAt)).min
      (hm.whole .stop).sub_one⟩
  | eom => exact ⟨(hm.whole .start).add_one, hm.whole .stop⟩
  | fadeAt => exact ⟨hm.whole .start, hm.whole .stop⟩
  | stop => exact ⟨(hm.whole .eom).max (hm.whole .fadeAt), hduration⟩

/-- Any whole position in its range keeps the markers valid. -/
theorem set (key : MarkerKey) {placed : Rat} (hwhole : IsWhole placed)
    (hlo : (m.limits durationMs key).1 ≤ placed) (hhi : placed ≤ (m.limits durationMs key).2) :
    (m.set key placed).Valid durationMs := by
  have hwholes : ∀ other, IsWhole ((m.set key placed).get other) := by
    intro other
    by_cases hsame : other = key
    · rw [hsame, get_set]
      exact hwhole
    · rw [m.get_set_of_ne hsame]
      exact hm.whole other
  cases key with
  | start =>
    obtain ⟨hbefore, hstop⟩ := le_min_iff.mp hhi
    obtain ⟨heom, hfade⟩ := le_min_iff.mp hbefore
    exact ⟨hwholes, hlo, by simp only [Markers.set]; linarith, hm.eom_le_stop,
      hm.stop_le_duration, hfade, hm.fadeAt_le_stop⟩
  | eom =>
    have hafter : m.start + 1 ≤ placed := hlo
    exact ⟨hwholes, hm.start_nonneg, by simp only [Markers.set]; linarith, hhi,
      hm.stop_le_duration, hm.start_le_fadeAt, hm.fadeAt_le_stop⟩
  | fadeAt =>
    exact ⟨hwholes, hm.start_nonneg, hm.start_lt_eom, hm.eom_le_stop, hm.stop_le_duration, hlo, hhi⟩
  | stop =>
    obtain ⟨heom, hfade⟩ := max_le_iff.mp hlo
    exact ⟨hwholes, hm.start_nonneg, hm.start_lt_eom, heom, hhi, hm.start_le_fadeAt, hfade⟩

/-- Fade-out may lie at any other marker from EOM on. -/
theorem withFadeAt (key : MarkerKey) (heom : m.eom ≤ m.get key) (hstop : m.get key ≤ m.stop) :
    Valid { m with fadeAt := m.get key } durationMs := by
  have hset := hm.set .fadeAt (hm.whole key)
    (hm.start_lt_eom.le.trans heom) hstop
  exact hset

end Valid

end Markers

theorem placeMarker_eq (m : Markers) (key : MarkerKey) (ms durationMs : Rat) :
    placeMarker m key ms durationMs =
      m.set key (clamp (mathRound ms) (m.limits durationMs key).1 (m.limits durationMs key).2) := by
  cases key <;> rfl

theorem placeMarker_get_of_ne (m : Markers) {key other : MarkerKey} (hne : other ≠ key)
    (ms durationMs : Rat) : (placeMarker m key ms durationMs).get other = m.get other := by
  rw [placeMarker_eq, m.get_set_of_ne hne]

theorem placeMarkerFadeAtStop_get_of_ne (m : Markers) {key other : MarkerKey} (hne : other ≠ key)
    (hfade : other ≠ .fadeAt) (ms durationMs : Rat) :
    (placeMarkerFadeAtStop m key ms durationMs).get other = m.get other := by
  have hplaced := placeMarker_get_of_ne { m with fadeAt := m.eom } hne ms durationMs
  cases other with
  | fadeAt => exact absurd rfl hfade
  | start | eom | stop => exact hplaced

namespace Markers.Valid

variable {m : Markers} {durationMs : Rat} (hm : m.Valid durationMs)
include hm

theorem placeMarker (hduration : IsWhole durationMs) (key : MarkerKey) (ms : Rat) :
    (placeMarker m key ms durationMs).Valid durationMs := by
  obtain ⟨hwholeLo, hwholeHi⟩ := hm.limits_whole hduration key
  obtain ⟨hlo, hhi⟩ := hm.get_mem_limits key
  obtain ⟨hplacedLo, hplacedHi⟩ := clamp_mem (mathRound ms) (hlo.trans hhi)
  rw [placeMarker_eq]
  exact hm.set key ((isWhole_mathRound ms).clamp hwholeLo hwholeHi) hplacedLo hplacedHi

theorem placeMarkerFadeAtStop (hduration : IsWhole durationMs) (key : MarkerKey) (ms : Rat) :
    (placeMarkerFadeAtStop m key ms durationMs).Valid durationMs := by
  have hborrowed : Valid { m with fadeAt := m.eom } durationMs :=
    hm.withFadeAt .eom le_rfl hm.eom_le_stop
  have hplaced := hborrowed.placeMarker hduration key ms
  exact hplaced.withFadeAt .stop hplaced.eom_le_stop le_rfl

/-- Placing a marker where it lies changes nothing. -/
theorem placeMarker_get (key : MarkerKey) :
    RetroStation.Streaming.placeMarker m key (m.get key) durationMs = m := by
  obtain ⟨hlo, hhi⟩ := hm.get_mem_limits key
  rw [placeMarker_eq, (hm.whole key).mathRound_eq, clamp_of_mem hlo hhi, set_get]

/-- Placing a marker where it lies only pins Fade-out to Stop. -/
theorem placeMarkerFadeAtStop_get (key : MarkerKey) :
    RetroStation.Streaming.placeMarkerFadeAtStop m key (m.get key) durationMs =
      { m with fadeAt := m.stop } := by
  have hborrowed : Valid { m with fadeAt := m.eom } durationMs :=
    hm.withFadeAt .eom le_rfl hm.eom_le_stop
  have hpin (placed : Markers)
      (hsame : placed = { m with fadeAt := m.eom }) :
      { placed with fadeAt := placed.stop } = { m with fadeAt := m.stop } := by
    rw [hsame]
  cases key with
  | fadeAt => rfl
  | start => exact hpin _ (hborrowed.placeMarker_get .start)
  | eom => exact hpin _ (hborrowed.placeMarker_get .eom)
  | stop => exact hpin _ (hborrowed.placeMarker_get .stop)

/-- The server accepts valid markers, and stores these same positions. -/
theorem received : ∃ markers, m.received? = some markers ∧ markers.toMarkers = m := by
  obtain ⟨startMs, hstart⟩ := hm.whole .start
  obtain ⟨eomMs, heom⟩ := hm.whole .eom
  obtain ⟨fadeAtMs, hfadeAt⟩ := hm.whole .fadeAt
  obtain ⟨stopMs, hstop⟩ := hm.whole .stop
  simp only [Markers.get] at hstart heom hfadeAt hstop
  have hfit : CueMarkers.Fit startMs eomMs fadeAtMs stopMs := by
    refine ⟨?_, ⟨?_, ?_⟩, ?_, ?_⟩
    · exact_mod_cast hstart ▸ hm.start_nonneg
    · exact_mod_cast hstart ▸ heom ▸ hm.start_lt_eom
    · exact_mod_cast heom ▸ hstop ▸ hm.eom_le_stop
    · exact_mod_cast hstart ▸ hfadeAt ▸ hm.start_le_fadeAt
    · exact_mod_cast hfadeAt ▸ hstop ▸ hm.fadeAt_le_stop
  obtain ⟨markers, hinit⟩ := CueMarkers.init?_of_fit hfit
  refine ⟨markers, ?_, ?_⟩
  · simp [Markers.received?, IsWhole.asInt?_eq hstart, IsWhole.asInt?_eq heom,
      IsWhole.asInt?_eq hfadeAt, IsWhole.asInt?_eq hstop, hinit]
  · obtain ⟨hstart', heom', hfadeAt', hstop'⟩ := CueMarkers.init?_eq_some_iff.mp hinit
    ext
    · simp [CueMarkers.toMarkers, hstart, hstart']
    · simp [CueMarkers.toMarkers, heom, heom']
    · simp [CueMarkers.toMarkers, hfadeAt, hfadeAt']
    · simp [CueMarkers.toMarkers, hstop, hstop']

/-- With Fade-out at Stop, a liner's edit is accepted as well. -/
theorem receivedLiner (hpinned : m.fadeAt = m.stop) :
    ∃ markers, m.receivedLiner? = some markers ∧ markers.toMarkers = m := by
  obtain ⟨markers, hreceived, hsame⟩ := hm.received
  refine ⟨markers, ?_, hsame⟩
  obtain ⟨stopMs, hstop⟩ := hm.whole .stop
  simp only [Markers.get] at hstop
  rw [← hreceived]
  simp [Markers.received?, Markers.receivedLiner?, hpinned, IsWhole.asInt?_eq hstop, linerMarkers?]

end Markers.Valid

/-! ## Any sequence of changes -/

section Changes

variable {durationMs : Rat} {m : Markers}

theorem Markers.Valid.apply (hm : m.Valid durationMs) (hduration : IsWhole durationMs)
    (change : MarkerChange) : (change.apply durationMs m).Valid durationMs := by
  cases change with
  | place key ms => exact hm.placeMarker hduration key ms
  | placeFadeAtStop key ms => exact hm.placeMarkerFadeAtStop hduration key ms
  | nudge key deltaMs => exact hm.placeMarker hduration key (m.get key + deltaMs)

theorem Markers.Valid.after (hm : m.Valid durationMs) (hduration : IsWhole durationMs)
    (changes : List MarkerChange) : (m.after durationMs changes).Valid durationMs := by
  induction changes generalizing m with
  | nil => exact hm
  | cons change rest ih => exact ih (hm.apply hduration change)

/-- A change leaves every marker that it does not move. -/
theorem MarkerChange.apply_get (change : MarkerChange) {key : MarkerKey}
    (hother : change.moves key = false) : (change.apply durationMs m).get key = m.get key := by
  cases change with
  | place placed ms =>
    exact placeMarker_get_of_ne m (by simpa [MarkerChange.moves] using hother) ms durationMs
  | placeFadeAtStop placed ms =>
    obtain ⟨hne, hfade⟩ : key ≠ placed ∧ key ≠ .fadeAt := by simpa [MarkerChange.moves] using hother
    exact placeMarkerFadeAtStop_get_of_ne m hne hfade ms durationMs
  | nudge placed deltaMs =>
    exact placeMarker_get_of_ne m (by simpa [MarkerChange.moves] using hother) _ durationMs

end Changes

/-- After any changes the markers are whole, in order and within the duration, and the server
accepts them. One change more moves only its own marker (and Fade-out where that is pinned to
Stop). Placing a marker where it lies moves none, or only Fade-out to where it is pinned. -/
theorem markerChanges_accepted {durationMs : Nat} {opened : Markers}
    (hopened : opened.Valid durationMs) (changes : List MarkerChange) :
    let m := opened.after durationMs changes
    (m.Valid durationMs ∧ ∃ markers, m.received? = some markers ∧ markers.toMarkers = m) ∧
      (∀ (change : MarkerChange) (key : MarkerKey), change.moves key = false →
        (change.apply durationMs m).get key = m.get key) ∧
      (∀ key ms, ∃ markers,
        (placeMarkerFadeAtStop m key ms durationMs).receivedLiner? = some markers ∧
          markers.toMarkers = placeMarkerFadeAtStop m key ms durationMs) ∧
      (∀ key, placeMarker m key (m.get key) durationMs = m ∧ nudge m key 0 durationMs = m ∧
        placeMarkerFadeAtStop m key (m.get key) durationMs = { m with fadeAt := m.stop }) := by
  intro m
  have hduration : IsWhole durationMs := isWhole_natCast durationMs
  have hm : m.Valid durationMs := hopened.after hduration changes
  refine ⟨⟨hm, hm.received⟩, fun change key hother => change.apply_get hother, ?_, ?_⟩
  · intro key ms
    exact (hm.placeMarkerFadeAtStop hduration key ms).receivedLiner rfl
  · intro key
    refine ⟨hm.placeMarker_get key, ?_, hm.placeMarkerFadeAtStop_get key⟩
    -- Nudging by nothing is placing the marker where it lies.
    rw [nudge, add_zero, hm.placeMarker_get key]

/-- Three minutes of a song whose Start, Fade-out, Stop and EOM are moved one after another; the
last change pins Fade-out to Stop. -/
theorem markerChanges_accepted_allMoved :
    let changes : List MarkerChange := [.place .start (3001 / 2), .place .fadeAt 172000,
      .nudge .stop (-5000), .placeFadeAtStop .eom 160000]
    let m := Markers.after 180000 ⟨0, 170000, 175000, 180000⟩ changes
    m = ⟨1501, 160000, 175000, 175000⟩ ∧
      (∃ markers, m.received? = some markers ∧ markers.toMarkers = m) ∧
      (∀ (change : MarkerChange) (key : MarkerKey), change.moves key = false →
        (change.apply 180000 m).get key = m.get key) ∧
      ∀ key, placeMarker m key (m.get key) 180000 = m ∧
        placeMarkerFadeAtStop m key (m.get key) 180000 = { m with fadeAt := m.stop } := by
  intro changes m
  have hopened : Markers.Valid ⟨0, 170000, 175000, 180000⟩ ((180000 : Nat) : Rat) :=
    ⟨fun key => by cases key with
      | start => exact ⟨0, rfl⟩
      | eom => exact ⟨170000, rfl⟩
      | fadeAt => exact ⟨175000, rfl⟩
      | stop => exact ⟨180000, rfl⟩,
      by decide, by decide, by decide, by decide, by decide, by decide⟩
  obtain ⟨⟨-, hreceived⟩, hothers, -, hplaced⟩ := markerChanges_accepted hopened changes
  exact ⟨by decide +kernel, hreceived, hothers, fun key => ⟨(hplaced key).1, (hplaced key).2.2⟩⟩

/-- Start is placed where it lies, with Fade-out between EOM and Stop: Fade-out is moved to
Stop. -/
theorem placeMarkerFadeAtStop_moves_fadeOut :
    ¬∀ (durationMs : Nat) (m : Markers), m.Valid durationMs → ∀ key,
      placeMarker m key (m.get key) durationMs = m ∧ nudge m key 0 durationMs = m ∧
        placeMarkerFadeAtStop m key (m.get key) durationMs = m := by
  intro hnone
  have hvalid : Markers.Valid ⟨0, 500, 700, 1000⟩ ((1000 : Nat) : Rat) :=
    ⟨fun key => by cases key with
      | start => exact ⟨0, rfl⟩
      | eom => exact ⟨500, rfl⟩
      | fadeAt => exact ⟨700, rfl⟩
      | stop => exact ⟨1000, rfl⟩,
      by decide, by decide, by decide, by decide, by decide, by decide⟩
  have hsame := congrArg Markers.fadeAt (hnone 1000 _ hvalid .start).2.2
  exact (by decide : (1000 : Rat) ≠ 700) hsame

end RetroStation.Streaming
