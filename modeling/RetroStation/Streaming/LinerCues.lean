import RetroStation.Streaming.CueEditor
import RetroStation.Table.Basic

/-! # The liner cue editor

A liner opens on what the radio plays for it, held within its length. Its edit is kept in its
own row as three positions, since its fade-out is always its stop.
-/

namespace RetroStation.Streaming

/-! ## Liners -/

/-- The positions of an edit, as the three columns of a liner's row hold them. -/
structure CueColumns where
  cueStartMs : Int
  cueEomMs : Int
  cueStopMs : Int
  deriving DecidableEq, Repr

/-- A row of `station_liners`. The columns of an edit are set together or not at all. -/
structure LinerRow where
  id : Uuid
  stationId : Uuid
  name : String
  format : String
  audioHash : AudioHash
  durationMs : Int
  edit : Option CueColumns := none
  deriving DecidableEq, Repr

/-- One liner of one station, with its edit, which ends within it and fades at its stop. -/
structure StationLiner where
  id : Uuid
  stationId : Uuid
  name : String
  format : String
  audioHash : AudioHash
  durationMs : Nat
  markers : Option CueMarkers
  durationMs_pos : 0 < durationMs
  markers_fit : ∀ edit ∈ markers, edit.fadeAtMs = edit.stopMs ∧ edit.stopMs ≤ durationMs

inductive LinerCueError
  | linerNotFound
  | invalidMarkers
  | invalidLiner
  | silent
  | stopPastEnd (durationMs : Nat)
  deriving DecidableEq, Repr

/-- What the liner cue editor reads and writes. -/
structure LinerCuePorts where
  rows : List LinerRow
  cues : AudioHash → Option CueAnalysis

def linerMarkers (startMs eomMs stopMs : Int) : Except LinerCueError CueMarkers :=
  match linerMarkers? startMs eomMs stopMs with
  | some markers => .ok markers
  | none => .error .invalidMarkers

/-- A liner with these values, or the constructor's refusal. -/
def StationLiner.init (row : LinerRow) (markers : Option CueMarkers) :
    Except LinerCueError StationLiner :=
  let durationMs := row.durationMs.toNat
  if hpos : 0 < durationMs then
    if hfit : ∀ edit ∈ markers, edit.fadeAtMs = edit.stopMs ∧ edit.stopMs ≤ durationMs then
      .ok ⟨row.id, row.stationId, row.name, row.format, row.audioHash, durationMs, markers, hpos,
        hfit⟩
    else .error .invalidLiner
  else .error .invalidLiner

/-- The row's edit. -/
def rowMarkers (row : LinerRow) : Except LinerCueError (Option CueMarkers) :=
  match row.edit with
  | none => .ok none
  | some edit => (linerMarkers edit.cueStartMs edit.cueEomMs edit.cueStopMs).map some

def toLiner (row : LinerRow) : Except LinerCueError StationLiner := do
  let markers ← rowMarkers row
  StationLiner.init row markers

/-- The points a liner plays with, or none when its audio is silent. An edit gives the
    positions and the stored row the gain; with no edit the row gives both. -/
def linerPoints (durationMs : Nat) (hpos : 0 < durationMs) (markers : Option CueMarkers)
    (stored : Option CueAnalysis) : Option CuePoints :=
  if stored.any (·.audioSilent) then none
  else
    match markers, stored with
    | some markers, none => some (markers.toPoints NO_CUES_GAIN_DB)
    | some markers, some stored => some (markers.toPoints stored.cues.gainDb)
    | none, none => some ⟨0, durationMs, 0, 0, 0, NO_CUES_GAIN_DB, hpos, hpos⟩
    | none, some stored => some { stored.cues with fadeInMs := 0, fadeOutMs := 0 }

def StationLiner.points (liner : StationLiner) (stored : Option CueAnalysis) : Option CuePoints :=
  linerPoints liner.durationMs liner.durationMs_pos liner.markers stored

/-- The points the liner plays with when it has no edit. -/
def StationLiner.automaticPoints (liner : StationLiner) (stored : Option CueAnalysis) :
    Option CuePoints :=
  linerPoints liner.durationMs liner.durationMs_pos none stored

/-! ## The editor -/

section

variable (ports : LinerCuePorts) (stationId linerId : Uuid)

def LinerCuePorts.get : Option LinerRow := ports.rows.find? fun row => row.id = linerId

/-- The liner, reached only through its own station. -/
def ownedLiner : Except LinerCueError StationLiner :=
  match ports.get linerId with
  | none => .error .linerNotFound
  | some row => do
    let liner ← toLiner row
    if liner.stationId ≠ stationId then .error .linerNotFound else .ok liner

/-- What the radio plays for this liner without an edit, held within its length. -/
def openingLinerMarkers (liner : StationLiner) (row : Option CueAnalysis) :
    Except LinerCueError CueMarkers :=
  let durationMs : Int := liner.durationMs
  match liner.automaticPoints row with
  | none => linerMarkers 0 durationMs durationMs
  | some points =>
    let stopMs := min (points.cueOutMs : Int) durationMs
    let startMs := min (points.cueInMs : Int) (stopMs - 1)
    let eomMs := min (max (points.cueOutMs - points.startNextMs : Int) (startMs + 1)) stopMs
    linerMarkers startMs eomMs stopMs

def readLinerCues : Except LinerCueError CueEditorView := do
  let liner ← ownedLiner ports stationId linerId
  let row := ports.cues liner.audioHash
  let automatic ← openingLinerMarkers liner row
  return {
    fileId := liner.id
    title := some liner.name
    artist := none
    format := liner.format
    durationMs := liner.durationMs
    analysis := analysisState row
    automatic := automatic
    manual := liner.markers }

/-- The row with an edit written to its columns. -/
def LinerRow.withEdit (row : LinerRow) (markers : Option CueMarkers) : LinerRow :=
  { row with edit := markers.map fun edit => ⟨edit.startMs, edit.eomMs, edit.stopMs⟩ }

/-- `save_markers`: the liner is checked with its new edit before its row is written. -/
def LinerCuePorts.saveMarkers (linerId : Uuid) (markers : Option CueMarkers) :
    Except LinerCueError LinerCuePorts :=
  match ports.get linerId with
  | none => .ok ports
  | some row => do
    let _ ← toLiner row
    let edited ← StationLiner.init row markers
    return { ports with
      rows := Table.update ports.rows (·.id = linerId) (·.withEdit edited.markers) }

def saveLinerCues (startMs eomMs stopMs : Int) : Except LinerCueError LinerCuePorts := do
  let liner ← ownedLiner ports stationId linerId
  let row := ports.cues liner.audioHash
  if (liner.automaticPoints row).isNone then .error .silent
  else if stopMs > liner.durationMs then .error (.stopPastEnd liner.durationMs)
  else do
    let markers ← linerMarkers startMs eomMs stopMs
    ports.saveMarkers liner.id (some markers)

end

/-! ## Opening -/

section

variable {liner : StationLiner} {row : Option CueAnalysis}

theorem linerMarkers_eq_ok {startMs eomMs stopMs : Int} {markers : CueMarkers} :
    linerMarkers startMs eomMs stopMs = .ok markers ↔
      startMs = markers.startMs ∧ eomMs = markers.eomMs ∧
        stopMs = markers.fadeAtMs ∧ stopMs = markers.stopMs := by
  rw [← CueMarkers.init?_eq_some_iff, linerMarkers, linerMarkers?]
  cases CueMarkers.init? startMs eomMs stopMs stopMs <;> simp

theorem linerMarkers_of_fit {startMs eomMs stopMs : Int} (hstart : 0 ≤ startMs)
    (heom : startMs < eomMs) (hstop : eomMs ≤ stopMs) :
    ∃ markers, linerMarkers startMs eomMs stopMs = .ok markers := by
  have hfit : CueMarkers.Fit startMs eomMs stopMs stopMs :=
    ⟨hstart, ⟨heom, hstop⟩, by omega, le_refl _⟩
  obtain ⟨markers, hmarkers⟩ := CueMarkers.init?_of_fit hfit
  exact ⟨markers, by rw [linerMarkers, linerMarkers?, hmarkers]⟩

/-- Without an edit there are no fades; and an edit is played at the same gain. -/
theorem automaticPoints_spec {points : CuePoints}
    (hpoints : liner.automaticPoints row = some points) :
    points.fadeInMs = 0 ∧ points.fadeOutMs = 0 ∧
      ∀ markers, linerPoints liner.durationMs liner.durationMs_pos (some markers) row =
        some (markers.toPoints points.gainDb) := by
  unfold StationLiner.automaticPoints linerPoints at hpoints
  unfold linerPoints
  split at hpoints
  · cases hpoints
  next hsounds =>
    cases row with
    | none =>
      cases hpoints
      exact ⟨rfl, rfl, fun markers => if_neg hsounds⟩
    | some stored =>
      cases hpoints
      exact ⟨rfl, rfl, fun markers => if_neg hsounds⟩

/-- Positions that are held within the length are themselves where they lie within it. -/
theorem openingLinerMarkers_of_points {points : CuePoints}
    (hpoints : liner.automaticPoints row = some points) :
    ∃ markers, openingLinerMarkers liner row = .ok markers ∧ markers.fadeAtMs = markers.stopMs ∧
      markers.stopMs ≤ liner.durationMs ∧ (points.cueOutMs ≤ liner.durationMs →
        markers.toPoints points.gainDb = points) := by
  obtain ⟨hfadeIn, hfadeOut, -⟩ := automaticPoints_spec hpoints
  have hduration := liner.durationMs_pos
  have hspan := points.cueIn_lt_cueOut
  have hnext := points.startNext_lt_span
  unfold openingLinerMarkers
  rw [hpoints]
  dsimp only
  generalize hstopMs : min (points.cueOutMs : Int) liner.durationMs = stopMs
  generalize hstartMs : min (points.cueInMs : Int) (stopMs - 1) = startMs
  generalize heomMs :
    min (max (points.cueOutMs - points.startNextMs : Int) (startMs + 1)) stopMs = eomMs
  obtain ⟨markers, hmarkers⟩ := @linerMarkers_of_fit startMs eomMs stopMs
    (by omega) (by omega) (by omega)
  obtain ⟨hstart, heom, hfade, hstop⟩ := linerMarkers_eq_ok.mp hmarkers
  refine ⟨markers, hmarkers, by omega, by omega, fun hwithin => ?_⟩
  ext <;> dsimp only [CueMarkers.toPoints] <;> omega

/-- A liner opens on markers within its length that fade at their stop. -/
theorem openingLinerMarkers_ok (liner : StationLiner) (row : Option CueAnalysis) :
    ∃ markers, openingLinerMarkers liner row = .ok markers ∧
      markers.fadeAtMs = markers.stopMs ∧ markers.stopMs ≤ liner.durationMs := by
  cases hpoints : liner.automaticPoints row with
  | some points =>
    obtain ⟨markers, hmarkers, hfade, hstop, -⟩ := openingLinerMarkers_of_points hpoints
    exact ⟨markers, hmarkers, hfade, hstop⟩
  | none =>
    have hduration := liner.durationMs_pos
    obtain ⟨markers, hmarkers⟩ := @linerMarkers_of_fit 0 liner.durationMs liner.durationMs
      (le_refl _) (by omega) (le_refl _)
    obtain ⟨-, -, hfade, hstop⟩ := linerMarkers_eq_ok.mp hmarkers
    refine ⟨markers, ?_, by omega, by omega⟩
    rw [openingLinerMarkers, hpoints]
    exact hmarkers

end

/-! ## Saving -/

section

variable {ports saved : LinerCuePorts} {stationId linerId : Uuid} {liner : StationLiner}
  {startMs eomMs stopMs : Int}

theorem ownedLiner_eq_ok : ownedLiner ports stationId linerId = .ok liner ↔
    ∃ row, ports.get linerId = some row ∧ toLiner row = .ok liner ∧
      liner.stationId = stationId := by
  unfold ownedLiner
  cases ports.get linerId with
  | none => simp
  | some row =>
    cases htoLiner : toLiner row with
    | error reason => simp [htoLiner, bind, Except.bind]
    | ok other =>
      by_cases hstation : other.stationId = stationId
      · simp [htoLiner, hstation, bind, Except.bind]
        rintro rfl
        exact hstation
      · simp [htoLiner, hstation, bind, Except.bind]
        rintro rfl
        exact hstation

theorem init_spec {row : LinerRow} {markers : Option CueMarkers}
    (hinit : StationLiner.init row markers = .ok liner) :
    liner.id = row.id ∧ liner.stationId = row.stationId ∧ liner.audioHash = row.audioHash ∧
      liner.durationMs = row.durationMs.toNat ∧ liner.markers = markers := by
  unfold StationLiner.init at hinit
  dsimp only at hinit
  split at hinit
  · split at hinit
    · cases hinit
      exact ⟨rfl, rfl, rfl, rfl, rfl⟩
    · cases hinit
  · cases hinit

theorem init_of_fit {row : LinerRow} {edit : CueMarkers} (hpos : 0 < row.durationMs.toNat)
    (hfade : edit.fadeAtMs = edit.stopMs) (hstop : edit.stopMs ≤ row.durationMs.toNat) :
    ∃ edited, StationLiner.init row (some edit) = .ok edited := by
  have hfit : ∀ other ∈ some edit,
      other.fadeAtMs = other.stopMs ∧ other.stopMs ≤ row.durationMs.toNat := by
    intro other hother
    cases hother
    exact ⟨hfade, hstop⟩
  unfold StationLiner.init
  dsimp only
  rw [dif_pos hpos, dif_pos hfit]
  exact ⟨_, rfl⟩

theorem toLiner_spec {row : LinerRow} (hread : toLiner row = .ok liner) :
    ∃ markers, StationLiner.init row markers = .ok liner := by
  unfold toLiner at hread
  cases hmarkers : rowMarkers row with
  | error reason => simp [hmarkers, bind, Except.bind] at hread
  | ok markers => exact ⟨markers, by simpa [hmarkers, bind, Except.bind] using hread⟩

/-- A row with an edit is read as the liner with that edit. -/
theorem toLiner_withEdit {row : LinerRow} {edit : CueMarkers} {edited : StationLiner}
    (hfade : edit.fadeAtMs = edit.stopMs) (hinit : StationLiner.init row (some edit) = .ok edited) :
    toLiner (row.withEdit (some edit)) = .ok edited := by
  have hmarkers : linerMarkers edit.startMs edit.eomMs edit.stopMs = .ok edit :=
    linerMarkers_eq_ok.mpr ⟨rfl, rfl, by omega, rfl⟩
  rw [toLiner, rowMarkers, LinerRow.withEdit, Option.map_some]
  dsimp only
  rw [hmarkers]
  exact hinit

/-- What is saved for a liner: the row changes in its edit alone, and is the liner with it. -/
theorem saveLinerCues_ok (howned : ownedLiner ports stationId linerId = .ok liner)
    (hsounds : liner.automaticPoints (ports.cues liner.audioHash) ≠ none)
    (hstop : stopMs ≤ liner.durationMs) {edit : CueMarkers}
    (hedit : linerMarkers startMs eomMs stopMs = .ok edit) :
    ∃ saved edited, saveLinerCues ports stationId linerId startMs eomMs stopMs = .ok saved ∧
      saved.cues = ports.cues ∧ ownedLiner saved stationId linerId = .ok edited ∧
        edited.audioHash = liner.audioHash ∧ edited.durationMs = liner.durationMs ∧
          edited.markers = some edit := by
  obtain ⟨row, hget, hread, hstation⟩ := ownedLiner_eq_ok.mp howned
  obtain ⟨markers, hinit⟩ := toLiner_spec hread
  obtain ⟨hid, hrowStation, hhash, hduration, -⟩ := init_spec hinit
  have hkey : row.id = linerId := (Table.find?_key hget).2
  obtain ⟨-, -, hfade, hstopMs⟩ := linerMarkers_eq_ok.mp hedit
  obtain ⟨edited, hedited⟩ := @init_of_fit row edit (hduration ▸ liner.durationMs_pos)
    (by omega) (by omega)
  obtain ⟨-, hstation', hhash', hduration', hmarkers'⟩ := init_spec hedited
  have hsaved : saveLinerCues ports stationId linerId startMs eomMs stopMs =
      .ok { ports with
        rows := Table.update ports.rows (·.id = linerId) (·.withEdit (some edit)) } := by
    have hnone : ¬ (liner.automaticPoints (ports.cues liner.audioHash)).isNone = true := by
      rwa [Option.isNone_iff_eq_none]
    have hwithin : ¬ stopMs > liner.durationMs := by omega
    rw [saveLinerCues, howned]
    simp only [bind, Except.bind]
    rw [if_neg hnone, if_neg hwithin, hedit, hid, hkey]
    simp only [LinerCuePorts.saveMarkers, hget, hread, hedited, hmarkers', bind, Except.bind]
    rfl
  refine ⟨_, edited, hsaved, rfl, ?_, by rw [hhash', hhash], by
    rw [hduration', hduration], hmarkers'⟩
  refine ownedLiner_eq_ok.mpr ⟨row.withEdit (some edit), ?_, toLiner_withEdit (by omega) hedited,
    by rw [hstation', ← hrowStation, hstation]⟩
  have hupdate := @Table.find?_update _ _ ports.rows (fun row => decide (row.id = linerId))
    (fun row => row.withEdit (some edit)) _ LinerRow.id (fun _ => rfl) linerId
  rw [LinerCuePorts.get, hupdate]
  change Option.map _ (ports.get linerId) = _
  rw [hget]
  simp [hkey]

/-- Only an edit that ends within a liner that sounds is saved. -/
theorem of_saveLinerCues
    (hsaved : saveLinerCues ports stationId linerId startMs eomMs stopMs = .ok saved) :
    ∃ liner edit, ownedLiner ports stationId linerId = .ok liner ∧
      liner.automaticPoints (ports.cues liner.audioHash) ≠ none ∧ stopMs ≤ liner.durationMs ∧
        linerMarkers startMs eomMs stopMs = .ok edit := by
  unfold saveLinerCues at hsaved
  cases howned : ownedLiner ports stationId linerId with
  | error reason => simp [howned, bind, Except.bind] at hsaved
  | ok liner =>
    simp only [howned, bind, Except.bind] at hsaved
    split at hsaved
    · cases hsaved
    next hsounds =>
      split at hsaved
      · cases hsaved
      next hstop =>
        cases hedit : linerMarkers startMs eomMs stopMs with
        | error reason => simp [hedit] at hsaved
        | ok edit =>
          refine ⟨liner, edit, rfl, ?_, by omega, rfl⟩
          rwa [Option.isNone_iff_eq_none] at hsounds

end

/-! ## What opens can be saved -/

section

variable {ports saved : LinerCuePorts} {stationId linerId : Uuid} {liner : StationLiner}
  {startMs eomMs stopMs : Int}

theorem linerPoints_eq_none {durationMs : Nat} {hpos : 0 < durationMs}
    {markers : Option CueMarkers} {row : Option CueAnalysis} :
    linerPoints durationMs hpos markers row = none ↔ row.any (·.audioSilent) = true := by
  unfold linerPoints
  split
  next hsilent => simp [hsilent]
  next hsounds => cases markers <;> cases row <;> simp_all

theorem readLinerCues_eq (howned : ownedLiner ports stationId linerId = .ok liner) :
    ∃ view, readLinerCues ports stationId linerId = .ok view ∧
      openingLinerMarkers liner (ports.cues liner.audioHash) = .ok view.automatic ∧
        view.manual = liner.markers := by
  obtain ⟨markers, hmarkers, -, -⟩ := openingLinerMarkers_ok liner (ports.cues liner.audioHash)
  rw [readLinerCues, howned]
  simp only [bind, Except.bind, hmarkers]
  exact ⟨_, rfl, rfl, rfl⟩

/-- Where the row's points lie within the length, the opening markers play as no edit does. -/
theorem linerPoints_opening {markers : CueMarkers} {row : Option CueAnalysis}
    (hopening : openingLinerMarkers liner row = .ok markers)
    (hwithin : ∀ stored ∈ row, stored.cues.cueOutMs ≤ liner.durationMs) :
    linerPoints liner.durationMs liner.durationMs_pos (some markers) row =
      liner.automaticPoints row := by
  cases hpoints : liner.automaticPoints row with
  | none => rwa [linerPoints_eq_none, ← linerPoints_eq_none]
  | some points =>
    obtain ⟨-, -, hedited⟩ := automaticPoints_spec hpoints
    obtain ⟨opened, hopened, -, -, hsame⟩ := openingLinerMarkers_of_points hpoints
    have hmarkers : opened = markers := Except.ok.inj (hopened.symm.trans hopening)
    have hout : points.cueOutMs ≤ liner.durationMs := by
      unfold StationLiner.automaticPoints linerPoints at hpoints
      split at hpoints
      · cases hpoints
      · cases row with
        | none =>
          cases hpoints
          exact le_refl _
        | some stored =>
          cases hpoints
          exact hwithin stored rfl
    rw [hedited, ← hmarkers, hsame hout]

/-- An edit that is saved plays within the liner, and opens again as it was saved. -/
theorem saved_plays (howned : ownedLiner ports stationId linerId = .ok liner)
    (hsaved : saveLinerCues ports stationId linerId startMs eomMs stopMs = .ok saved) :
    ∃ edit edited points view, linerMarkers startMs eomMs stopMs = .ok edit ∧
      ownedLiner saved stationId linerId = .ok edited ∧
        edited.points (saved.cues edited.audioHash) = some points ∧
          points.cueOutMs ≤ liner.durationMs ∧ CueMarkers.fromPoints points = edit ∧
            readLinerCues saved stationId linerId = .ok view ∧ view.manual = some edit := by
  obtain ⟨owner, edit, howner, hsounds, hstop, hedit⟩ := of_saveLinerCues hsaved
  obtain rfl : owner = liner := Except.ok.inj (howner.symm.trans howned)
  obtain ⟨saved', edited, hsaved', hcues, howned', hhash, hduration, hmarkers⟩ :=
    saveLinerCues_ok howned hsounds hstop hedit
  obtain rfl : saved' = saved := Except.ok.inj (hsaved'.symm.trans hsaved)
  obtain ⟨-, -, -, hstopMs⟩ := linerMarkers_eq_ok.mp hedit
  obtain ⟨view, hview, -, hmanual⟩ := readLinerCues_eq howned'
  have hpoints : ∃ gainDb, edited.points (saved'.cues edited.audioHash) =
      some (edit.toPoints gainDb) := by
    obtain ⟨points, hpoints⟩ := Option.ne_none_iff_exists'.mp hsounds
    have hautomatic : edited.automaticPoints (saved'.cues edited.audioHash) ≠ none := by
      rw [hcues, hhash]
      intro hnone
      exact hsounds (linerPoints_eq_none.mpr (linerPoints_eq_none.mp hnone))
    obtain ⟨played, hplayed⟩ := Option.ne_none_iff_exists'.mp hautomatic
    refine ⟨played.gainDb, ?_⟩
    rw [StationLiner.points, hmarkers]
    exact (automaticPoints_spec hplayed).2.2 edit
  obtain ⟨gainDb, hpoints⟩ := hpoints
  refine ⟨edit, edited, _, view, hedit, howned', hpoints, ?_,
    CueMarkers.fromPoints_toPoints edit gainDb, hview, by rw [hmanual, hmarkers]⟩
  dsimp only [CueMarkers.toPoints]
  omega

/-- A liner opens on markers that can be saved where it plays, and that change nothing where
    its analysis lies within it; and what is saved plays within it and opens as it was saved. -/
theorem liner_opens_saved (howned : ownedLiner ports stationId linerId = .ok liner) :
    (∃ view, readLinerCues ports stationId linerId = .ok view ∧
      view.automatic.startMs < view.automatic.eomMs ∧
      view.automatic.eomMs ≤ view.automatic.stopMs ∧
      view.automatic.stopMs ≤ liner.durationMs ∧
      view.automatic.fadeAtMs = view.automatic.stopMs ∧
      (liner.points (ports.cues liner.audioHash) ≠ none →
        ∃ saved, saveLinerCues ports stationId linerId view.automatic.startMs
          view.automatic.eomMs view.automatic.stopMs = .ok saved) ∧
      ((∀ stored ∈ ports.cues liner.audioHash, stored.cues.cueOutMs ≤ liner.durationMs) →
        linerPoints liner.durationMs liner.durationMs_pos (some view.automatic)
          (ports.cues liner.audioHash) = liner.automaticPoints (ports.cues liner.audioHash))) ∧
      ∀ startMs eomMs stopMs : Int, ∀ saved,
        saveLinerCues ports stationId linerId startMs eomMs stopMs = .ok saved →
          ∃ edit edited points view, linerMarkers startMs eomMs stopMs = .ok edit ∧
            ownedLiner saved stationId linerId = .ok edited ∧
              edited.points (saved.cues edited.audioHash) = some points ∧
                points.cueOutMs ≤ liner.durationMs ∧ CueMarkers.fromPoints points = edit ∧
                  readLinerCues saved stationId linerId = .ok view ∧ view.manual = some edit := by
  refine ⟨?_, fun startMs eomMs stopMs saved => saved_plays howned⟩
  obtain ⟨view, hview, hopening, -⟩ := readLinerCues_eq howned
  obtain ⟨markers, hmarkers, hfade, hstop⟩ :=
    openingLinerMarkers_ok liner (ports.cues liner.audioHash)
  obtain rfl : markers = view.automatic := Except.ok.inj (hmarkers.symm.trans hopening)
  refine ⟨view, hview, view.automatic.start_lt_eom, view.automatic.eom_le_stop, hstop, hfade, ?_,
    linerPoints_opening hopening⟩
  intro hplays
  -- A liner that plays has something between its automatic points.
  have hsounds : liner.automaticPoints (ports.cues liner.audioHash) ≠ none := fun hnone =>
    hplays (linerPoints_eq_none.mpr (linerPoints_eq_none.mp hnone))
  have hedit : linerMarkers view.automatic.startMs view.automatic.eomMs view.automatic.stopMs =
      .ok view.automatic := linerMarkers_eq_ok.mpr ⟨rfl, rfl, by omega, rfl⟩
  obtain ⟨saved, -, hsaved, -⟩ := saveLinerCues_ok howned hsounds (by omega) hedit
  exact ⟨saved, hsaved⟩

/-- A liner whose audio was measured on a longer copy of it. -/
def shortLiner : LinerCuePorts where
  rows := [⟨1, 2, "Ident", "wav", "audio", 1000, none⟩]
  cues := fun _ => some ⟨⟨200, 1500, 0, 300, 100, -3, by decide, by decide⟩, false, false⟩

theorem liner_opens_saved_short :
    ∃ liner, ownedLiner shortLiner 2 1 = .ok liner ∧ liner.durationMs = 1000 ∧
      ∃ view, readLinerCues shortLiner 2 1 = .ok view ∧
        view.automatic.stopMs ≤ liner.durationMs := by
  have howned : ∃ liner, ownedLiner shortLiner 2 1 = .ok liner ∧ liner.durationMs = 1000 :=
    ⟨_, rfl, rfl⟩
  obtain ⟨liner, hliner, hduration⟩ := howned
  obtain ⟨⟨view, hview, -, -, hstop, -⟩, -⟩ := liner_opens_saved hliner
  exact ⟨liner, hliner, hduration, view, hview, hstop⟩

end

end RetroStation.Streaming
