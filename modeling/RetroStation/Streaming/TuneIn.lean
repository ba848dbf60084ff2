import Mathlib.Algebra.Ring.Nat
import RetroStation.Streaming.Values

/-! # Where a listener lands in a station's logged schedule

Tune-in by the clock, the walk that keeps the radio playing while a listener is
away, and the next item of an open session.
-/

namespace RetroStation.Streaming

/-! ## The calendar -/

def isLeap (year : Nat) : Bool := year % 4 = 0 && (year % 100 ≠ 0 || year % 400 = 0)

def daysInMonth (year month : Nat) : Nat :=
  match month with
  | 2 => if isLeap year then 29 else 28
  | 4 | 6 | 9 | 11 => 30
  | _ => 31

def daysBeforeYear (year : Nat) : Nat :=
  let before := year - 1
  before * 365 + before / 4 - before / 100 + before / 400

def daysBeforeMonth (year month : Nat) : Nat :=
  ((List.range (month - 1)).map fun before => daysInMonth year (before + 1)).sum

/-- A date's number; 1 January of year 1 is day 0. -/
def dayNumber (year month day : Nat) : Nat :=
  daysBeforeYear year + daysBeforeMonth year month + (day - 1)

/-- The last date there is, 31 December 9999. -/
def LAST_DAY : Nat := 3652058

/-- A reading of the wall clock, a date that exists and a time of day. -/
structure CivilTime where
  year : Nat
  month : Nat
  day : Nat
  micros : Nat
  month_range : 1 ≤ month ∧ month ≤ 12
  day_range : 1 ≤ day ∧ day ≤ daysInMonth year month
  micros_lt : (micros : Int) < MICROS_PER_DAY
  deriving DecidableEq, Repr

def CivilTime.toDateTime (now : CivilTime) : Int :=
  dayNumber now.year now.month now.day * MICROS_PER_DAY + now.micros

/-- The day a datetime falls on. -/
def dateOf (wall : Int) : Nat := (wall / MICROS_PER_DAY).toNat

/-- The month, day and time of `now` in `year`. -/
def stationWallClock (year : Nat) (now : CivilTime) : Except StreamError Int :=
  if now.month = 2 ∧ now.day = 29 ∧ isLeap year = false then
    .error (.noBroadcast (.noLeapDay year))
  else if year < 1 ∨ 9999 < year then .error (.yearOutOfRange year)
  else .ok (dayNumber year now.month now.day * MICROS_PER_DAY + now.micros)

/-! ## Reading the schedule -/

section

variable (loadDay : DayLoader)

def itemAt (ref : ItemRef) : Except StreamError ScheduleItem :=
  match (loadDay ref.day)[ref.index]? with
  | some item => .ok item
  | none => .error (.staleSchedule ref (loadDay ref.day).length)

/-- A day's items with their positions. -/
def numbered (day : Nat) : List (ItemRef × ScheduleItem) :=
  (loadDay day).mapIdx fun index item => (⟨day, index⟩, item)

/-- The last item logged at or before `wall`, reading from `index` on. -/
def lastAtOrBefore (wall : Int) (index : Nat) (found : Option (Nat × ScheduleItem)) :
    List ScheduleItem → Option (Nat × ScheduleItem)
  | [] => found
  | item :: rest =>
    if item.loggedAt > wall then found
    else lastAtOrBefore wall (index + 1) (some (index, item)) rest

/-- The last play logged at or before `wall`, offset by the time since it was logged. -/
def findAnchor (wall : Int) : Except StreamError Landing :=
  let today := dateOf wall
  match loadDay today with
  | [] => .error (.noBroadcast (.noPlays today))
  | items@(_ :: _) =>
    match lastAtOrBefore wall 0 none items with
    | some (index, item) => Landing.make ⟨today, index⟩ (toMs (wall - item.loggedAt))
    | none =>
      if today = 0 then .error .dateOverflow
      else
        let previous := loadDay (today - 1)
        match previous.getLast? with
        | some last =>
          Landing.make ⟨today - 1, previous.length - 1⟩ (toMs (wall - last.loggedAt))
        | none => .ok ⟨⟨today, 0⟩, 0⟩

/-- Items of `rounds` days from `first` of `day` on, up to the first day with no log or the
last date there is. -/
def itemsOver (day first : Nat) : Nat → List (ItemRef × ScheduleItem)
  | 0 => []
  | rounds + 1 =>
    if (loadDay day).isEmpty then []
    else (numbered loadDay day).drop first ++
      if day < LAST_DAY then itemsOver (day + 1) 0 rounds else []

/-- Past these items there is no date to go on to: asking for one more item raises. -/
def outOfDates (day : Nat) : Nat → Bool
  | 0 => false
  | rounds + 1 =>
    !(loadDay day).isEmpty && (!decide (day < LAST_DAY) || outOfDates (day + 1) rounds)

/-- Items from `start` on, over the start day and `days` following days. -/
def itemsFrom (start : ItemRef) (days : Nat) : List (ItemRef × ScheduleItem) :=
  itemsOver loadDay start.day start.index (days + 1)

/-- What a walk of `itemsFrom` found, or how its items end. -/
def foundOrEnd {α : Type} (start : ItemRef) (days : Nat) (found : Option α) :
    Except StreamError (Option α) :=
  if found.isNone && outOfDates loadDay start.day (days + 1) then .error .dateOverflow
  else .ok found

/-- Items before `ref`, nearest first, over its day and the day before. -/
def itemsBefore (ref : ItemRef) : Except StreamError (List (ItemRef × ScheduleItem)) :=
  if ref.day = 0 then .error .dateOverflow
  else .ok (((numbered loadDay ref.day).take ref.index).reverse ++
    (numbered loadDay (ref.day - 1)).reverse)

end

/-- Whether `file` is the file that just aired. -/
def sameFile (prior file : Option PlayableFile) : Bool :=
  match prior, file with
  | some prior, some file => prior.fileId = file.fileId
  | _, _ => false

/-- An item that airs after `prior`: playable, and not the same file again. -/
def airsAfter (timing : StreamTiming) (prior : Option PlayableFile)
    (entry : ItemRef × ScheduleItem) : Bool :=
  entry.2.isPlayable timing && !sameFile prior entry.2.file

/-! ## Walking the schedule -/

section

variable (loadDay : DayLoader) (timing : StreamTiming)

/-- The first item after `after` within `days` following days that airs. -/
def nextPlayable (after : ItemRef) (days : Nat) : Except StreamError (Option ItemRef) := do
  let itemAfter ← itemAt loadDay after
  let prior := if itemAfter.isPlayable timing then itemAfter.file else none
  let start : ItemRef := ⟨after.day, after.index + 1⟩
  foundOrEnd loadDay start days
    (((itemsFrom loadDay start days).find? (airsAfter timing prior)).map Prod.fst)

theorem mem_numbered {day : Nat} {entry : ItemRef × ScheduleItem} :
    entry ∈ numbered loadDay day ↔
      entry.1.day = day ∧ (loadDay day)[entry.1.index]? = some entry.2 := by
  obtain ⟨⟨on, index⟩, item⟩ := entry
  simp only [numbered, List.mem_mapIdx, Prod.mk.injEq, ItemRef.mk.injEq]
  constructor
  · rintro ⟨i, hi, ⟨rfl, rfl⟩, rfl⟩
    exact ⟨rfl, List.getElem?_eq_getElem hi⟩
  · rintro ⟨rfl, hitem⟩
    obtain ⟨hi, rfl⟩ := List.getElem?_eq_some_iff.mp hitem
    exact ⟨index, hi, ⟨rfl, rfl⟩, rfl⟩

/-- What stands before `ref` is earlier, and is where it says. -/
theorem mem_itemsBefore {ref : ItemRef} {before : List (ItemRef × ScheduleItem)}
    (hbefore : itemsBefore loadDay ref = .ok before) {entry : ItemRef × ScheduleItem}
    (hmem : entry ∈ before) :
    entry.1 < ref ∧ itemAt loadDay entry.1 = .ok entry.2 := by
  unfold itemsBefore at hbefore
  split at hbefore
  · cases hbefore
  next hday =>
    cases hbefore
    rcases List.mem_append.mp hmem with hmem | hmem
    · obtain ⟨index, hindex, hentry⟩ := List.mem_take_iff_getElem.mp (List.mem_reverse.mp hmem)
      simp only [numbered, List.getElem_mapIdx] at hentry
      subst hentry
      simp only [numbered, List.length_mapIdx, Nat.lt_min] at hindex
      exact ⟨.inr ⟨rfl, hindex.1⟩, by
        simp only [itemAt, List.getElem?_eq_getElem hindex.2]⟩
    · obtain ⟨hon, hitem⟩ := (mem_numbered loadDay).mp (List.mem_reverse.mp hmem)
      exact ⟨.inl (by omega), by simp [itemAt, hon, hitem]⟩

/-- Back to the first play of the file's run; `offsetMs` counts from there. -/
def runStartFrom (ref : ItemRef) (item : ScheduleItem) (offsetMs : Int) :
    Except StreamError (ItemRef × Int) :=
  if item.isPlayable timing then
    match _hbefore : itemsBefore loadDay ref with
    | .error error => .error error
    | .ok before =>
      match _hfound : before.find? fun entry => entry.2.isPlayable timing with
      | none => .ok (ref, offsetMs)
      | some (prior, priorItem) =>
        if sameFile priorItem.file item.file then
          runStartFrom prior priorItem (offsetMs + toMs (item.loggedAt - priorItem.loggedAt))
        else .ok (ref, offsetMs)
  else .ok (ref, offsetMs)
termination_by (ref.day, ref.index)
decreasing_by
  have hlt := (mem_itemsBefore loadDay _hbefore (List.mem_of_find?_eq_some _hfound)).1
  simp only [ItemRef.lt_def] at hlt
  rcases hlt with hday | ⟨hday, hindex⟩
  · exact Prod.Lex.left _ _ hday
  · rw [← hday]
    exact Prod.Lex.right _ hindex

/-- The anchor moved back to the first play of its file's run. -/
def runStart (anchor : Landing) : Except StreamError Landing := do
  let item ← itemAt loadDay anchor.ref
  let (ref, offsetMs) ← runStartFrom loadDay timing anchor.ref item anchor.offsetMs
  Landing.make ref offsetMs

/-- Inside the anchor song if enough of it is left, else the top of the next song. -/
def landFromAnchor (anchor : Landing) : Except StreamError (Option Landing) := do
  let anchor ← runStart loadDay timing anchor
  let item ← itemAt loadDay anchor.ref
  let inside := match item.file with
    | some file => anchor.offsetMs < file.spanMs && file.tailFits anchor.offsetMs timing
    | none => false
  if inside then return some anchor
  let ref ← nextPlayable loadDay timing anchor.ref timing.maxDaysAhead
  return ref.map fun ref => ⟨ref, 0⟩

/-- Spend `remaining` ms of playback over the items; `prior` is the file that just aired. -/
def spend : List (ItemRef × ScheduleItem) → Option PlayableFile → Nat → Option Landing
  | [], _, _ => none
  | (ref, item) :: rest, prior, remaining =>
    match item.file with
    | none => spend rest prior remaining
    | some file =>
      if !file.isPlayable timing || sameFile prior (some file) then spend rest prior remaining
      else if remaining < file.spanMs then
        if file.tailFits remaining timing then some ⟨ref, remaining⟩
        -- Too short a tail: the next item that airs starts from its top.
        else spend rest (some file) 0
      else spend rest (some file) (remaining - file.spanMs)

/-- Spend the offset of `start` in playback from its item on. -/
def walkForward (start : Landing) : Except StreamError (Option Landing) := do
  let _ ← itemAt loadDay start.ref
  foundOrEnd loadDay start.ref timing.maxDaysAhead
    (spend timing (itemsFrom loadDay start.ref timing.maxDaysAhead) none start.offsetMs)

/-- Land where the station is at `now` on this date in `year`. -/
def tuneIn (year : Nat) (now : CivilTime) : Except StreamError TuneIn := do
  let wall ← stationWallClock year now
  let anchor ← findAnchor loadDay wall
  match ← landFromAnchor loadDay timing anchor with
  | none => throw (.noBroadcast (.nothingPlayable wall))
  | some landing =>
    let item ← itemAt loadDay landing.ref
    if item.loggedAt - wall > timing.window then
      throw (.noBroadcast (.beyondWindow item.loggedAt wall))
    return ⟨landing, wall - now.toDateTime⟩

/-- The next playable item after `after`, looking at most one day ahead. -/
def nextItem (after : ItemRef) : Except StreamError ItemRef := do
  let _ ← itemAt loadDay after
  match ← nextPlayable loadDay timing after 1 with
  | none => throw (.endOfSchedule after)
  | some ref => return ref

/-- Where the station is `elapsed` after it was at `start`. A stale offset into
an item that is no longer playable is dropped. -/
def playedOn (start : Landing) (elapsed : Int) : Except StreamError (Option Landing) := do
  let item ← itemAt loadDay start.ref
  let start := if item.isPlayable timing then start else ⟨start.ref, 0⟩
  walkForward loadDay timing (start.advancedBy elapsed)

/-- Where the station would be if it had kept playing since the listener left. -/
def resume (bookmark : Bookmark) (now : Int) : Except StreamError Landing := do
  match ← playedOn loadDay timing bookmark.landing (now - bookmark.leftAt) with
  | none => throw (.endOfSchedule bookmark.landing.ref)
  | some landing => return landing

end

end RetroStation.Streaming
