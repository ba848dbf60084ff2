import Mathlib.Logic.Relation
import RetroStation.Streaming.Repeats

/-! # Clock placement

Over a log in order, a clock tune-in lands inside the song on the air, counted
from the first play of its run, or at the top of the first item to air after it.
-/

namespace RetroStation.Streaming

section

variable (loadDay : DayLoader) (timing : StreamTiming)

/-- Every day logs its own plays, in order and at whole milliseconds. -/
structure LoggedInOrder : Prop where
  sorted : ∀ day, (loadDay day).Pairwise fun first second => first.loggedAt ≤ second.loggedAt
  onDay : ∀ day, ∀ item ∈ loadDay day, item.loggedAt / MICROS_PER_DAY = day
  wholeMs : ∀ day, ∀ item ∈ loadDay day, item.loggedAt % 1000 = 0

/-- The play at `ref` is of the file that `prior`, the playable item before it, began. -/
def GoesOn (ref prior : ItemRef) : Prop :=
  PlaysAt loadDay timing ref ∧ PlayedBefore loadDay timing prior ref ∧
    sameFile (fileAt loadDay prior) (fileAt loadDay ref)

/-- The run of same-file plays at `ref` starts with the play at `first`. -/
def RunStarts (first ref : ItemRef) : Prop :=
  Relation.ReflTransGen (GoesOn loadDay timing) ref first ∧
    ∀ prior, ¬ GoesOn loadDay timing first prior

/-- The play at `ref` would air after the one at `after`. -/
def AirsAt (after ref : ItemRef) : Prop :=
  ∃ itemAfter item, itemAt loadDay after = .ok itemAfter ∧ itemAt loadDay ref = .ok item ∧
    airsAfter timing (if itemAfter.isPlayable timing then itemAfter.file else none) (ref, item)

/-- The first item to air after the one at `after`. -/
def FirstToAir (after next : ItemRef) : Prop :=
  after < next ∧ AirsAt loadDay timing after next ∧
    ∀ between, after < between → between < next → ¬ AirsAt loadDay timing after between

/-- Inside the song the clock is in, from the first play of its run on; the
clock reads whole milliseconds. -/
def LandsInside (wall : Int) (landing : Landing) : Prop :=
  ∃ ref item, ClockIn loadDay wall ref ∧ RunStarts loadDay timing landing.ref ref ∧
    itemAt loadDay landing.ref = .ok item ∧
    item.loggedAt + landing.offsetMs * 1000 = wall / 1000 * 1000

/-- Nothing is logged by `wall` today, and yesterday has no log. -/
def NothingYet (wall : Int) : Prop :=
  dateOf wall ≠ 0 ∧ loadDay (dateOf wall - 1) = [] ∧
    ∃ first, itemAt loadDay ⟨dateOf wall, 0⟩ = .ok first ∧ wall < first.loggedAt

/-- At the top of the first item to air, logged within the window: after the run
the clock is in or, with nothing logged yet, from today's first play on. -/
def LandsAtTop (wall : Int) (landing : Landing) : Prop :=
  landing.offsetMs = 0 ∧
    (∃ item, itemAt loadDay landing.ref = .ok item ∧ item.loggedAt ≤ wall + timing.window) ∧
    ((∃ ref first, ClockIn loadDay wall ref ∧ RunStarts loadDay timing first ref ∧
        FirstToAir loadDay timing first landing.ref) ∨
      NothingYet loadDay wall ∧ (landing.ref = ⟨dateOf wall, 0⟩ ∨
        ¬ PlaysAt loadDay timing ⟨dateOf wall, 0⟩ ∧
          FirstToAir loadDay timing ⟨dateOf wall, 0⟩ landing.ref))

end

variable {loadDay : DayLoader} {timing : StreamTiming}

theorem mem_loadDay_of_itemAt {ref : ItemRef} {item : ScheduleItem}
    (hitem : itemAt loadDay ref = .ok item) : item ∈ loadDay ref.day :=
  List.mem_of_getElem? (itemAt_eq_ok.mp hitem)

/-- A log in order is in order over its days. -/
theorem LoggedInOrder.le (hlog : LoggedInOrder loadDay) {first second : ItemRef}
    {item later : ScheduleItem} (hfirst : itemAt loadDay first = .ok item)
    (hsecond : itemAt loadDay second = .ok later) (hlt : first < second) :
    item.loggedAt ≤ later.loggedAt := by
  rcases (ItemRef.lt_def _ _).mp hlt with hday | ⟨hday, hindex⟩
  · have hearly := hlog.onDay _ _ (mem_loadDay_of_itemAt hfirst)
    have hlate := hlog.onDay _ _ (mem_loadDay_of_itemAt hsecond)
    unfold MICROS_PER_DAY at hearly hlate
    omega
  · rw [itemAt_eq_ok] at hfirst hsecond
    rw [← hday] at hsecond
    obtain ⟨hin, rfl⟩ := List.getElem?_eq_some_iff.mp hfirst
    obtain ⟨hin', rfl⟩ := List.getElem?_eq_some_iff.mp hsecond
    exact List.pairwise_iff_getElem.mp (hlog.sorted _) _ _ hin hin' hindex

/-! ## The start of the run -/

theorem itemsBefore_eq_error {ref : ItemRef} {error : StreamError}
    (hbefore : itemsBefore loadDay ref = .error error) : error = .dateOverflow ∧ ref.day = 0 := by
  unfold itemsBefore at hbefore
  split at hbefore
  next hday =>
    cases hbefore
    exact ⟨rfl, hday⟩
  · cases hbefore

/-- The run is followed back to its first play, the offsets adding up to the time
since that was logged; only on the first day there is can it not be. -/
theorem runStartFrom_spec (hlog : LoggedInOrder loadDay) {ref : ItemRef} {item : ScheduleItem}
    (hitem : itemAt loadDay ref = .ok item) (offsetMs : Int) :
    (runStartFrom loadDay timing ref item offsetMs = .error .dateOverflow ∧ loadDay 0 ≠ []) ∨
      ∃ first firstItem,
        runStartFrom loadDay timing ref item offsetMs =
          .ok (first, offsetMs + toMs (item.loggedAt - firstItem.loggedAt)) ∧
        itemAt loadDay first = .ok firstItem ∧ firstItem.loggedAt ≤ item.loggedAt ∧
        RunStarts loadDay timing first ref := by
  have hhere : ∀ ref item (offsetMs : Int), itemAt loadDay ref = .ok item →
      (∀ prior, ¬ GoesOn loadDay timing ref prior) →
      ∃ first firstItem, (.ok (ref, offsetMs) : Except StreamError (ItemRef × Int)) =
          .ok (first, offsetMs + toMs (item.loggedAt - firstItem.loggedAt)) ∧
        itemAt loadDay first = .ok firstItem ∧ firstItem.loggedAt ≤ item.loggedAt ∧
        RunStarts loadDay timing first ref := by
    intro ref item offsetMs hitem hfirst
    exact ⟨ref, item, by simp [toMs], hitem, Int.le_refl _, .refl, hfirst⟩
  fun_induction runStartFrom loadDay timing ref item offsetMs with
  | case1 ref item offsetMs _ error hbefore =>
      obtain ⟨rfl, hday⟩ := itemsBefore_eq_error hbefore
      exact .inl ⟨rfl, hday ▸ logged_of_itemAt hitem⟩
  | case2 ref item offsetMs _ before hbefore hfound =>
      exact .inr (hhere ref item offsetMs hitem fun prior hgoesOn =>
        not_playedBefore hbefore hfound prior hgoesOn.2.1)
  | case3 ref item offsetMs hplayable before hbefore prior priorItem hfound hsame ih =>
      obtain ⟨hprior, hpriorItem⟩ : PlayedBefore loadDay timing prior ref ∧
          itemAt loadDay prior = .ok priorItem := find?_itemsBefore hbefore _ hfound
      rcases ih hpriorItem with hoverflow | ⟨first, firstItem, hstart, hfirst, hle, hruns, hfresh⟩
      · exact .inl hoverflow
      · have hgoesOn : GoesOn loadDay timing ref prior :=
          ⟨⟨item, hitem, hplayable⟩, hprior, by rwa [fileAt_eq hpriorItem, fileAt_eq hitem]⟩
        have hpriorLe := hlog.le hpriorItem hitem hprior.earlier
        have hwhole := hlog.wholeMs _ _ (mem_loadDay_of_itemAt hitem)
        have hpriorWhole := hlog.wholeMs _ _ (mem_loadDay_of_itemAt hpriorItem)
        refine .inr ⟨first, firstItem, ?_, hfirst, by omega, .head hgoesOn hruns, hfresh⟩
        rw [hstart]
        unfold toMs
        congr 2
        omega
  | case4 ref item offsetMs _ before hbefore prior priorItem hfound hother =>
      obtain ⟨hprior, hpriorItem⟩ := find?_itemsBefore hbefore _ hfound
      refine .inr (hhere ref item offsetMs hitem fun other hgoesOn => hother ?_)
      obtain rfl := hgoesOn.2.1.unique hprior
      rw [← fileAt_eq hpriorItem, ← fileAt_eq hitem]
      exact hgoesOn.2.2
  | case5 ref item offsetMs hunplayable =>
      exact .inr (hhere ref item offsetMs hitem fun prior hgoesOn =>
        hunplayable ((playsAt_iff hitem).mp hgoesOn.1))

/-- With no log the day before, the first play of a day starts its own run. -/
theorem runStarts_of_noneBefore {day : Nat} {first : ItemRef}
    (hempty : loadDay (day - 1) = []) (hruns : RunStarts loadDay timing first ⟨day, 0⟩) :
    first = ⟨day, 0⟩ := by
  rcases hruns.1.cases_head with heq | ⟨prior, ⟨-, hprior, -⟩, -⟩
  · exact heq.symm
  · obtain ⟨item, hitem, -⟩ := hprior.plays
    have hnear := hprior.near
    have hearlier := hprior.earlier
    rw [ItemRef.lt_def] at hearlier
    dsimp only at hnear hearlier
    have hon : prior.day = day - 1 := by omega
    exact absurd (hon ▸ hempty) (logged_of_itemAt hitem)

/-! ## Landing from the anchor -/

theorem firstToAir_of_nextPlayable {after next : ItemRef} {item : ScheduleItem} {days : Nat}
    (hitem : itemAt loadDay after = .ok item)
    (hnext : nextPlayable loadDay timing after days = .ok (some next)) :
    FirstToAir loadDay timing after next := by
  obtain ⟨hlater, ⟨following, hfollowing, hairs⟩, hnearest⟩ := nextPlayable_first hitem hnext
  refine ⟨hlater, ⟨item, following, hitem, hfollowing, hairs⟩, ?_⟩
  rintro between hafter hbefore ⟨itemAfter, other, hitemAfter, hother, hwould⟩
  obtain rfl := Except.ok.inj (hitem.symm.trans hitemAfter)
  rw [hnearest between other hafter hbefore hother] at hwould
  cases hwould

/-- The log is of the first or of the last date there is. -/
def LogsAnEnd (loadDay : DayLoader) : Prop := loadDay 0 ≠ [] ∨ loadDay LAST_DAY ≠ []

theorem logsAnEnd_of_outOfDates {day rounds : Nat} (hday : day ≤ LAST_DAY)
    (hends : outOfDates loadDay day rounds) : LogsAnEnd loadDay := by
  induction rounds generalizing day with
  | zero => cases hends
  | succ rounds ih =>
      simp only [outOfDates, Bool.and_eq_true, Bool.or_eq_true, Bool.not_eq_true',
        decide_eq_false_iff_not, List.isEmpty_eq_false_iff] at hends
      rcases hends.2 with hlast | hlater
      · obtain rfl : day = LAST_DAY := by omega
        exact .inr hends.1
      · by_cases hbefore : day < LAST_DAY
        · exact ih hbefore hlater
        · obtain rfl : day = LAST_DAY := by omega
          exact .inr hends.1

/-- Enough of the play is left `offsetMs` in. -/
def EnoughLeft (timing : StreamTiming) (item : ScheduleItem) (offsetMs : Nat) : Prop :=
  ∃ file, item.file = some file ∧ offsetMs < file.spanMs ∧ file.tailFits offsetMs timing

/-- The landing is the start of the run, further in, or at the top of what airs next. -/
theorem landFromAnchor_spec (hlog : LoggedInOrder loadDay) {anchor : Landing}
    {item : ScheduleItem} (hitem : itemAt loadDay anchor.ref = .ok item)
    (hdate : anchor.ref.day ≤ LAST_DAY) :
    (landFromAnchor loadDay timing anchor = .error .dateOverflow ∧ LogsAnEnd loadDay) ∨
      landFromAnchor loadDay timing anchor = .ok none ∨
      ∃ first firstItem offsetMs landing,
        landFromAnchor loadDay timing anchor = .ok (some landing) ∧
        RunStarts loadDay timing first anchor.ref ∧ itemAt loadDay first = .ok firstItem ∧
        firstItem.loggedAt ≤ item.loggedAt ∧
        ((offsetMs : Nat) : Int) = anchor.offsetMs + toMs (item.loggedAt - firstItem.loggedAt) ∧
        (landing = ⟨first, offsetMs⟩ ∨ ¬ EnoughLeft timing firstItem offsetMs ∧
          landing.offsetMs = 0 ∧ FirstToAir loadDay timing first landing.ref) := by
  rcases @runStartFrom_spec _ timing hlog _ _ hitem anchor.offsetMs with
    ⟨hoverflow, hlogged⟩ | ⟨first, firstItem, hrun, hfirst, hle, hruns⟩
  · refine .inl ⟨?_, .inl hlogged⟩
    rw [landFromAnchor, runStart, bind_ok hitem, hoverflow]
    rfl
  · have hsince : 0 ≤ toMs (item.loggedAt - firstItem.loggedAt) := by
      have := toMs_nonneg.mpr (Int.sub_nonneg_of_le hle)
      omega
    obtain ⟨offsetMs, hoffset⟩ : ∃ offsetMs : Nat,
        (offsetMs : Int) = anchor.offsetMs + toMs (item.loggedAt - firstItem.loggedAt) :=
      ⟨_, Int.toNat_of_nonneg (by omega)⟩
    have hstart : runStart loadDay timing anchor = .ok ⟨first, offsetMs⟩ := by
      rw [runStart, bind_ok hitem, bind_ok hrun, ← hoffset]
      simp [Landing.make]
    have hland := landFromAnchor_eq hstart hfirst
    split at hland
    · exact .inr (.inr ⟨first, firstItem, offsetMs, _, hland, hruns, hfirst, hle,
        hoffset, .inl rfl⟩)
    -- Too little is left of the run's first item: the walk goes to what airs next.
    next hshort =>
      have hnext := @nextPlayable_eq _ timing _ _ timing.maxDaysAhead hfirst
      cases hfound : (itemsOver loadDay first.day (first.index + 1) (timing.maxDaysAhead + 1)).find?
          (airsAfter timing (if firstItem.isPlayable timing then firstItem.file else none)) with
      | none =>
          rw [hfound] at hnext
          rw [hnext] at hland
          cases hends : outOfDates loadDay first.day (timing.maxDaysAhead + 1) with
          | true =>
              rw [foundOrEnd, Option.map_none, Option.isNone_none, hends] at hland
              exact .inl ⟨hland, logsAnEnd_of_outOfDates
                ((runStartFrom_date hrun).trans hdate) hends⟩
          | false =>
              rw [foundOrEnd, Option.map_none, Option.isNone_none, hends] at hland
              exact .inr (.inl hland)
      | some entry =>
          rw [hfound] at hnext
          rw [hnext] at hland
          refine .inr (.inr ⟨first, firstItem, offsetMs, ⟨entry.1, 0⟩, hland, hruns, hfirst, hle,
            hoffset, .inr ⟨?_, rfl, firstToAir_of_nextPlayable hfirst hnext⟩⟩)
          rintro ⟨file, hfile, hspan, hfits⟩
          exact hshort (by simp [hfile, hspan, hfits])

/-! ## Tuning in -/

theorem bind_error {α β : Type} {first : Except StreamError α} {next : α → Except StreamError β}
    {error : StreamError} (hfirst : first = .error error) : (first >>= next) = .error error := by
  simp [hfirst, bind, Except.bind]

theorem stationWallClock_error {year : Nat} {now : CivilTime} {error : StreamError}
    (hwall : stationWallClock year now = .error error) :
    (∃ why, error = .noBroadcast why) ∨
      error = .yearOutOfRange year ∧ ¬ (1 ≤ year ∧ year ≤ 9999) := by
  unfold stationWallClock at hwall
  split at hwall
  · cases hwall
    exact .inl ⟨_, rfl⟩
  · split at hwall
    next hyear =>
      cases hwall
      exact .inr ⟨rfl, by omega⟩
    · cases hwall

/-- Over a log in order the anchor is a logged play, offset by no negative time. -/
theorem findAnchor_spec (hlog : LoggedInOrder loadDay) (wall : Int) :
    (∃ why, findAnchor loadDay wall = .error (.noBroadcast why)) ∨
      (findAnchor loadDay wall = .error .dateOverflow ∧ loadDay 0 ≠ []) ∨
      ∃ anchor item, findAnchor loadDay wall = .ok anchor ∧
        itemAt loadDay anchor.ref = .ok item := by
  cases hanchor : findAnchor loadDay wall with
  | ok anchor =>
      rcases clockIn_of_findAnchor hanchor with hclock | ⟨rfl, -, -, first, hfirst, -⟩
      · obtain ⟨item, hitem, -⟩ := hclock.1
        exact .inr (.inr ⟨anchor, item, rfl, hitem⟩)
      · exact .inr (.inr ⟨_, first, rfl, hfirst⟩)
  | error error =>
      unfold findAnchor at hanchor
      dsimp only at hanchor
      split at hanchor
      · cases hanchor
        exact .inl ⟨_, rfl⟩
      next head rest hday =>
        split at hanchor
        next index item hscan =>
          rw [← hday, lastAtOrBefore_eq_some] at hscan
          rcases hscan with ⟨hnone, -⟩ | ⟨-, -, -, hle, -⟩
          · cases hnone
          · rw [make_of_le _ hle] at hanchor
            cases hanchor
        · split at hanchor
          next hfirstDay =>
            cases hanchor
            rw [hfirstDay] at hday
            exact .inr (.inl ⟨rfl, by simp [hday]⟩)
          next hlaterDay =>
            split at hanchor
            next last hlast =>
              have hon := hlog.onDay _ _ (List.mem_of_getLast? hlast)
              rw [make_of_le] at hanchor
              · cases hanchor
              · -- Yesterday's last play was logged before today began.
                unfold dateOf at hon hlaterDay
                unfold MICROS_PER_DAY at hon hlaterDay
                omega
            · cases hanchor

/-- The offset from the start of a run, as the clock reads it. -/
theorem landsInside_of_clockIn (hlog : LoggedInOrder loadDay) {wall : Int} {ref first : ItemRef}
    {item firstItem : ScheduleItem} {offsetMs : Nat} (hclock : ClockIn loadDay wall ref)
    (hitem : itemAt loadDay ref = .ok item) (hruns : RunStarts loadDay timing first ref)
    (hfirst : itemAt loadDay first = .ok firstItem)
    (hoffset : (offsetMs : Int) =
      ((toMs (wall - item.loggedAt)).toNat : Nat) + toMs (item.loggedAt - firstItem.loggedAt)) :
    LandsInside loadDay timing wall ⟨first, offsetMs⟩ := by
  obtain ⟨logged, hlogged, hle⟩ := hclock.1
  obtain rfl := Except.ok.inj (hitem.symm.trans hlogged)
  have hwhole := hlog.wholeMs _ _ (mem_loadDay_of_itemAt hitem)
  have hfirstWhole := hlog.wholeMs _ _ (mem_loadDay_of_itemAt hfirst)
  refine ⟨ref, firstItem, hclock, hruns, hfirst, ?_⟩
  dsimp only
  rw [hoffset]
  unfold toMs
  omega

/-- Where the walk from the anchor lands, by the clock. -/
theorem landFromAnchor_places (hlog : LoggedInOrder loadDay) {wall : Int}
    {anchor landing : Landing} (hanchor : findAnchor loadDay wall = .ok anchor)
    {item : ScheduleItem} (hitem : itemAt loadDay anchor.ref = .ok item)
    (hdate : anchor.ref.day ≤ LAST_DAY)
    (hland : landFromAnchor loadDay timing anchor = .ok (some landing))
    (hwindow : ∃ item, itemAt loadDay landing.ref = .ok item ∧
      item.loggedAt ≤ wall + timing.window) :
    LandsInside loadDay timing wall landing ∨ LandsAtTop loadDay timing wall landing := by
  rcases @landFromAnchor_spec _ timing hlog _ _ hitem hdate with
    ⟨hoverflow, -⟩ | hnone | ⟨first, firstItem, offsetMs, found, hfound, hruns, hfirst, -, hoffset,
      hplace⟩
  · rw [hoverflow] at hland
    cases hland
  · rw [hnone] at hland
    cases hland
  obtain rfl := Option.some.inj (Except.ok.inj (hfound.symm.trans hland))
  rcases clockIn_of_findAnchor hanchor with hclock | ⟨rfl, hday, hempty, hfirstToday⟩
  · rcases hplace with rfl | ⟨-, htop, hnext⟩
    · rw [findAnchor_of_clockIn hclock hitem] at hanchor
      rw [← congrArg Landing.offsetMs (Except.ok.inj hanchor)] at hoffset
      exact .inl (landsInside_of_clockIn hlog hclock hitem hruns hfirst hoffset)
    · exact .inr ⟨htop, hwindow, .inl ⟨anchor.ref, first, hclock, hruns, hnext⟩⟩
  · obtain rfl := runStarts_of_noneBefore hempty hruns
    obtain rfl := Except.ok.inj (hitem.symm.trans hfirst)
    obtain rfl : offsetMs = 0 := by simpa [toMs] using hoffset
    rcases hplace with rfl | ⟨hshort, htop, hnext⟩
    · exact .inr ⟨rfl, hwindow, .inr ⟨⟨hday, hempty, hfirstToday⟩, .inl rfl⟩⟩
    · refine .inr ⟨htop, hwindow, .inr ⟨⟨hday, hempty, hfirstToday⟩, .inr ⟨?_, hnext⟩⟩⟩
      intro hplays
      obtain ⟨file, hfile, hplayable⟩ :=
        (item.isPlayable_iff timing).mp ((playsAt_iff hitem).mp hplays)
      obtain ⟨hspan, hmin⟩ := (file.isPlayable_iff timing).mp hplayable
      exact hshort ⟨file, hfile, hspan, (file.tailFits_iff 0 timing).mpr (by omega)⟩

/-- A clock tune-in over a log in order either finds nothing to broadcast, or lands
where an item can be played: inside the song on the air, or at the top of what airs
next. Dates end: a log of the first or the last date there is can run out of them, and
there is none in a year that is out of range. -/
theorem tuneIn_places (hlog : LoggedInOrder loadDay) (timing : StreamTiming) (year : Nat)
    (now : CivilTime) :
    (∃ why, tuneIn loadDay timing year now = .error (.noBroadcast why)) ∨
      (tuneIn loadDay timing year now = .error (.yearOutOfRange year) ∧
        ¬ (1 ≤ year ∧ year ≤ 9999)) ∨
      (tuneIn loadDay timing year now = .error .dateOverflow ∧ LogsAnEnd loadDay) ∨
      ∃ wall landing, stationWallClock year now = .ok wall ∧
        tuneIn loadDay timing year now = .ok ⟨landing, wall - now.toDateTime⟩ ∧
        Fits loadDay timing landing ∧
        (LandsInside loadDay timing wall landing ∨ LandsAtTop loadDay timing wall landing) := by
  cases hwall : stationWallClock year now with
  | error error =>
      rcases stationWallClock_error hwall with ⟨why, rfl⟩ | ⟨rfl, hyear⟩
      · exact .inl ⟨why, bind_error hwall⟩
      · exact .inr (.inl ⟨bind_error hwall, hyear⟩)
  | ok wall =>
      have hreads : tuneIn loadDay timing year now = _ := bind_ok hwall
      rcases findAnchor_spec hlog wall with
        ⟨why, hanchor⟩ | ⟨hanchor, hlogged⟩ | ⟨anchor, item, hanchor, hitem⟩
      · exact .inl ⟨why, hreads.trans (bind_error hanchor)⟩
      · exact .inr (.inr (.inl ⟨hreads.trans (bind_error hanchor), .inl hlogged⟩))
      -- From here on the clock has an anchor, and its day is a date.
      replace hreads := hreads.trans (bind_ok hanchor)
      have hdate : anchor.ref.day ≤ LAST_DAY :=
        (findAnchor_date hanchor).trans (dateOf_wallClock_le hwall)
      rcases @landFromAnchor_spec _ timing hlog _ _ hitem hdate with
        ⟨hland, hlogged⟩ | hland | ⟨_, _, _, landing, hland, -⟩
      · exact .inr (.inr (.inl ⟨hreads.trans (bind_error hland), hlogged⟩))
      · exact .inl ⟨_, hreads.trans (bind_ok hland)⟩
      replace hreads := hreads.trans (bind_ok hland)
      obtain ⟨landed, file, hlanded, -⟩ := landFromAnchor_fits hland
      replace hreads := hreads.trans (bind_ok hlanded)
      by_cases hwindow : landed.loggedAt - wall > timing.window
      · rw [if_pos hwindow] at hreads
        exact .inl ⟨_, hreads⟩
      · rw [if_neg hwindow] at hreads
        refine .inr (.inr (.inr ⟨wall, landing, rfl, hreads, landFromAnchor_fits hland, ?_⟩))
        exact landFromAnchor_places hlog hanchor hitem hdate hland ⟨landed, hlanded, by omega⟩

/-- A four-minute song at 10:00 of `day`, and nothing else. -/
def onePlayOn (day : Nat) : DayLoader := fun on =>
  if on = day then
    [⟨1, day * MICROS_PER_DAY + 36000000000, "First", "One",
      some ⟨11, "one.flac", some 240000, none⟩⟩]
  else []

theorem onePlayOn_inOrder (day : Nat) : LoggedInOrder (onePlayOn day) := by
  refine ⟨fun on => ?_, fun on item hitem => ?_, fun on item hitem => ?_⟩
  · unfold onePlayOn
    split <;> simp
  · unfold onePlayOn at hitem
    split at hitem
    next heq =>
      obtain rfl := List.mem_singleton.mp hitem
      subst heq
      dsimp only [MICROS_PER_DAY]
      omega
    · simp at hitem
  · unfold onePlayOn at hitem
    split at hitem
    · obtain rfl := List.mem_singleton.mp hitem
      dsimp only [MICROS_PER_DAY]
      omega
    · simp at hitem

/-- The clock's anchor in the only play lands inside it. -/
theorem landFromAnchor_onePlay {offsetMs : Nat} (hspan : offsetMs + 7000 ≤ 240000) :
    landFromAnchor (onePlayOn 1) {} ⟨⟨1, 0⟩, offsetMs⟩ = .ok (some ⟨⟨1, 0⟩, offsetMs⟩) := by
  have hitem : itemAt (onePlayOn 1) ⟨1, 0⟩ = .ok ⟨1, MICROS_PER_DAY + 36000000000, "First", "One",
      some ⟨11, "one.flac", some 240000, none⟩⟩ := by rfl
  have hstart : runStart (onePlayOn 1) {} ⟨⟨1, 0⟩, offsetMs⟩ = .ok ⟨⟨1, 0⟩, offsetMs⟩ := by
    rw [runStart, bind_ok hitem, runStartFrom]
    simp [itemsBefore, numbered, onePlayOn, ScheduleItem.isPlayable, PlayableFile.isPlayable,
      PlayableFile.tailFits, PlayableFile.spanMs, PlayableFile.minSpanMs, bind, Except.bind,
      Landing.make]
  rw [landFromAnchor_eq hstart hitem, if_pos]
  simp only [Option.any_some, Bool.and_eq_true, decide_eq_true_eq, PlayableFile.tailFits_iff]
  exact ⟨by change offsetMs < 240000; omega, by change offsetMs + 7000 ≤ 240000; omega⟩

/-- A minute and half a millisecond into the only play. -/
theorem tuneIn_places_onePlay : ∃ wall landing,
    stationWallClock 1 ⟨1, 1, 2, 36060000500, by decide, by decide, by decide⟩ = .ok wall ∧
    (LandsInside (onePlayOn 1) {} wall landing ∨ LandsAtTop (onePlayOn 1) {} wall landing) := by
  have htuned : tuneIn (onePlayOn 1) {} 1
      ⟨1, 1, 2, 36060000500, by decide, by decide, by decide⟩ = .ok ⟨⟨⟨1, 0⟩, 60000⟩, 0⟩ :=
    tuneIn_eq_ok_iff.mpr ⟨_, ⟨⟨1, 0⟩, 60000⟩, _, rfl, by decide,
      landFromAnchor_onePlay (by decide), rfl, by decide, by decide⟩
  rcases tuneIn_places (onePlayOn_inOrder 1) {} 1
      ⟨1, 1, 2, 36060000500, by decide, by decide, by decide⟩ with
    ⟨why, herror⟩ | ⟨herror, -⟩ | ⟨herror, -⟩ | ⟨wall, landing, hwall, -, -, hlands⟩
  · rw [htuned] at herror
    cases herror
  · rw [htuned] at herror
    cases herror
  · rw [htuned] at herror
    cases herror
  · exact ⟨wall, landing, hwall, hlands⟩

/-- An hour past the only song, on the last date there is. -/
theorem tuneIn_lastDate :
    tuneIn (onePlayOn LAST_DAY) {} 9999
      ⟨1, 12, 31, 39600000000, by decide, by decide, by decide⟩ = .error .dateOverflow := by
  have hwall : stationWallClock 9999
      ⟨1, 12, 31, 39600000000, by decide, by decide, by decide⟩ =
        .ok (LAST_DAY * MICROS_PER_DAY + 39600000000) := by decide
  have hanchor : findAnchor (onePlayOn LAST_DAY) (LAST_DAY * MICROS_PER_DAY + 39600000000) =
      .ok ⟨⟨LAST_DAY, 0⟩, 3600000⟩ := by decide
  have hitem : itemAt (onePlayOn LAST_DAY) ⟨LAST_DAY, 0⟩ =
      .ok ⟨1, LAST_DAY * MICROS_PER_DAY + 36000000000, "First", "One",
        some ⟨11, "one.flac", some 240000, none⟩⟩ := by rfl
  have hstart : runStart (onePlayOn LAST_DAY) {} ⟨⟨LAST_DAY, 0⟩, 3600000⟩ =
      .ok ⟨⟨LAST_DAY, 0⟩, 3600000⟩ := by
    rw [runStart, bind_ok hitem, runStartFrom]
    rfl
  refine (bind_ok hwall).trans ((bind_ok hanchor).trans (bind_error ?_))
  rw [landFromAnchor_eq hstart hitem]
  rfl

/-- On the first date there is the run cannot be followed back, and on the last there is no
date to go on to; a minute and half a millisecond into a song the landing is half a
millisecond early; and an hour before the only song the landing is its top, with no run
before it. -/
theorem tuneIn_beside : LoggedInOrder (onePlayOn 0) ∧ LoggedInOrder (onePlayOn 1) ∧
    tuneIn (onePlayOn 0) {} 1 ⟨1, 1, 1, 36060000000, by decide, by decide, by decide⟩ =
      .error .dateOverflow ∧
    tuneIn (onePlayOn LAST_DAY) {} 9999
      ⟨1, 12, 31, 39600000000, by decide, by decide, by decide⟩ = .error .dateOverflow ∧
    (∃ wall item,
      stationWallClock 1 ⟨1, 1, 2, 36060000500, by decide, by decide, by decide⟩ = .ok wall ∧
      tuneIn (onePlayOn 1) {} 1 ⟨1, 1, 2, 36060000500, by decide, by decide, by decide⟩ =
        .ok ⟨⟨⟨1, 0⟩, 60000⟩, 0⟩ ∧
      itemAt (onePlayOn 1) ⟨1, 0⟩ = .ok item ∧ item.loggedAt + 60000 * 1000 ≠ wall) ∧
    ∃ wall item,
      stationWallClock 1 ⟨1, 1, 2, 32400000000, by decide, by decide, by decide⟩ = .ok wall ∧
      tuneIn (onePlayOn 1) {} 1 ⟨1, 1, 2, 32400000000, by decide, by decide, by decide⟩ =
        .ok ⟨⟨⟨1, 0⟩, 0⟩, 0⟩ ∧
      itemAt (onePlayOn 1) ⟨1, 0⟩ = .ok item ∧ item.loggedAt + 0 * 1000 ≠ wall ∧
      ∀ first, ¬ FirstToAir (onePlayOn 1) {} first ⟨1, 0⟩ := by
  refine ⟨onePlayOn_inOrder 0, onePlayOn_inOrder 1, ?_, tuneIn_lastDate, ?_, ?_⟩
  · have hanchor : findAnchor (onePlayOn 0) 36060000000 = .ok ⟨⟨0, 0⟩, 60000⟩ := by decide
    have hitem : itemAt (onePlayOn 0) ⟨0, 0⟩ = .ok ⟨1, 36000000000, "First", "One",
        some ⟨11, "one.flac", some 240000, none⟩⟩ := by rfl
    have hstart : runStart (onePlayOn 0) {} ⟨⟨0, 0⟩, 60000⟩ = .error .dateOverflow := by
      rw [runStart, bind_ok hitem, runStartFrom]
      rfl
    exact (bind_ok rfl).trans ((bind_ok hanchor).trans (bind_error (bind_error hstart)))
  · exact ⟨_, _, rfl, tuneIn_eq_ok_iff.mpr ⟨_, ⟨⟨1, 0⟩, 60000⟩, _, rfl, by decide,
      landFromAnchor_onePlay (by decide), rfl, by decide, by decide⟩, rfl, by decide⟩
  · refine ⟨_, _, rfl, tuneIn_eq_ok_iff.mpr ⟨_, ⟨⟨1, 0⟩, 0⟩, _, rfl, by decide,
      landFromAnchor_onePlay (by decide), rfl, by decide, by decide⟩, rfl, by decide, ?_⟩
    rintro ⟨day, index⟩ ⟨hlt, ⟨item, -, hitem, -⟩, -⟩
    have hlogged := logged_of_itemAt hitem
    rw [ItemRef.lt_def] at hlt
    dsimp only at hlt hlogged
    unfold onePlayOn at hlogged
    split at hlogged
    next hday => omega
    · exact hlogged rfl

end RetroStation.Streaming
