import Mathlib.Tactic.Common
import RetroStation.Streaming.TuneIn

/-! # One airing order

An open session asks for its next item one at a time; a resume walks a whole
stretch of the log at once. Both follow the same programme: the walk of a resume
lands on the item the open session would have reached with the same playback.
-/

namespace RetroStation.Streaming

section

variable (loadDay : DayLoader) (timing : StreamTiming)

/-- The positions an open session hands out from `start` on, `none` past the end. -/
def programme (start : ItemRef) : Nat → Option ItemRef
  | 0 => some start
  | count + 1 => (programme start count).bind fun ref => (nextItem loadDay timing ref).toOption

/-- The audible length of the item at `ref`. -/
def spanAt (ref : ItemRef) : Nat :=
  match (itemAt loadDay ref).toOption.bind ScheduleItem.file with
  | some file => file.spanMs
  | none => 0

/-- How long the first `count` items of the programme play. -/
def airtime (start : ItemRef) : Nat → Nat
  | 0 => 0
  | count + 1 =>
    airtime start count + ((programme loadDay timing start count).map (spanAt loadDay)).getD 0

/-- Whether enough of the item at `ref` is left from `offsetMs` on. -/
def tailFitsAt (ref : ItemRef) (offsetMs : Nat) : Bool :=
  match (itemAt loadDay ref).toOption.bind ScheduleItem.file with
  | some file => file.tailFits offsetMs timing
  | none => false

/-- `landing` is where `offsetMs` of playback from `start` ends in the programme:
inside the first item not used up, or at the top of the one after it. -/
def LandsAt (start : ItemRef) (offsetMs : Nat) (landing : Landing) : Prop :=
  ∃ count ref, programme loadDay timing start count = some ref ∧
    (∀ earlier < count, airtime loadDay timing start (earlier + 1) ≤ offsetMs) ∧
    airtime loadDay timing start count ≤ offsetMs ∧
    offsetMs < airtime loadDay timing start (count + 1) ∧
    (let remaining := offsetMs - airtime loadDay timing start count
     if tailFitsAt loadDay timing ref remaining then landing = ⟨ref, remaining⟩
     else ∃ next, programme loadDay timing start (count + 1) = some next ∧ landing = ⟨next, 0⟩)

end

variable {loadDay : DayLoader} {timing : StreamTiming}

/-! ## The items of consecutive days -/

theorem itemAt_eq_ok {ref : ItemRef} {item : ScheduleItem} :
    itemAt loadDay ref = .ok item ↔ (loadDay ref.day)[ref.index]? = some item := by
  unfold itemAt
  cases (loadDay ref.day)[ref.index]? <;> simp

theorem mem_numbered_drop {day first : Nat} {entry : ItemRef × ScheduleItem}
    (hmem : entry ∈ (numbered loadDay day).drop first) :
    entry.1.day = day ∧ first ≤ entry.1.index ∧ itemAt loadDay entry.1 = .ok entry.2 := by
  obtain ⟨offset, hoffset, rfl⟩ := List.mem_iff_getElem.mp hmem
  have hlength : first + offset < (loadDay day).length := by
    simpa [numbered, Nat.lt_sub_iff_add_lt'] using hoffset
  simp [numbered, itemAt_eq_ok, List.getElem?_eq_getElem hlength]

theorem mem_itemsOver {day first rounds : Nat} {entry : ItemRef × ScheduleItem}
    (hmem : entry ∈ itemsOver loadDay day first rounds) :
    itemAt loadDay entry.1 = .ok entry.2 ∧
      (day < entry.1.day ∨ day = entry.1.day ∧ first ≤ entry.1.index) := by
  induction rounds generalizing day first with
  | zero => simp [itemsOver] at hmem
  | succ rounds ih =>
      simp only [itemsOver] at hmem
      split at hmem
      · simp at hmem
      · rcases List.mem_append.mp hmem with hmem | hmem
        · obtain ⟨hday, hindex, hitem⟩ := mem_numbered_drop hmem
          exact ⟨hitem, .inr ⟨hday.symm, hindex⟩⟩
        · obtain ⟨-, hmem⟩ := List.mem_ite_nil_right.mp hmem
          obtain ⟨hitem, hlater⟩ := ih hmem
          exact ⟨hitem, .inl (by omega)⟩

theorem itemsOver_mono (day first : Nat) {rounds more : Nat} (hmore : rounds ≤ more) :
    itemsOver loadDay day first rounds <+: itemsOver loadDay day first more := by
  induction rounds generalizing day first more with
  | zero => exact List.nil_prefix
  | succ rounds ih =>
      obtain ⟨more, rfl⟩ : ∃ less, more = less + 1 := ⟨more - 1, by omega⟩
      simp only [itemsOver]
      split
      · exact List.nil_prefix
      · refine (List.prefix_append_right_inj _).mpr ?_
        split
        · exact ih (day + 1) 0 (by omega)
        · exact List.nil_prefix

/-- Where the dates end, more days have no more items. -/
theorem itemsOver_of_outOfDates {day : Nat} (first : Nat) {rounds more : Nat}
    (hends : outOfDates loadDay day rounds) (hmore : rounds ≤ more) :
    itemsOver loadDay day first more = itemsOver loadDay day first rounds := by
  induction rounds generalizing day first more with
  | zero => cases hends
  | succ rounds ih =>
      obtain ⟨more, rfl⟩ : ∃ less, more = less + 1 := ⟨more - 1, by omega⟩
      simp only [itemsOver]
      split
      · rfl
      · split
        next hbefore =>
          have hlater : outOfDates loadDay (day + 1) rounds := by
            simpa [outOfDates, hbefore, Bool.and_eq_true] using (Bool.and_eq_true_iff.mp hends).2
          rw [ih 0 hlater (by omega)]
        · rfl

theorem numbered_drop_cons {ref : ItemRef} {item : ScheduleItem}
    (hitem : itemAt loadDay ref = .ok item) :
    (numbered loadDay ref.day).drop ref.index =
      (ref, item) :: (numbered loadDay ref.day).drop (ref.index + 1) := by
  rw [itemAt_eq_ok] at hitem
  obtain ⟨hindex, rfl⟩ := List.getElem?_eq_some_iff.mp hitem
  rw [List.drop_eq_getElem_cons (by simpa [numbered] using hindex)]
  simp [numbered]

/-- What follows an entry of a day is the day from the next index on. -/
theorem numbered_drop_after {day first : Nat} {before after : List (ItemRef × ScheduleItem)}
    {entry : ItemRef × ScheduleItem}
    (hday : (numbered loadDay day).drop first = before ++ entry :: after) :
    entry.1.day = day ∧ after = (numbered loadDay day).drop (entry.1.index + 1) := by
  have hrest : (numbered loadDay day).drop (first + before.length) = entry :: after := by
    rw [← List.drop_drop, hday, List.drop_left]
  have hlength : first + before.length < (numbered loadDay day).length := by
    by_contra hshort
    rw [List.drop_eq_nil_of_le (by omega)] at hrest
    cases hrest
  rw [List.drop_eq_getElem_cons hlength, List.cons.injEq] at hrest
  obtain ⟨hentry, rfl⟩ := hrest
  simp [← hentry, numbered]

/-- After an entry the items go on from the next index, over the days left. -/
theorem itemsOver_after {day first rounds : Nat} {before after : List (ItemRef × ScheduleItem)}
    {ref : ItemRef} {item : ScheduleItem}
    (hitems : itemsOver loadDay day first rounds = before ++ (ref, item) :: after) :
    ∃ left ≤ rounds, after = itemsOver loadDay ref.day (ref.index + 1) left := by
  induction rounds generalizing day first before with
  | zero => simp [itemsOver] at hitems
  | succ rounds ih =>
      simp only [itemsOver] at hitems
      split at hitems
      · simp at hitems
      next hlogged =>
        rcases List.append_eq_append_iff.mp hitems with
          ⟨middle, hbefore, hafter⟩ | ⟨middle, hday, hafter⟩
        · split at hafter
          · obtain ⟨left, hleft, hlist⟩ := ih hafter
            exact ⟨left, by omega, hlist⟩
          · simp at hafter
        · cases middle with
          | nil =>
              simp only [List.nil_append] at hafter
              split at hafter
              · obtain ⟨left, hleft, hlist⟩ := @ih _ _ [] hafter.symm
                exact ⟨left, by omega, hlist⟩
              · cases hafter
          | cons head middle =>
              simp only [List.cons_append, List.cons.injEq] at hafter
              obtain ⟨rfl, rfl⟩ := hafter
              obtain ⟨rfl, rfl⟩ := numbered_drop_after hday
              exact ⟨rounds + 1, le_rfl, by simp [itemsOver, hlogged]⟩

/-- What is walked from a logged item on: the item, then what follows it. -/
theorem itemsFrom_cons {start : ItemRef} {item : ScheduleItem}
    (hitem : itemAt loadDay start = .ok item) (days : Nat) :
    itemsFrom loadDay start days =
      (start, item) :: itemsOver loadDay start.day (start.index + 1) (days + 1) := by
  have hlogged : (loadDay start.day).isEmpty = false := by
    rw [itemAt_eq_ok] at hitem
    cases hday : loadDay start.day with
    | nil => simp [hday] at hitem
    | cons => rfl
  simp only [itemsFrom, itemsOver, hlogged, Bool.false_eq_true, if_false,
    numbered_drop_cons hitem, List.cons_append]

/-! ## The next item -/

theorem airsAfter_iff {prior : Option PlayableFile} {entry : ItemRef × ScheduleItem} :
    airsAfter timing prior entry ↔
      ∃ file, entry.2.file = some file ∧ file.isPlayable timing ∧
        sameFile prior (some file) = false := by
  unfold airsAfter ScheduleItem.isPlayable
  cases entry.2.file <;> simp

theorem foundOrEnd_eq_some {α : Type} {start : ItemRef} {days : Nat} {found : Option α}
    {value : α} : foundOrEnd loadDay start days found = .ok (some value) ↔ found = some value := by
  unfold foundOrEnd
  cases found with
  | none => cases outOfDates loadDay start.day (days + 1) <;> simp
  | some => simp

/-- The next item after a playable one is the first that airs. -/
theorem nextItem_eq {ref : ItemRef} {item : ScheduleItem}
    (hitem : itemAt loadDay ref = .ok item) (hplayable : item.isPlayable timing) :
    nextItem loadDay timing ref =
      match (itemsOver loadDay ref.day (ref.index + 1) 2).find? (airsAfter timing item.file) with
      | some entry => .ok entry.1
      | none => .error (if outOfDates loadDay ref.day 2 then .dateOverflow else .endOfSchedule ref)
    := by
  simp only [nextItem, nextPlayable, hitem, hplayable, itemsFrom, bind, Except.bind, if_true,
    foundOrEnd]
  cases (itemsOver loadDay ref.day (ref.index + 1) 2).find? (airsAfter timing item.file) with
  | none => cases outOfDates loadDay ref.day 2 <;> rfl
  | some => rfl

/-- The next item is later, playable, and not the file that has just aired. -/
theorem nextItem_airs {ref next : ItemRef} {item : ScheduleItem}
    (hitem : itemAt loadDay ref = .ok item) (hplayable : item.isPlayable timing)
    (hnext : nextItem loadDay timing ref = .ok next) :
    ref < next ∧ ∃ following, itemAt loadDay next = .ok following ∧
      following.isPlayable timing ∧ sameFile item.file following.file = false := by
  rw [nextItem_eq hitem hplayable] at hnext
  split at hnext
  next entry hfind =>
    cases hnext
    have hairs := List.find?_some hfind
    obtain ⟨hentry, hlater⟩ := mem_itemsOver (List.mem_of_find?_eq_some hfind)
    simp only [airsAfter, Bool.and_eq_true, Bool.not_eq_true'] at hairs
    refine ⟨?_, entry.2, hentry, hairs.1, hairs.2⟩
    rw [ItemRef.lt_def]
    omega
  next => cases hnext

/-- A longer look-ahead finds the same next item, if the session finds one at all. -/
theorem nextItem_of_find {ref : ItemRef} {item : ScheduleItem} {rounds : Nat}
    {entry : ItemRef × ScheduleItem} (hitem : itemAt loadDay ref = .ok item)
    (hplayable : item.isPlayable timing)
    (hgoes : ∀ after, nextItem loadDay timing ref ≠ .error (.endOfSchedule after))
    (hfind : (itemsOver loadDay ref.day (ref.index + 1) rounds).find?
      (airsAfter timing item.file) = some entry) :
    nextItem loadDay timing ref = .ok entry.1 := by
  have hnext := nextItem_eq hitem hplayable
  cases hfound : (itemsOver loadDay ref.day (ref.index + 1) 2).find?
      (airsAfter timing item.file) with
  | none =>
      rw [hfound] at hnext
      by_cases hends : outOfDates loadDay ref.day 2 = true
      · rcases Nat.le_total rounds 2 with hle | hle
        · rw [(itemsOver_mono _ _ hle).find?_eq_some hfind] at hfound
          cases hfound
        · rw [itemsOver_of_outOfDates _ hends hle, hfound] at hfind
          cases hfind
      · rw [if_neg hends] at hnext
        exact absurd hnext (hgoes ref)
  | some found =>
      rw [hfound] at hnext
      have hsame : some found = some entry := by
        rcases Nat.le_total rounds 2 with hle | hle
        · rw [← hfound]
          exact (itemsOver_mono _ _ hle).find?_eq_some hfind
        · rw [← hfind]
          exact ((itemsOver_mono _ _ hle).find?_eq_some hfound).symm
      rw [hnext, Option.some.inj hsame]

/-- Everything a session hands out can be played, and comes later than its start. -/
theorem programme_airs {start ref : ItemRef} {item : ScheduleItem} {count : Nat}
    (hitem : itemAt loadDay start = .ok item) (hplayable : item.isPlayable timing)
    (hcount : programme loadDay timing start count = some ref) :
    (∃ handed, itemAt loadDay ref = .ok handed ∧ handed.isPlayable timing) ∧
      (start = ref ∨ start < ref) := by
  induction count generalizing ref with
  | zero =>
      obtain rfl := Option.some.inj hcount
      exact ⟨⟨item, hitem, hplayable⟩, .inl rfl⟩
  | succ count ih =>
      obtain ⟨before, hbefore, hnext⟩ := Option.bind_eq_some_iff.mp hcount
      obtain ⟨⟨handed, hhanded, hhandedPlayable⟩, hlater⟩ := ih hbefore
      cases hstep : nextItem loadDay timing before with
      | error error => simp [hstep, Except.toOption] at hnext
      | ok next =>
          obtain rfl : next = ref := by simpa [hstep, Except.toOption] using hnext
          obtain ⟨hlt, following, hfollowing, hfollowingPlayable, -⟩ :=
            nextItem_airs hhanded hhandedPlayable hstep
          refine ⟨⟨following, hfollowing, hfollowingPlayable⟩, .inr ?_⟩
          rcases hlater with rfl | hlater
          · exact hlt
          · exact ItemRef.lt_trans hlater hlt

/-! ## Spending playback -/

theorem spend_skip {before rest : List (ItemRef × ScheduleItem)} {prior : Option PlayableFile}
    (hskip : ∀ entry ∈ before, airsAfter timing prior entry = false) (remaining : Nat) :
    spend timing (before ++ rest) prior remaining = spend timing rest prior remaining := by
  induction before with
  | nil => rfl
  | cons head before ih =>
      obtain ⟨ref, item⟩ := head
      have hhead := hskip (ref, item) (by simp)
      have hrest := ih fun entry hentry => hskip entry (by simp [hentry])
      simp only [airsAfter, ScheduleItem.isPlayable] at hhead
      simp only [List.cons_append, spend]
      cases hfile : item.file with
      | none => exact hrest
      | some file =>
          rw [hfile] at hhead
          have hnot : (!file.isPlayable timing || sameFile prior (some file)) = true := by
            simpa [Decidable.or_iff_not_imp_left] using hhead
          simp only [hnot, if_true]
          exact hrest

theorem spend_airs {ref : ItemRef} {item : ScheduleItem} {file : PlayableFile}
    {rest : List (ItemRef × ScheduleItem)} {prior : Option PlayableFile}
    (hfile : item.file = some file) (hairs : airsAfter timing prior (ref, item))
    (remaining : Nat) :
    spend timing ((ref, item) :: rest) prior remaining =
      if remaining < file.spanMs then
        if file.tailFits remaining timing then some ⟨ref, remaining⟩
        else spend timing rest (some file) 0
      else spend timing rest (some file) (remaining - file.spanMs) := by
  simp only [airsAfter, ScheduleItem.isPlayable, hfile, Bool.and_eq_true,
    Bool.not_eq_true'] at hairs
  simp only [spend, hfile, hairs.1, hairs.2, Bool.not_true, Bool.or_self, Bool.false_eq_true,
    if_false]

/-- What aired before an item that airs does not matter to it. -/
theorem spend_airs_none {entry : ItemRef × ScheduleItem} {rest : List (ItemRef × ScheduleItem)}
    {prior : Option PlayableFile} (hairs : airsAfter timing prior entry) (remaining : Nat) :
    spend timing (entry :: rest) prior remaining = spend timing (entry :: rest) none remaining := by
  obtain ⟨file, hfile, hplayable, -⟩ := airsAfter_iff.mp hairs
  have hfirst : airsAfter timing none entry := airsAfter_iff.mpr ⟨file, hfile, hplayable, rfl⟩
  rw [spend_airs hfile hairs, spend_airs hfile hfirst]

/-- A walk that lands passes through the first item that airs. -/
theorem spend_find {items : List (ItemRef × ScheduleItem)} {prior : Option PlayableFile}
    {remaining : Nat} {landing : Landing}
    (hspend : spend timing items prior remaining = some landing) :
    ∃ before entry after, items = before ++ entry :: after ∧
      items.find? (airsAfter timing prior) = some entry ∧ airsAfter timing prior entry ∧
      spend timing (entry :: after) prior remaining = some landing := by
  cases hfind : items.find? (airsAfter timing prior) with
  | none =>
      have hnone := @spend_skip timing items [] prior
        (fun entry hentry => by simpa using List.find?_eq_none.mp hfind entry hentry) remaining
      rw [List.append_nil, hspend] at hnone
      cases hnone
  | some entry =>
      obtain ⟨hairs, before, after, rfl, hbefore⟩ := List.find?_eq_some_iff_append.mp hfind
      have hskip : ∀ skipped ∈ before, airsAfter timing prior skipped = false := by
        simpa using hbefore
      rw [spend_skip hskip] at hspend
      exact ⟨before, entry, after, rfl, rfl, hairs, hspend⟩

/-- A walk lands on one of its items. -/
theorem spend_mem {items : List (ItemRef × ScheduleItem)} {prior : Option PlayableFile}
    {remaining : Nat} {landing : Landing}
    (hspend : spend timing items prior remaining = some landing) :
    ∃ entry ∈ items, landing.ref = entry.1 := by
  induction items generalizing prior remaining with
  | nil => cases hspend
  | cons head rest ih =>
      obtain ⟨ref, item⟩ := head
      have hrest : ∀ {prior remaining}, spend timing rest prior remaining = some landing →
          ∃ entry ∈ (ref, item) :: rest, landing.ref = entry.1 := fun hrest => by
        obtain ⟨entry, hentry, hlanding⟩ := ih hrest
        exact ⟨entry, by simp [hentry], hlanding⟩
      simp only [spend] at hspend
      split at hspend
      · exact hrest hspend
      · split at hspend
        · exact hrest hspend
        · split at hspend
          · split at hspend
            · cases hspend
              exact ⟨(ref, item), by simp, rfl⟩
            · exact hrest hspend
          · exact hrest hspend

/-! ## Landing in the programme -/

theorem programme_succ {ref next : ItemRef} (hnext : nextItem loadDay timing ref = .ok next)
    (count : Nat) :
    programme loadDay timing ref (count + 1) = programme loadDay timing next count := by
  induction count with
  | zero => simp [programme, hnext, Except.toOption]
  | succ count ih =>
      rw [programme, ih]
      rfl

theorem airtime_succ {ref next : ItemRef} (hnext : nextItem loadDay timing ref = .ok next)
    (count : Nat) :
    airtime loadDay timing ref (count + 1) =
      spanAt loadDay ref + airtime loadDay timing next count := by
  induction count with
  | zero => simp [airtime, programme]
  | succ count ih =>
      rw [airtime, ih, programme_succ hnext, airtime]
      omega

theorem itemAt_file {ref : ItemRef} {item : ScheduleItem} {file : PlayableFile}
    (hitem : itemAt loadDay ref = .ok item) (hfile : item.file = some file) :
    spanAt loadDay ref = file.spanMs ∧
      ∀ offsetMs, tailFitsAt loadDay timing ref offsetMs = file.tailFits offsetMs timing := by
  simp [spanAt, tailFitsAt, hitem, hfile, Except.toOption]

theorem landsAt_here {ref : ItemRef} {remaining : Nat} (hspan : remaining < spanAt loadDay ref)
    (hfits : tailFitsAt loadDay timing ref remaining) :
    LandsAt loadDay timing ref remaining ⟨ref, remaining⟩ := by
  refine ⟨0, ref, rfl, by simp, by simp [airtime], by simpa [airtime, programme] using hspan, ?_⟩
  simp [airtime, hfits]

theorem landsAt_next {ref next : ItemRef} {remaining : Nat}
    (hspan : remaining < spanAt loadDay ref)
    (hshort : tailFitsAt loadDay timing ref remaining = false)
    (hnext : nextItem loadDay timing ref = .ok next) :
    LandsAt loadDay timing ref remaining ⟨next, 0⟩ := by
  refine ⟨0, ref, rfl, by simp, by simp [airtime], by simpa [airtime, programme] using hspan, ?_⟩
  simp [airtime, hshort, programme, hnext, Except.toOption]

theorem landsAt_later {ref next : ItemRef} {remaining : Nat} {landing : Landing}
    (hspan : spanAt loadDay ref ≤ remaining) (hnext : nextItem loadDay timing ref = .ok next)
    (hlands : LandsAt loadDay timing next (remaining - spanAt loadDay ref) landing) :
    LandsAt loadDay timing ref remaining landing := by
  obtain ⟨count, found, hfound, hearlier, hused, hinside, hlanding⟩ := hlands
  have hshift : remaining - (spanAt loadDay ref + airtime loadDay timing next count) =
      remaining - spanAt loadDay ref - airtime loadDay timing next count := by omega
  refine ⟨count + 1, found, ?_, ?_, ?_, ?_, ?_⟩
  · rw [programme_succ hnext, hfound]
  · intro earlier hearlierLt
    cases earlier with
    | zero => rw [airtime_succ hnext]; simpa [airtime] using hspan
    | succ earlier =>
        have hbefore := hearlier earlier (by omega)
        rw [airtime_succ hnext]
        omega
  · rw [airtime_succ hnext]
    omega
  · rw [airtime_succ hnext]
    omega
  · rw [airtime_succ hnext, programme_succ hnext, hshift]
    exact hlanding

/-- A walk with nothing left to spend lands on the next item that airs, at its top. -/
theorem spend_zero {items : List (ItemRef × ScheduleItem)} {prior : Option PlayableFile}
    {landing : Landing} (hspend : spend timing items prior 0 = some landing) :
    ∃ entry, items.find? (airsAfter timing prior) = some entry ∧ landing = ⟨entry.1, 0⟩ := by
  obtain ⟨before, ⟨ref, item⟩, after, hitems, hfind, hairs, hentry⟩ := spend_find hspend
  obtain ⟨file, hfile, hplayable, hother⟩ := airsAfter_iff.mp hairs
  obtain ⟨hspan, hmin⟩ := (file.isPlayable_iff timing).mp hplayable
  have hfits : file.tailFits (0 : Nat) timing := (file.tailFits_iff 0 timing).mpr (by omega)
  rw [spend_airs hfile hairs, if_pos hspan, if_pos hfits] at hentry
  exact ⟨(ref, item), hfind, (Option.some.inj hentry).symm⟩

/-- The walk from an item that airs lands where the programme does. -/
theorem spend_landsAt {ref : ItemRef} {item : ScheduleItem} {rounds remaining : Nat}
    {landing : Landing} (hitem : itemAt loadDay ref = .ok item)
    (hplayable : item.isPlayable timing)
    (hspend : spend timing ((ref, item) :: itemsOver loadDay ref.day (ref.index + 1) rounds) none
      remaining = some landing)
    (hgoes : ∀ count earlier, programme loadDay timing ref count = some earlier →
      earlier < landing.ref →
      ∀ after, nextItem loadDay timing earlier ≠ .error (.endOfSchedule after)) :
    LandsAt loadDay timing ref remaining landing := by
  generalize hitems : itemsOver loadDay ref.day (ref.index + 1) rounds = items at hspend
  -- The items left shrink with every item used up.
  induction hlength : items.length using Nat.strong_induction_on
    generalizing ref item rounds remaining items with
  | _ length ih =>
      obtain ⟨file, hfile, hfilePlayable⟩ := (item.isPlayable_iff timing).mp hplayable
      obtain ⟨hspanAt, hfitsAt⟩ := itemAt_file hitem hfile
      have hairs : airsAfter timing none (ref, item) :=
        airsAfter_iff.mpr ⟨file, hfile, hfilePlayable, rfl⟩
      rw [spend_airs hfile hairs] at hspend
      have hlater : ∀ entry ∈ items, ref < entry.1 := by
        intro entry hentry
        have hplace := (mem_itemsOver (hitems ▸ hentry)).2
        rw [ItemRef.lt_def]
        omega
      have hfound : ∀ entry, items.find? (airsAfter timing (some file)) = some entry →
          ref < landing.ref → nextItem loadDay timing ref = .ok entry.1 := by
        intro entry hfind hbefore
        rw [← hitems, ← hfile] at hfind
        exact nextItem_of_find hitem hplayable (hgoes 0 ref rfl hbefore) hfind
      split at hspend
      -- More of it is left to play than of the time: it is the landing, or its tail is passed.
      next hspan =>
        rw [← hspanAt] at hspan
        split at hspend
        next hfits =>
          cases hspend
          exact landsAt_here hspan (by rwa [hfitsAt])
        next hshort =>
          obtain ⟨entry, hfind, rfl⟩ := spend_zero hspend
          have hbefore := hlater entry (List.mem_of_find?_eq_some hfind)
          exact landsAt_next hspan (by simpa [hfitsAt] using hshort) (hfound entry hfind hbefore)
      next hspan =>
        rw [← hspanAt, not_lt] at hspan
        obtain ⟨last, hlast, hlanding⟩ := spend_mem hspend
        have hbefore : ref < landing.ref := hlanding ▸ hlater last hlast
        obtain ⟨before, ⟨next, nextLogged⟩, after, rfl, hfind, hnextAirs, hrest⟩ :=
          spend_find hspend
        have hnext := hfound _ hfind hbefore
        obtain ⟨left, -, rfl⟩ := itemsOver_after hitems
        have hnextPlayable : nextLogged.isPlayable timing :=
          (Bool.and_eq_true_iff.mp hnextAirs).1
        have hmem : (next, nextLogged) ∈ itemsOver loadDay ref.day (ref.index + 1) rounds := by
          simp [hitems]
        rw [spend_airs_none hnextAirs, ← hspanAt] at hrest
        refine landsAt_later hspan hnext
          (ih _ ?_ (mem_itemsOver hmem).1 hnextPlayable ?_ _ rfl hrest rfl)
        -- What was skipped on the way and the next item itself are used up.
        · rw [← hlength, List.length_append, List.length_cons]
          dsimp only
          omega
        · intro count earlier hcount
          exact hgoes (count + 1) earlier ((programme_succ hnext count).trans hcount)

/-- A resume follows the programme an open session hands out: it lands inside the
first item its playback does not use up, or at the top of the next one when too
little of that item is left. -/
theorem walkForward_landsAt {start landing : Landing} {item : ScheduleItem}
    (hitem : itemAt loadDay start.ref = .ok item) (hplayable : item.isPlayable timing)
    (hwalk : walkForward loadDay timing start = .ok (some landing))
    (hgoes : ∀ count earlier, programme loadDay timing start.ref count = some earlier →
      earlier < landing.ref →
      ∀ after, nextItem loadDay timing earlier ≠ .error (.endOfSchedule after)) :
    LandsAt loadDay timing start.ref start.offsetMs landing := by
  simp only [walkForward, hitem, bind, Except.bind] at hwalk
  rw [foundOrEnd_eq_some, itemsFrom_cons hitem] at hwalk
  exact spend_landsAt hitem hplayable hwalk hgoes

/-- A minute of each of two files, logged on day 1. -/
def twoSongs : DayLoader
  | 1 => [⟨1, 0, "First", "One", some ⟨11, "one.flac", some 60000, none⟩⟩,
      ⟨2, 60000000, "Second", "Two", some ⟨12, "two.flac", some 60000, none⟩⟩]
  | _ => []

theorem walkForward_landsAt_twoSongs :
    LandsAt twoSongs {} ⟨1, 0⟩ 70000 ⟨⟨1, 1⟩, 10000⟩ := by
  have hnext : nextItem twoSongs {} ⟨1, 0⟩ = .ok ⟨1, 1⟩ := rfl
  have hwalk : walkForward twoSongs {} ⟨⟨1, 0⟩, 70000⟩ = .ok (some ⟨⟨1, 1⟩, 10000⟩) := rfl
  refine walkForward_landsAt rfl (by decide) hwalk ?_
  intro count earlier hcount hbefore after
  cases count with
  | zero =>
      obtain rfl := Option.some.inj hcount
      simp [hnext]
  | succ count =>
      rw [programme_succ hnext] at hcount
      rcases (programme_airs rfl (by decide) hcount).2 with rfl | hlater
      · exact absurd hbefore (ItemRef.lt_irrefl _)
      · exact absurd (ItemRef.lt_trans hlater hbefore) (ItemRef.lt_irrefl _)

end RetroStation.Streaming
