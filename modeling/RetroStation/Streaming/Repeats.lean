import Mathlib.Tactic.IntervalCases
import RetroStation.Streaming.Placement

/-! # Clock tune-in and the repeat rule

The radio never airs a file twice in a row. A clock tune-in keeps to that, except
where the play the clock is in does not air itself: between two plays of one file
it lands on the second of them, which an open session skips.
-/

namespace RetroStation.Streaming

section

variable (loadDay : DayLoader) (timing : StreamTiming)

/-- The file of the play at `ref`. -/
def fileAt (ref : ItemRef) : Option PlayableFile :=
  (itemAt loadDay ref).toOption.bind ScheduleItem.file

def PlaysAt (ref : ItemRef) : Prop :=
  ∃ item, itemAt loadDay ref = .ok item ∧ item.isPlayable timing

/-- `prior` is the nearest playable item before `ref`, on its day or the day before. -/
structure PlayedBefore (prior ref : ItemRef) : Prop where
  earlier : prior < ref
  near : ref.day ≤ prior.day + 1
  plays : PlaysAt loadDay timing prior
  nearest : ∀ between, prior < between → between < ref → ¬ PlaysAt loadDay timing between

/-- A play of the file that has just aired. -/
def IsRepeat (ref : ItemRef) : Prop :=
  ∃ prior, PlayedBefore loadDay timing prior ref ∧
    sameFile (fileAt loadDay prior) (fileAt loadDay ref)

/-- The clock is in the play at `ref`: the last one logged by then today, or the
last one of yesterday when today's log starts later. -/
def ClockIn (wall : Int) (ref : ItemRef) : Prop :=
  (∃ item, itemAt loadDay ref = .ok item ∧ item.loggedAt ≤ wall) ∧
    (ref.day = dateOf wall ∧
        (∀ item ∈ (loadDay ref.day).take ref.index, item.loggedAt ≤ wall) ∧
        (∀ item, (loadDay ref.day)[ref.index + 1]? = some item → wall < item.loggedAt) ∨
      ref.day + 1 = dateOf wall ∧ ref.index + 1 = (loadDay ref.day).length ∧
        ∃ first, (loadDay (ref.day + 1))[0]? = some first ∧ wall < first.loggedAt)

/-- The clock is in a play that does not air, between two plays of one file with
nothing playable between them, on dates there are. -/
def ClockInGap (wall : Int) : Prop :=
  ∃ anchor prior next item, ClockIn loadDay wall anchor ∧
    prior < anchor ∧ anchor < next ∧ next.day ≤ LAST_DAY ∧ PlayedBefore loadDay timing prior next ∧
    itemAt loadDay next = .ok item ∧ item.isPlayable timing ∧
    sameFile (fileAt loadDay prior) item.file ∧ item.loggedAt - wall ≤ timing.window

end

variable {loadDay : DayLoader} {timing : StreamTiming}

theorem ItemRef.lt_trichotomy (first second : ItemRef) :
    first < second ∨ first = second ∨ second < first := by
  obtain ⟨day, index⟩ := first
  obtain ⟨day', index'⟩ := second
  simp only [ItemRef.lt_def, ItemRef.mk.injEq]
  omega

theorem ItemRef.lt_asymm {first second : ItemRef} (hlt : first < second) : ¬ second < first :=
  fun hgt => ItemRef.lt_irrefl _ (ItemRef.lt_trans hlt hgt)

theorem fileAt_eq {ref : ItemRef} {item : ScheduleItem} (hitem : itemAt loadDay ref = .ok item) :
    fileAt loadDay ref = item.file := by
  simp [fileAt, hitem, Except.toOption]

theorem playsAt_iff {ref : ItemRef} {item : ScheduleItem} (hitem : itemAt loadDay ref = .ok item) :
    PlaysAt loadDay timing ref ↔ item.isPlayable timing := by
  simp [PlaysAt, hitem]

theorem logged_of_itemAt {ref : ItemRef} {item : ScheduleItem}
    (hitem : itemAt loadDay ref = .ok item) : loadDay ref.day ≠ [] := by
  rw [itemAt_eq_ok] at hitem
  intro hempty
  simp [hempty] at hitem

theorem PlayedBefore.unique {first second ref : ItemRef}
    (hfirst : PlayedBefore loadDay timing first ref)
    (hsecond : PlayedBefore loadDay timing second ref) : first = second := by
  rcases ItemRef.lt_trichotomy first second with hlt | heq | hgt
  · exact absurd hsecond.plays (hfirst.nearest second hlt hsecond.earlier)
  · exact heq
  · exact absurd hfirst.plays (hsecond.nearest first hgt hfirst.earlier)

/-! ## The items in order -/

/-- The first match of an ordered list has no match before it. -/
theorem find?_eq_some_of_pairwise {α : Type} {items : List α} {before : α → α → Prop}
    {found : α} {accepts : α → Bool} (hordered : items.Pairwise before)
    (hfind : items.find? accepts = some found) :
    found ∈ items ∧ accepts found ∧ ∀ other ∈ items, accepts other → found = other ∨
      before found other := by
  obtain ⟨haccepts, skipped, rest, rfl, hskipped⟩ := List.find?_eq_some_iff_append.mp hfind
  refine ⟨by simp, haccepts, fun other hother hotherAccepts => ?_⟩
  rcases List.mem_append.mp hother with hother | hother
  · exact absurd hotherAccepts (by simpa using hskipped other hother)
  · rcases List.mem_cons.mp hother with rfl | hother
    · exact .inl rfl
    · exact .inr ((List.pairwise_cons.mp (List.pairwise_append.mp hordered).2.1).1 other hother)

theorem numbered_pairwise (day : Nat) :
    (numbered loadDay day).Pairwise fun first second => first.1 < second.1 := by
  refine List.pairwise_iff_getElem.mpr fun first second hfirst hsecond hlt => ?_
  simp only [numbered, List.getElem_mapIdx]
  exact .inr ⟨rfl, hlt⟩

theorem itemsOver_pairwise (day first rounds : Nat) :
    (itemsOver loadDay day first rounds).Pairwise fun first second => first.1 < second.1 := by
  induction rounds generalizing day first with
  | zero => exact .nil
  | succ rounds ih =>
      simp only [itemsOver]
      split
      · exact .nil
      · refine List.pairwise_append.mpr
          ⟨(numbered_pairwise day).sublist (List.drop_sublist _ _), ?_, ?_⟩
        · split
          · exact ih (day + 1) 0
          · exact .nil
        intro here hhere later hlater
        have hon := (mem_numbered_drop hhere).1
        have hafter := (mem_itemsOver (List.mem_ite_nil_right.mp hlater).2).2
        exact .inl (by omega)

/-- The days read hold every item from the start on, as long as none of them is empty. -/
theorem mem_itemsOver_of {day first rounds : Nat} {ref : ItemRef} {item : ScheduleItem}
    (hitem : itemAt loadDay ref = .ok item) (hrounds : ref.day < day + rounds)
    (hdate : ref.day = day ∨ ref.day ≤ LAST_DAY)
    (hlogged : ∀ between, day ≤ between → between < ref.day → loadDay between ≠ [])
    (hfrom : day < ref.day ∨ day = ref.day ∧ first ≤ ref.index) :
    (ref, item) ∈ itemsOver loadDay day first rounds := by
  induction rounds generalizing day first with
  | zero => omega
  | succ rounds ih =>
      simp only [itemsOver]
      rcases hfrom with hlater | ⟨rfl, hindex⟩
      · rw [if_neg (by simpa using hlogged day (by omega) hlater)]
        rw [if_pos (show day < LAST_DAY by omega)]
        refine List.mem_append_right _
          (ih (by omega) (by omega) (fun between hday => ?_) (by omega))
        exact hlogged between (by omega)
      · have hat := itemAt_eq_ok.mp hitem
        obtain ⟨hlength, hget⟩ := List.getElem?_eq_some_iff.mp hat
        rw [if_neg (by simpa using logged_of_itemAt hitem)]
        refine List.mem_append_left _ (List.mem_iff_getElem.mpr ⟨ref.index - first, ?_, ?_⟩)
        · simp only [numbered, List.length_drop, List.length_mapIdx]
          omega
        · simp [numbered, Nat.add_sub_cancel' hindex, hget]

theorem itemsBefore_pairwise {ref : ItemRef} {before : List (ItemRef × ScheduleItem)}
    (hbefore : itemsBefore loadDay ref = .ok before) :
    before.Pairwise fun later earlier => earlier.1 < later.1 := by
  unfold itemsBefore at hbefore
  split at hbefore
  · cases hbefore
  next hday =>
    cases hbefore
    refine List.pairwise_append.mpr ⟨List.pairwise_reverse.mpr
      ((numbered_pairwise _).sublist (List.take_sublist _ _)),
      List.pairwise_reverse.mpr (numbered_pairwise _), fun later hlater earlier hearlier => ?_⟩
    have hlaterDay := ((mem_numbered loadDay).mp (List.mem_of_mem_take (by simpa using hlater))).1
    have hearlierDay := ((mem_numbered loadDay).mp (by simpa using hearlier)).1
    exact .inl (by omega)

theorem mem_itemsBefore_iff {ref prior : ItemRef} {item : ScheduleItem}
    {before : List (ItemRef × ScheduleItem)} (hbefore : itemsBefore loadDay ref = .ok before) :
    (prior, item) ∈ before ↔
      itemAt loadDay prior = .ok item ∧ prior < ref ∧ ref.day ≤ prior.day + 1 := by
  constructor
  · intro hmem
    obtain ⟨hlt, hitem⟩ := mem_itemsBefore loadDay hbefore hmem
    refine ⟨hitem, hlt, ?_⟩
    unfold itemsBefore at hbefore
    split at hbefore
    · cases hbefore
    · cases hbefore
      rcases List.mem_append.mp hmem with hmem | hmem
      · have hon := ((mem_numbered loadDay).mp (List.mem_of_mem_take (by simpa using hmem))).1
        dsimp only at hon
        omega
      · have hon := ((mem_numbered loadDay).mp (by simpa using hmem)).1
        dsimp only at hon
        omega
  · rintro ⟨hitem, hlt, hday⟩
    unfold itemsBefore at hbefore
    rw [itemAt_eq_ok] at hitem
    split at hbefore
    · cases hbefore
    · cases hbefore
      rw [ItemRef.lt_def] at hlt
      rcases hlt with hlt | ⟨hsame, hindex⟩
      · refine List.mem_append_right _ (List.mem_reverse.mpr ((mem_numbered loadDay).mpr ?_))
        have hon : prior.day = ref.day - 1 := by omega
        exact ⟨hon, hon ▸ hitem⟩
      · refine List.mem_append_left _ (List.mem_reverse.mpr (List.mem_take_iff_getElem.mpr ?_))
        obtain ⟨hlength, hget⟩ := List.getElem?_eq_some_iff.mp hitem
        refine ⟨prior.index, ?_, ?_⟩
        · simp only [numbered, List.length_mapIdx, ← hsame]
          omega
        · simp [numbered, ← hsame, hget]

/-- The nearest playable item among those before `ref`. -/
theorem find?_itemsBefore {ref : ItemRef} {before : List (ItemRef × ScheduleItem)}
    (hbefore : itemsBefore loadDay ref = .ok before) (entry : ItemRef × ScheduleItem) :
    (before.find? fun entry => entry.2.isPlayable timing) = some entry →
      PlayedBefore loadDay timing entry.1 ref ∧ itemAt loadDay entry.1 = .ok entry.2 := by
  intro hfind
  obtain ⟨hmem, hplays, hfirst⟩ := find?_eq_some_of_pairwise (itemsBefore_pairwise hbefore) hfind
  obtain ⟨hitem, hlt, hnear⟩ := (mem_itemsBefore_iff hbefore).mp hmem
  refine ⟨⟨hlt, hnear, ⟨entry.2, hitem, hplays⟩, fun between hafter hbetween hplaysAt => ?_⟩, hitem⟩
  obtain ⟨item, hat, hplayable⟩ := hplaysAt
  have hbetweenMem : (between, item) ∈ before :=
    (mem_itemsBefore_iff hbefore).mpr ⟨hat, hbetween, by
      rw [ItemRef.lt_def] at hafter
      omega⟩
  rcases hfirst _ hbetweenMem hplayable with rfl | hlater
  · exact ItemRef.lt_irrefl _ hafter
  · exact ItemRef.lt_asymm hafter hlater

theorem not_playedBefore {ref : ItemRef} {before : List (ItemRef × ScheduleItem)}
    (hbefore : itemsBefore loadDay ref = .ok before)
    (hfind : (before.find? fun entry => entry.2.isPlayable timing) = none) (prior : ItemRef) :
    ¬ PlayedBefore loadDay timing prior ref := by
  rintro ⟨hlt, hnear, ⟨item, hitem, hplayable⟩, -⟩
  exact List.find?_eq_none.mp hfind _ ((mem_itemsBefore_iff hbefore).mpr ⟨hitem, hlt, hnear⟩)
    hplayable

/-! ## The start of a run -/

/-- The run of a playable item starts at a playable item that is no repeat. -/
theorem runStartFrom_not_isRepeat {ref first : ItemRef} {item : ScheduleItem}
    {offsetMs started : Int} (hitem : itemAt loadDay ref = .ok item)
    (hplayable : item.isPlayable timing)
    (hstart : runStartFrom loadDay timing ref item offsetMs = .ok (first, started)) :
    PlaysAt loadDay timing first ∧ ¬ IsRepeat loadDay timing first := by
  fun_induction runStartFrom with
  | case1 => cases hstart
  | case2 ref item offsetMs _ before hbefore hfound =>
      cases hstart
      exact ⟨⟨item, hitem, hplayable⟩, fun ⟨prior, hprior, _⟩ =>
        not_playedBefore hbefore hfound prior hprior⟩
  | case3 ref item offsetMs _ before hbefore prior priorItem hfound hsame ih =>
      have hprior := find?_itemsBefore hbefore _ hfound
      exact ih hprior.2 ((playsAt_iff hprior.2).mp hprior.1.plays) hstart
  | case4 ref item offsetMs _ before hbefore prior priorItem hfound hother =>
      cases hstart
      obtain ⟨hprior, hpriorItem⟩ := find?_itemsBefore hbefore _ hfound
      refine ⟨⟨item, hitem, hplayable⟩, fun ⟨other, hotherPrior, hrepeat⟩ => hother ?_⟩
      obtain rfl := hotherPrior.unique hprior
      rwa [fileAt_eq hpriorItem, fileAt_eq hitem] at hrepeat
  | case5 ref item offsetMs hunplayable => exact absurd hplayable hunplayable

/-! ## The next playable item -/

theorem sameFile_trans {first second third : Option PlayableFile} (hfirst : sameFile first second)
    (hsecond : sameFile second third) : sameFile first third := by
  cases first <;> cases second <;> cases third <;> simp_all [sameFile]

theorem itemsOver_logged {day first rounds : Nat} {entry : ItemRef × ScheduleItem}
    (hmem : entry ∈ itemsOver loadDay day first rounds) :
    entry.1.day < day + rounds ∧ (entry.1.day = day ∨ entry.1.day ≤ LAST_DAY) ∧
      ∀ between, day ≤ between → between ≤ entry.1.day → loadDay between ≠ [] := by
  induction rounds generalizing day first with
  | zero => simp [itemsOver] at hmem
  | succ rounds ih =>
      simp only [itemsOver] at hmem
      split at hmem
      · simp at hmem
      next hlogged =>
        rcases List.mem_append.mp hmem with hmem | hmem
        · have hon := (mem_numbered_drop hmem).1
          refine ⟨by omega, .inl hon, fun between hfrom hto => ?_⟩
          obtain rfl : between = day := by omega
          simpa using hlogged
        · obtain ⟨hdate, hmem⟩ := List.mem_ite_nil_right.mp hmem
          obtain ⟨hrounds, hplace, hbetween⟩ := ih hmem
          refine ⟨by omega, .inr (by omega), fun between hfrom hto => ?_⟩
          rcases Nat.eq_or_lt_of_le hfrom with rfl | hlater
          · simpa using hlogged
          · exact hbetween between hlater hto

theorem nextPlayable_eq {after : ItemRef} {item : ScheduleItem} {days : Nat}
    (hitem : itemAt loadDay after = .ok item) :
    nextPlayable loadDay timing after days =
      foundOrEnd loadDay ⟨after.day, after.index + 1⟩ days
        (((itemsOver loadDay after.day (after.index + 1) (days + 1)).find?
          (airsAfter timing (if item.isPlayable timing then item.file else none))).map
            Prod.fst) := by
  simp [nextPlayable, itemsFrom, hitem, bind, Except.bind]

/-- The next item that airs is later, and every other that would air is later still. -/
theorem nextPlayable_first {after next : ItemRef} {item : ScheduleItem} {days : Nat}
    (hitem : itemAt loadDay after = .ok item)
    (hnext : nextPlayable loadDay timing after days = .ok (some next)) :
    let prior := if item.isPlayable timing then item.file else none
    after < next ∧ (∃ following, itemAt loadDay next = .ok following ∧
        airsAfter timing prior (next, following)) ∧
      ∀ between other, after < between → between < next → itemAt loadDay between = .ok other →
        airsAfter timing prior (between, other) = false := by
  intro prior
  rw [nextPlayable_eq hitem] at hnext
  obtain ⟨⟨found, following⟩, hfind, rfl⟩ :=
    Option.map_eq_some_iff.mp (foundOrEnd_eq_some.mp hnext)
  obtain ⟨hmem, hairs, hfirst⟩ := find?_eq_some_of_pairwise (itemsOver_pairwise ..) hfind
  obtain ⟨hfollowing, hplace⟩ := mem_itemsOver hmem
  obtain ⟨hrounds, hdate, hlogged⟩ := itemsOver_logged hmem
  refine ⟨by rw [ItemRef.lt_def]; dsimp only at hplace ⊢; omega, ⟨following, hfollowing, hairs⟩, ?_⟩
  intro between other hafter hbetween hother
  by_contra hwould
  have hbetweenMem : (between, other) ∈
    itemsOver loadDay after.day (after.index + 1) (days + 1) := by
    rw [ItemRef.lt_def] at hafter hbetween
    dsimp only at hrounds hdate hlogged hbetween
    refine mem_itemsOver_of hother (by omega) (by omega) (fun day hfrom hto => ?_) (by omega)
    exact hlogged day hfrom (by omega)
  rcases hfirst _ hbetweenMem (by simpa using hwould) with heq | hlater
  · cases heq
    exact ItemRef.lt_irrefl _ hbetween
  · exact ItemRef.lt_asymm hbetween hlater

theorem nextPlayable_date {after next : ItemRef} {days : Nat} (hdate : after.day ≤ LAST_DAY)
    (hnext : nextPlayable loadDay timing after days = .ok (some next)) : next.day ≤ LAST_DAY := by
  obtain ⟨item, hitem, -⟩ := bind_eq_ok.mp hnext
  rw [nextPlayable_eq hitem] at hnext
  obtain ⟨found, hfind, rfl⟩ := Option.map_eq_some_iff.mp (foundOrEnd_eq_some.mp hnext)
  rcases (itemsOver_logged (List.mem_of_find?_eq_some hfind)).2.1 with hsame | hle
  · exact hsame ▸ hdate
  · exact hle

/-- The first item that airs after a playable one is no repeat: in between there
is only the file of that item. -/
theorem nextPlayable_not_isRepeat {after next : ItemRef} {days : Nat}
    (hplays : PlaysAt loadDay timing after)
    (hnext : nextPlayable loadDay timing after days = .ok (some next)) :
    ¬ IsRepeat loadDay timing next := by
  obtain ⟨item, hitem, hplayable⟩ := hplays
  obtain ⟨hlater, ⟨following, hfollowing, hairs⟩, hfirst⟩ := nextPlayable_first hitem hnext
  simp only [hplayable, if_true, airsAfter, Bool.and_eq_true, Bool.not_eq_true'] at hairs hfirst
  rintro ⟨prior, hprior, hrepeat⟩
  obtain ⟨priorItem, hpriorItem, hpriorPlayable⟩ := hprior.plays
  rw [fileAt_eq hpriorItem, fileAt_eq hfollowing] at hrepeat
  rcases ItemRef.lt_trichotomy prior after with hlt | rfl | hgt
  · exact hprior.nearest after hlt hlater ⟨item, hitem, hplayable⟩
  · obtain rfl := Except.ok.inj (hitem.symm.trans hpriorItem)
    simp [hrepeat] at hairs
  · have hsame := hfirst prior priorItem hgt hprior.earlier hpriorItem
    simp only [hpriorPlayable, Bool.true_and, Bool.not_eq_false'] at hsame
    simp [sameFile_trans hsame hrepeat] at hairs

theorem airsAfter_none {entry : ItemRef × ScheduleItem} :
    airsAfter timing none entry = entry.2.isPlayable timing := by
  simp [airsAfter, sameFile]

/-- With nothing playable in between, an item that airs is the next one. -/
theorem nextPlayable_of_nearest {after next : ItemRef} {item following : ScheduleItem} {days : Nat}
    (hitem : itemAt loadDay after = .ok item) (hdays : 1 ≤ days)
    (hnear : next.day ≤ after.day + 1) (hdate : next.day ≤ LAST_DAY) (hlater : after < next)
    (hfollowing : itemAt loadDay next = .ok following)
    (hairs : airsAfter timing (if item.isPlayable timing then item.file else none)
      (next, following))
    (hnearest : ∀ between, after < between → between < next → ¬ PlaysAt loadDay timing between) :
    nextPlayable loadDay timing after days = .ok (some next) := by
  have hmem : (next, following) ∈ itemsOver loadDay after.day (after.index + 1) (days + 1) := by
    rw [ItemRef.lt_def] at hlater
    refine mem_itemsOver_of hfollowing (by omega) (.inr hdate) (fun day hfrom hto => ?_) (by omega)
    obtain rfl : day = after.day := by omega
    exact logged_of_itemAt hitem
  rw [nextPlayable_eq hitem]
  cases hfind : (itemsOver loadDay after.day (after.index + 1) (days + 1)).find?
      (airsAfter timing (if item.isPlayable timing then item.file else none)) with
  | none => exact absurd hairs (List.find?_eq_none.mp hfind _ hmem)
  | some found =>
      obtain ⟨hfound, hfoundAirs, hothers⟩ :=
        find?_eq_some_of_pairwise (itemsOver_pairwise ..) hfind
      obtain ⟨hfoundItem, hplace⟩ := mem_itemsOver hfound
      rcases hothers _ hmem hairs with rfl | hbefore
      · rfl
      · have hplays := (Bool.and_eq_true_iff.mp hfoundAirs).1
        refine absurd ⟨found.2, hfoundItem, hplays⟩ (hnearest found.1 ?_ hbefore)
        rw [ItemRef.lt_def]
        omega

/-- The session that plays the item before a play that is no repeat goes on to it. -/
theorem nextItem_of_playedBefore {prior ref : ItemRef} (hdate : ref.day ≤ LAST_DAY)
    (hprior : PlayedBefore loadDay timing prior ref) (hplays : PlaysAt loadDay timing ref)
    (hfresh : ¬ IsRepeat loadDay timing ref) : nextItem loadDay timing prior = .ok ref := by
  obtain ⟨item, hitem, hplayable⟩ := hprior.plays
  obtain ⟨following, hfollowing, hfollowingPlayable⟩ := hplays
  have hother : sameFile item.file following.file = false := by
    by_contra hsame
    exact hfresh ⟨prior, hprior, by
      rw [fileAt_eq hitem, fileAt_eq hfollowing]
      simpa using hsame⟩
  have hnext := @nextPlayable_of_nearest loadDay timing prior ref item following 1 hitem le_rfl
    hprior.near hdate hprior.earlier hfollowing (by
      simp [airsAfter, hplayable, hfollowingPlayable, hother])
    hprior.nearest
  simp [nextItem, hitem, hnext, bind, Except.bind, pure, Except.pure]

/-! ## The clock's play -/

/-- The scan stops before the first item logged after the clock. -/
theorem lastAtOrBefore_eq_some {wall : Int} {items : List ScheduleItem} {index : Nat}
    {found : Option (Nat × ScheduleItem)} {last : Nat} {item : ScheduleItem} :
    lastAtOrBefore wall index found items = some (last, item) ↔
      (found = some (last, item) ∧ ∀ first, items[0]? = some first → wall < first.loggedAt) ∨
      ∃ offset, last = index + offset ∧ items[offset]? = some item ∧ item.loggedAt ≤ wall ∧
        (∀ earlier ∈ items.take offset, earlier.loggedAt ≤ wall) ∧
        ∀ next, items[offset + 1]? = some next → wall < next.loggedAt := by
  -- On the items; `found` is the last one passed so far.
  induction items generalizing index found with
  | nil => simp [lastAtOrBefore]
  | cons head rest ih =>
      simp only [lastAtOrBefore]
      split
      next hafter =>
        constructor
        · exact fun hfound => .inl ⟨hfound, fun first hfirst => by
            obtain rfl : head = first := by simpa using hfirst
            exact hafter⟩
        · rintro (⟨hfound, -⟩ | ⟨offset, -, hitem, hle, hearlier, -⟩)
          · exact hfound
          · cases offset with
            | zero =>
                obtain rfl : head = item := by simpa using hitem
                omega
            | succ offset =>
                have hhead := hearlier head (by simp)
                omega
      next hupTo =>
        rw [ih]
        constructor
        · rintro (⟨hhead, hrest⟩ | ⟨offset, rfl, hitem, hle, hearlier, hnext⟩)
          · obtain ⟨rfl, rfl⟩ := Prod.mk.inj (Option.some.inj hhead)
            exact .inr ⟨0, rfl, rfl, by omega, by simp, by simpa using hrest⟩
          · refine .inr ⟨offset + 1, by omega, by simpa using hitem, hle, ?_, by simpa using hnext⟩
            intro earlier hmem
            rcases List.mem_cons.mp (by simpa using hmem) with rfl | hmem
            · omega
            · exact hearlier earlier hmem
        · rintro (⟨-, hfirst⟩ | ⟨offset, rfl, hitem, hle, hearlier, hnext⟩)
          · have hhead := hfirst head rfl
            omega
          · cases offset with
            | zero =>
                obtain rfl : head = item := by simpa using hitem
                exact .inl ⟨rfl, by simpa using hnext⟩
            | succ offset =>
                refine .inr ⟨offset, by omega, by simpa using hitem, hle, ?_, by simpa using hnext⟩
                exact fun earlier hmem => hearlier earlier (by simp [hmem])

theorem lastAtOrBefore_isSome (wall : Int) (index : Nat) (found : Nat × ScheduleItem)
    (items : List ScheduleItem) : (lastAtOrBefore wall index (some found) items).isSome := by
  induction items generalizing index found with
  | nil => rfl
  | cons head rest ih =>
      simp only [lastAtOrBefore]
      split
      · rfl
      · exact ih _ _

theorem lastAtOrBefore_eq_none {wall : Int} {items : List ScheduleItem} :
    lastAtOrBefore wall 0 none items = none ↔
      ∀ first, items[0]? = some first → wall < first.loggedAt := by
  cases items with
  | nil => simp [lastAtOrBefore]
  | cons head rest =>
      simp only [lastAtOrBefore, List.getElem?_cons_zero, Option.some.injEq, forall_eq']
      split
      next hafter => simpa using hafter
      next hupTo =>
        refine iff_of_false (fun hnone => ?_) hupTo
        have hsome := lastAtOrBefore_isSome wall (0 + 1) (0, head) rest
        simp [hnone] at hsome

theorem toMs_nonneg {delta : Int} : ¬ toMs delta < 0 ↔ 0 ≤ delta := by
  unfold toMs
  omega

theorem make_of_le (ref : ItemRef) {wall loggedAt : Int} (hle : loggedAt ≤ wall) :
    Landing.make ref (toMs (wall - loggedAt)) = .ok ⟨ref, (toMs (wall - loggedAt)).toNat⟩ := by
  rw [Landing.make, if_neg (toMs_nonneg.mpr (by omega))]

theorem le_of_make {ref : ItemRef} {wall loggedAt : Int} {anchor : Landing}
    (hmake : Landing.make ref (toMs (wall - loggedAt)) = .ok anchor) :
    anchor.ref = ref ∧ loggedAt ≤ wall := by
  refine ⟨(Landing.make_eq_ok hmake).1, ?_⟩
  unfold Landing.make at hmake
  split at hmake
  · cases hmake
  next hnonneg =>
    have hle := toMs_nonneg.mp hnonneg
    omega

theorem findAnchor_of_clockIn {wall : Int} {ref : ItemRef} {item : ScheduleItem}
    (hclock : ClockIn loadDay wall ref) (hitem : itemAt loadDay ref = .ok item) :
    findAnchor loadDay wall = .ok ⟨ref, (toMs (wall - item.loggedAt)).toNat⟩ := by
  obtain ⟨⟨logged, hlogged, hle⟩, hplace⟩ := hclock
  obtain rfl := Except.ok.inj (hitem.symm.trans hlogged)
  unfold findAnchor
  rw [itemAt_eq_ok] at hitem
  dsimp only
  rcases hplace with ⟨htoday, hearlier, hnext⟩ | ⟨hyesterday, hlast, first, hfirst, hafter⟩
  · have hscan : lastAtOrBefore wall 0 none (loadDay (dateOf wall)) = some (ref.index, item) := by
      rw [lastAtOrBefore_eq_some, ← htoday]
      exact .inr ⟨ref.index, by simp, hitem, hle, hearlier, hnext⟩
    cases hday : loadDay (dateOf wall) with
    | nil => simp [hday, lastAtOrBefore] at hscan
    | cons head rest =>
        rw [hday] at hscan
        simp only [hscan, ← htoday]
        exact make_of_le ref hle
  · rw [← hyesterday]
    have hscan : lastAtOrBefore wall 0 none (loadDay (ref.day + 1)) = none :=
      lastAtOrBefore_eq_none.mpr fun other hother => by
        obtain rfl := Option.some.inj (hfirst.symm.trans hother)
        exact hafter
    have hend : (loadDay ref.day).getLast? = some item := by
      rw [List.getLast?_eq_getElem?, ← hlast, Nat.add_sub_cancel, hitem]
    cases hday : loadDay (ref.day + 1) with
    | nil => simp [hday] at hfirst
    | cons head rest =>
        rw [hday] at hscan
        simp only [hscan, Nat.add_one_ne_zero, if_false, Nat.add_sub_cancel, hend, ← hlast]
        exact make_of_le ref hle

/-- The anchor is the play the clock is in; or today's first, with no log yesterday. -/
theorem clockIn_of_findAnchor {wall : Int} {anchor : Landing}
    (hanchor : findAnchor loadDay wall = .ok anchor) :
    ClockIn loadDay wall anchor.ref ∨
      anchor = ⟨⟨dateOf wall, 0⟩, 0⟩ ∧ dateOf wall ≠ 0 ∧ loadDay (dateOf wall - 1) = [] ∧
        ∃ first, itemAt loadDay ⟨dateOf wall, 0⟩ = .ok first ∧ wall < first.loggedAt := by
  unfold findAnchor at hanchor
  dsimp only at hanchor
  split at hanchor
  · cases hanchor
  next head rest hday =>
    split at hanchor
    next index item hscan =>
      obtain ⟨href, hle⟩ := le_of_make hanchor
      rw [← hday, lastAtOrBefore_eq_some] at hscan
      rcases hscan with ⟨hnone, -⟩ | ⟨offset, rfl, hitem, -, hearlier, hnext⟩
      · cases hnone
      · rw [Nat.zero_add] at href
        rw [href]
        exact .inl ⟨⟨item, itemAt_eq_ok.mpr hitem, hle⟩, .inl ⟨rfl, hearlier, hnext⟩⟩
    next hscan =>
      rw [← hday, lastAtOrBefore_eq_none] at hscan
      split at hanchor
      · cases hanchor
      next hfirstDay =>
        have hyesterday : dateOf wall - 1 + 1 = dateOf wall := by omega
        split at hanchor
        next last hlast =>
          obtain ⟨href, hle⟩ := le_of_make hanchor
          rw [href]
          have hlength : 0 < (loadDay (dateOf wall - 1)).length :=
            List.length_pos_of_mem (List.mem_of_getLast? hlast)
          rw [List.getLast?_eq_getElem?] at hlast
          refine .inl ⟨⟨last, itemAt_eq_ok.mpr hlast, hle⟩,
            .inr ⟨hyesterday, by dsimp only; omega, head, ?_, hscan head (by simp [hday])⟩⟩
          rw [hyesterday, hday]
          rfl
        next hlast =>
          cases hanchor
          exact .inr ⟨rfl, hfirstDay, by simpa using hlast, head,
            itemAt_eq_ok.mpr (by simp [hday]), hscan head (by simp [hday])⟩

/-! ## Dates -/

theorem daysBeforeMonth_le {year month day : Nat} (hmonth : 1 ≤ month ∧ month ≤ 12)
    (hday : day ≤ daysInMonth year month) :
    daysBeforeMonth year month + day ≤ if isLeap year then 366 else 365 := by
  obtain ⟨hfirst, hlast⟩ := hmonth
  interval_cases month <;> cases hleap : isLeap year <;>
    simp [daysBeforeMonth, daysInMonth, List.range_succ, hleap] at hday ⊢ <;> omega

theorem daysInMonth_congr {month : Nat} (hmonth : month ≠ 2) (first second : Nat) :
    daysInMonth first month = daysInMonth second month := by
  unfold daysInMonth
  split
  · exact absurd rfl hmonth
  all_goals rfl

/-- The clock shows a date there is. -/
theorem dateOf_wallClock_le {year : Nat} {now : CivilTime} {wall : Int}
    (hwall : stationWallClock year now = .ok wall) : dateOf wall ≤ LAST_DAY := by
  unfold stationWallClock at hwall
  split at hwall
  · cases hwall
  next hleapDay =>
    split at hwall
    · cases hwall
    next hyear =>
      cases hwall
      have hday : now.day ≤ daysInMonth year now.month := by
        have hrange := now.day_range.2
        by_cases hmonth : now.month = 2
        · cases hleap : isLeap year <;> cases hleapNow : isLeap now.year <;>
            simp [hmonth, daysInMonth, hleap, hleapNow] at hleapDay hrange ⊢ <;> omega
        · rwa [daysInMonth_congr hmonth year now.year]
      have hyearDays := daysBeforeMonth_le now.month_range hday
      have hmicros := now.micros_lt
      have hbefore : dayNumber year now.month now.day ≤ LAST_DAY := by
        unfold dayNumber daysBeforeYear LAST_DAY
        dsimp only
        have hpos := now.day_range.1
        rcases Nat.lt_or_ge year 9999 with hearly | hlate
        · split at hyearDays <;> omega
        · obtain rfl : year = 9999 := by omega
          rw [if_neg (by decide)] at hyearDays
          omega
      unfold dateOf MICROS_PER_DAY at *
      omega

theorem findAnchor_date {wall : Int} {anchor : Landing}
    (hanchor : findAnchor loadDay wall = .ok anchor) : anchor.ref.day ≤ dateOf wall := by
  rcases clockIn_of_findAnchor hanchor with ⟨-, ⟨hon, -⟩ | ⟨hon, -⟩⟩ | ⟨rfl, -⟩
  · omega
  · omega
  · exact le_rfl

/-- A run starts no later than the play it is followed back from. -/
theorem runStartFrom_date {ref first : ItemRef} {item : ScheduleItem} {offsetMs started : Int}
    (hstart : runStartFrom loadDay timing ref item offsetMs = .ok (first, started)) :
    first.day ≤ ref.day := by
  fun_induction runStartFrom with
  | case1 => cases hstart
  | case2 =>
      cases hstart
      exact le_rfl
  | case3 ref item offsetMs _ before hbefore prior priorItem hfound hsame ih =>
      have hearlier := (find?_itemsBefore hbefore _ hfound).1.earlier
      rw [ItemRef.lt_def] at hearlier
      have := ih hstart
      dsimp only at hearlier
      omega
  | case4 =>
      cases hstart
      exact le_rfl
  | case5 =>
      cases hstart
      exact le_rfl

/-! ## Landing from the anchor -/

theorem bind_ok {α β : Type} {first : Except StreamError α} {next : α → Except StreamError β}
    {value : α} (hfirst : first = .ok value) : (first >>= next) = next value := by
  simp [hfirst, bind, Except.bind]

theorem landFromAnchor_eq {anchor started : Landing} {item : ScheduleItem}
    (hstart : runStart loadDay timing anchor = .ok started)
    (hitem : itemAt loadDay started.ref = .ok item) :
    landFromAnchor loadDay timing anchor =
      if item.file.any fun file =>
        started.offsetMs < file.spanMs && file.tailFits started.offsetMs timing
      then .ok (some started)
      else (nextPlayable loadDay timing started.ref timing.maxDaysAhead).map
        fun ref => ref.map fun ref => ⟨ref, 0⟩ := by
  rw [landFromAnchor, bind_ok hstart, bind_ok hitem]
  cases nextPlayable loadDay timing started.ref timing.maxDaysAhead <;>
    cases item.file <;> simp [bind, Except.bind, pure, Except.pure, Except.map]

theorem landFromAnchor_date {anchor landing : Landing} (hdate : anchor.ref.day ≤ LAST_DAY)
    (hland : landFromAnchor loadDay timing anchor = .ok (some landing)) :
    landing.ref.day ≤ LAST_DAY := by
  obtain ⟨started, hstarted, hrest⟩ := bind_eq_ok.mp hland
  obtain ⟨startedItem, hstartedItem, -⟩ := bind_eq_ok.mp hrest
  obtain ⟨item, hitem, hrun⟩ := bind_eq_ok.mp hstarted
  obtain ⟨⟨first, offsetMs⟩, hrun, hmake⟩ := bind_eq_ok.mp hrun
  obtain ⟨hstartedRef, -⟩ := Landing.make_eq_ok hmake
  have hfirst := runStartFrom_date hrun
  have hstartedDate : started.ref.day ≤ LAST_DAY := by
    rw [hstartedRef]
    omega
  rw [landFromAnchor_eq hstarted hstartedItem] at hland
  split at hland
  · obtain rfl : started = landing := by simpa using hland
    exact hstartedDate
  · cases hnext : nextPlayable loadDay timing started.ref timing.maxDaysAhead with
    | error error => simp [hnext, Except.map] at hland
    | ok next =>
        rw [hnext] at hland
        obtain ⟨ref, rfl, rfl⟩ := Option.map_eq_some_iff.mp (Except.ok.inj hland)
        exact nextPlayable_date hstartedDate hnext

theorem landFromAnchor_not_isRepeat {anchor landing : Landing}
    (hplays : PlaysAt loadDay timing anchor.ref)
    (hland : landFromAnchor loadDay timing anchor = .ok (some landing)) :
    ¬ IsRepeat loadDay timing landing.ref := by
  obtain ⟨item, hitem, hplayable⟩ := hplays
  obtain ⟨started, hstarted, hrest⟩ := bind_eq_ok.mp hland
  obtain ⟨startedItem, hstartedItem, -⟩ := bind_eq_ok.mp hrest
  rw [landFromAnchor_eq hstarted hstartedItem] at hland
  rw [runStart, bind_ok hitem] at hstarted
  obtain ⟨⟨first, offsetMs⟩, hrun, hmake⟩ := bind_eq_ok.mp hstarted
  obtain ⟨hfirst, hfresh⟩ := runStartFrom_not_isRepeat hitem hplayable hrun
  obtain ⟨hstartedRef, -⟩ := Landing.make_eq_ok hmake
  rw [← hstartedRef] at hfirst hfresh
  split at hland
  · obtain rfl : started = landing := by simpa using hland
    exact hfresh
  · cases hnext : nextPlayable loadDay timing started.ref timing.maxDaysAhead with
    | error error => simp [hnext, Except.map] at hland
    | ok next =>
        rw [hnext] at hland
        obtain ⟨ref, rfl, rfl⟩ := Option.map_eq_some_iff.mp (Except.ok.inj hland)
        exact nextPlayable_not_isRepeat hfirst hnext

/-- A play that does not air is its own run, and the clock is never inside it. -/
theorem landFromAnchor_of_unplayable {anchor : Landing} {item : ScheduleItem}
    (hitem : itemAt loadDay anchor.ref = .ok item) (hunplayable : item.isPlayable timing = false) :
    landFromAnchor loadDay timing anchor =
      (nextPlayable loadDay timing anchor.ref timing.maxDaysAhead).map
        fun ref => ref.map fun ref => ⟨ref, 0⟩ := by
  have hstart : runStart loadDay timing anchor = .ok anchor := by
    rw [runStart, bind_ok hitem, runStartFrom, if_neg (by simp [hunplayable])]
    simp [bind, Except.bind, Landing.make]
  rw [landFromAnchor_eq hstart hitem, if_neg]
  intro hinside
  obtain ⟨file, hfile, hinside⟩ := (Option.any_eq_true _ _).mp hinside
  simp only [Bool.and_eq_true, decide_eq_true_eq] at hinside
  have htail := (file.tailFits_iff anchor.offsetMs timing).mp hinside.2
  have hplayable : file.isPlayable timing := (file.isPlayable_iff timing).mpr (by omega)
  simp [ScheduleItem.isPlayable, hfile, hplayable] at hunplayable

theorem tuneIn_eq_ok_iff {year : Nat} {now : CivilTime} {tuned : TuneIn} :
    tuneIn loadDay timing year now = .ok tuned ↔
      ∃ wall anchor item, stationWallClock year now = .ok wall ∧
        findAnchor loadDay wall = .ok anchor ∧
        landFromAnchor loadDay timing anchor = .ok (some tuned.landing) ∧
        itemAt loadDay tuned.landing.ref = .ok item ∧ item.loggedAt - wall ≤ timing.window ∧
        tuned.clockOffset = wall - now.toDateTime := by
  constructor
  · intro htuned
    obtain ⟨wall, hwall, htuned⟩ := bind_eq_ok.mp htuned
    obtain ⟨anchor, hanchor, htuned⟩ := bind_eq_ok.mp htuned
    obtain ⟨found, hfound, htuned⟩ := bind_eq_ok.mp htuned
    cases found with
    | none => cases htuned
    | some landing =>
        obtain ⟨item, hitem, htuned⟩ := bind_eq_ok.mp htuned
        split at htuned
        · cases htuned
        next hwindow =>
          cases htuned
          exact ⟨wall, anchor, item, hwall, hanchor, hfound, hitem, by omega, rfl⟩
  · rintro ⟨wall, anchor, item, hwall, hanchor, hfound, hitem, hwindow, hoffset⟩
    obtain ⟨landing, clockOffset⟩ := tuned
    dsimp only at hfound hitem hoffset
    rw [tuneIn, bind_ok hwall, bind_ok hanchor, bind_ok hfound]
    dsimp only
    rw [bind_ok hitem, if_neg (by omega), hoffset]
    rfl

/-! ## Where a clock tune-in lands -/

/-- Past a play that does not air, the landing is a repeat only from within a gap. -/
theorem clockInGap_of_isRepeat {wall : Int} {anchor : Landing} {next : ItemRef}
    {item following : ScheduleItem} (hanchor : findAnchor loadDay wall = .ok anchor)
    (hitem : itemAt loadDay anchor.ref = .ok item) (hunplayable : item.isPlayable timing = false)
    (hdate : anchor.ref.day ≤ LAST_DAY)
    (hnext : nextPlayable loadDay timing anchor.ref timing.maxDaysAhead = .ok (some next))
    (hfollowing : itemAt loadDay next = .ok following)
    (hwindow : following.loggedAt - wall ≤ timing.window)
    (hrepeat : IsRepeat loadDay timing next) : ClockInGap loadDay timing wall := by
  obtain ⟨prior, hprior, hsame⟩ := hrepeat
  obtain ⟨hlater, ⟨other, hother, hairs⟩, hnearest⟩ := nextPlayable_first hitem hnext
  obtain rfl := Except.ok.inj (hfollowing.symm.trans hother)
  simp only [hunplayable, Bool.false_eq_true, if_false, airsAfter_none] at hairs hnearest
  have hbefore : prior < anchor.ref := by
    obtain ⟨priorItem, hpriorItem, hplayable⟩ := hprior.plays
    rcases ItemRef.lt_trichotomy prior anchor.ref with hlt | rfl | hgt
    · exact hlt
    · obtain rfl := Except.ok.inj (hitem.symm.trans hpriorItem)
      simp [hunplayable] at hplayable
    · have hskipped := hnearest prior priorItem hgt hprior.earlier hpriorItem
      simp [hplayable] at hskipped
  rcases clockIn_of_findAnchor hanchor with hclock | ⟨rfl, hday, hempty, -⟩
  · rw [fileAt_eq hfollowing] at hsame
    exact ⟨anchor.ref, prior, next, following, hclock, hbefore, hlater,
      nextPlayable_date hdate hnext, hprior, hfollowing, hairs, hsame, hwindow⟩
  · obtain ⟨priorItem, hpriorItem, -⟩ := hprior.plays
    have hnear := hprior.near
    rw [ItemRef.lt_def] at hbefore hlater
    dsimp only at hbefore hlater
    have hpriorDay : prior.day = dateOf wall - 1 := by omega
    exact absurd (hpriorDay ▸ hempty) (logged_of_itemAt hpriorItem)

/-- From within a gap the clock lands on the second play of the file. -/
theorem tuneIn_of_clockInGap {year : Nat} {now : CivilTime} {wall : Int}
    (hwall : stationWallClock year now = .ok wall) (hgap : ClockInGap loadDay timing wall) :
    ∃ tuned, tuneIn loadDay timing year now = .ok tuned ∧
      IsRepeat loadDay timing tuned.landing.ref := by
  obtain ⟨ref, prior, next, following, hclock, hbefore, hafter, hdate, hprior, hfollowing,
    hplayable, hsame, hwindow⟩ := hgap
  obtain ⟨item, hitem, -⟩ := hclock.1
  have hanchor := findAnchor_of_clockIn hclock hitem
  have hunplayable : item.isPlayable timing = false := by
    by_contra hplays
    exact hprior.nearest _ hbefore hafter ⟨item, hitem, by simpa using hplays⟩
  have hnear := hprior.near
  have hnext : nextPlayable loadDay timing ref timing.maxDaysAhead = .ok (some next) := by
    refine nextPlayable_of_nearest hitem timing.maxDaysAhead_pos ?_ hdate hafter hfollowing ?_ ?_
    · rw [ItemRef.lt_def] at hbefore
      omega
    · simpa [hunplayable, airsAfter_none] using hplayable
    · exact fun between hlater => hprior.nearest between (ItemRef.lt_trans hbefore hlater)
  refine ⟨⟨⟨next, 0⟩, wall - now.toDateTime⟩, tuneIn_eq_ok_iff.mpr ⟨wall, _, following, hwall,
    hanchor, ?_, hfollowing, hwindow, rfl⟩, prior, hprior, ?_⟩
  · rw [@landFromAnchor_of_unplayable _ _ ⟨ref, _⟩ _ hitem hunplayable, hnext]
    rfl
  · rwa [fileAt_eq hfollowing]

/-- A clock tune-in never lands on a repeat, and an open session that plays the
item before goes on to its landing, exactly when the clock is in no gap between
two plays of one file. -/
theorem tuneIn_not_isRepeat_iff (loadDay : DayLoader) (timing : StreamTiming) (year : Nat)
    (now : CivilTime) :
    (∀ tuned, tuneIn loadDay timing year now = .ok tuned →
      ¬ IsRepeat loadDay timing tuned.landing.ref ∧
        ∀ prior, PlayedBefore loadDay timing prior tuned.landing.ref →
          nextItem loadDay timing prior = .ok tuned.landing.ref) ↔
    ∀ wall, stationWallClock year now = .ok wall → ¬ ClockInGap loadDay timing wall := by
  constructor
  · intro hkeeps wall hwall hgap
    obtain ⟨tuned, htuned, hrepeat⟩ := tuneIn_of_clockInGap hwall hgap
    exact (hkeeps tuned htuned).1 hrepeat
  · intro hnoGap tuned htuned
    obtain ⟨landed, file, hlanded, hfile, hplay, -⟩ := tuneIn_fits htuned
    have hplays : PlaysAt loadDay timing tuned.landing.ref :=
      ⟨landed, hlanded, (landed.isPlayable_iff timing).mpr ⟨file, hfile, hplay⟩⟩
    obtain ⟨wall, anchor, item, hwall, hanchor, hland, hitem, hwindow, -⟩ :=
      tuneIn_eq_ok_iff.mp htuned
    have hdate : anchor.ref.day ≤ LAST_DAY :=
      (findAnchor_date hanchor).trans (dateOf_wallClock_le hwall)
    have hlandingDate := landFromAnchor_date hdate hland
    have hfresh : ¬ IsRepeat loadDay timing tuned.landing.ref := by
      obtain ⟨started, hstarted, -⟩ := bind_eq_ok.mp hland
      obtain ⟨anchorItem, hanchorItem, -⟩ := bind_eq_ok.mp hstarted
      -- Only an anchor that does not air can land on a repeat: then the clock is in a gap.
      by_cases hanchorPlays : anchorItem.isPlayable timing = true
      · exact landFromAnchor_not_isRepeat ⟨anchorItem, hanchorItem, hanchorPlays⟩ hland
      · rw [Bool.not_eq_true] at hanchorPlays
        rw [landFromAnchor_of_unplayable hanchorItem hanchorPlays] at hland
        intro hrepeat
        cases hnext : nextPlayable loadDay timing anchor.ref timing.maxDaysAhead with
        | error error => simp [hnext, Except.map] at hland
        | ok next =>
            rw [hnext] at hland
            obtain ⟨ref, rfl, hlanding⟩ := Option.map_eq_some_iff.mp (Except.ok.inj hland)
            rw [← hlanding] at hitem hrepeat
            exact hnoGap wall hwall
              (clockInGap_of_isRepeat hanchor hanchorItem hanchorPlays hdate hnext hitem hwindow
                hrepeat)
    exact ⟨hfresh, fun prior hprior =>
      nextItem_of_playedBefore hlandingDate hprior hplays hfresh⟩

/-- A file logged at 6:00 and again at 6:08, with a play between that has no file. -/
def repeatAfterGap : DayLoader
  | 1 => [⟨1, MICROS_PER_DAY + 21600000000, "First", "One",
        some ⟨11, "one.flac", some 240000, none⟩⟩,
      ⟨2, MICROS_PER_DAY + 21840000000, "Second", "Two", none⟩,
      ⟨3, MICROS_PER_DAY + 22080000000, "First", "One",
        some ⟨11, "one.flac", some 240000, none⟩⟩]
  | _ => []

/-- At 6:05 the clock lands on the second play, which the session at the first skips. -/
theorem tuneIn_isRepeat : ∃ tuned,
    tuneIn repeatAfterGap {} 1 ⟨1, 1, 2, 21900000000, by decide, by decide, by decide⟩ =
      .ok tuned ∧
    IsRepeat repeatAfterGap {} tuned.landing.ref ∧
    PlayedBefore repeatAfterGap {} ⟨1, 0⟩ tuned.landing.ref ∧
    nextItem repeatAfterGap {} ⟨1, 0⟩ ≠ .ok tuned.landing.ref := by
  have hprior : PlayedBefore repeatAfterGap {} ⟨1, 0⟩ ⟨1, 2⟩ := by
    refine ⟨.inr ⟨rfl, by decide⟩, by decide, ⟨_, rfl, by decide⟩, fun between hafter hbefore => ?_⟩
    obtain ⟨day, index⟩ := between
    simp only [ItemRef.lt_def] at hafter hbefore
    obtain ⟨rfl, rfl⟩ : day = 1 ∧ index = 1 := by omega
    exact fun ⟨item, hitem, hplays⟩ => by
      obtain rfl := Except.ok.inj hitem
      exact absurd hplays (by decide)
  have htuned : tuneIn repeatAfterGap {} 1
      ⟨1, 1, 2, 21900000000, by decide, by decide, by decide⟩ = .ok ⟨⟨⟨1, 2⟩, 0⟩, 0⟩ := by
    refine tuneIn_eq_ok_iff.mpr ⟨_, ⟨⟨1, 1⟩, 60000⟩, _, rfl, by decide, ?_, rfl, by
      decide, by decide⟩
    rw [@landFromAnchor_of_unplayable _ _ ⟨⟨1, 1⟩, 60000⟩ _ rfl rfl]
    rfl
  exact ⟨_, htuned, ⟨⟨1, 0⟩, hprior, rfl⟩, hprior, by decide⟩

end RetroStation.Streaming
