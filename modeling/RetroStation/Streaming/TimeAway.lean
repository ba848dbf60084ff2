import Mathlib.Data.Prod.Lex
import Mathlib.Order.WithBot
import RetroStation.Streaming.ClockPlacement
import RetroStation.Streaming.Session

/-! # Time away

The radio keeps playing while a listener is away. A longer absence never ends
earlier in the log, and it makes no difference whether it is taken in one piece
or with bookmarks saved and resumed on the way.
-/

namespace RetroStation.Streaming

/-- Where in the log a landing is: its day, its index and the time into the item. -/
def Landing.position (landing : Landing) : ℕ ×ₗ ℕ ×ₗ ℕ :=
  toLex (landing.ref.day, toLex (landing.ref.index, landing.offsetMs))

/-- Where a walk ends; the end of the schedule comes after every landing. -/
def walkEnd : Option Landing → WithTop (ℕ ×ₗ ℕ ×ₗ ℕ)
  | none => ⊤
  | some landing => (landing.position : WithTop (ℕ ×ₗ ℕ ×ₗ ℕ))

theorem Landing.position_lt {first second : Landing} (hlt : first.ref < second.ref) :
    first.position < second.position := by
  simp only [Landing.position, Prod.Lex.toLex_lt_toLex]
  rcases (ItemRef.lt_def _ _).mp hlt with hday | ⟨hday, hindex⟩
  · exact .inl hday
  · exact .inr ⟨hday, .inl hindex⟩

theorem Landing.position_le (ref : ItemRef) {first second : Nat} (hle : first ≤ second) :
    (Landing.mk ref first).position ≤ (Landing.mk ref second).position := by
  simp only [Landing.position, Prod.Lex.toLex_le_toLex]
  exact .inr ⟨trivial, .inr ⟨trivial, hle⟩⟩

section

variable (loadDay : DayLoader) (timing : StreamTiming)

/-- On a walk from `start`, the play at `ref` is of the file that has just aired. -/
def RepeatsOnWalk (start ref : ItemRef) : Prop :=
  ∃ prior, ¬ prior < start ∧ prior < ref ∧ PlaysAt loadDay timing prior ∧
    (∀ between, prior < between → between < ref → ¬ PlaysAt loadDay timing between) ∧
    sameFile (fileAt loadDay prior) (fileAt loadDay ref)

/-- Whole milliseconds from one reading of a clock to a later one. -/
def msBetween (first second : Int) : Nat := (toMs (max 0 (second - first))).toNat

/-- Where a listener is who was at `start` `passed` ms ago and has resumed since,
each time from the bookmark saved on the song the resume before had landed inside. -/
inductive Resumed (start : Landing) : Nat → Landing → Prop
  | walked {passed : Nat} {landing : Landing}
      (hwalk : walkForward loadDay timing ⟨start.ref, start.offsetMs + passed⟩ =
        .ok (some landing)) : Resumed start passed landing
  | again {passed seq : Nat} {landing next : Landing} {session : StreamSession}
      {item : ScheduleItem} {startedAt wallNow elapsedNow now : Int} {saved : SavedBookmark}
      (hlanded : Resumed start passed landing) (hinside : 0 < landing.offsetMs)
      (honAir : session.committed =
        some ⟨seq, .song ⟨landing.ref, item, landing.offsetMs⟩, startedAt⟩)
      (hsaved : leftAt loadDay session true wallNow elapsedNow = .ok (some saved))
      (hresume : resume loadDay timing saved.bookmark now = .ok next) :
      Resumed start (passed + (msBetween startedAt elapsedNow + msBetween wallNow now)) next

end

variable {loadDay : DayLoader} {timing : StreamTiming}

/-! ## A longer absence -/

theorem walkEnd_of_later {ref : ItemRef} {offsetMs : Nat} {found : Option Landing}
    (hlater : ∀ landing, found = some landing → ref < landing.ref) :
    walkEnd (some ⟨ref, offsetMs⟩) ≤ walkEnd found := by
  cases found with
  | none => exact le_top
  | some landing => exact WithTop.coe_le_coe.mpr (Landing.position_lt (hlater landing rfl)).le

theorem spend_cons_skip {entry : ItemRef × ScheduleItem} {rest : List (ItemRef × ScheduleItem)}
    {prior : Option PlayableFile} (hskip : airsAfter timing prior entry = false)
    (remaining : Nat) :
    spend timing (entry :: rest) prior remaining = spend timing rest prior remaining :=
  @spend_skip timing [entry] rest prior (by simpa using hskip) remaining

/-- More to spend never ends earlier, whatever has just aired. -/
theorem spend_mono {items : List (ItemRef × ScheduleItem)}
    (hordered : items.Pairwise fun first second => first.1 < second.1)
    (prior : Option PlayableFile) {first second : Nat} (hle : first ≤ second) :
    walkEnd (spend timing items prior first) ≤ walkEnd (spend timing items prior second) := by
  induction items generalizing prior first second with
  | nil => exact le_rfl
  | cons head rest ih =>
      obtain ⟨ref, item⟩ := head
      obtain ⟨hlater, hrest⟩ := List.pairwise_cons.mp hordered
      by_cases hairs : airsAfter timing prior (ref, item) = true
      · obtain ⟨file, hfile, -, -⟩ := airsAfter_iff.mp hairs
        have hafter : ∀ prior remaining landing,
            spend timing rest prior remaining = some landing → ref < landing.ref := by
          intro prior remaining landing hspend
          obtain ⟨entry, hentry, hlanding⟩ := spend_mem hspend
          exact hlanding ▸ hlater entry hentry
        have hshort := (file.tailFits_iff first timing).not
        have hshort' := (file.tailFits_iff second timing).not
        rw [spend_airs hfile hairs, spend_airs hfile hairs]
        split
        next hfirst =>
          split
          next hfits =>
            split
            · split
              · exact WithTop.coe_le_coe.mpr (Landing.position_le ref hle)
              · exact walkEnd_of_later (hafter _ _)
            · exact walkEnd_of_later (hafter _ _)
          next htail =>
            split
            next hsecond =>
              -- The tail that was too short for the shorter absence is shorter still.
              rw [if_neg (hshort'.mpr (by have := hshort.mp htail; omega))]
            · exact ih hrest _ (Nat.zero_le _)
        next hfirst =>
          rw [if_neg (by omega)]
          exact ih hrest _ (by omega)
      · rw [Bool.not_eq_true] at hairs
        rw [spend_cons_skip hairs, spend_cons_skip hairs]
        exact ih hrest prior hle

/-! ## Where a walk lands -/

/-- The file of the last playable item passed, else the one that aired before. -/
def lastPlayed (timing : StreamTiming) (prior : Option PlayableFile)
    (passed : List (ItemRef × ScheduleItem)) : Option PlayableFile :=
  passed.foldl (fun prior entry => if entry.2.isPlayable timing then entry.2.file else prior) prior

theorem lastPlayed_cons (prior : Option PlayableFile) (head : ItemRef × ScheduleItem)
    (rest : List (ItemRef × ScheduleItem)) :
    lastPlayed timing prior (head :: rest) =
      lastPlayed timing (if head.2.isPlayable timing then head.2.file else prior) rest := rfl

theorem lastPlayed_nearest {passed rest : List (ItemRef × ScheduleItem)}
    {last : ItemRef × ScheduleItem} (hplays : last.2.isPlayable timing)
    (hquiet : ∀ entry ∈ rest, entry.2.isPlayable timing = false) (prior : Option PlayableFile) :
    lastPlayed timing prior (passed ++ last :: rest) = last.2.file := by
  have hrest : ∀ file, lastPlayed timing file rest = file := by
    intro file
    induction rest with
    | nil => rfl
    | cons head rest ih =>
        rw [lastPlayed_cons, hquiet head (by simp)]
        exact ih fun entry hentry => hquiet entry (by simp [hentry])
  rw [lastPlayed, List.foldl_append, List.foldl_cons, if_pos hplays]
  exact hrest _

/-- Two plays of one file leave the same file behind them. -/
theorem lastPlayed_sameFile {first second : Option PlayableFile} (hsame : sameFile first second)
    {passed : List (ItemRef × ScheduleItem)} {file : Option PlayableFile}
    (hrepeat : sameFile (lastPlayed timing second passed) file) :
    sameFile (lastPlayed timing first passed) file := by
  induction passed generalizing first second with
  | nil => exact sameFile_trans hsame hrepeat
  | cons head rest ih =>
      rw [lastPlayed_cons] at hrepeat ⊢
      by_cases hplays : head.2.isPlayable timing = true
      · rwa [if_pos hplays] at hrepeat ⊢
      · rw [if_neg hplays] at hrepeat ⊢
        exact ih hsame hrepeat

/-- A walk never lands on the file that has just aired. -/
theorem spend_other {items : List (ItemRef × ScheduleItem)} {prior : Option PlayableFile}
    {remaining : Nat} {landing : Landing}
    (hspend : spend timing items prior remaining = some landing) :
    ∃ passed item rest, items = passed ++ (landing.ref, item) :: rest ∧
      sameFile (lastPlayed timing prior passed) item.file = false := by
  induction items generalizing prior remaining with
  | nil => cases hspend
  | cons head rest ih =>
      obtain ⟨ref, item⟩ := head
      by_cases hairs : airsAfter timing prior (ref, item) = true
      · obtain ⟨file, hfile, hplayable, hother⟩ := airsAfter_iff.mp hairs
        have hplays : item.isPlayable timing = true :=
          (item.isPlayable_iff timing).mpr ⟨file, hfile, hplayable⟩
        have hthen : ∀ remaining, spend timing rest (some file) remaining = some landing →
            ∃ passed found after, (ref, item) :: rest = passed ++ (landing.ref, found) :: after ∧
              sameFile (lastPlayed timing prior passed) found.file = false := by
          intro remaining hrest
          obtain ⟨passed, found, after, rfl, hfound⟩ := ih hrest
          refine ⟨(ref, item) :: passed, found, after, rfl, ?_⟩
          rwa [lastPlayed_cons, if_pos hplays, hfile]
        rw [spend_airs hfile hairs] at hspend
        split at hspend
        · split at hspend
          · cases hspend
            exact ⟨[], item, rest, rfl, hfile ▸ hother⟩
          · exact hthen _ hspend
        · exact hthen _ hspend
      · rw [Bool.not_eq_true] at hairs
        rw [spend_cons_skip hairs] at hspend
        obtain ⟨passed, found, after, rfl, hfound⟩ := ih hspend
        refine ⟨(ref, item) :: passed, found, after, rfl, ?_⟩
        rw [lastPlayed_cons]
        split
        next hplays =>
          -- A playable item is passed over because it repeats what aired before.
          have hsame : sameFile prior item.file = true := by simpa [airsAfter, hplays] using hairs
          by_contra hrepeat
          rw [Bool.not_eq_false] at hrepeat
          rw [lastPlayed_sameFile hsame hrepeat] at hfound
          cases hfound
        · exact hfound

/-- The items a walk from `start` has passed when it comes to `ref`. -/
theorem mem_passed {start ref : ItemRef} {rounds : Nat} {item : ScheduleItem}
    {passed rest : List (ItemRef × ScheduleItem)}
    (hitems : itemsOver loadDay start.day start.index rounds = passed ++ (ref, item) :: rest)
    {between : ItemRef} {other : ScheduleItem} :
    (between, other) ∈ passed ↔
      itemAt loadDay between = .ok other ∧ ¬ between < start ∧ between < ref := by
  have hordered := @itemsOver_pairwise loadDay start.day start.index rounds
  have hmem : (ref, item) ∈ itemsOver loadDay start.day start.index rounds := by simp [hitems]
  rw [hitems, List.pairwise_append, List.pairwise_cons] at hordered
  constructor
  · intro hpassed
    obtain ⟨hother, hplace⟩ := mem_itemsOver (hitems ▸ List.mem_append_left _ hpassed)
    refine ⟨hother, ?_, hordered.2.2 _ hpassed _ (List.mem_cons_self ..)⟩
    rw [ItemRef.lt_def]
    dsimp only at hplace
    omega
  · rintro ⟨hother, hfrom, hto⟩
    obtain ⟨hrounds, hdate, hlogged⟩ := itemsOver_logged hmem
    have hbetween : (between, other) ∈ itemsOver loadDay start.day start.index rounds := by
      rw [ItemRef.lt_def] at hfrom hto
      dsimp only at hrounds hdate hlogged
      refine mem_itemsOver_of hother (by omega) (by omega) (fun day hday hbefore => ?_) (by omega)
      exact hlogged day hday (by omega)
    rw [hitems] at hbetween
    rcases List.mem_append.mp hbetween with hpassed | hrest
    · exact hpassed
    · rcases List.mem_cons.mp hrest with heq | hrest
      · cases heq
        exact absurd hto (ItemRef.lt_irrefl _)
      · exact absurd hto (ItemRef.lt_asymm (hordered.2.1.1 _ hrest))

theorem spend_not_repeatsOnWalk {start : ItemRef} {rounds remaining : Nat} {landing : Landing}
    (hspend : spend timing (itemsOver loadDay start.day start.index rounds) none remaining =
      some landing) : ¬ RepeatsOnWalk loadDay timing start landing.ref := by
  rintro ⟨prior, hfrom, hto, ⟨priorItem, hprior, hplays⟩, hnearest, hrepeat⟩
  obtain ⟨passed, item, rest, hitems, hother⟩ := spend_other hspend
  have hitem : itemAt loadDay landing.ref = .ok item :=
    (mem_itemsOver (hitems ▸ List.mem_append_right _ (List.mem_cons_self ..))).1
  obtain ⟨before, after, rfl⟩ :=
    List.append_of_mem ((mem_passed hitems).mpr ⟨hprior, hfrom, hto⟩)
  have hquiet : ∀ entry ∈ after, entry.2.isPlayable timing = false := by
    intro entry hentry
    obtain ⟨hat, -, hbefore⟩ := (mem_passed hitems).mp
      (show (entry.1, entry.2) ∈ before ++ (prior, priorItem) :: after by simp [hentry])
    have hordered := @itemsOver_pairwise loadDay start.day start.index rounds
    rw [hitems, List.append_assoc, List.pairwise_append] at hordered
    have hlater := (List.pairwise_cons.mp hordered.2.1).1 entry (by simp [hentry])
    by_contra hentryPlays
    exact hnearest entry.1 hlater hbefore ⟨entry.2, hat, by simpa using hentryPlays⟩
  rw [lastPlayed_nearest hplays hquiet, ← fileAt_eq hprior, ← fileAt_eq hitem, hrepeat] at hother
  cases hother

/-- How a walk from `start` ends that lands nowhere: where the dates end, it raises. -/
def scheduleEnd (loadDay : DayLoader) (timing : StreamTiming) (start : ItemRef) :
    Except StreamError (Option Landing) :=
  if outOfDates loadDay start.day (timing.maxDaysAhead + 1) then .error .dateOverflow else .ok none

theorem foundOrEnd_walked (start : ItemRef) (found : Option Landing) :
    foundOrEnd loadDay start timing.maxDaysAhead found =
      match found with
      | some landing => .ok (some landing)
      | none => scheduleEnd loadDay timing start := by
  cases found with
  | none => rfl
  | some landing => exact foundOrEnd_eq_some.mpr rfl

/-- However long a listener is away, the walk ends in the order of the log, and
where it lands the station airs: the item can be played from the offset and is
not of the file that has just aired. -/
theorem walkForward_monotone (loadDay : DayLoader) (timing : StreamTiming) (start : ItemRef) :
    (∃ length, ∀ offsetMs,
        walkForward loadDay timing ⟨start, offsetMs⟩ = .error (.staleSchedule start length)) ∨
      ∃ walked : Nat → Option Landing,
        (∀ offsetMs, walkForward loadDay timing ⟨start, offsetMs⟩ =
          match walked offsetMs with
          | some landing => .ok (some landing)
          | none => scheduleEnd loadDay timing start) ∧
        (Monotone fun offsetMs => walkEnd (walked offsetMs)) ∧
        ∀ offsetMs landing, walked offsetMs = some landing →
          Fits loadDay timing landing ∧ ¬ RepeatsOnWalk loadDay timing start landing.ref := by
  cases hstart : itemAt loadDay start with
  | error error =>
      obtain rfl : error = .staleSchedule start (loadDay start.day).length := by
        unfold itemAt at hstart
        split at hstart
        · cases hstart
        · exact (Except.error.inj hstart).symm
      exact .inl ⟨_, fun offsetMs => bind_error hstart⟩
  | ok item =>
      -- The items are the same for every offset; only how far they are spent differs.
      have hwalk : ∀ offsetMs, walkForward loadDay timing ⟨start, offsetMs⟩ =
          foundOrEnd loadDay start timing.maxDaysAhead
            (spend timing (itemsFrom loadDay start timing.maxDaysAhead) none offsetMs) := by
        exact fun offsetMs => bind_ok hstart
      refine .inr ⟨fun offsetMs =>
        spend timing (itemsFrom loadDay start timing.maxDaysAhead) none offsetMs,
        fun offsetMs => (hwalk offsetMs).trans (foundOrEnd_walked ..),
        fun first second hle => ?_, fun offsetMs landing hspend => ?_⟩
      · exact spend_mono (itemsOver_pairwise ..) none hle
      · refine ⟨walkForward_fits ((hwalk offsetMs).trans (foundOrEnd_eq_some.mpr hspend)), ?_⟩
        exact spend_not_repeatsOnWalk hspend

/-- On the last date there is, five minutes from the top of a four-minute song raise. -/
theorem walkForward_lastDate :
    walkForward (onePlayOn LAST_DAY) {} ⟨⟨LAST_DAY, 0⟩, 0⟩ = .ok (some ⟨⟨LAST_DAY, 0⟩, 0⟩) ∧
      walkForward (onePlayOn LAST_DAY) {} ⟨⟨LAST_DAY, 0⟩, 300000⟩ = .error .dateOverflow :=
  ⟨rfl, rfl⟩

/-! ## Leaving on the way -/

/-- To land inside an item the walk uses up all that airs before it, and a longer
walk comes to that item with as much more left. -/
theorem spend_arrives {items : List (ItemRef × ScheduleItem)} {prior : Option PlayableFile}
    {remaining : Nat} {landing : Landing}
    (hspend : spend timing items prior remaining = some landing) (hinside : 0 < landing.offsetMs) :
    ∃ passed item rest, items = passed ++ (landing.ref, item) :: rest ∧
      item.isPlayable timing ∧ ∀ more, spend timing items prior (remaining + more) =
        spend timing ((landing.ref, item) :: rest) none (landing.offsetMs + more) := by
  induction items generalizing prior remaining with
  | nil => cases hspend
  | cons head rest ih =>
      obtain ⟨ref, item⟩ := head
      by_cases hairs : airsAfter timing prior (ref, item) = true
      · obtain ⟨file, hfile, hplayable, -⟩ := airsAfter_iff.mp hairs
        have hspends := @spend_airs timing ref item file rest prior hfile hairs
        rw [hspends] at hspend
        split at hspend
        · split at hspend
          · cases hspend
            exact ⟨[], item, rest, rfl, (item.isPlayable_iff timing).mpr ⟨file, hfile, hplayable⟩,
              fun more => spend_airs_none hairs _⟩
          · -- Past a tail that is too short the walk lands at a top.
            obtain ⟨entry, -, rfl⟩ := spend_zero hspend
            exact absurd hinside (Nat.lt_irrefl 0)
        next hspan =>
          obtain ⟨passed, found, after, rfl, hplays, hmore⟩ := ih hspend
          refine ⟨(ref, item) :: passed, found, after, rfl, hplays, fun more => ?_⟩
          rw [hspends, if_neg (by omega), ← hmore]
          congr 1
          omega
      · rw [Bool.not_eq_true] at hairs
        rw [spend_cons_skip hairs] at hspend
        obtain ⟨passed, found, after, rfl, hplays, hmore⟩ := ih hspend
        refine ⟨(ref, item) :: passed, found, after, rfl, hplays, fun more => ?_⟩
        rw [spend_cons_skip hairs, hmore]

/-- A walk over more items lands where the shorter one does. -/
theorem spend_append {items more : List (ItemRef × ScheduleItem)} {prior : Option PlayableFile}
    {remaining : Nat} {landing : Landing}
    (hspend : spend timing items prior remaining = some landing) :
    spend timing (items ++ more) prior remaining = some landing := by
  induction items generalizing prior remaining with
  | nil => cases hspend
  | cons head rest ih =>
      obtain ⟨ref, item⟩ := head
      rw [List.cons_append]
      by_cases hairs : airsAfter timing prior (ref, item) = true
      · obtain ⟨file, hfile, -, -⟩ := airsAfter_iff.mp hairs
        rw [spend_airs hfile hairs] at hspend ⊢
        split at hspend
        next hspan =>
          rw [if_pos hspan]
          split at hspend
          next hfits => rw [if_pos hfits, hspend]
          next htail =>
            rw [if_neg htail]
            exact ih hspend
        next hspan =>
          rw [if_neg hspan]
          exact ih hspend
      · rw [Bool.not_eq_true] at hairs
        rw [spend_cons_skip hairs] at hspend ⊢
        exact ih hspend

theorem walkForward_of_spend {start landing : Landing} {item : ScheduleItem}
    (hitem : itemAt loadDay start.ref = .ok item)
    (hspend : spend timing ((start.ref, item) ::
      itemsOver loadDay start.ref.day (start.ref.index + 1) (timing.maxDaysAhead + 1)) none
      start.offsetMs = some landing) :
    walkForward loadDay timing start = .ok (some landing) := by
  rw [walkForward, bind_ok hitem, itemsFrom_cons hitem]
  exact foundOrEnd_eq_some.mpr hspend

/-- A walk that stops inside an item and goes on from there lands where the whole
walk does: it looks further ahead, and what aired before does not matter. -/
theorem walkForward_onward {start landing once : Landing} {more : Nat}
    (hpart : walkForward loadDay timing start = .ok (some landing))
    (hinside : 0 < landing.offsetMs)
    (honce : walkForward loadDay timing ⟨start.ref, start.offsetMs + more⟩ = .ok (some once)) :
    walkForward loadDay timing ⟨landing.ref, landing.offsetMs + more⟩ = .ok (some once) := by
  obtain ⟨item, hitem, hspend⟩ := bind_eq_ok.mp hpart
  obtain ⟨passed, found, rest, hitems, -, hmore⟩ :=
    spend_arrives (foundOrEnd_eq_some.mp hspend) hinside
  have hfound : itemAt loadDay landing.ref = .ok found :=
    (mem_itemsOver (hitems ▸ List.mem_append_right _ (List.mem_cons_self ..))).1
  have hwhole : spend timing (itemsFrom loadDay start.ref timing.maxDaysAhead) none
      (start.offsetMs + more) = some once := by
    obtain ⟨-, -, hspends⟩ := bind_eq_ok.mp honce
    exact foundOrEnd_eq_some.mp hspends
  rw [hmore more] at hwhole
  obtain ⟨left, hleft, rfl⟩ := itemsOver_after hitems
  obtain ⟨further, hfurther⟩ := @itemsOver_mono loadDay landing.ref.day (landing.ref.index + 1) _ _
    hleft
  have hlonger := @spend_append timing _ further _ _ _ hwhole
  rw [List.cons_append, hfurther] at hlonger
  exact @walkForward_of_spend _ timing ⟨landing.ref, landing.offsetMs + more⟩ _ _ hfound hlonger

/-- A longer walk that lands shows that the shorter one does. -/
theorem walkForward_lands {start once : Landing} {less more : Nat}
    (honce : walkForward loadDay timing ⟨start.ref, more⟩ = .ok (some once)) (hle : less ≤ more) :
    ∃ landing, walkForward loadDay timing ⟨start.ref, less⟩ = .ok (some landing) := by
  rcases walkForward_monotone loadDay timing start.ref with
    ⟨length, hstale⟩ | ⟨walked, hwalked, hmono, -⟩
  · rw [hstale] at honce
    cases honce
  · have hends := hmono hle
    cases hless : walked less with
    | some landing => exact ⟨landing, by rw [hwalked, hless]⟩
    | none =>
        cases hmore : walked more with
        | none =>
            simp only [hwalked, hmore, scheduleEnd] at honce
            split at honce <;> cases honce
        | some landing =>
            simp only [hless, hmore, walkEnd, top_le_iff] at hends
            exact absurd hends (WithTop.coe_ne_top)

theorem resume_of_walkForward {bookmark : Bookmark} {now : Int} {once : Landing}
    {item : ScheduleItem} (hitem : itemAt loadDay bookmark.landing.ref = .ok item)
    (hplayable : item.isPlayable timing)
    (hwalk : walkForward loadDay timing ⟨bookmark.landing.ref,
      bookmark.landing.offsetMs + msBetween bookmark.leftAt now⟩ = .ok (some once)) :
    resume loadDay timing bookmark now = .ok once := by
  have hplayed : playedOn loadDay timing bookmark.landing (now - bookmark.leftAt) =
      .ok (some once) := by
    rw [playedOn, bind_ok hitem, if_pos hplayable]
    exact hwalk
  rw [resume, bind_ok hplayed]
  rfl

/-- The bookmark of a session left while a song is on air. -/
theorem leftAt_song {session : StreamSession} {assigned : Assigned} {seq : Nat}
    {startedAt wallNow elapsedNow : Int} {saved : SavedBookmark}
    (honAir : session.committed = some ⟨seq, .song assigned, startedAt⟩)
    (hsaved : leftAt loadDay session true wallNow elapsedNow = .ok (some saved)) :
    saved.bookmark.leftAt = wallNow ∧ saved.bookmark.landing =
      ⟨assigned.ref, assigned.offsetMs + msBetween startedAt elapsedNow⟩ := by
  unfold leftAt at hsaved
  split at hsaved
  next =>
    simp only [honAir, Option.bind_some, songHeard] at hsaved
    cases hsaved
    exact ⟨rfl, rfl⟩
  next => cases hsaved

theorem resume_left {session : StreamSession} {item logged : ScheduleItem} {seq : Nat}
    {landing once : Landing} {startedAt wallNow elapsedNow now : Int} {saved : SavedBookmark}
    (hlogged : itemAt loadDay landing.ref = .ok logged) (hplayable : logged.isPlayable timing)
    (honAir : session.committed =
      some ⟨seq, .song ⟨landing.ref, item, landing.offsetMs⟩, startedAt⟩)
    (hsaved : leftAt loadDay session true wallNow elapsedNow = .ok (some saved))
    (hwalk : walkForward loadDay timing ⟨landing.ref, landing.offsetMs +
      (msBetween startedAt elapsedNow + msBetween wallNow now)⟩ = .ok (some once)) :
    resume loadDay timing saved.bookmark now = .ok once := by
  obtain ⟨hleftAt, hleft⟩ := leftAt_song honAir hsaved
  refine @resume_of_walkForward _ _ _ _ _ logged ?_ hplayable ?_
  · rw [hleft]
    exact hlogged
  · rw [hleft, hleftAt]
    rwa [← Nat.add_assoc] at hwalk

/-- Bookmarks saved and resumed on the way leave the listener where the walk from
the start is, as long as that walk still lands later on. -/
theorem resumed_walkForward {start landing once : Landing} {passed total : Nat}
    (hresumed : Resumed loadDay timing start passed landing)
    (honce : walkForward loadDay timing ⟨start.ref, start.offsetMs + total⟩ = .ok (some once))
    (hle : passed ≤ total) :
    walkForward loadDay timing ⟨start.ref, start.offsetMs + passed⟩ = .ok (some landing) := by
  induction hresumed with
  | walked hwalk => exact hwalk
  | @again passed seq landing next session item startedAt wallNow elapsedNow now saved hlanded
      hinside honAir hsaved hresume ih =>
      have hpart := ih (by omega)
      obtain ⟨stop, hstop⟩ := walkForward_lands honce (Nat.add_le_add_left hle start.offsetMs)
      rw [← Nat.add_assoc] at hstop
      have honward := walkForward_onward hpart hinside hstop
      obtain ⟨logged, file, hlogged, hfile, hplayable, -⟩ := walkForward_fits hpart
      have hsame := resume_left hlogged ((logged.isPlayable_iff timing).mpr ⟨file,
        hfile, hplayable⟩)
        honAir hsaved honward
      obtain rfl := Except.ok.inj (hresume.symm.trans hsame)
      rw [← Nat.add_assoc, hstop]

/-- Leaving and resuming on the way ends where one long absence does: the walk from
a landing inside an item, the resume from a bookmark saved there and the resume
from the bookmark at the start all land on the same spot. -/
theorem away_twice {start landing once : Landing} {item : ScheduleItem} {passed more : Nat}
    (hitem : itemAt loadDay start.ref = .ok item) (hplayable : item.isPlayable timing)
    (hresumed : Resumed loadDay timing start passed landing) (hinside : 0 < landing.offsetMs)
    (honce : walkForward loadDay timing ⟨start.ref, start.offsetMs + (passed + more)⟩ =
      .ok (some once)) :
    walkForward loadDay timing ⟨landing.ref, landing.offsetMs + more⟩ = .ok (some once) ∧
      (∀ bookmark now, bookmark.landing = start →
        msBetween bookmark.leftAt now = passed + more →
        resume loadDay timing bookmark now = .ok once) ∧
      ∀ session seq song startedAt wallNow elapsedNow saved now,
        session.committed = some ⟨seq, .song ⟨landing.ref, song, landing.offsetMs⟩, startedAt⟩ →
        leftAt loadDay session true wallNow elapsedNow = .ok (some saved) →
        msBetween startedAt elapsedNow + msBetween wallNow now = more →
        resume loadDay timing saved.bookmark now = .ok once := by
  -- Where the first absence landed is where the walk stands after that time.
  have hpart := resumed_walkForward hresumed honce (Nat.le_add_right passed more)
  rw [← Nat.add_assoc] at honce
  have honward := walkForward_onward hpart hinside honce
  refine ⟨honward, ?_, ?_⟩
  · rintro bookmark now rfl haway
    refine resume_of_walkForward hitem hplayable ?_
    rwa [haway, ← Nat.add_assoc]
  · rintro session seq song startedAt wallNow elapsedNow saved now honAir hsaved rfl
    obtain ⟨logged, file, hlogged, hfile, hfilePlayable, -⟩ := walkForward_fits hpart
    exact resume_left hlogged ((logged.isPlayable_iff timing).mpr ⟨file, hfile, hfilePlayable⟩)
      honAir hsaved honward

/-- A listener who leaves the first of two songs at its top and is back 65 s and 70 s later. -/
theorem away_twice_twoSongs :
    walkForward twoSongs {} ⟨⟨1, 1⟩, 5000 + 5000⟩ = .ok (some ⟨⟨1, 1⟩, 10000⟩) := by
  have hresumed : Resumed twoSongs {} ⟨⟨1, 0⟩, 0⟩ 65000 ⟨⟨1, 1⟩, 5000⟩ := .walked rfl
  exact (away_twice rfl (by decide) hresumed (by decide) rfl).1

end RetroStation.Streaming
