import RetroStation.Streaming.AiringOrder
import RetroStation.Streaming.Payload

/-! # Placing a listener

A reconnect lands on the channel's live position, else on a bookmark that is
still valid, else by the clock. Whichever it is, the landing can be played from
its offset, and so can every song the session walks to from there.
-/

namespace RetroStation.Streaming

/-- One listener's saved place at one station-year, which is also their channel. -/
structure BookmarkKey where
  listenerKey : String
  stationId : Uuid
  year : Nat
  deriving DecidableEq, Repr

/-- A bookmark plus the play it landed on, so that a relogged day is noticed. -/
structure SavedBookmark where
  bookmark : Bookmark
  eventId : Uuid
  leftElapsed : Option Int
  deriving DecidableEq, Repr

/-- An open session's position, read at one moment. -/
structure LivePosition where
  sessionId : Uuid
  started : Landing
  eventId : Uuid
  heard : Int
  clockOffset : Int
  deriving DecidableEq, Repr

/-- Whether the day still logs the play `eventId` at `ref`. -/
def stillLoggedAt (loadDay : DayLoader) (ref : ItemRef) (eventId : Uuid) : Bool :=
  match (loadDay ref.day)[ref.index]? with
  | some item => item.eventId = eventId
  | none => false

/-- Whether `saved` is still worth resuming from. -/
def bookmarkStillValid (loadDay : DayLoader) (saved : SavedBookmark) (now : Int) : Bool :=
  if saved.bookmark.isExpired now then false
  else stillLoggedAt loadDay saved.bookmark.landing.ref saved.eventId

/-- Where `live` has got to in the day as read now, if it is to be used at all. -/
def liveLanding (loadDay : DayLoader) (timing : StreamTiming) (live : LivePosition) :
    Except StreamError (Option Landing) :=
  if stillLoggedAt loadDay live.started.ref live.eventId then
    playedOn loadDay timing live.started live.heard
  else .ok none

/-- What a placement reads: the session's days, its year, the moment and the rules. -/
structure Schedule where
  loadDay : DayLoader
  year : Nat
  now : CivilTime
  resumeTo : Option Int
  timing : StreamTiming

/-- A placement's answer, and whether it dropped the bookmark. -/
structure Placed (α : Type) where
  result : Except StreamError α
  forgets : Bool

/-- Resume a bookmark that is still valid, else tune in by the clock. -/
def place (schedule : Schedule) (saved : Option SavedBookmark) : Placed TuneIn :=
  let byClock := tuneIn schedule.loadDay schedule.timing schedule.year schedule.now
  match saved with
  | none => ⟨byClock, false⟩
  | some saved =>
    if bookmarkStillValid schedule.loadDay saved schedule.now.toDateTime then
      let walkTo := schedule.resumeTo.getD schedule.now.toDateTime
      match resume schedule.loadDay schedule.timing saved.bookmark walkTo with
      | .ok landing => ⟨.ok ⟨landing, saved.bookmark.clockOffset⟩, false⟩
      -- The station has signed off since the listener left.
      | .error (.endOfSchedule after) => ⟨.error (.endOfSchedule after), true⟩
      | .error error => ⟨.error error, false⟩
    else ⟨byClock, true⟩

/-- Where placement put the listener, and the open session it resumed from. -/
structure Placement where
  tuned : TuneIn
  resumedFrom : Option Uuid
  deriving DecidableEq, Repr

/-- The channel's live position while the day still holds it, else `place`. -/
def placeListener (schedule : Schedule) (live : Option LivePosition)
    (saved : Option SavedBookmark) : Placed Placement :=
  let placed :=
    let placed := place schedule saved
    { placed with result := placed.result.map fun tuned => (⟨tuned, none⟩ : Placement) }
  match live with
  | none => placed
  | some live =>
    match liveLanding schedule.loadDay schedule.timing live with
    | .error error => ⟨.error error, false⟩
    | .ok (some landing) => ⟨.ok ⟨⟨landing, live.clockOffset⟩, some live.sessionId⟩, false⟩
    | .ok none => placed

/-- What the re-read of a song's stored cues changes; `none` is a failed read,
which keeps what was read at tune-in. -/
def reread (timing : StreamTiming) (assigned : Assigned) (answer : Option (Option CuePoints)) :
    Assigned :=
  match assigned.item.file, answer with
  | some file, some cues =>
    let fresh := file.withStoredCues cues timing
    if fresh = file then assigned
    else { assigned with item := { assigned.item with file := some fresh } }
  | _, _ => assigned

/-! ## Landings that can be played -/

/-- The landing is on an item of the day read, which can be played and leaves
the minimum span after the offset. -/
def Fits (loadDay : DayLoader) (timing : StreamTiming) (landing : Landing) : Prop :=
  ∃ item file, itemAt loadDay landing.ref = .ok item ∧ item.file = some file ∧
    file.isPlayable timing ∧ landing.offsetMs < file.spanMs ∧
    file.tailFits landing.offsetMs timing

section

variable {loadDay : DayLoader} {timing : StreamTiming}

theorem bind_eq_ok {α β : Type} {first : Except StreamError α} {next : α → Except StreamError β}
    {result : β} : (first >>= next) = .ok result ↔ ∃ value, first = .ok value ∧
      next value = .ok result := by
  cases first <;> simp [bind, Except.bind]

theorem fits_top {ref : ItemRef} {item : ScheduleItem} (hitem : itemAt loadDay ref = .ok item)
    (hplayable : item.isPlayable timing) : Fits loadDay timing ⟨ref, 0⟩ := by
  obtain ⟨file, hfile, hplay⟩ := (item.isPlayable_iff timing).mp hplayable
  obtain ⟨hspan, hmin⟩ := (file.isPlayable_iff timing).mp hplay
  exact ⟨item, file, hitem, hfile, hplay, hspan, (file.tailFits_iff 0 timing).mpr (by omega)⟩

theorem fits_inside {landing : Landing} {item : ScheduleItem} {file : PlayableFile}
    (hitem : itemAt loadDay landing.ref = .ok item) (hfile : item.file = some file)
    (hspan : landing.offsetMs < file.spanMs)
    (hfits : file.tailFits landing.offsetMs timing) : Fits loadDay timing landing := by
  have htail := (file.tailFits_iff landing.offsetMs timing).mp hfits
  exact ⟨item, file, hitem, hfile, (file.isPlayable_iff timing).mpr (by omega), hspan, hfits⟩

theorem spend_fits {items : List (ItemRef × ScheduleItem)} {prior : Option PlayableFile}
    {remaining : Nat} {landing : Landing}
    (hitems : ∀ entry ∈ items, itemAt loadDay entry.1 = .ok entry.2)
    (hspend : spend timing items prior remaining = some landing) : Fits loadDay timing landing := by
  induction items generalizing prior remaining with
  | nil => cases hspend
  | cons head rest ih =>
      obtain ⟨ref, item⟩ := head
      have hrest := fun {prior remaining} =>
        @ih prior remaining fun entry hentry => hitems entry (by simp [hentry])
      simp only [spend] at hspend
      split at hspend
      · exact hrest hspend
      next file hfile =>
        split at hspend
        · exact hrest hspend
        · split at hspend
          next hspan =>
            split at hspend
            next hfits =>
              cases hspend
              exact fits_inside (hitems (ref, item) (by simp)) hfile hspan hfits
            · exact hrest hspend
          · exact hrest hspend

theorem walkForward_fits {start landing : Landing}
    (hwalk : walkForward loadDay timing start = .ok (some landing)) :
    Fits loadDay timing landing := by
  obtain ⟨item, -, hspend⟩ := bind_eq_ok.mp hwalk
  exact spend_fits (fun entry hentry => (mem_itemsOver hentry).1) (foundOrEnd_eq_some.mp hspend)

theorem playedOn_fits {start landing : Landing} {elapsed : Int}
    (hplayed : playedOn loadDay timing start elapsed = .ok (some landing)) :
    Fits loadDay timing landing := by
  obtain ⟨item, -, hwalk⟩ := bind_eq_ok.mp hplayed
  exact walkForward_fits hwalk

theorem nextPlayable_fits {after ref : ItemRef} {days : Nat}
    (hnext : nextPlayable loadDay timing after days = .ok (some ref)) :
    Fits loadDay timing ⟨ref, 0⟩ := by
  obtain ⟨item, -, hfound⟩ := bind_eq_ok.mp hnext
  obtain ⟨entry, hfind, rfl⟩ := Option.map_eq_some_iff.mp (foundOrEnd_eq_some.mp hfound)
  have hairs := List.find?_some hfind
  simp only [airsAfter, Bool.and_eq_true] at hairs
  exact fits_top (mem_itemsOver (List.mem_of_find?_eq_some hfind)).1 hairs.1

theorem landFromAnchor_fits {anchor landing : Landing}
    (hland : landFromAnchor loadDay timing anchor = .ok (some landing)) :
    Fits loadDay timing landing := by
  obtain ⟨first, -, hland⟩ := bind_eq_ok.mp hland
  obtain ⟨item, hitem, hland⟩ := bind_eq_ok.mp hland
  have hnextSong : (do
      let ref ← nextPlayable loadDay timing first.ref timing.maxDaysAhead
      return ref.map fun ref => (⟨ref, 0⟩ : Landing)) = .ok (some landing) →
      Fits loadDay timing landing := by
    intro hsong
    obtain ⟨next, hnext, hlanding⟩ := bind_eq_ok.mp hsong
    obtain ⟨ref, rfl, rfl⟩ := Option.map_eq_some_iff.mp (Except.ok.inj hlanding)
    exact nextPlayable_fits hnext
  cases hfile : item.file with
  | none =>
      simp only [hfile, Bool.false_eq_true, if_false] at hland
      exact hnextSong hland
  | some file =>
      simp only [hfile] at hland
      split at hland
      next hinside =>
        obtain rfl : first = landing := by simpa [pure, Except.pure] using hland
        simp only [Bool.and_eq_true, decide_eq_true_eq] at hinside
        exact fits_inside hitem hfile hinside.1 hinside.2
      · exact hnextSong hland

theorem tuneIn_fits {year : Nat} {now : CivilTime} {tuned : TuneIn}
    (htuned : tuneIn loadDay timing year now = .ok tuned) : Fits loadDay timing tuned.landing := by
  obtain ⟨wall, -, htuned⟩ := bind_eq_ok.mp htuned
  obtain ⟨anchor, -, htuned⟩ := bind_eq_ok.mp htuned
  obtain ⟨found, hfound, htuned⟩ := bind_eq_ok.mp htuned
  cases found with
  | none => cases htuned
  | some landing =>
      obtain ⟨item, -, htuned⟩ := bind_eq_ok.mp htuned
      split at htuned
      · cases htuned
      · cases htuned
        exact landFromAnchor_fits hfound

theorem resume_fits {bookmark : Bookmark} {now : Int} {landing : Landing}
    (hresume : resume loadDay timing bookmark now = .ok landing) :
    Fits loadDay timing landing := by
  obtain ⟨found, hfound, hresume⟩ := bind_eq_ok.mp hresume
  cases found with
  | none => cases hresume
  | some found =>
      cases hresume
      exact playedOn_fits hfound

end

theorem place_fits {schedule : Schedule} {saved : Option SavedBookmark} {tuned : TuneIn}
    (hplaced : (place schedule saved).result = .ok tuned) :
    Fits schedule.loadDay schedule.timing tuned.landing := by
  unfold place at hplaced
  dsimp only at hplaced
  split at hplaced
  · exact tuneIn_fits hplaced
  next saved =>
    split at hplaced
    · split at hplaced
      next landing hresume =>
        cases hplaced
        exact resume_fits hresume
      · cases hplaced
      · cases hplaced
    · exact tuneIn_fits hplaced

theorem placeListener_fits {schedule : Schedule} {live : Option LivePosition}
    {saved : Option SavedBookmark} {placement : Placement}
    (hplaced : (placeListener schedule live saved).result = .ok placement) :
    Fits schedule.loadDay schedule.timing placement.tuned.landing := by
  have hplace : (place schedule saved).result.map (fun tuned => (⟨tuned, none⟩ : Placement)) =
      .ok placement → Fits schedule.loadDay schedule.timing placement.tuned.landing := by
    intro hmap
    cases hresult : (place schedule saved).result with
    | error error => simp [hresult, Except.map] at hmap
    | ok tuned =>
        obtain rfl : (⟨tuned, none⟩ : Placement) = placement := by
          simpa [hresult, Except.map] using hmap
        exact place_fits hresult
  unfold placeListener at hplaced
  dsimp only at hplaced
  split at hplaced
  · exact hplace hplaced
  next live =>
    split at hplaced
    · cases hplaced
    next landing hlive =>
      cases hplaced
      unfold liveLanding at hlive
      split at hlive
      · exact playedOn_fits hlive
      · cases hlive
    · exact hplace hplaced

/-! ## What is sent -/

section

variable {loadDay : DayLoader} {timing : StreamTiming}

/-- The re-read only ever replaces the cues of a song's file by cues it can be played with. -/
theorem reread_file {assigned : Assigned} {file : PlayableFile}
    (hfile : assigned.item.file = some file) (hplayable : file.isPlayable timing)
    (answer : Option (Option CuePoints)) :
    ∃ fresh, (reread timing assigned answer).item.file = some fresh ∧
      fresh.isPlayable timing ∧ fresh.fileId = file.fileId := by
  unfold reread
  rw [hfile]
  cases answer with
  | none => exact ⟨file, hfile, hplayable, rfl⟩
  | some cues =>
      dsimp only
      split
      · exact ⟨file, hfile, hplayable, rfl⟩
      · exact ⟨_, rfl, PlayableFile.withStoredCues_isPlayable hplayable cues, by simp⟩

@[simp] theorem reread_ref (assigned : Assigned) (answer : Option (Option CuePoints)) :
    (reread timing assigned answer).ref = assigned.ref := by
  unfold reread
  split
  · dsimp only
    split <;> rfl
  · rfl

@[simp] theorem reread_offsetMs (assigned : Assigned) (answer : Option (Option CuePoints)) :
    (reread timing assigned answer).offsetMs = assigned.offsetMs := by
  unfold reread
  split
  · dsimp only
    split <;> rfl
  · rfl

/-- A song from its top is sent whole, whatever cues the re-read found. -/
theorem reread_sentWhole (host : HostPaths) (seq : Nat) {ref : ItemRef} {item : ScheduleItem}
    (hplayable : item.isPlayable timing) (answer : Option (Option CuePoints)) :
    SentWhole host timing seq (reread timing ⟨ref, item, 0⟩ answer).item 0 := by
  obtain ⟨file, hfile, hplay⟩ := (item.isPlayable_iff timing).mp hplayable
  obtain ⟨fresh, hfresh, hfreshPlay, -⟩ :=
    reread_file (show (Assigned.mk ref item 0).item.file = some file from hfile) hplay answer
  obtain ⟨hspan, hmin⟩ := (fresh.isPlayable_iff timing).mp hfreshPlay
  exact sentWhole_of_tailFits seq hfresh hspan ((fresh.tailFits_iff 0 timing).mpr (by omega))

end

/-- Wherever placement lands, the item can be played from the offset; seq 0 is
sent whole, and so is every later song with whatever cues are then stored. -/
theorem placeListener_sentWhole {schedule : Schedule} {live : Option LivePosition}
    {saved : Option SavedBookmark} {placement : Placement} (host : HostPaths)
    (hplaced : (placeListener schedule live saved).result = .ok placement) :
    Fits schedule.loadDay schedule.timing placement.tuned.landing ∧
      (∀ seq item, itemAt schedule.loadDay placement.tuned.landing.ref = .ok item →
        SentWhole host schedule.timing seq item placement.tuned.landing.offsetMs) ∧
      ∀ count ref item,
        programme schedule.loadDay schedule.timing placement.tuned.landing.ref count = some ref →
        itemAt schedule.loadDay ref = .ok item →
        ∀ seq answer,
          SentWhole host schedule.timing seq (reread schedule.timing ⟨ref, item, 0⟩ answer).item
            0 := by
  obtain ⟨landed, file, hlanded, hfile, hplay, hspan, htail⟩ := placeListener_fits hplaced
  have hplayable : landed.isPlayable schedule.timing :=
    (landed.isPlayable_iff _).mpr ⟨file, hfile, hplay⟩
  refine ⟨placeListener_fits hplaced, fun seq item hitem => ?_,
    fun count ref item hcount hitem seq answer => ?_⟩
  · obtain rfl := Except.ok.inj (hlanded.symm.trans hitem)
    exact sentWhole_of_tailFits seq hfile hspan htail
  · obtain ⟨⟨handed, hhanded, hhandedPlayable⟩, -⟩ := programme_airs hlanded hplayable hcount
    obtain rfl := Except.ok.inj (hhanded.symm.trans hitem)
    exact reread_sentWhole host seq hhandedPlayable answer

/-- A listener who reconnects 70 s into the first of two songs. -/
theorem placeListener_sentWhole_reconnect :
    Fits twoSongs {} ⟨⟨1, 1⟩, 10000⟩ ∧
      SentWhole ⟨id, fun _ => true, id, id, fun folder name => folder ++ name⟩ {} 0
        ⟨2, 60000000, "Second", "Two", some ⟨12, "two.flac", some 60000, none⟩⟩ 10000 := by
  have hplaced : (placeListener ⟨twoSongs, 1, ⟨1, 1, 2, 0, by decide, by decide, by decide⟩,
        none, {}⟩ (some ⟨7, ⟨⟨1, 0⟩, 0⟩, 1, 70000000, 0⟩) none).result =
      .ok ⟨⟨⟨⟨1, 1⟩, 10000⟩, 0⟩, some 7⟩ := rfl
  have hsent := placeListener_sentWhole ⟨id, fun _ => true, id, id, fun folder name =>
    folder ++ name⟩ hplaced
  exact ⟨hsent.1, hsent.2.1 0 _ rfl⟩

end RetroStation.Streaming
