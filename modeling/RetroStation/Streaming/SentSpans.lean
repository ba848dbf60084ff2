import RetroStation.Streaming.StoredLiners

/-! # How long an item plays as sent

The freeze deadline is measured in milliseconds and the engine is sent seconds, each
worked out on its own. Read back from the annotations they are the same span.
-/

namespace RetroStation.Streaming

/-! ## Reading annotations back -/

/-- Seconds and three digits, in milliseconds. -/
def parseSeconds (text : String) : Option Nat :=
  let whole := text.toList.takeWhile Char.isDigit
  match text.toList.dropWhile Char.isDigit with
  | '.' :: digits =>
    if whole ≠ [] ∧ digits.length = 3 ∧ digits.all Char.isDigit then
      some (Nat.ofDigitChars 10 whole 0 * 1000 + Nat.ofDigitChars 10 digits 0)
    else none
  | _ => none

theorem isDigit_toDigits {number : Nat} {digit : Char} (hdigit : digit ∈ Nat.toDigits 10 number) :
    digit.isDigit :=
  Nat.isDigit_of_mem_toDigits (by decide) (by decide) hdigit

theorem millis_toList (ms : Nat) : (millis ms).toList =
    List.replicate (3 - (Nat.toDigits 10 ms).length) '0' ++ Nat.toDigits 10 ms := by
  simp [millis, Nat.toString_eq_repr, Nat.toList_repr, ← String.length_toList]

/-- What is sent reads back as it was, to the millisecond. -/
theorem parseSeconds_seconds (ms : Nat) : parseSeconds (seconds ms) = some ms := by
  have hwhole : ∀ digit ∈ Nat.toDigits 10 (ms / 1000), digit.isDigit := fun _ => isDigit_toDigits
  have hlength : (Nat.toDigits 10 (ms % 1000)).length ≤ 3 :=
    (Nat.length_toDigits_le_iff (by decide) (by decide)).mpr (Nat.mod_lt _ (by decide))
  have hdigits : ((millis (ms % 1000)).toList).all Char.isDigit := by
    rw [millis_toList, List.all_append, Bool.and_eq_true]
    exact ⟨by simp [List.all_replicate], List.all_eq_true.mpr fun _ => isDigit_toDigits⟩
  have hsize : (millis (ms % 1000)).toList.length = 3 := by
    rw [millis_toList, List.length_append, List.length_replicate]
    omega
  have htext : (seconds ms).toList =
      Nat.toDigits 10 (ms / 1000) ++ '.' :: (millis (ms % 1000)).toList := by
    simp [seconds, Nat.toString_eq_repr, Nat.toList_repr]
  have htake : (seconds ms).toList.takeWhile Char.isDigit = Nat.toDigits 10 (ms / 1000) := by
    rw [htext, List.takeWhile_append_of_pos hwhole]
    simp
  have hdrop : (seconds ms).toList.dropWhile Char.isDigit = '.' :: (millis (ms % 1000)).toList := by
    rw [htext, List.dropWhile_append_of_pos hwhole]
    simp
  unfold parseSeconds
  rw [htake, hdrop]
  change (if Nat.toDigits 10 (ms / 1000) ≠ [] ∧ _ ∧ _ then some _ else none) = some ms
  rw [if_pos ⟨Nat.toDigits_ne_nil, hsize, hdigits⟩, millis_toList, Nat.ofDigitChars_append,
    Nat.ofDigitChars_replicate_zero, Nat.mul_zero, Nat.ofDigitChars_ten_toDigits,
    Nat.ofDigitChars_ten_toDigits]
  rw [Nat.mul_comm, Nat.div_add_mod]

/-! ## Spans -/

namespace ItemPayload

def annotation (sent : ItemPayload) (key : String) : Option String := sent.annotations.lookup key

/-- How long the engine plays what it is sent: from its cue-in to its cue-out. -/
def spanMs (sent : ItemPayload) : Option Int := do
  let cueIn ← parseSeconds (← sent.annotation "liq_cue_in")
  let cueOut ← parseSeconds (← sent.annotation "liq_cue_out")
  pure (cueOut - cueIn)

end ItemPayload

/-- How long the liner plays, from its cue-in to its cue-out. -/
def LinerSlot.spanMs (slot : LinerSlot) : Int := slot.liner.cues.cueOutMs - slot.liner.cues.cueInMs

/-- When what is playing started, and how long it had left then. -/
structure PlayingSpan where
  startedAt : Int
  remainingMs : Int
  deriving DecidableEq, Repr

/-- What is playing now and how long it has left, for the freeze deadline. -/
def playingSpan (committed : Option Committed) (timing : StreamTiming) : Option PlayingSpan :=
  committed.map fun committed =>
    match committed.slot with
    | .clip clip => ⟨committed.startedAt, clip.spanMs⟩
    | .liner slot => ⟨committed.startedAt, slot.spanMs⟩
    | .song assigned => ⟨committed.startedAt, sentSpanMs timing assigned⟩

section

variable {host : HostPaths} {timing : StreamTiming} {seq : Nat}

theorem itemPayload_spanMs {item : ScheduleItem} {offsetMs : Nat} {sent : ItemPayload}
    (hsent : itemPayload host timing seq item offsetMs = .ok sent) :
    ∃ file, item.file = some file ∧ sent.spanMs = some (match file.cues with
      | none => (file.durationMs.getD 0 : Int) - offsetMs
      | some cues => (cues.cueOutMs : Int) - (cues.cueInMs + offsetMs)) := by
  unfold itemPayload at hsent
  split at hsent
  · cases hsent
  next file hfile =>
    refine ⟨file, hfile, ?_⟩
    cases hcues : file.cues with
    | none =>
        simp only [hcues] at hsent
        split at hsent
        · cases hsent
        · cases hsent
          simp [ItemPayload.spanMs, ItemPayload.annotation, List.lookup_cons, parseSeconds_seconds]
    | some cues =>
        simp only [hcues] at hsent
        split at hsent
        · cases hsent
        · cases hsent
          simp [ItemPayload.spanMs, ItemPayload.annotation, List.lookup_cons, parseSeconds_seconds]

theorem landingPayload_spanMs {assigned : Assigned} {sent : ItemPayload}
    (hsent : landingPayload host timing seq assigned.item assigned.offsetMs = .ok sent) :
    sent.spanMs = some (sentSpanMs timing assigned) := by
  unfold landingPayload at hsent
  unfold sentSpanMs
  cases hfile : assigned.item.file with
  | none =>
      simp only [hfile] at hsent
      obtain ⟨file, hother, -⟩ := itemPayload_spanMs hsent
      rw [hfile] at hother
      cases hother
  | some file =>
      simp only [hfile] at hsent ⊢
      cases hcues : file.cues with
      | none =>
          simp only [hcues] at hsent
          obtain ⟨other, hother, hspan⟩ := itemPayload_spanMs hsent
          obtain rfl := Option.some.inj (hfile.symm.trans hother)
          rw [hcues] at hspan
          rw [hspan]
          simp [PlayableFile.spanMs, hcues]
      | some cues =>
          simp only [hcues] at hsent
          have hafter := cues.cueIn_lt_cueOut
          by_cases hkept : (file.cuesToPlay assigned.offsetMs timing).isSome
          · rw [if_pos hkept] at hsent
            obtain ⟨other, hother, hspan⟩ := itemPayload_spanMs hsent
            obtain rfl := Option.some.inj (hfile.symm.trans hother)
            have hsome : (file.cuesToPlay assigned.offsetMs timing).isNone ≠ true := by
              rw [ne_eq, Option.isNone_iff_eq_none]
              exact Option.ne_none_iff_isSome.mpr hkept
            rw [hcues] at hspan
            simp only [if_neg hsome, hspan, PlayableFile.spanMs, hcues, Option.some.injEq]
            omega
          · rw [if_neg hkept] at hsent
            obtain ⟨other, hother, hspan⟩ := itemPayload_spanMs hsent
            obtain rfl := Option.some.inj hother
            have hnone : (file.cuesToPlay assigned.offsetMs timing).isNone = true := by
              simpa using hkept
            simp only [hspan, if_pos hnone, Option.some.injEq]
            omega

/-- The engine plays what it is sent for as long as the watchdog expects. -/
theorem payload_spanMs {slot : Slot} {sent : ItemPayload}
    (hsent : payload host timing seq slot = .ok sent) (startedAt : Int) :
    (playingSpan (some ⟨seq, slot, startedAt⟩) timing) =
      sent.spanMs.map fun spanMs => ⟨startedAt, spanMs⟩ := by
  cases slot with
  | song assigned =>
      rw [landingPayload_spanMs hsent]
      rfl
  | liner slot =>
      cases hsent
      simp [playingSpan, LinerSlot.spanMs, linerPayload, ItemPayload.spanMs,
        ItemPayload.annotation, List.lookup_cons, parseSeconds_seconds]
  | clip clip =>
      cases hsent
      simp [playingSpan, finalPayload, ItemPayload.spanMs, ItemPayload.annotation, List.lookup_cons,
        parseSeconds_seconds]

end

/-! ## A session's items -/

namespace Lawful

variable {config : StreamConfig} {loadDay : DayLoader} {cadence : Option LinerCadence}
  {slots : List Slot}

theorem airs (hslots : Lawful config loadDay cadence slots) {index : Nat} {song : Assigned}
    (hsong : slots[index]? = some (.song song)) : Airs config loadDay song := by
  have hmem : song ∈ songsOf slots :=
    List.mem_filterMap.mpr ⟨_, List.mem_of_getElem? hsong, rfl⟩
  obtain ⟨place, hplace⟩ := List.mem_iff_getElem?.mp hmem
  obtain ⟨first, hfirst⟩ : ∃ first, (songsOf slots)[0]? = some first :=
    ⟨_, List.getElem?_eq_getElem (List.length_pos_of_mem hmem)⟩
  exact (hslots.programme_songs first hfirst place song hplace).2

/-- Every song that was handed out can be sent. -/
theorem song_sent (hslots : Lawful config loadDay cadence slots) {index : Nat} {song : Assigned}
    (hsong : slots[index]? = some (.song song)) (seq : Nat) :
    ∃ sent, landingPayload config.host config.timing seq song.item song.offsetMs = .ok sent := by
  have hfollow := hslots.mayFollow hsong
  generalize slots.take index = taken at hfollow
  generalize hslot : Slot.song song = slot at hfollow
  cases hfollow with
  | @landing landing item hitem hfits =>
      obtain rfl := Slot.song.inj hslot
      obtain ⟨read, file, hread, hfile, -, hspan, htail⟩ := hfits
      obtain rfl := Except.ok.inj (hread.symm.trans hitem)
      obtain ⟨-, sent, hsent, -⟩ :=
        @sentWhole_of_tailFits config.host _ seq _ _ _ hfile hspan htail
      exact ⟨sent, hsent⟩
  | @song taken previous walked next hlast hwalked hnext answer =>
      obtain rfl := Slot.song.inj hslot
      obtain ⟨-, hitem, hoffset⟩ := following_eq_ok.mp hnext
      obtain ⟨item, hread, hplayable, -⟩ := hslots.airs hsong
      rw [reread_ref] at hread
      obtain rfl := Except.ok.inj (hitem.symm.trans hread)
      obtain ⟨ref, item, offsetMs⟩ := next
      obtain rfl : offsetMs = 0 := hoffset
      rw [reread_offsetMs]
      obtain ⟨-, sent, hsent, -⟩ := @reread_sentWhole config.timing config.host seq ref item
        hplayable answer
      exact ⟨sent, hsent⟩
  | liner => cases hslot
  | clip => cases hslot

end Lawful

/-- The watchdog measures what was sent. Whatever an item is and wherever it starts, its
span for the freeze deadline is the one its annotations read back to; and in every session
the span kept with a liner is that of the song before it as it was sent. -/
theorem freeze_measures_sent (config : StreamConfig) (loadDay : DayLoader) :
    (∀ seq slot sent startedAt, payload config.host config.timing seq slot = .ok sent →
      ∃ spanMs, sent.spanMs = some spanMs ∧
        playingSpan (some ⟨seq, slot, startedAt⟩) config.timing = some ⟨startedAt, spanMs⟩) ∧
    ∀ openedAt bookmarkKey token stationId linerCadence trace state,
      (itemMachine config loadDay).Run
        (admitted openedAt bookmarkKey token stationId linerCadence) trace state →
      ∀ (index : Nat) (liner : LinerSlot),
        state.session.handedOut[index]? = some (.liner liner) →
        ∃ before sent, index = before + 1 ∧
          state.session.handedOut[before]? = some (.song liner.after) ∧
          payload config.host config.timing before (.song liner.after) = .ok sent ∧
          sent.spanMs = some liner.afterSpanMs := by
  constructor
  · intro seq slot sent startedAt hsent
    have hplaying := payload_spanMs hsent startedAt
    cases hspan : sent.spanMs with
    | none => simp [hspan, playingSpan] at hplaying
    | some spanMs => exact ⟨spanMs, rfl, by rw [hplaying, hspan]; rfl⟩
  · intro openedAt bookmarkKey token stationId linerCadence trace state hrun index liner hliner
    have hlawful := (stateOk_run hrun).session.lawful
    obtain ⟨⟨before, next, hbefore, hsong, -, -⟩, -⟩ := hlawful.liner_between hliner
    obtain ⟨sent, hsent⟩ := hlawful.song_sent hsong before
    obtain ⟨reads, hrotates, -, -⟩ := run_rotates hrun
    have hspan := hrotates.span liner (mem_linersOf.mpr (List.mem_of_getElem? hliner))
    exact ⟨before, sent, hbefore, hsong, hsent, by rw [landingPayload_spanMs hsent, hspan]⟩

/-- A liner's own span, and that of the minute-long song before it. -/
theorem freeze_measures_sent_jingle :
    (∃ spanMs, (linerPayload linerConfig.host 1
        ⟨jingle, "liners/5/jingle.wav", ⟨⟨1, 0⟩, ⟨1, 0, "First", "One", none⟩, 0⟩,
          0, none⟩).spanMs =
      some spanMs ∧ spanMs = 5000) ∧
    ∃ state : SessionState, ∃ (liner : LinerSlot) (sent : ItemPayload),
      state.session.handedOut[1]? = some (.liner liner) ∧
        sent.spanMs = some liner.afterSpanMs := by
  constructor
  · obtain ⟨spanMs, hspan, hplaying⟩ := (freeze_measures_sent linerConfig twoSongs).1 1
      (.liner ⟨jingle, "liners/5/jingle.wav", ⟨⟨1, 0⟩, ⟨1, 0, "First", "One", none⟩, 0⟩, 0, none⟩)
      _ 0 rfl
    refine ⟨spanMs, hspan, ?_⟩
    cases hplaying
    rfl
  · obtain ⟨trace, state, hrun, -, -, ⟨liner, -, hliner⟩, -⟩ := linerSession_run
    obtain ⟨-, sent, -, -, -, hspan⟩ := (freeze_measures_sent linerConfig twoSongs).2 0 none "token"
      (some 5) (some ⟨1, by decide⟩) trace state hrun 1 liner hliner
    exact ⟨state, liner, sent, hliner, hspan⟩

end RetroStation.Streaming
