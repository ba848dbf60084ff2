import RetroStation.Streaming.Programme
import RetroStation.Streaming.SignOff
import RetroStation.Streaming.StoredLiners

/-! # Where a listener is during a liner

A liner keeps the song its stream walked to, and the call for the next seq walks again.
Both walks start from the song before the liner in a day that is read once, so they end on
the same play, and the place of a listener during the liner is that play's top.
-/

namespace RetroStation.Streaming

variable {config : StreamConfig} {loadDay : DayLoader}

@[simp] theorem reread_eventId (timing : StreamTiming) (assigned : Assigned)
    (answer : Option (Option CuePoints)) :
    (reread timing assigned answer).item.eventId = assigned.item.eventId := by
  unfold reread
  split
  · dsimp only
    split <;> rfl
  · rfl

/-- The song after a liner is the one the liner was stored with, whatever its re-read found. -/
theorem Lawful.song_walkedTo {cadence : Option LinerCadence} {slots : List Slot}
    (hslots : Lawful config loadDay cadence slots) {index : Nat} {liner : LinerSlot}
    {slot : Slot} {next : Assigned} (hliner : slots[index]? = some (.liner liner))
    (hnext : liner.nextSong = some next) (hslot : slots[index + 1]? = some slot) :
    ∃ answer, slot = .song (reread config.timing next answer) := by
  obtain ⟨⟨before, walked, -, -, hwalk, hsame⟩, -⟩ := hslots.liner_between hliner
  obtain rfl := Option.some.inj (hsame.symm.trans hnext)
  have hbefore := getLast?_take hliner
  have hfollow := hslots.mayFollow hslot
  generalize slots.take (index + 1) = taken at hbefore hfollow
  cases hfollow with
  | landing => simp at hbefore
  | @song _ previous found other hlast hwalked hfound answer =>
      obtain rfl := Option.some.inj (hlast.symm.trans hbefore)
      obtain rfl : liner.after = found := Option.some.inj hwalked
      rw [hwalk] at hfound
      exact ⟨answer, by rw [Except.ok.inj hfound]⟩
  | liner hlast =>
      rw [hlast] at hbefore
      cases hbefore
  | clip hlast =>
      rw [hlast] at hbefore
      cases hbefore

/-! ## What has started -/

/-- What has started was handed out, and a session that has landed has its clock. -/
structure PlaceOk (session : StreamSession) : Prop where
  committed : ∀ committed, session.committed = some committed →
    session.handedOut[committed.seq]? = some committed.slot
  clock : ∀ landing, session.landing = some landing →
    ∃ clockOffset, session.clockOffset = some clockOffset

/-- A call never changes where a session has landed, nor its clock. -/
theorem change_clock {session next : StreamSession} {seq : Nat}
    (hchange : Change config loadDay session seq next) :
    next.landing = session.landing ∧ next.clockOffset = session.clockOffset := by
  cases hchange <;> exact ⟨rfl, rfl⟩

theorem PlaceOk.of_eq {session next : StreamSession} (hplace : PlaceOk session)
    (hextends : Extends session next) (hcommitted : next.committed = session.committed)
    (hclock : next.landing = session.landing ∧ next.clockOffset = session.clockOffset) :
    PlaceOk next where
  committed committed hnext :=
    hextends.getElem? (hplace.committed committed (hcommitted.symm.trans hnext))
  clock landing hlanding := by
    rw [hclock.2]
    exact hplace.clock landing (hclock.1.symm.trans hlanding)

theorem placeOk_step {state next : SessionState} {action : SessionAction} {reply : Reply}
    (hstate : StateOk config loadDay state) (hplace : PlaceOk state.session)
    (hstep : (itemMachine config loadDay).step state action = some (next, reply)) :
    PlaceOk next.session := by
  have hextends := (stateOk_step hstate hstep).2
  cases action with
  | place schedule live saved =>
      simp only [itemMachine] at hstep
      split at hstep
      · cases hstep
      · cases hstep
        refine ⟨fun committed hcommitted => ?_, fun landing hlanding => ?_⟩
        · rw [(placed_reports _ _).1] at hcommitted
          exact hextends.getElem? (hplace.committed committed hcommitted)
        · unfold placedSession at hlanding ⊢
          split at hlanding
          · exact ⟨_, rfl⟩
          · exact hplace.clock landing hlanding
  | placeFails =>
      simp only [itemMachine] at hstep
      split at hstep
      · cases hstep
      · cases hstep
        exact ⟨hplace.committed, hplace.clock⟩
  | request id call =>
      simp only [itemMachine] at hstep
      split at hstep
      · cases hstep
      · have hnext : (state.after id call state.session
            (item config state.session state.isOpen call)).1 = next :=
          congrArg Prod.fst (Option.some.inj hstep)
        subst hnext
        exact hplace.of_eq hextends (by simp) (by simp)
  | resume id answer =>
      simp only [itemMachine] at hstep
      split at hstep
      · cases hstep
      next call pending hcall =>
        obtain ⟨⟨stored, outcome⟩, hresumed, hafter⟩ := Option.map_eq_some_iff.mp hstep
        have hchange := (resumed_ok hstate.session (hstate.inFlight id call pending hcall).2
          hresumed).change
        have hnext : (state.after id call stored outcome).1 = next := congrArg Prod.fst hafter
        subst hnext
        exact hplace.of_eq hextends (by simpa using (change_reports hchange).1)
          (by simpa using change_clock hchange)
  -- What is committed is a slot the session handed out, and it keeps every slot.
  | started call elapsedNow =>
      have hnext : { state with
          session := (started config state.session state.isOpen call elapsedNow).1 } = next :=
        congrArg Prod.fst (Option.some.inj hstep)
      subst hnext
      rcases @started_cases config state.session state.isOpen call elapsedNow with
        heq | ⟨slot, nowPlaying, hslot, -, heq⟩
      · exact hplace.of_eq hextends (by simp [heq]) (by simp [heq])
      · rw [hstate.session.consecutive.get?] at hslot
        simp only [heq]
        refine ⟨fun committed hcommitted => ?_, hplace.clock⟩
        obtain rfl := Option.some.inj hcommitted
        exact hslot
  | failed call =>
      have hnext : { state with session := (failed state.session state.isOpen call).1 } = next :=
        congrArg Prod.fst (Option.some.inj hstep)
      subst hnext
      rcases failed_cases state.session state.isOpen call with heq | ⟨clip, -, heq⟩
      · exact hplace.of_eq hextends (by simp [heq]) (by simp [heq])
      · exact hplace.of_eq hextends (by simp [heq]) (by simp [heq])
  | close =>
      cases hstep
      exact ⟨hplace.committed, hplace.clock⟩

section

variable {openedAt : Int} {bookmarkKey : Option BookmarkKey} {token : String}
  {stationId : Option Uuid} {linerCadence : Option LinerCadence}

theorem placeOk_run {trace : List (SessionAction × Reply)} {state : SessionState}
    (hrun : (itemMachine config loadDay).Run
      (admitted openedAt bookmarkKey token stationId linerCadence) trace state) :
    PlaceOk state.session := by
  induction hrun with
  | nil => exact ⟨by simp [admitted], by simp [admitted]⟩
  | snoc hrun hstep ih => exact placeOk_step (stateOk_run hrun) ih hstep

/-- A liner is never the last to play: a session that plays one is not finished. -/
theorem not_finished_of_liner {session : StreamSession}
    (hsession : SessionOk config loadDay session) {trace : List (SessionAction × Reply)}
    (hreports : ReportsOk trace session) {committed : Committed} {liner : LinerSlot}
    (hcommitted : session.committed = some committed)
    (hliner : session.handedOut[committed.seq]? = some (.liner liner)) :
    scheduleFinished session = false := by
  cases hend : session.endSeq with
  | none => simp [scheduleFinished, hend]
  | some endSeq =>
      have hplaced := linerPlaced hsession hliner
      obtain ⟨last, rfl, hlast⟩ := hsession.endWalk endSeq hend
      have hsize := hsession.ended _ hend
      obtain ⟨hlt, -⟩ := List.getElem?_eq_some_iff.mp hliner
      rw [StreamSession.length_handedOut, ← hsize] at hlt
      have hbefore : committed.seq ≠ last := fun heq => hplaced.goesOn (by rw [hend, heq])
      have hfailed : session.finalFailed → committed.seq + 1 ≠ last := by
        intro hfailed heq
        obtain ⟨seq, clip, hclip⟩ := hreports.clip hfailed
        have hclipEnd := hsession.signedOff seq clip hclip
        rw [hend] at hclipEnd
        obtain rfl : last = seq := by simpa using hclipEnd
        obtain ⟨song, hsong⟩ := hplaced.before _ (heq ▸ hclip)
        cases hsong
      simp only [scheduleFinished, hend, hcommitted, decide_eq_false_iff_not, ge_iff_le]
      cases hfinal : session.finalFailed with
      | false =>
          simp only [Bool.false_eq_true, if_false]
          omega
      | true =>
          have hnotLast := hfailed hfinal
          simp only [if_true]
          omega

/-- Liners are timeless. While one is the last item to have started, a reconnect lands and
a bookmark points at the top of one song, however long it has played, and that song is what
the next seq is handed out, in whatever later state it is. -/
theorem liner_timeless {trace : List (SessionAction × Reply)} {state : SessionState}
    (hrun : (itemMachine config loadDay).Run
      (admitted openedAt bookmarkKey token stationId linerCadence) trace state)
    {committed : Committed} {liner : LinerSlot}
    (hcommitted : state.session.committed = some committed)
    (hliner : committed.slot = .liner liner) :
    ∃ (next : Assigned) (clockOffset : Int),
      (∀ sessionId elapsedNow, livePosition sessionId state.session elapsedNow =
        some ⟨sessionId, ⟨next.ref, 0⟩, next.item.eventId, 0, clockOffset⟩) ∧
      (∀ wallNow elapsedNow, leftAt loadDay state.session true wallNow elapsedNow =
        .ok (some ⟨⟨⟨next.ref, 0⟩, next.item.loggedAt, wallNow, clockOffset⟩, next.item.eventId,
          some elapsedNow⟩)) ∧
      ∀ more later, (itemMachine config loadDay).Run state more later →
        ∀ slot, later.session.handedOut[committed.seq + 1]? = some slot →
          ∃ song : Assigned, slot = .song song ∧ song.ref = next.ref ∧
            song.item.eventId = next.item.eventId ∧ song.offsetMs = 0 := by
  have hstate := stateOk_run hrun
  have hplace := placeOk_run hrun
  have hslot : state.session.handedOut[committed.seq]? = some (.liner liner) :=
    hliner ▸ hplace.committed committed hcommitted
  obtain ⟨⟨before, next, -, -, hwalk, hnext⟩, -⟩ := hstate.session.lawful.liner_between hslot
  -- The song that a liner leads to is handed out at its top.
  have htop : next.offsetMs = 0 := (following_eq_ok.mp hwalk).2.2
  obtain ⟨first, hfirst⟩ : ∃ first, state.session.handedOut[0]? = some first :=
    ⟨_, List.getElem?_eq_getElem (by
      have hlt := (List.getElem?_eq_some_iff.mp hslot).1
      omega)⟩
  obtain ⟨landing, item, hlanding, -⟩ := hstate.session.first first hfirst
  obtain ⟨clockOffset, hclock⟩ := hplace.clock landing hlanding
  have hfinished := not_finished_of_liner hstate.session (reportsOk_run hrun) hcommitted hslot
  have hheard : ∀ elapsedNow, songHeard committed elapsedNow = some (next, 0) := by
    intro elapsedNow
    simp only [songHeard, hliner, hnext]
  refine ⟨next, clockOffset, ?_, ?_, ?_⟩
  · intro sessionId elapsedNow
    simp [livePosition, hcommitted, hclock, hfinished, hheard, htop]
  · intro wallNow elapsedNow
    simp [leftAt, hclock, hlanding, hcommitted, hheard, htop, Landing.advancedBy, toMs, pure,
      Except.pure]
  · intro more later hlater slot hlaterSlot
    have hextends := extends_run hstate hlater
    have hlawful := (hlater.invariant stateOk_preserved hstate).session.lawful
    obtain ⟨answer, rfl⟩ := hlawful.song_walkedTo (hextends.getElem? hslot) hnext hlaterSlot
    exact ⟨_, rfl, reread_ref .., reread_eventId .., by rw [reread_offsetMs, htop]⟩

end

/-- The jingle has been playing for a day, and the second song is still at its top. -/
theorem liner_timeless_jingle : ∃ (state later : SessionState) (song : Assigned)
    (clockOffset : Int),
    livePosition 7 state.session (60000000 + MICROS_PER_DAY) =
        some ⟨7, ⟨song.ref, 0⟩, song.item.eventId, 0, clockOffset⟩ ∧
      later.session.handedOut[2]? = some (.song song) := by
  obtain ⟨trace, state, hrun, -, -, ⟨liner, hcommitted, -⟩, more, later, slot, hlater, hslot⟩ :=
    linerSession_run
  obtain ⟨next, clockOffset, hlive, -, hgoesOn⟩ := liner_timeless hrun hcommitted rfl
  obtain ⟨song, rfl, href, hevent, -⟩ := hgoesOn more later hlater slot hslot
  exact ⟨state, later, song, clockOffset, by rw [hlive, href, hevent], hslot⟩

end RetroStation.Streaming
