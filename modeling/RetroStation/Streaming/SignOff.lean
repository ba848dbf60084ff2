import RetroStation.Streaming.ItemContract

/-! # Signing off

A session has signed off once its schedule has ended and its last item that can
play has started. Of the items that failed after that one, only the final clip
is remembered, so a failed song leaves the session unfinished.
-/

namespace RetroStation.Streaming

variable {config : StreamConfig} {loadDay : DayLoader}

/-- The engine has reported the item at `seq` failed. -/
def ReportedFailed (trace : List (SessionAction × Reply)) (seq : Nat) : Prop :=
  ∃ call, (SessionAction.failed call, Reply.report call (.ok ())) ∈ trace ∧ call.seq = seq

/-- The session is finished, so that its close tells `ended` and drops the
bookmark, and no reconnect resumes from it. -/
structure SignsOff (loadDay : DayLoader) (session : StreamSession) : Prop where
  finished : scheduleFinished session
  told : ∀ key, session.bookmarkKey = some key → ∀ hasEngine wallNow elapsedNow bookmarks,
    closing loadDay session hasEngine wallNow elapsedNow bookmarks =
      .ok (some .ended, bookmarks.erase key)
  noPosition : ∀ sessionId elapsedNow, livePosition sessionId session elapsedNow = none

/-- Nothing but the final clip was handed out after the committed item. -/
def OnlyClipLeft (session : StreamSession) : Prop :=
  ∃ committed, session.committed = some committed ∧
    ∀ seq slot, committed.seq < seq → session.assigned.get? seq = some slot →
      ∃ clip, slot = Slot.clip clip

theorem signsOff_of_finished {session : StreamSession} (hfinished : scheduleFinished session) :
    SignsOff loadDay session where
  finished := hfinished
  told key hkey hasEngine wallNow elapsedNow bookmarks := by
    simp [closing, hkey, hfinished, pure, Except.pure]
  noPosition sessionId elapsedNow := by
    unfold livePosition
    split
    · simp [hfinished]
    · rfl

/-! ## Reports only move forward -/

/-- What every step keeps of the reports. -/
structure ReportsKept (session next : StreamSession) : Prop where
  committed : ∀ committed, session.committed = some committed →
    ∃ later, next.committed = some later ∧ committed.seq ≤ later.seq
  finalFailed : session.finalFailed → next.finalFailed

namespace ReportsKept

theorem refl (session : StreamSession) : ReportsKept session session :=
  ⟨fun committed hcommitted => ⟨committed, hcommitted, le_rfl⟩, fun hfailed => hfailed⟩

theorem trans {session next last : StreamSession} (hfirst : ReportsKept session next)
    (hsecond : ReportsKept next last) : ReportsKept session last where
  committed committed hcommitted := by
    obtain ⟨middle, hmiddle, hle⟩ := hfirst.committed committed hcommitted
    obtain ⟨later, hlater, hle'⟩ := hsecond.committed middle hmiddle
    exact ⟨later, hlater, hle.trans hle'⟩
  finalFailed hfailed := hsecond.finalFailed (hfirst.finalFailed hfailed)

theorem of_eq {session next : StreamSession} (hcommitted : next.committed = session.committed)
    (hfailed : next.finalFailed = session.finalFailed) : ReportsKept session next :=
  ⟨fun committed heq => ⟨committed, hcommitted.trans heq, le_rfl⟩, fun heq => hfailed.trans heq⟩

end ReportsKept

/-- A call never changes what has been reported. -/
theorem change_reports {session next : StreamSession} {seq : Nat}
    (hchange : Change config loadDay session seq next) :
    next.committed = session.committed ∧ next.finalFailed = session.finalFailed := by
  cases hchange <;> exact ⟨rfl, rfl⟩

theorem placed_reports (session : StreamSession) (result : Except StreamError Placement) :
    (placedSession session result).committed = session.committed ∧
      (placedSession session result).finalFailed = session.finalFailed := by
  cases result <;> exact ⟨rfl, rfl⟩

/-- Reports are the only steps that change what has been reported: `started`
moves the committed item forward, `failed` remembers a clip. -/
theorem reports_step {state next : SessionState} {action : SessionAction} {reply : Reply}
    (hstate : StateOk config loadDay state)
    (hstep : (itemMachine config loadDay).step state action = some (next, reply)) :
    ReportsKept state.session next.session ∧
      (next.session.finalFailed → state.session.finalFailed ∨
        ∃ (seq : Nat) (clip : FinalClip), state.session.handedOut[seq]? =
          some (Slot.clip clip)) := by
  have hsame : next.session.committed = state.session.committed ∧
      next.session.finalFailed = state.session.finalFailed →
      ReportsKept state.session next.session ∧
        (next.session.finalFailed → state.session.finalFailed ∨
          ∃ (seq : Nat) (clip : FinalClip), state.session.handedOut[seq]? =
            some (Slot.clip clip)) :=
    fun heq => ⟨.of_eq heq.1 heq.2, fun hfailed => .inl (heq.2 ▸ hfailed)⟩
  cases action with
  | place schedule live saved =>
      simp only [itemMachine] at hstep
      split at hstep
      · cases hstep
      · cases hstep
        exact hsame (placed_reports _ _)
  | placeFails =>
      simp only [itemMachine] at hstep
      split at hstep
      · cases hstep
      · cases hstep
        exact hsame ⟨rfl, rfl⟩
  | request id call =>
      simp only [itemMachine] at hstep
      split at hstep
      · cases hstep
      · have hnext : (state.after id call state.session
            (item config state.session state.isOpen call)).1 = next :=
          congrArg Prod.fst (Option.some.inj hstep)
        subst hnext
        exact hsame (by simp)
  -- A call that goes on may store a slot or the end, never a report.
  | resume id answer =>
      simp only [itemMachine] at hstep
      split at hstep
      · cases hstep
      next call pending hcall =>
        obtain ⟨⟨stored, outcome⟩, hresumed, hafter⟩ := Option.map_eq_some_iff.mp hstep
        have hresumes := resumed_ok hstate.session (hstate.inFlight id call pending hcall).2
          hresumed
        have hnext : (state.after id call stored outcome).1 = next := congrArg Prod.fst hafter
        subst hnext
        exact hsame (by simpa using change_reports hresumes.change)
  | started call elapsedNow =>
      have hnext : { state with
          session := (started config state.session state.isOpen call elapsedNow).1 } = next :=
        congrArg Prod.fst (Option.some.inj hstep)
      subst hnext
      rcases @started_cases config state.session state.isOpen call elapsedNow with
        heq | ⟨slot, nowPlaying, -, hahead, heq⟩
      · exact hsame (by simp [heq])
      · refine ⟨⟨fun committed hcommitted => ⟨_, by rw [heq], ?_⟩, ?_⟩, ?_⟩
        · exact (hahead committed hcommitted).le
        · simp [heq]
        · simp only [heq]
          exact .inl
  | failed call =>
      have hnext : { state with session := (failed state.session state.isOpen call).1 } = next :=
        congrArg Prod.fst (Option.some.inj hstep)
      subst hnext
      rcases failed_cases state.session state.isOpen call with heq | ⟨clip, hclip, heq⟩
      · exact hsame (by simp [heq])
      · refine ⟨⟨fun committed hcommitted => ⟨committed, by simpa [heq] using hcommitted,
          le_rfl⟩, by simp [heq]⟩, fun _ => .inr ⟨call.seq, clip, ?_⟩⟩
        rwa [← hstate.session.consecutive.get?]
  | close =>
      cases hstep
      exact hsame ⟨rfl, rfl⟩

/-- An accepted `failed` report is about a slot, and a clip's is remembered. -/
theorem failed_accepted {state next : SessionState} {call : ItemCall}
    (hstate : StateOk config loadDay state)
    (hstep : (itemMachine config loadDay).step state (.failed call) =
      some (next, .report call (.ok ()))) :
    ∃ slot, next.session.handedOut[call.seq]? = some slot ∧
      ∀ clip, slot = Slot.clip clip → next.session.finalFailed := by
  simp only [itemMachine, failed] at hstep
  split at hstep
  · cases hstep
  · cases hstep
  next slot _ hreported =>
    rw [reported_eq_ok, hstate.session.consecutive.get?] at hreported
    split at hstep
    next clip =>
      cases hstep
      exact ⟨.clip clip, hreported, fun _ _ => rfl⟩
    next hclip =>
      cases hstep
      exact ⟨slot, hreported, fun clip heq => absurd heq (hclip clip)⟩

/-! ## Every run -/

/-- What the reports so far mean for the session. -/
structure ReportsOk (trace : List (SessionAction × Reply)) (session : StreamSession) : Prop where
  clip : session.finalFailed →
    ∃ (seq : Nat) (clip : FinalClip), session.handedOut[seq]? = some (Slot.clip clip)
  reported : ∀ seq, ReportedFailed trace seq → ∃ slot, session.handedOut[seq]? = some slot ∧
    ∀ clip, slot = Slot.clip clip → session.finalFailed

section

variable {openedAt : Int} {bookmarkKey : Option BookmarkKey} {token : String}
  {stationId : Option Uuid} {linerCadence : Option LinerCadence}

theorem reportsOk_run {trace : List (SessionAction × Reply)} {state : SessionState}
    (hrun : (itemMachine config loadDay).Run
      (admitted openedAt bookmarkKey token stationId linerCadence) trace state) :
    ReportsOk trace state.session := by
  induction hrun with
  | nil => exact ⟨by simp [admitted], by simp [ReportedFailed]⟩
  | @snoc trace state next action reply hrun hstep ih =>
      have hstate := stateOk_run hrun
      have hextends := (stateOk_step hstate hstep).2
      obtain ⟨hkept, hclip⟩ := reports_step hstate hstep
      constructor
      case clip =>
        intro hfailed
        rcases hclip hfailed with hearlier | ⟨seq, clip, hslot⟩
        · obtain ⟨seq, clip, hslot⟩ := ih.clip hearlier
          exact ⟨seq, clip, hextends.getElem? hslot⟩
        · exact ⟨seq, clip, hextends.getElem? hslot⟩
      case reported =>
        rintro seq ⟨call, hreport, rfl⟩
        rcases List.mem_append.mp hreport with hearlier | hnow
        · obtain ⟨slot, hslot, hremembered⟩ := ih.reported call.seq ⟨call, hearlier, rfl⟩
          exact ⟨slot, hextends.getElem? hslot,
            fun clip heq => hkept.finalFailed (hremembered clip heq)⟩
        · simp only [List.mem_singleton, Prod.mk.injEq] at hnow
          obtain ⟨rfl, rfl⟩ := hnow
          exact failed_accepted hstate hstep

theorem reportsKept_run {state later : SessionState} {more : List (SessionAction × Reply)}
    (hstate : StateOk config loadDay state)
    (hrun : (itemMachine config loadDay).Run state more later) :
    ReportsKept state.session later.session :=
  @Transition.Machine.Run.relates _ _ _ _ _ _ _ (StateOk config loadDay)
    (fun first second => ReportsKept first.session second.session) stateOk_preserved
    (fun state => .refl state.session) (fun hfirst hsecond => hfirst.trans hsecond)
    (fun _ _ _ _ hstate hstep => (reports_step hstate hstep).1) hstate hrun

/-- A finished session stays finished. -/
theorem finished_kept {session next : StreamSession} (hextends : Extends session next)
    (hkept : ReportsKept session next) (hfinished : scheduleFinished session) :
    scheduleFinished next := by
  unfold scheduleFinished at hfinished
  split at hfinished
  next endSeq committed hend hcommitted =>
    obtain ⟨later, hlater, hle⟩ := hkept.committed committed hcommitted
    have hnextEnd := (hextends.ended endSeq hend).1
    have hfailed := hkept.finalFailed
    simp only [decide_eq_true_eq] at hfinished
    simp only [scheduleFinished, hnextEnd, hlater, decide_eq_true_eq]
    cases hbefore : session.finalFailed <;> cases hafter : next.finalFailed <;>
      simp_all <;> omega
  · cases hfinished

/-- With every later item failed, a session at its end is finished exactly when
only the final clip was left. -/
theorem finished_iff {session : StreamSession} {trace : List (SessionAction × Reply)}
    {endSeq : Nat} (hsession : SessionOk config loadDay session)
    (hreports : ReportsOk trace session) (hend : session.endSeq = some endSeq)
    (hfailed : ∀ seq slot, session.assigned.get? seq = some slot →
      (∀ committed, session.committed = some committed → committed.seq < seq) →
      ReportedFailed trace seq) :
    scheduleFinished session ↔ OnlyClipLeft session := by
  have hsize := hsession.ended endSeq hend
  have hslots : ∀ seq, session.assigned.get? seq = session.handedOut[seq]? :=
    hsession.consecutive.get?
  unfold OnlyClipLeft
  cases hcommitted : session.committed with
  | none => simp [scheduleFinished, hend, hcommitted]
  | some committed =>
      simp only [scheduleFinished, hend, hcommitted, decide_eq_true_eq, Option.some.injEq,
        exists_eq_left', ge_iff_le]
      constructor
      · intro hfinished seq slot hlater hslot
        rw [hslots] at hslot
        obtain ⟨hlt, -⟩ := List.getElem?_eq_some_iff.mp hslot
        rw [StreamSession.length_handedOut] at hlt
        cases hclipFailed : session.finalFailed with
        | false =>
            rw [hclipFailed] at hfinished
            simp only [Bool.false_eq_true, if_false] at hfinished
            omega
        | true =>
            obtain ⟨index, clip, hclip⟩ := hreports.clip hclipFailed
            have hsigned := hsession.signedOff index clip hclip
            rw [hend, Option.some.injEq] at hsigned
            rw [hclipFailed] at hfinished
            simp only [if_true] at hfinished
            obtain rfl : seq = index := by omega
            exact ⟨clip, by rw [hclip] at hslot; exact (Option.some.inj hslot).symm⟩
      · intro hclips
        by_cases hlast : committed.seq + 1 < session.assigned.size
        · -- the item after the committed one is a clip, so it is the last
          obtain ⟨slot, hslot⟩ : ∃ slot, session.assigned.get? (committed.seq + 1) = some slot :=
            ⟨_, (hslots _).trans (List.getElem?_eq_getElem
              (by rwa [StreamSession.length_handedOut]))⟩
          obtain ⟨clip, rfl⟩ := hclips _ _ (by omega) hslot
          obtain ⟨found, hfound, hremembered⟩ := hreports.reported _
            (hfailed _ _ hslot fun other hother => by
              obtain rfl := Option.some.inj (hcommitted.symm.trans hother)
              omega)
          rw [hslots] at hslot
          have hsigned := hsession.signedOff _ clip hslot
          rw [hend, Option.some.injEq] at hsigned
          rw [hremembered clip (Option.some.inj (hfound.symm.trans hslot))]
          simp only [if_true]
          omega
        · split <;> omega

/-- The sign-off law of every session: the committed position never moves back
and a finished session stays finished. Once the end is recorded and every later
item has failed, it is finished exactly when only the final clip was left: a
song or liner that failed after the committed one leaves it waiting for ever. -/
theorem sign_off {trace : List (SessionAction × Reply)} {state : SessionState}
    (hrun : (itemMachine config loadDay).Run
      (admitted openedAt bookmarkKey token stationId linerCadence) trace state) :
    (∀ more later, (itemMachine config loadDay).Run state more later →
      (∀ committed, state.session.committed = some committed →
        ∃ last, later.session.committed = some last ∧ committed.seq ≤ last.seq) ∧
      (scheduleFinished state.session → scheduleFinished later.session)) ∧
    ∀ endSeq, state.session.endSeq = some endSeq →
      (∀ seq slot, state.session.assigned.get? seq = some slot →
        (∀ committed, state.session.committed = some committed → committed.seq < seq) →
        ReportedFailed trace seq) →
      (SignsOff loadDay state.session ↔ OnlyClipLeft state.session) := by
  have hstate := stateOk_run hrun
  constructor
  · intro more later hlater
    have hkept := reportsKept_run hstate hlater
    exact ⟨hkept.committed, finished_kept (extends_run hstate hlater) hkept⟩
  · intro endSeq hend hfailed
    have hiff := finished_iff hstate.session (reportsOk_run hrun) hend hfailed
    exact ⟨fun hsigns => hiff.mp hsigns.finished, fun honly =>
      signsOff_of_finished (hiff.mpr honly)⟩

end

/-- Two songs handed out and the end recorded after them, with no clip. The
first has started, the second has failed. -/
theorem secondFailed_run : ∃ trace state,
    (itemMachine plainConfig twoSongs).Run
      (admitted 0 (some ⟨"key", 1, 1⟩) "token" none none) trace state ∧
      state.session.endSeq = some 2 ∧ state.session.committed.map Committed.seq = some 0 ∧
      state.session.assigned.keys = [0, 1] ∧ ReportedFailed trace 1 ∧
      scheduleFinished state.session = false := by
  have hplaced := Transition.Machine.Run.single
    (show (itemMachine plainConfig twoSongs).step
        (admitted 0 (some ⟨"key", 1, 1⟩) "token" none none)
      (.place ⟨twoSongs, 1, ⟨1, 1, 2, 0, by decide, by decide, by decide⟩, none, {}⟩
        (some ⟨7, ⟨⟨1, 0⟩, 0⟩, 1, 0, 0⟩) none) = some (_, _) from rfl)
  have hfirst := ((hplaced.snoc
    (show (itemMachine plainConfig twoSongs).step _ (.request 0 ⟨some "token", 0⟩) =
      some (_, _) from rfl)).snoc
    (show (itemMachine plainConfig twoSongs).step _ (.resume 0 .placed) =
      some (_, _) from rfl)).snoc
    (show (itemMachine plainConfig twoSongs).step _ (.resume 0 (.thread false)) =
      some (_, _) from rfl)
  have hsecond := ((hfirst.snoc
    (show (itemMachine plainConfig twoSongs).step _ (.request 0 ⟨some "token", 1⟩) =
      some (_, _) from rfl)).snoc
    (show (itemMachine plainConfig twoSongs).step _ (.resume 0 (.thread false)) =
      some (_, _) from rfl)).snoc
    (show (itemMachine plainConfig twoSongs).step _ (.resume 0 (.cues none)) =
      some (_, _) from rfl)
  have hended := ((hsecond.snoc
    (show (itemMachine plainConfig twoSongs).step _ (.request 0 ⟨some "token", 2⟩) =
      some (_, _) from rfl)).snoc
    (show (itemMachine plainConfig twoSongs).step _ (.resume 0 (.thread false)) =
      some (_, _) from rfl)).snoc
    (show (itemMachine plainConfig twoSongs).step _ (.resume 0 (.signOff .absent)) =
      some (_, _) from rfl)
  have hstarted := hended.snoc
    (show (itemMachine plainConfig twoSongs).step _ (.started ⟨some "token", 0⟩ 0) =
      some (_, _) from rfl)
  have hfailed := hstarted.snoc
    (show (itemMachine plainConfig twoSongs).step _ (.failed ⟨some "token", 1⟩) =
      some (_, .report _ (.ok ())) from rfl)
  exact ⟨_, _, hfailed, rfl, rfl, rfl,
    ⟨_, List.mem_append_right _ (List.mem_singleton_self _), rfl⟩, rfl⟩

/-- In that run every item later than the committed one has failed. -/
theorem laterFailed {trace : List (SessionAction × Reply)} {session : StreamSession}
    (hcommitted : session.committed.map Committed.seq = some 0)
    (hkeys : session.assigned.keys = [0, 1]) (hone : ReportedFailed trace 1) :
    ∀ seq slot, session.assigned.get? seq = some slot →
      (∀ committed, session.committed = some committed → committed.seq < seq) →
      ReportedFailed trace seq := by
  intro seq slot hslot hlater
  obtain ⟨committed, heq, hzero⟩ := Option.map_eq_some_iff.mp hcommitted
  have hpos := hlater committed heq
  have hmem := Dict.mem_keys_iff.mpr ⟨slot, hslot⟩
  rw [hkeys] at hmem
  obtain rfl : seq = 1 := by
    rcases List.mem_cons.mp hmem with rfl | hmem
    · omega
    · exact List.mem_singleton.mp hmem
  exact hone

/-- The law for that run: its session has more than the final clip left. -/
theorem sign_off_secondFailed : ∃ state : SessionState,
    state.session.endSeq = some 2 ∧ ¬ OnlyClipLeft state.session := by
  obtain ⟨trace, state, hrun, hend, hcommitted, hkeys, hone, hwaits⟩ := secondFailed_run
  refine ⟨state, hend, fun honly => ?_⟩
  have hsigns := ((sign_off hrun).2 2 hend (laterFailed hcommitted hkeys hone)).mpr honly
  simpa [hwaits] using hsigns.finished

/-- A song that failed after the committed one keeps the session unfinished. -/
theorem sign_off_songFails :
    ¬ ∀ (trace : List (SessionAction × Reply)) (state : SessionState) (endSeq : Nat),
      (itemMachine plainConfig twoSongs).Run
        (admitted 0 (some ⟨"key", 1, 1⟩) "token" none none) trace state →
      state.session.endSeq = some endSeq →
      (∀ seq slot, state.session.assigned.get? seq = some slot →
        (∀ committed, state.session.committed = some committed → committed.seq < seq) →
        ReportedFailed trace seq) →
      scheduleFinished state.session := by
  intro hclaim
  obtain ⟨trace, state, hrun, hend, hcommitted, hkeys, hone, hwaits⟩ := secondFailed_run
  have hfinished := hclaim trace state 2 hrun hend (laterFailed hcommitted hkeys hone)
  simp [hwaits] at hfinished

end RetroStation.Streaming
