import RetroStation.Streaming.HandedOut

/-! # The session item contract

Whatever the interleaving, the seqs are handed out from 0 with none left out, a
seq keeps what it was given, and the end of the schedule is recorded once. Each
call in flight carries what it has learned, which no other call can undo.
-/

namespace RetroStation.Streaming

variable {config : StreamConfig} {loadDay : DayLoader}

/-! ## Reading a session by position -/

namespace StreamSession

variable {session : StreamSession}

theorem Consecutive.get? (hconsecutive : session.Consecutive) (seq : Nat) :
    session.assigned.get? seq = session.handedOut[seq]? :=
  Dict.get?_eq_getElem? hconsecutive seq

@[simp] theorem length_handedOut (session : StreamSession) :
    session.handedOut.length = session.assigned.size := Dict.length_values _

theorem Consecutive.not_mem (hconsecutive : session.Consecutive) :
    session.assigned.size ∉ session.assigned.keys := by
  rw [hconsecutive]
  simp

theorem Consecutive.set (hconsecutive : session.Consecutive) (slot : Slot) :
    let assigned := session.assigned.set session.assigned.size slot
    assigned.keys = List.range assigned.size ∧ assigned.values = session.handedOut ++ [slot] ∧
      assigned.size = session.assigned.size + 1 := by
  have hnew := hconsecutive.not_mem
  refine ⟨?_, Dict.values_set_of_not_mem hnew slot, Dict.size_set_of_not_mem hnew slot⟩
  rw [Dict.keys_set_of_not_mem hnew, Dict.size_set_of_not_mem hnew, List.range_succ, hconsecutive]

theorem Consecutive.songsSinceLiner (hconsecutive : session.Consecutive) {seq : Nat}
    (hseq : seq ≤ session.assigned.size) :
    songsSinceLiner session seq = songsSince (session.handedOut.take seq) := by
  induction seq with
  | zero => rfl
  | succ seq ih =>
      obtain ⟨slot, hslot⟩ : ∃ slot, session.handedOut[seq]? = some slot :=
        ⟨_, List.getElem?_eq_getElem (by rw [length_handedOut]; omega)⟩
      rw [List.take_add_one, hslot, Option.toList_some, songsSince_append_singleton,
        ← ih (by omega), Streaming.songsSinceLiner, List.range_succ, List.foldl_append,
        List.foldl_cons, List.foldl_nil, hconsecutive.get?, hslot]
      rw [← Streaming.songsSinceLiner]
      cases slot <;> rfl

end StreamSession

/-! ## What a call may change -/

/-- The changes a call for `seq` may make to the session. -/
inductive Change (config : StreamConfig) (loadDay : DayLoader) (session : StreamSession)
    (seq : Nat) : StreamSession → Prop
  | nothing : Change config loadDay session seq session
  | stores (slot : Slot) (rotation : LinerRotation) (hseq : seq = session.assigned.size)
      (hgoes : session.endSeq = none)
      (hslot : MayFollow config loadDay session.linerCadence session.handedOut slot)
      (hclip : ∀ clip, slot ≠ .clip clip)
      (hlanding : seq = 0 → ∃ landing item, session.landing = some landing ∧
        slot = .song ⟨landing.ref, item, landing.offsetMs⟩) :
      Change config loadDay session seq
        { session with assigned := session.assigned.set seq slot, linerRotation := rotation }
  | signsOff (clip : FinalClip) (hseq : seq = session.assigned.size)
      (hgoes : session.endSeq = none) (hpos : 0 < seq)
      (hslot : MayFollow config loadDay session.linerCadence session.handedOut (.clip clip)) :
      Change config loadDay session seq
        { session with
          assigned := session.assigned.set seq (.clip clip)
          endSeq := some (seq + 1) }
  | ends (song : Assigned) (ended : ItemRef) (hseq : seq = session.assigned.size)
      (hgoes : session.endSeq = none)
      (hlast : session.handedOut.getLast? = some (.song song))
      (hend : following config loadDay song.ref = .error (.endOfSchedule ended)) :
      Change config loadDay session seq { session with endSeq := some seq }

/-- What a waiting call knows, and keeps knowing. -/
def PendingOk (config : StreamConfig) (loadDay : DayLoader) (session : StreamSession)
    (seq : Nat) : Pending → Prop
  | .placement => seq = 0
  | .landing landing => seq = 0 ∧ session.landing = some landing
  | .walk previous => ∃ before, seq = before + 1 ∧ session.handedOut[before]? = some previous ∧
      (walkedFrom previous).isSome
  | .clip => ∃ before song ended, seq = before + 1 ∧
      session.handedOut[before]? = some (.song song) ∧
      following config loadDay song.ref = .error (.endOfSchedule ended)
  | .liners song next => ∃ before, seq = before + 1 ∧
      session.handedOut[before]? = some (.song song) ∧
      following config loadDay song.ref = .ok next ∧
      linerDue (songsSince (session.handedOut.take seq)) session.linerCadence
  | .cues next => ∃ before previous walked, seq = before + 1 ∧
      session.handedOut[before]? = some previous ∧ walkedFrom previous = some walked ∧
      following config loadDay walked.ref = .ok next

/-- What holds of a session at every moment. -/
structure SessionOk (config : StreamConfig) (loadDay : DayLoader) (session : StreamSession) :
    Prop where
  consecutive : session.Consecutive
  lawful : Lawful config loadDay session.linerCadence session.handedOut
  ended : ∀ endSeq, session.endSeq = some endSeq → endSeq = session.assigned.size
  signedOff : ∀ index clip, session.handedOut[index]? = some (.clip clip) →
    session.endSeq = some (index + 1)
  endWalk : ∀ endSeq, session.endSeq = some endSeq → ∃ last, endSeq = last + 1 ∧
    ((∃ clip, session.handedOut[last]? = some (.clip clip)) ∨
      ∃ song ended, session.handedOut[last]? = some (.song song) ∧
        following config loadDay song.ref = .error (.endOfSchedule ended))
  landed : ∀ landing, session.landing = some landing →
    session.placed ∧ Fits loadDay config.timing landing
  first : ∀ slot, session.handedOut[0]? = some slot → ∃ landing item,
    session.landing = some landing ∧ slot = .song ⟨landing.ref, item, landing.offsetMs⟩

/-! ## Serving and storing -/

section

variable {session : StreamSession}

/-- Only the next seq of a schedule that goes on is still to be handed out. -/
theorem served_eq_none (hsession : SessionOk config loadDay session) {seq : Nat} :
    served config session seq = .ok none ↔
      seq = session.assigned.size ∧ session.endSeq = none := by
  unfold served
  rw [hsession.consecutive.get?]
  cases hslot : session.handedOut[seq]? with
  | some slot =>
      obtain ⟨hlt, -⟩ := List.getElem?_eq_some_iff.mp hslot
      rw [StreamSession.length_handedOut] at hlt
      constructor
      · intro hserved
        cases hpayload : slotPayload config seq slot <;> simp [hpayload, Except.map] at hserved
      · rintro ⟨rfl, -⟩
        omega
  | none =>
      cases hend : session.endSeq with
      | none => simp
      | some endSeq =>
          have hsize := hsession.ended endSeq hend
          have hlength := List.getElem?_eq_none_iff.mp hslot
          rw [StreamSession.length_handedOut] at hlength
          have hge : seq ≥ endSeq := by omega
          simp [hge]

theorem served_ended (hsession : SessionOk config loadDay session) {seq endSeq : Nat}
    (hend : session.endSeq = some endSeq) (hseq : endSeq ≤ seq) :
    served config session seq = .error .endOfSchedule := by
  have hsize := hsession.ended endSeq hend
  have hslot : session.assigned.get? seq = none := by
    rw [hsession.consecutive.get?, List.getElem?_eq_none]
    simpa [← hsize] using hseq
  simp [served, hslot, hend, hseq]

theorem served_sent {seq : Nat} {sent : ItemPayload}
    (hserved : served config session seq = .ok (some sent)) :
    ∃ slot, session.assigned.get? seq = some slot ∧ slotPayload config seq slot = .ok sent := by
  unfold served at hserved
  split at hserved
  next slot hslot =>
    cases hpayload : slotPayload config seq slot with
    | error error => simp [hpayload, Except.map] at hserved
    | ok found =>
        obtain rfl : found = sent := by simpa [hpayload, Except.map] using hserved
        exact ⟨slot, hslot, hpayload⟩
  · split at hserved
    · split at hserved
      · cases hserved
      · split at hserved <;> simp at hserved
    · split at hserved <;> simp at hserved

/-- A payload answered for `seq` is the payload of what the seq holds. -/
def Answered (config : StreamConfig) (session : StreamSession) (seq : Nat)
    (result : Except ItemError ItemPayload) : Prop :=
  ∀ sent, result = .ok sent → ∃ slot, session.assigned.get? seq = some slot ∧
    slotPayload config seq slot = .ok sent

theorem assign_change (hsession : SessionOk config loadDay session) {seq : Nat} {slot : Slot}
    {stored : StreamSession} {result : Except ItemError ItemPayload}
    (hassign : assign config session seq slot = (stored, result))
    (hslot : seq = session.assigned.size →
      MayFollow config loadDay session.linerCadence session.handedOut slot)
    (hclip : ∀ clip, slot ≠ .clip clip)
    (hlanding : seq = 0 → ∃ landing item, session.landing = some landing ∧
      slot = .song ⟨landing.ref, item, landing.offsetMs⟩) :
    Change config loadDay session seq stored ∧ Answered config stored seq result := by
  unfold assign at hassign
  split at hassign
  · cases hassign
    exact ⟨.nothing, by simp [Answered]⟩
  next sent hserved =>
    cases hassign
    refine ⟨.nothing, fun found hfound => ?_⟩
    cases hfound
    exact served_sent hserved
  next hserved =>
    obtain ⟨hseq, hgoes⟩ := (served_eq_none hsession).mp hserved
    split at hassign
    · cases hassign
      exact ⟨.nothing, by simp [Answered]⟩
    next sent hpayload =>
      cases hassign
      refine ⟨.stores slot session.linerRotation hseq hgoes (hslot hseq) hclip hlanding, ?_⟩
      intro found hfound
      cases hfound
      exact ⟨slot, by simp, hpayload⟩

theorem endSchedule_change (hsession : SessionOk config loadDay session) {seq : Nat}
    {clip : Option FinalClip} {stored : StreamSession} {result : Except ItemError ItemPayload}
    {song : Assigned} {ended : ItemRef}
    (hstore : endSchedule config session seq clip = (stored, result)) (hpos : 0 < seq)
    (hlast : seq = session.assigned.size → session.handedOut.getLast? = some (.song song))
    (hend : following config loadDay song.ref = .error (.endOfSchedule ended)) :
    Change config loadDay session seq stored ∧ Answered config stored seq result := by
  unfold endSchedule at hstore
  split at hstore
  · cases hstore
    exact ⟨.nothing, by simp [Answered]⟩
  next sent hserved =>
    cases hstore
    refine ⟨.nothing, fun found hfound => ?_⟩
    cases hfound
    exact served_sent hserved
  next hserved =>
    obtain ⟨hseq, hgoes⟩ := (served_eq_none hsession).mp hserved
    split at hstore
    · cases hstore
      exact ⟨.ends song ended hseq hgoes (hlast hseq) hend, by simp [Answered]⟩
    next clip =>
      cases hstore
      refine ⟨.signsOff clip hseq hgoes hpos (.clip (hlast hseq) hend clip), ?_⟩
      intro found hfound
      cases hfound
      exact ⟨.clip clip, by simp, rfl⟩

theorem linerAfter_change (hsession : SessionOk config loadDay session) {seq : Nat}
    {song next : Assigned} {liners : List PlayableLiner} {shuffle : List Uuid → List Uuid}
    {stored : StreamSession} {result : Option (Except ItemError ItemPayload)}
    (hliner : linerAfter config session seq song next liners shuffle = (stored, result))
    (hpos : 0 < seq)
    (hslot : seq = session.assigned.size → ∀ slot : LinerSlot, slot.after = song →
      slot.nextSong = some next →
      MayFollow config loadDay session.linerCadence session.handedOut (.liner slot)) :
    Change config loadDay session seq stored ∧
      (result = none → stored = session) ∧
      ∀ answer, result = some answer → Answered config stored seq answer := by
  unfold linerAfter at hliner
  split at hliner
  · cases hliner
    exact ⟨.nothing, by simp, by simp [Answered]⟩
  next sent hserved =>
    cases hliner
    refine ⟨.nothing, by simp, fun answer hanswer found hfound => ?_⟩
    cases hanswer
    cases hfound
    exact served_sent hserved
  next hserved =>
    split at hliner
    · cases hliner
      exact ⟨.nothing, by simp, by simp⟩
    next picked rotation hpicked =>
      split at hliner
      next liner stationId root hfind hstation hroot =>
        dsimp only at hliner
        generalize hslotEq : (⟨liner, linerPath config root stationId liner.fileName, song,
          sentSpanMs config.timing song, some next⟩ : LinerSlot) = slot at hliner
        have hafter : slot.after = song := by rw [← hslotEq]
        have hnext : slot.nextSong = some next := by rw [← hslotEq]
        -- The rotation goes on only if this very slot was stored.
        cases hassign : assign config session seq (.liner slot) with
        | mk kept answer =>
            obtain ⟨hchange, hanswered⟩ := assign_change hsession hassign
              (fun hseq => hslot hseq slot hafter hnext) (by simp) (by omega)
            rw [hassign] at hliner
            dsimp only at hliner
            split at hliner
            next hstored =>
              cases hliner
              have hnew : session.assigned.get? seq = none := by
                obtain ⟨rfl, -⟩ := (served_eq_none hsession).mp hserved
                exact Dict.get?_eq_none_iff.mpr hsession.consecutive.not_mem
              refine ⟨?_, by simp, fun found hfound => ?_⟩
              · cases hchange with
                | nothing => rw [hnew] at hstored; cases hstored
                | stores other _ hseq hgoes hfollow hclip hlanding =>
                    exact .stores other rotation hseq hgoes hfollow hclip hlanding
                | signsOff => simp at hstored
                | ends => rw [hnew] at hstored; cases hstored
              · cases hfound
                exact hanswered
            next =>
              cases hliner
              exact ⟨hchange, by simp, fun found hfound => by cases hfound; exact hanswered⟩
      · cases hliner
        exact ⟨.nothing, by simp, by simp [Answered]⟩

/-- The slot before the next seq is the last one. -/
theorem getLast?_handedOut {before : Nat} {slot : Slot}
    (hslot : session.handedOut[before]? = some slot) (hnext : before + 1 = session.assigned.size) :
    session.handedOut.getLast? = some slot := by
  rw [List.getLast?_eq_getElem?, StreamSession.length_handedOut, ← hnext]
  exact hslot

/-! ## One call resumed -/

/-- What resuming a call does: it changes the session as it may, waits on with
what it has learned, or answers what its seq holds. -/
structure Resumes (config : StreamConfig) (loadDay : DayLoader) (session : StreamSession)
    (seq : Nat) (next : StreamSession) (outcome : Outcome) : Prop where
  change : Change config loadDay session seq next
  waits : ∀ pending, outcome = .waits pending →
    next = session ∧ PendingOk config loadDay session seq pending
  answers : ∀ result, outcome = .answers result → Answered config next seq result

namespace Resumes

variable {seq : Nat} {next : StreamSession} {outcome : Outcome}

theorem of_raises {error : ItemError}
    (heq : some (session, Outcome.answers (.error error)) = some (next, outcome)) :
    Resumes config loadDay session seq next outcome := by
  cases heq
  refine ⟨.nothing, by simp, fun result hresult => ?_⟩
  cases hresult
  simp [Answered]

theorem of_waits {pending : Pending}
    (heq : some (session, Outcome.waits pending) = some (next, outcome))
    (hpending : PendingOk config loadDay session seq pending) :
    Resumes config loadDay session seq next outcome := by
  cases heq
  refine ⟨.nothing, fun other hother => ?_, by simp⟩
  cases hother
  exact ⟨rfl, hpending⟩

theorem of_answers {stored : StreamSession} {result : Except ItemError ItemPayload}
    (heq : some (stored, Outcome.answers result) = some (next, outcome))
    (hstored : Change config loadDay session seq stored ∧ Answered config stored seq result) :
    Resumes config loadDay session seq next outcome := by
  cases heq
  refine ⟨hstored.1, by simp, fun other hother => ?_⟩
  cases hother
  exact hstored.2

end Resumes

variable {isOpen : Bool} {call : ItemCall} {answer : Answer} {next : StreamSession}
  {outcome : Outcome}

theorem resumed_placement (hseq : call.seq = 0)
    (hresumed : resumed config loadDay session isOpen call .placement answer =
      some (next, outcome)) : Resumes config loadDay session call.seq next outcome := by
  cases answer with
  | timedOut => exact .of_raises hresumed
  | placed =>
      simp only [resumed] at hresumed
      split at hresumed
      · cases hresumed
      · split at hresumed
        · exact .of_raises hresumed
        · exact .of_raises hresumed
        next landing _ hlanding => exact .of_waits hresumed ⟨hseq, hlanding⟩
  | _ => cases hresumed

theorem resumed_landing (hsession : SessionOk config loadDay session) {landing : Landing}
    (hseq : call.seq = 0) (hlanding : session.landing = some landing)
    (hresumed : resumed config loadDay session isOpen call (.landing landing) answer =
      some (next, outcome)) : Resumes config loadDay session call.seq next outcome := by
  cases answer with
  | thread readFails =>
      simp only [resumed] at hresumed
      split at hresumed
      · exact .of_raises hresumed
      · split at hresumed
        · exact .of_raises hresumed
        · exact .of_raises hresumed
        next assigned _ hassigned _ =>
          obtain ⟨item, hitem, hread⟩ := bind_eq_ok.mp hassigned
          cases hread
          refine .of_answers hresumed (assign_change hsession rfl ?_ (by simp) ?_)
          · intro hsize
            have hempty : session.handedOut = [] := by
              rw [← List.length_eq_zero_iff, StreamSession.length_handedOut]
              omega
            rw [hempty]
            exact .landing hitem (hsession.landed landing hlanding).2
          · exact fun _ => ⟨landing, item, hlanding, rfl⟩
  | _ => cases hresumed

theorem resumed_walk (hsession : SessionOk config loadDay session) {previous : Slot}
    {before : Nat} (hseq : call.seq = before + 1)
    (hprevious : session.handedOut[before]? = some previous)
    (hresumed : resumed config loadDay session isOpen call (.walk previous) answer =
      some (next, outcome)) : Resumes config loadDay session call.seq next outcome := by
  cases answer with
  | thread readFails =>
      simp only [resumed] at hresumed
      split at hresumed
      · exact .of_raises hresumed
      · split at hresumed
        · exact .of_raises hresumed
        next song hsong =>
          split at hresumed
          next ended hend =>
            -- A liner is only handed out when the song it follows has a next one.
            cases previous with
            | song assigned =>
                obtain rfl : assigned = song := by simpa [walkedFrom] using hsong
                exact .of_waits hresumed ⟨before, assigned, ended, hseq, hprevious, hend⟩
            | liner slot =>
                obtain ⟨⟨-, found, -, -, hfound, -⟩, -⟩ := hsession.lawful.liner_between hprevious
                obtain rfl : slot.after = song := by simpa [walkedFrom] using hsong
                rw [hfound] at hend
                cases hend
            | clip clip => simp [walkedFrom] at hsong
          · exact .of_raises hresumed
          next found hfound =>
            have hcues : PendingOk config loadDay session call.seq (.cues found) :=
              ⟨before, previous, song, hseq, hprevious, hsong, hfound⟩
            split at hresumed
            next assigned =>
              obtain rfl : assigned = song := by simpa [walkedFrom] using hsong
              split at hresumed
              next hdue =>
                refine .of_waits hresumed ⟨before, hseq, hprevious, hfound, ?_⟩
                have hsize : call.seq ≤ session.assigned.size := by
                  obtain ⟨hlt, -⟩ := List.getElem?_eq_some_iff.mp hprevious
                  rw [StreamSession.length_handedOut] at hlt
                  omega
                rw [← hsession.consecutive.songsSinceLiner hsize]
                simp only [linerDueAt, Bool.and_eq_true] at hdue
                exact hdue.2
              · exact .of_waits hresumed hcues
            · exact .of_waits hresumed hcues
  | _ => cases hresumed

theorem resumed_clip (hsession : SessionOk config loadDay session) {before : Nat}
    {song : Assigned} {ended : ItemRef} (hseq : call.seq = before + 1)
    (hsong : session.handedOut[before]? = some (.song song))
    (hend : following config loadDay song.ref = .error (.endOfSchedule ended))
    (hresumed : resumed config loadDay session isOpen call .clip answer =
      some (next, outcome)) : Resumes config loadDay session call.seq next outcome := by
  cases answer with
  | signOff read =>
      simp only [resumed] at hresumed
      split at hresumed
      · exact .of_raises hresumed
      · exact .of_raises hresumed
      · exact .of_answers hresumed (endSchedule_change hsession rfl (by omega)
          (fun hsize => getLast?_handedOut hsong (by omega)) hend)
  | _ => cases hresumed

theorem resumed_cues (hsession : SessionOk config loadDay session) {before : Nat}
    {previous : Slot} {walked found : Assigned} (hseq : call.seq = before + 1)
    (hprevious : session.handedOut[before]? = some previous)
    (hwalked : walkedFrom previous = some walked)
    (hfound : following config loadDay walked.ref = .ok found)
    (hresumed : resumed config loadDay session isOpen call (.cues found) answer =
      some (next, outcome)) : Resumes config loadDay session call.seq next outcome := by
  cases answer with
  | cues answer =>
      simp only [resumed] at hresumed
      split at hresumed
      · exact .of_raises hresumed
      · exact .of_answers hresumed (assign_change hsession rfl
          (fun hsize => .song (getLast?_handedOut hprevious (by omega)) hwalked hfound answer)
          (by simp) (by omega))
  | _ => cases hresumed

theorem resumed_liners (hsession : SessionOk config loadDay session) {before : Nat}
    {song found : Assigned} (hseq : call.seq = before + 1)
    (hsong : session.handedOut[before]? = some (.song song))
    (hfound : following config loadDay song.ref = .ok found)
    (hdue : linerDue (songsSince (session.handedOut.take call.seq)) session.linerCadence)
    (hresumed : resumed config loadDay session isOpen call (.liners song found) answer =
      some (next, outcome)) : Resumes config loadDay session call.seq next outcome := by
  cases answer with
  | liners read shuffle =>
      have hafter : ∀ liners, resumed config loadDay session isOpen call (.liners song found)
          (.liners (.answered liners) shuffle) = some (next, outcome) →
          Resumes config loadDay session call.seq next outcome := by
        intro liners hafter
        unfold resumed at hafter
        dsimp only at hafter
        split at hafter
        · exact .of_raises hafter
        · cases hliner : linerAfter config session call.seq song found liners shuffle with
          | mk stored result =>
              obtain ⟨hchange, hnone, hanswered⟩ := linerAfter_change hsession hliner (by omega)
                fun hsize slot hslotAfter hnextSong => .liner
                  (getLast?_handedOut hsong (by omega)) hfound (by
                    rwa [hsize, ← StreamSession.length_handedOut, List.take_length] at hdue)
                  hslotAfter hnextSong
              rw [hliner] at hafter
              cases result with
              | some result => exact .of_answers hafter ⟨hchange, hanswered result rfl⟩
              | none =>
                  obtain rfl := hnone rfl
                  exact .of_waits hafter ⟨before, .song song, song, hseq, hsong, rfl, hfound⟩
      cases read with
      | failed => exact .of_raises hresumed
      | unread => exact hafter [] hresumed
      | answered liners => exact hafter liners hresumed
  | _ => cases hresumed

/-- A waiting call resumed, wherever it waited. -/
theorem resumed_ok (hsession : SessionOk config loadDay session) {pending : Pending}
    (hpending : PendingOk config loadDay session call.seq pending)
    (hresumed : resumed config loadDay session isOpen call pending answer =
      some (next, outcome)) : Resumes config loadDay session call.seq next outcome := by
  cases pending with
  | placement => exact resumed_placement hpending hresumed
  | landing landing => exact resumed_landing hsession hpending.1 hpending.2 hresumed
  | walk previous =>
      obtain ⟨before, hseq, hprevious, -⟩ := hpending
      exact resumed_walk hsession hseq hprevious hresumed
  | clip =>
      obtain ⟨before, song, ended, hseq, hsong, hend⟩ := hpending
      exact resumed_clip hsession hseq hsong hend hresumed
  | liners song found =>
      obtain ⟨before, hseq, hsong, hfound, hdue⟩ := hpending
      exact resumed_liners hsession hseq hsong hfound hdue hresumed
  | cues found =>
      obtain ⟨before, previous, walked, hseq, hprevious, hwalked, hfound⟩ := hpending
      exact resumed_cues hsession hseq hprevious hwalked hfound hresumed

end

/-! ## What later steps keep -/

/-- What a step leaves of the session before it. -/
structure Extends (session next : StreamSession) : Prop where
  handedOut : session.handedOut <+: next.handedOut
  ended : ∀ endSeq, session.endSeq = some endSeq →
    next.endSeq = some endSeq ∧ next.assigned = session.assigned
  landing : ∀ landing, session.landing = some landing → next.landing = some landing
  cadence : next.linerCadence = session.linerCadence
  token : next.token = session.token

namespace Extends

variable {session next last : StreamSession}

theorem refl (session : StreamSession) : Extends session session :=
  ⟨List.prefix_refl _, fun _ hend => ⟨hend, rfl⟩, fun _ hlanding => hlanding, rfl, rfl⟩

theorem trans (hfirst : Extends session next) (hsecond : Extends next last) :
    Extends session last where
  handedOut := hfirst.handedOut.trans hsecond.handedOut
  ended endSeq hend := by
    obtain ⟨hnext, hsame⟩ := hfirst.ended endSeq hend
    obtain ⟨hlast, hstill⟩ := hsecond.ended endSeq hnext
    exact ⟨hlast, hstill.trans hsame⟩
  landing landing hlanding := hsecond.landing landing (hfirst.landing landing hlanding)
  cadence := hsecond.cadence.trans hfirst.cadence
  token := hsecond.token.trans hfirst.token

theorem getElem? (hextends : Extends session next) {index : Nat} {slot : Slot}
    (hslot : session.handedOut[index]? = some slot) : next.handedOut[index]? = some slot := by
  obtain ⟨more, hmore⟩ := hextends.handedOut
  obtain ⟨hindex, -⟩ := List.getElem?_eq_some_iff.mp hslot
  rw [← hmore, List.getElem?_append_left hindex, hslot]

end Extends

namespace Change

variable {session next : StreamSession} {seq : Nat}

theorem extends_ (hsession : SessionOk config loadDay session)
    (hchange : Change config loadDay session seq next) : Extends session next := by
  have hset := hsession.consecutive.set
  cases hchange with
  | nothing => exact .refl session
  | stores slot rotation hseq hgoes =>
      subst hseq
      exact ⟨⟨[slot], (hset slot).2.1.symm⟩, by simp [hgoes], fun _ h => h, rfl, rfl⟩
  | signsOff clip hseq hgoes =>
      subst hseq
      exact ⟨⟨[.clip clip], (hset _).2.1.symm⟩, by simp [hgoes], fun _ h => h, rfl, rfl⟩
  | ends song ended hseq hgoes =>
      exact ⟨List.prefix_refl _, by simp [hgoes], fun _ h => h, rfl, rfl⟩

end Change

/-- What a waiting call has learned stays true. -/
theorem PendingOk.extends_ {session next : StreamSession} {seq : Nat} {pending : Pending}
    (hpending : PendingOk config loadDay session seq pending) (hextends : Extends session next) :
    PendingOk config loadDay next seq pending := by
  cases pending with
  | placement => exact hpending
  | landing landing => exact ⟨hpending.1, hextends.landing landing hpending.2⟩
  | walk previous =>
      obtain ⟨before, hseq, hprevious, hwalked⟩ := hpending
      exact ⟨before, hseq, hextends.getElem? hprevious, hwalked⟩
  | clip =>
      obtain ⟨before, song, ended, hseq, hsong, hend⟩ := hpending
      exact ⟨before, song, ended, hseq, hextends.getElem? hsong, hend⟩
  | liners song found =>
      obtain ⟨before, hseq, hsong, hfound, hdue⟩ := hpending
      refine ⟨before, hseq, hextends.getElem? hsong, hfound, ?_⟩
      obtain ⟨more, hmore⟩ := hextends.handedOut
      obtain ⟨hbefore, -⟩ := List.getElem?_eq_some_iff.mp hsong
      rwa [← hmore, List.take_append_of_le_length (by omega), hextends.cadence]
  | cues found =>
      obtain ⟨before, previous, walked, hseq, hprevious, hwalked, hfound⟩ := hpending
      exact ⟨before, previous, walked, hseq, hextends.getElem? hprevious, hwalked, hfound⟩

theorem sessionOk_change {session next : StreamSession} {seq : Nat}
    (hsession : SessionOk config loadDay session)
    (hchange : Change config loadDay session seq next) : SessionOk config loadDay next := by
  have hset := hsession.consecutive.set
  obtain ⟨hconsecutive, hlawful, hended, hsignedOff, hendWalk, hlanded, hfirst⟩ := hsession
  -- A slot is appended, the clip is appended and the end set, or the end is set alone.
  cases hchange with
  | nothing => exact ⟨hconsecutive, hlawful, hended, hsignedOff, hendWalk, hlanded, hfirst⟩
  | stores slot rotation hseq hgoes hfollow hclip hlanding =>
      subst hseq
      obtain ⟨hkeys, hvalues, hsize⟩ := hset slot
      have hhanded : StreamSession.handedOut { session with
          assigned := session.assigned.set session.assigned.size slot
          linerRotation := rotation } = session.handedOut ++ [slot] := hvalues
      constructor
      case consecutive => exact hkeys
      case lawful =>
        rw [hhanded]
        exact .append hlawful hfollow
      case ended => simp [hgoes]
      case signedOff =>
        intro index clip hslot
        rw [hhanded] at hslot
        rcases getElem?_append_singleton_eq_some hslot with ⟨-, hslot⟩ | ⟨-, rfl⟩
        · simpa [hgoes] using hsignedOff index clip hslot
        · exact absurd rfl (hclip clip)
      case endWalk => simp [hgoes]
      case landed => exact hlanded
      case first =>
        intro found hfound
        rw [hhanded] at hfound
        rcases getElem?_append_singleton_eq_some hfound with ⟨-, hfound⟩ | ⟨hzero, rfl⟩
        · exact hfirst found hfound
        · exact hlanding (by simpa using hzero.symm)
  | signsOff clip hseq hgoes hpos hfollow =>
      subst hseq
      obtain ⟨hkeys, hvalues, hsize⟩ := hset (.clip clip)
      have hhanded : StreamSession.handedOut { session with
          assigned := session.assigned.set session.assigned.size (.clip clip)
          endSeq := some (session.assigned.size + 1) } =
          session.handedOut ++ [.clip clip] := hvalues
      constructor
      case consecutive => exact hkeys
      case lawful =>
        rw [hhanded]
        exact .append hlawful hfollow
      case ended =>
        intro endSeq hend
        exact (Option.some.inj hend).symm.trans hsize.symm
      case signedOff =>
        intro index found hslot
        rw [hhanded] at hslot
        rcases getElem?_append_singleton_eq_some hslot with ⟨-, hslot⟩ | ⟨rfl, -⟩
        · simpa [hgoes] using hsignedOff index found hslot
        · simp
      case endWalk =>
        intro endSeq hend
        refine ⟨session.assigned.size, (Option.some.inj hend).symm, .inl ⟨clip, ?_⟩⟩
        rw [hhanded, ← StreamSession.length_handedOut]
        simp
      case landed => exact hlanded
      case first =>
        intro found hfound
        rw [hhanded] at hfound
        rcases getElem?_append_singleton_eq_some hfound with ⟨-, hfound⟩ | ⟨hzero, -⟩
        · exact hfirst found hfound
        · rw [StreamSession.length_handedOut] at hzero
          omega
  | ends song ended hseq hgoes hlast hend =>
      subst hseq
      rw [List.getLast?_eq_getElem?] at hlast
      have hpos : 0 < session.assigned.size := by
        rw [← StreamSession.length_handedOut]
        by_contra hnone
        rw [List.getElem?_eq_none (by omega)] at hlast
        cases hlast
      constructor
      case consecutive => exact hconsecutive
      case lawful => exact hlawful
      case ended => exact fun endSeq hend => (Option.some.inj hend).symm
      case signedOff =>
        intro index clip hslot
        simpa [hgoes] using hsignedOff index clip hslot
      case endWalk =>
        intro endSeq hendSeq
        refine ⟨session.assigned.size - 1, ?_, .inr ⟨song, ended, ?_, hend⟩⟩
        · rw [← Option.some.inj hendSeq]
          omega
        · rw [StreamSession.length_handedOut] at hlast
          exact hlast
      case landed => exact hlanded
      case first => exact hfirst

/-! ## The machine's invariant -/

/-- The session is sound, and every call in flight knows what it should. -/
structure StateOk (config : StreamConfig) (loadDay : DayLoader) (state : SessionState) : Prop where
  session : SessionOk config loadDay state.session
  inFlight : ∀ id call pending, state.inFlight.get? id = some (call, pending) →
    call.token = some state.session.token ∧
      PendingOk config loadDay state.session call.seq pending

/-- A step that only touches what the item contract does not read. -/
theorem stateOk_aside {state next : SessionState} (hstate : StateOk config loadDay state)
    (hinFlight : next.inFlight = state.inFlight)
    (hsession : SessionOk config loadDay next.session)
    (hextends : Extends state.session next.session) : StateOk config loadDay next where
  session := hsession
  inFlight id call pending hcall := by
    rw [hinFlight] at hcall
    obtain ⟨htoken, hpending⟩ := hstate.inFlight id call pending hcall
    exact ⟨htoken.trans (congrArg some hextends.token.symm), hpending.extends_ hextends⟩

@[simp] theorem SessionState.after_session (state : SessionState) (id : Nat) (call : ItemCall)
    (session : StreamSession) (outcome : Outcome) :
    (state.after id call session outcome).1.session = session := by
  cases outcome <;> rfl

/-- A call that has run to its next await leaves the others as they were. -/
theorem stateOk_after {state : SessionState} (hstate : StateOk config loadDay state) (id : Nat)
    {call : ItemCall} {next : StreamSession} {outcome : Outcome}
    (htoken : ∀ pending, outcome = .waits pending → call.token = some state.session.token)
    (hresumes : Resumes config loadDay state.session call.seq next outcome) :
    StateOk config loadDay (state.after id call next outcome).1 := by
  have hextends := hresumes.change.extends_ hstate.session
  have hsession := sessionOk_change hstate.session hresumes.change
  have hothers : ∀ other call pending, state.inFlight.get? other = some (call, pending) →
      call.token = some next.token ∧ PendingOk config loadDay next call.seq pending := by
    intro other call pending hcall
    obtain ⟨hother, hpending⟩ := hstate.inFlight other call pending hcall
    exact ⟨hother.trans (congrArg some hextends.token.symm), hpending.extends_ hextends⟩
  cases outcome with
  | waits pending =>
      refine ⟨hsession, fun other found waits hcall => ?_⟩
      simp only [SessionState.after, Dict.get?_set] at hcall ⊢
      split at hcall
      · cases hcall
        exact ⟨(htoken pending rfl).trans (congrArg some hextends.token.symm),
          (hresumes.waits pending rfl).2.extends_ hextends⟩
      · exact hothers other found waits hcall
  | answers result =>
      refine ⟨hsession, fun other found waits hcall => ?_⟩
      simp only [SessionState.after, Dict.get?_erase] at hcall ⊢
      split at hcall
      · cases hcall
      · exact hothers other found waits hcall

theorem authorised_eq_ok {session : StreamSession} {isOpen : Bool} {call : ItemCall} :
    authorised session isOpen call = .ok () ↔ isOpen ∧ call.token = some session.token := by
  unfold authorised
  cases isOpen <;> simp

/-- A new call waits only for what it may, and only with the session's token. -/
theorem item_resumes {session : StreamSession} (hsession : SessionOk config loadDay session)
    (isOpen : Bool) (call : ItemCall) :
    Resumes config loadDay session call.seq session (item config session isOpen call) ∧
      ∀ pending, item config session isOpen call = .waits pending →
        call.token = some session.token := by
  unfold item
  split
  · exact ⟨.of_raises rfl, by simp⟩
  next hauthorised =>
    refine ⟨?_, fun _ _ => (authorised_eq_ok.mp hauthorised).2⟩
    split
    · exact .of_raises rfl
    next sent hserved =>
      refine .of_answers rfl ⟨.nothing, fun found hfound => ?_⟩
      cases hfound
      exact served_sent hserved
    next hserved =>
      split
      next hzero => exact .of_waits rfl hzero
      next hpos =>
        unfold afterLanding
        split
        · exact .of_raises rfl
        · exact .of_raises rfl
        next previous hclip hprevious =>
          rw [hsession.consecutive.get?] at hprevious
          refine .of_waits rfl ⟨call.seq - 1, by omega, hprevious, ?_⟩
          cases previous with
          | clip clip => exact absurd rfl (hclip clip)
          | _ => rfl

theorem reported_eq_ok {session : StreamSession} {seq : Nat} {slot : Slot} :
    reported session seq = .ok slot ↔ session.assigned.get? seq = some slot := by
  unfold reported
  cases session.assigned.get? seq <;> simp

/-- A `started` report commits what its seq holds, or changes nothing. -/
theorem started_cases (session : StreamSession) (isOpen : Bool) (call : ItemCall)
    (elapsedNow : Int) :
    (started config session isOpen call elapsedNow).1 = session ∨
      ∃ slot nowPlaying, session.assigned.get? call.seq = some slot ∧
        (∀ committed, session.committed = some committed → committed.seq < call.seq) ∧
        (started config session isOpen call elapsedNow).1 = { session with
          committed := some ⟨call.seq, slot, elapsedNow⟩, nowPlaying := nowPlaying } := by
  unfold started
  split
  · exact .inl rfl
  · exact .inl rfl
  next slot _ hreported =>
    rw [reported_eq_ok] at hreported
    cases hcommitted : session.committed with
    | none => cases slot <;> exact .inr ⟨_, _, hreported, by simp, rfl⟩
    | some committed =>
        by_cases hahead : committed.seq < call.seq
        · cases slot <;> simp only [hahead, decide_true, Bool.not_true, Bool.false_eq_true,
            if_false] <;> exact .inr ⟨_, _, hreported, by simpa using hahead, rfl⟩
        · simp [hahead]

/-- A `failed` report remembers a final clip's failure, or changes nothing. -/
theorem failed_cases (session : StreamSession) (isOpen : Bool) (call : ItemCall) :
    (failed session isOpen call).1 = session ∨
      ∃ clip, session.assigned.get? call.seq = some (.clip clip) ∧
        (failed session isOpen call).1 = { session with finalFailed := true } := by
  unfold failed
  split
  · exact .inl rfl
  · exact .inl rfl
  next slot _ hreported =>
    rw [reported_eq_ok] at hreported
    cases slot with
    | clip clip => exact .inr ⟨clip, hreported, rfl⟩
    | _ => exact .inl rfl

/-- The contract does not depend on what has started or failed. -/
theorem sessionOk_reports {session : StreamSession} (hsession : SessionOk config loadDay session)
    (committed : Option Committed) (nowPlaying : Option (Int × String)) (finalFailed : Bool) :
    SessionOk config loadDay { session with
      committed := committed, nowPlaying := nowPlaying, finalFailed := finalFailed } ∧
    Extends session { session with
      committed := committed, nowPlaying := nowPlaying, finalFailed := finalFailed } :=
  ⟨⟨hsession.consecutive, hsession.lawful, hsession.ended, hsession.signedOff,
    hsession.endWalk, hsession.landed, hsession.first⟩,
    ⟨List.prefix_refl _, fun _ hend => ⟨hend, rfl⟩, fun _ hlanding => hlanding, rfl, rfl⟩⟩

theorem sessionOk_started {session : StreamSession} (hsession : SessionOk config loadDay session)
    (isOpen : Bool) (call : ItemCall) (elapsedNow : Int) :
    SessionOk config loadDay (started config session isOpen call elapsedNow).1 ∧
      Extends session (started config session isOpen call elapsedNow).1 := by
  rcases started_cases session isOpen call elapsedNow with hsame | ⟨slot, nowPlaying, -, -, hsame⟩
  · rw [hsame]
    exact ⟨hsession, .refl _⟩
  · rw [hsame]
    exact sessionOk_reports hsession _ nowPlaying session.finalFailed

theorem sessionOk_failed {session : StreamSession} (hsession : SessionOk config loadDay session)
    (isOpen : Bool) (call : ItemCall) :
    SessionOk config loadDay (failed session isOpen call).1 ∧
      Extends session (failed session isOpen call).1 := by
  rcases failed_cases session isOpen call with hsame | ⟨clip, -, hsame⟩
  · rw [hsame]
    exact ⟨hsession, .refl _⟩
  · rw [hsame]
    exact sessionOk_reports hsession session.committed session.nowPlaying true

/-- Placement only ever adds the landing, before anything is handed out. -/
theorem sessionOk_placed {session : StreamSession} (hsession : SessionOk config loadDay session)
    (hplaced : session.placed = false) {result : Except StreamError Placement}
    (hfits : ∀ placement, result = .ok placement →
      Fits loadDay config.timing placement.tuned.landing) :
    SessionOk config loadDay (placedSession session result) ∧
      Extends session (placedSession session result) := by
  have hnone : session.landing = none := by
    cases hlanding : session.landing with
    | none => rfl
    | some landing => exact absurd (hsession.landed landing hlanding).1 (by simp [hplaced])
  have hempty : ∀ slot, session.handedOut[0]? ≠ some slot := by
    intro slot hslot
    obtain ⟨landing, item, hlanding, -⟩ := hsession.first slot hslot
    rw [hnone] at hlanding
    cases hlanding
  cases result with
  | error error =>
      refine ⟨⟨hsession.consecutive, hsession.lawful, hsession.ended, hsession.signedOff,
        hsession.endWalk, ?_, hsession.first⟩,
        ⟨List.prefix_refl _, fun _ hend => ⟨hend, rfl⟩, fun _ hlanding => hlanding, rfl, rfl⟩⟩
      exact fun landing hlanding => ⟨rfl, (hsession.landed landing hlanding).2⟩
  | ok placement =>
      refine ⟨⟨hsession.consecutive, hsession.lawful, hsession.ended, hsession.signedOff,
        hsession.endWalk, ?_, ?_⟩,
        ⟨List.prefix_refl _, fun _ hend => ⟨hend, rfl⟩, ?_, rfl, rfl⟩⟩
      · intro landing hlanding
        obtain rfl := Option.some.inj hlanding
        exact ⟨rfl, hfits placement rfl⟩
      · exact fun slot hslot => absurd hslot (hempty slot)
      · intro landing hlanding
        rw [hnone] at hlanding
        cases hlanding

/-- One step keeps the contract, and what the session has given. -/
theorem stateOk_step {state next : SessionState} {action : SessionAction} {reply : Reply}
    (hstate : StateOk config loadDay state)
    (hstep : (itemMachine config loadDay).step state action = some (next, reply)) :
    StateOk config loadDay next ∧ Extends state.session next.session := by
  cases action with
  -- A session is placed once; a placement that lands gives the first slot its landing.
  | place schedule live saved =>
      simp only [itemMachine] at hstep
      split at hstep
      · cases hstep
      next hplaced =>
        cases hstep
        have hfits := @placeListener_fits
          { schedule with loadDay := loadDay, timing := config.timing } live saved
        obtain ⟨hsession, hextends⟩ := sessionOk_placed hstate.session (by simpa using hplaced)
          fun placement hresult => hfits hresult
        exact ⟨stateOk_aside hstate rfl hsession hextends, hextends⟩
  | placeFails =>
      simp only [itemMachine] at hstep
      split at hstep
      · cases hstep
      next hplaced =>
        cases hstep
        have hnone : ∀ placement, (.error .dateOverflow : Except StreamError Placement) =
            .ok placement → Fits loadDay config.timing placement.tuned.landing := by simp
        obtain ⟨hsession, hextends⟩ := sessionOk_placed hstate.session (by simpa using hplaced)
          hnone
        exact ⟨stateOk_aside hstate rfl hsession hextends, hextends⟩
  | request id call =>
      simp only [itemMachine] at hstep
      split at hstep
      · cases hstep
      · obtain ⟨hresumes, htoken⟩ := item_resumes hstate.session state.isOpen call
        have hnext : (state.after id call state.session
            (item config state.session state.isOpen call)).1 = next :=
          congrArg Prod.fst (Option.some.inj hstep)
        subst hnext
        refine ⟨stateOk_after hstate id htoken hresumes, ?_⟩
        rw [SessionState.after_session]
        exact .refl _
  -- The only action that hands out a slot: the pending call knows what may follow.
  | resume id answer =>
      simp only [itemMachine] at hstep
      split at hstep
      · cases hstep
      next call pending hcall =>
        obtain ⟨⟨stored, outcome⟩, hresumed, hafter⟩ := Option.map_eq_some_iff.mp hstep
        obtain ⟨htoken, hpending⟩ := hstate.inFlight id call pending hcall
        have hresumes := resumed_ok hstate.session hpending hresumed
        have hnext : (state.after id call stored outcome).1 = next := congrArg Prod.fst hafter
        subst hnext
        refine ⟨stateOk_after hstate id (fun _ _ => htoken) hresumes, ?_⟩
        rw [SessionState.after_session]
        exact hresumes.change.extends_ hstate.session
  | started call elapsedNow =>
      have hnext : { state with
          session := (started config state.session state.isOpen call elapsedNow).1 } = next :=
        congrArg Prod.fst (Option.some.inj hstep)
      subst hnext
      obtain ⟨hsession, hextends⟩ := sessionOk_started hstate.session state.isOpen call elapsedNow
      exact ⟨stateOk_aside hstate rfl hsession hextends, hextends⟩
  | failed call =>
      have hnext : { state with session := (failed state.session state.isOpen call).1 } = next :=
        congrArg Prod.fst (Option.some.inj hstep)
      subst hnext
      obtain ⟨hsession, hextends⟩ := sessionOk_failed hstate.session state.isOpen call
      exact ⟨stateOk_aside hstate rfl hsession hextends, hextends⟩
  | close =>
      cases hstep
      exact ⟨stateOk_aside hstate rfl hstate.session (.refl _), .refl _⟩

/-! ## Every run -/

theorem stateOk_preserved : (itemMachine config loadDay).Preserves (StateOk config loadDay) :=
  fun _ _ _ _ hstate hstep => (stateOk_step hstate hstep).1

theorem stateOk_admitted (openedAt : Int) (bookmarkKey : Option BookmarkKey) (token : String)
    (stationId : Option Uuid) (linerCadence : Option LinerCadence) :
    StateOk config loadDay (admitted openedAt bookmarkKey token stationId linerCadence) where
  session := by
    constructor
    case consecutive => rfl
    case lawful => exact .nothing
    all_goals simp [admitted, StreamSession.handedOut]
  inFlight := by simp [admitted]

theorem extends_run {state later : SessionState} {trace : List (SessionAction × Reply)}
    (hstate : StateOk config loadDay state)
    (hrun : (itemMachine config loadDay).Run state trace later) :
    Extends state.session later.session :=
  @Transition.Machine.Run.relates _ _ _ _ _ _ _ (StateOk config loadDay)
    (fun first second => Extends first.session second.session) stateOk_preserved
    (fun state => .refl state.session) (fun hfirst hsecond => hfirst.trans hsecond)
    (fun _ _ _ _ hstate hstep => (stateOk_step hstate hstep).2) hstate hrun

/-- An answer comes from a new call, or from one resumed. -/
theorem reply_cases {state next : SessionState} {action : SessionAction} {call : ItemCall}
    {result : Except ItemError ItemPayload}
    (hstep : (itemMachine config loadDay).step state action = some (next, .item call result)) :
    (item config state.session state.isOpen call = .answers result ∧
      next.session = state.session) ∨
    ∃ id pending answer, state.inFlight.get? id = some (call, pending) ∧
      resumed config loadDay state.session state.isOpen call pending answer =
        some (next.session, .answers result) := by
  have hafter : ∀ {id found session outcome},
      state.after id found session outcome = (next, .item call result) →
      found = call ∧ outcome = .answers result ∧ next.session = session := by
    intro id found session outcome hafter
    cases outcome with
    | waits pending => cases hafter
    | answers answer =>
        cases hafter
        exact ⟨rfl, rfl, rfl⟩
  cases action with
  | place =>
      simp only [itemMachine] at hstep
      split at hstep <;> cases hstep
  | placeFails =>
      simp only [itemMachine] at hstep
      split at hstep <;> cases hstep
  | request id found =>
      simp only [itemMachine] at hstep
      split at hstep
      · cases hstep
      · obtain ⟨rfl, houtcome, hsession⟩ := hafter (Option.some.inj hstep)
        exact .inl ⟨houtcome, hsession⟩
  | resume id answer =>
      simp only [itemMachine] at hstep
      split at hstep
      · cases hstep
      next found pending hfound =>
        obtain ⟨⟨stored, outcome⟩, hresumed, heq⟩ := Option.map_eq_some_iff.mp hstep
        obtain ⟨rfl, rfl, rfl⟩ := hafter heq
        exact .inr ⟨id, pending, answer, hfound, hresumed⟩
  | started => cases hstep
  | failed => cases hstep
  | close => cases hstep

/-- The payload an item call is answered with is what its seq holds. -/
theorem reply_answered {state next : SessionState} {action : SessionAction} {call : ItemCall}
    {result : Except ItemError ItemPayload} (hstate : StateOk config loadDay state)
    (hstep : (itemMachine config loadDay).step state action = some (next, .item call result)) :
    Answered config next.session call.seq result := by
  rcases reply_cases hstep with ⟨hitem, hsession⟩ | ⟨id, pending, answer, hcall, hresumed⟩
  · rw [hsession]
    exact (item_resumes hstate.session state.isOpen call).1.answers result hitem
  · exact (resumed_ok hstate.session (hstate.inFlight id call pending hcall).2 hresumed).answers
      result rfl

/-! ## After the end -/

theorem authorised_error {session : StreamSession} {isOpen : Bool} {call : ItemCall}
    {error : ItemError} (htoken : call.token = some session.token)
    (hauthorised : authorised session isOpen call = .error error) : error = .unknownSession := by
  cases isOpen <;> simp_all [authorised]

theorem finalClip_error {read : SignOffRead} {error : ItemError}
    (hclip : finalClip config read = .error error) : error = .readFailed := by
  unfold finalClip at hclip
  split at hclip
  · cases hclip
  · split at hclip <;> simp_all

/-- A call at or past the recorded end, wherever it waits, can only fail. -/
theorem resumed_ended {session next : StreamSession} {isOpen : Bool} {call : ItemCall}
    {pending : Pending} {answer : Answer} {result : Except ItemError ItemPayload} {endSeq : Nat}
    (hsession : SessionOk config loadDay session) (hend : session.endSeq = some endSeq)
    (hseq : endSeq ≤ call.seq) (htoken : call.token = some session.token)
    (hpending : PendingOk config loadDay session call.seq pending)
    (hresumed : resumed config loadDay session isOpen call pending answer =
      some (next, .answers result)) :
    result = .error .endOfSchedule ∨ result = .error .unknownSession ∨
      result = .error .readFailed := by
  have hserved : served config session call.seq = .error .endOfSchedule :=
    served_ended hsession hend hseq
  obtain ⟨last, rfl, hlast⟩ := hsession.endWalk endSeq hend
  have hsize := hsession.ended _ hend
  -- The slot before such a call is the last one, so the walk from it has ended.
  have hbefore : ∀ {before slot}, call.seq = before + 1 →
      session.handedOut[before]? = some slot → (walkedFrom slot).isSome →
      ∃ song ended, slot = .song song ∧
        following config loadDay song.ref = .error (.endOfSchedule ended) := by
    intro before slot hcall hslot hwalked
    obtain ⟨hlt, -⟩ := List.getElem?_eq_some_iff.mp hslot
    rw [StreamSession.length_handedOut] at hlt
    obtain rfl : before = last := by omega
    rcases hlast with ⟨clip, hclip⟩ | ⟨song, ended, hsong, hended⟩
    · obtain rfl := Option.some.inj (hslot.symm.trans hclip)
      simp [walkedFrom] at hwalked
    · exact ⟨song, ended, Option.some.inj (hslot.symm.trans hsong), hended⟩
  cases pending with
  | placement => exact absurd hpending (by simp only [PendingOk]; omega)
  | landing landing => exact absurd hpending.1 (by omega)
  | walk previous =>
      obtain ⟨before, hcall, hprevious, hwalked⟩ := hpending
      obtain ⟨song, ended, rfl, hended⟩ := hbefore hcall hprevious hwalked
      cases answer with
      | thread readFails =>
          cases readFails with
          | true => cases hresumed; simp
          | false => simp [resumed, walkedFrom, hended] at hresumed
      | _ => cases hresumed
  | clip =>
      cases answer with
      | signOff read =>
          simp only [resumed] at hresumed
          split at hresumed
          next error hclip =>
            cases hresumed
            simp [finalClip_error hclip]
          next error _ hauthorised =>
            cases hresumed
            simp [authorised_error htoken hauthorised]
          next =>
            simp only [endSchedule, hserved] at hresumed
            cases hresumed
            simp
      | _ => cases hresumed
  | liners song found =>
      obtain ⟨before, hcall, hsong, hfound, -⟩ := hpending
      obtain ⟨other, ended, heq, hended⟩ := hbefore hcall hsong rfl
      obtain rfl : song = other := by simpa using heq
      rw [hfound] at hended
      cases hended
  | cues found =>
      obtain ⟨before, previous, walked, hcall, hprevious, hwalked, hfound⟩ := hpending
      obtain ⟨song, ended, rfl, hended⟩ := hbefore hcall hprevious (by simp [hwalked])
      obtain rfl : song = walked := by simpa [walkedFrom] using hwalked
      rw [hfound] at hended
      cases hended

/-- A new call at or past the recorded end is answered at once. -/
theorem item_ended {session : StreamSession} {isOpen : Bool} {call : ItemCall} {endSeq : Nat}
    (hsession : SessionOk config loadDay session) (hend : session.endSeq = some endSeq)
    (hseq : endSeq ≤ call.seq) (htoken : call.token = some session.token) :
    item config session isOpen call =
      .answers (.error (if isOpen then .endOfSchedule else .unknownSession)) := by
  unfold item
  split
  next error hauthorised =>
    obtain rfl := authorised_error htoken hauthorised
    cases isOpen
    · rfl
    · simp [authorised, htoken] at hauthorised
  next hauthorised =>
    rw [served_ended hsession hend hseq, (authorised_eq_ok.mp hauthorised).1]
    rfl

/-- Any answer to a call at or past the recorded end is a failure. -/
theorem reply_ended {state next : SessionState} {action : SessionAction} {call : ItemCall}
    {result : Except ItemError ItemPayload} {endSeq : Nat} (hstate : StateOk config loadDay state)
    (hend : state.session.endSeq = some endSeq) (hseq : endSeq ≤ call.seq)
    (htoken : call.token = some state.session.token)
    (hstep : (itemMachine config loadDay).step state action = some (next, .item call result)) :
    result = .error .endOfSchedule ∨ result = .error .unknownSession ∨
      result = .error .readFailed := by
  rcases reply_cases hstep with ⟨hitem, -⟩ | ⟨id, pending, answer, hcall, hresumed⟩
  · rw [item_ended hstate.session hend hseq htoken] at hitem
    cases hitem
    cases state.isOpen <;> simp
  · exact resumed_ended hstate.session hend hseq htoken
      (hstate.inFlight id call pending hcall).2 hresumed

/-! ## The contract -/

section

variable {openedAt : Int} {bookmarkKey : Option BookmarkKey} {token : String}
  {stationId : Option Uuid} {linerCadence : Option LinerCadence}

theorem stateOk_run {trace : List (SessionAction × Reply)} {state : SessionState}
    (hrun : (itemMachine config loadDay).Run
      (admitted openedAt bookmarkKey token stationId linerCadence) trace state) :
    StateOk config loadDay state :=
  hrun.invariant stateOk_preserved (stateOk_admitted ..)

theorem replies_answered {state : SessionState} {trace : List (SessionAction × Reply)}
    (hrun : (itemMachine config loadDay).Run
      (admitted openedAt bookmarkKey token stationId linerCadence) trace state)
    {action : SessionAction} {call : ItemCall} {result : Except ItemError ItemPayload}
    (hreply : (action, Reply.item call result) ∈ trace) :
    Answered config state.session call.seq result := by
  have hsaid := @Transition.Machine.Run.outputs _ _ _ (itemMachine config loadDay) _ _ _
    (StateOk config loadDay)
    (fun state _ reply => ∀ call result, reply = Reply.item call result →
      Answered config state.session call.seq result) stateOk_preserved ?_ ?_
    (stateOk_admitted ..) hrun _ hreply call result rfl
  · exact hsaid
  · rintro state next action _ hstate hstep call result rfl
    exact reply_answered hstate hstep
  · intro state next action output _ reply hstate hearlier hstep call result heq sent hsent
    obtain ⟨slot, hslot, hpayload⟩ := hearlier call result heq sent hsent
    obtain ⟨hnext, hextends⟩ := stateOk_step hstate hstep
    refine ⟨slot, ?_, hpayload⟩
    rw [hstate.session.consecutive.get?] at hslot
    rw [hnext.session.consecutive.get?]
    exact hextends.getElem? hslot

/-- The contract over any interleaving of a session's calls. A call at or past
the recorded end is refused at once while the session is open; one already in
flight fails too, and neither assigns anything. -/
theorem item_contract {trace : List (SessionAction × Reply)} {state : SessionState}
    (hrun : (itemMachine config loadDay).Run
      (admitted openedAt bookmarkKey token stationId linerCadence) trace state) :
    (state.session.assigned.keys = List.range state.session.assigned.size ∧
      (∀ more later, (itemMachine config loadDay).Run state more later →
        ∀ seq slot, state.session.assigned.get? seq = some slot →
          later.session.assigned.get? seq = some slot) ∧
      ∀ action call sent, (action, Reply.item call (.ok sent)) ∈ trace →
        ∃ slot, state.session.assigned.get? call.seq = some slot ∧
          slotPayload config call.seq slot = .ok sent) ∧
    ((∀ endSeq, state.session.endSeq = some endSeq → endSeq = state.session.assigned.size ∧
        ∀ more later, (itemMachine config loadDay).Run state more later →
          later.session.endSeq = some endSeq ∧
            later.session.assigned = state.session.assigned) ∧
      ∀ seq clip, state.session.assigned.get? seq = some (.clip clip) →
        state.session.endSeq = some (seq + 1)) ∧
    ∀ endSeq, state.session.endSeq = some endSeq →
      (∀ id call, endSeq ≤ call.seq → state.isOpen → call.token = some state.session.token →
        state.inFlight.get? id = none → ∃ next,
          (itemMachine config loadDay).step state (.request id call) =
            some (next, .item call (.error .endOfSchedule))) ∧
      ∀ action next call result,
        (itemMachine config loadDay).step state action = some (next, .item call result) →
        endSeq ≤ call.seq → call.token = some state.session.token →
        result = .error .endOfSchedule ∨ result = .error .unknownSession ∨
          result = .error .readFailed := by
  have hstate := stateOk_run hrun
  have hsession := hstate.session
  refine ⟨⟨hsession.consecutive, ?_, ?_⟩, ⟨?_, ?_⟩, ?_⟩
  · intro more later hlater seq slot hslot
    have hlaterState := hlater.invariant stateOk_preserved hstate
    rw [hsession.consecutive.get?] at hslot
    rw [hlaterState.session.consecutive.get?]
    exact (extends_run hstate hlater).getElem? hslot
  · intro action call sent hreply
    exact replies_answered hrun hreply sent rfl
  · intro endSeq hend
    exact ⟨hsession.ended endSeq hend, fun more later hlater =>
      (extends_run hstate hlater).ended endSeq hend⟩
  · intro seq clip hclip
    rw [hsession.consecutive.get?] at hclip
    exact hsession.signedOff seq clip hclip
  · intro endSeq hend
    refine ⟨?_, fun action next call result hstep hseq htoken =>
      reply_ended hstate hend hseq htoken hstep⟩
    intro id call hseq hopen htoken hfree
    -- At or past the end the answer needs no read, so the step that gives it always exists.
    have hitem : item config state.session state.isOpen call = _ :=
      item_ended hsession hend hseq htoken
    refine ⟨(state.after id call state.session (.answers (.error .endOfSchedule))).1, ?_⟩
    simp only [itemMachine, hfree]
    rw [hitem, if_pos hopen]
    rfl

end

/-- The service with a sign-off folder and no liners. -/
def plainConfig : StreamConfig where
  host := ⟨id, fun _ => true, id, id, fun folder name => folder ++ name⟩
  timing := {}
  finalClip := none
  signOffDir := some "clips/"
  linersDir := none
  nowPlayingDelay := 1000000

/-- A session on the last song of the log, after two calls for the seq past it
have both walked to the end. -/
theorem twoCalls_run : ∃ trace state,
    (itemMachine plainConfig twoSongs).Run (admitted 0 none "token" none none) trace state ∧
      state.session.endSeq = none ∧ state.isOpen ∧ state.session.token = "token" ∧
      ∃ first second,
        (itemMachine plainConfig twoSongs).step state (.resume 1 (.signOff .absent)) =
          some (first, .item ⟨some "token", 1⟩ (.error .endOfSchedule)) ∧
        first.session.endSeq = some 1 ∧ first.session.token = "token" ∧
        (itemMachine plainConfig twoSongs).step first (.resume 2 (.signOff .failed)) =
          some (second, .item ⟨some "token", 1⟩ (.error .readFailed)) := by
  have hplaced := Transition.Machine.Run.single
    (show (itemMachine plainConfig twoSongs).step (admitted 0 none "token" none none)
      (.place ⟨twoSongs, 1, ⟨1, 1, 2, 0, by decide, by decide, by decide⟩, none, {}⟩
        (some ⟨7, ⟨⟨1, 1⟩, 0⟩, 2, 0, 0⟩) none) = some (_, _) from rfl)
  have hfirst := hplaced.snoc
    (show (itemMachine plainConfig twoSongs).step _ (.request 0 ⟨some "token", 0⟩) =
      some (_, _) from rfl)
  have hlanding := hfirst.snoc
    (show (itemMachine plainConfig twoSongs).step _ (.resume 0 .placed) = some (_, _) from rfl)
  have hassigned := hlanding.snoc
    (show (itemMachine plainConfig twoSongs).step _ (.resume 0 (.thread false)) =
      some (_, _) from rfl)
  have hone := hassigned.snoc
    (show (itemMachine plainConfig twoSongs).step _ (.request 1 ⟨some "token", 1⟩) =
      some (_, _) from rfl)
  have htwo := hone.snoc
    (show (itemMachine plainConfig twoSongs).step _ (.request 2 ⟨some "token", 1⟩) =
      some (_, _) from rfl)
  have hwalkedOne := htwo.snoc
    (show (itemMachine plainConfig twoSongs).step _ (.resume 1 (.thread false)) =
      some (_, _) from rfl)
  have hwalkedTwo := hwalkedOne.snoc
    (show (itemMachine plainConfig twoSongs).step _ (.resume 2 (.thread false)) =
      some (_, _) from rfl)
  exact ⟨_, _, hwalkedTwo, rfl, rfl, rfl, _, _, rfl, rfl, rfl, rfl⟩

/-- The contract for the session above, once its end is recorded. -/
theorem item_contract_twoCalls : ∃ state : SessionState, state.session.endSeq = some 1 ∧
    state.session.assigned.keys = List.range state.session.assigned.size := by
  obtain ⟨trace, state, hrun, -, -, -, first, second, hstep, hend, -⟩ := twoCalls_run
  exact ⟨first, hend, (item_contract (hrun.snoc hstep)).1.1⟩

/-- A call in flight when the end is recorded may still fail to read its clip. -/
theorem item_contract_readFails :
    ¬ ∀ (trace : List (SessionAction × Reply)) (state : SessionState) (endSeq : Nat),
      (itemMachine plainConfig twoSongs).Run (admitted 0 none "token" none none) trace state →
      state.session.endSeq = some endSeq →
      ∀ action next call result,
        (itemMachine plainConfig twoSongs).step state action = some (next, .item call result) →
        endSeq ≤ call.seq → call.token = some state.session.token →
        result = .error .endOfSchedule := by
  obtain ⟨trace, state, hrun, -, -, -, first, second, hstep, hend, htoken, hfails⟩ := twoCalls_run
  intro hclaim
  have hresult := hclaim _ first 1 (hrun.snoc hstep) hend _ second _ _ hfails (by simp)
    (by rw [htoken])
  simp at hresult

end RetroStation.Streaming
