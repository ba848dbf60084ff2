import RetroStation.Streaming.ItemContract

/-! # The liners a session stores

Several calls may read the liners at once, each its own library, but only the
call that stores a slot moves the rotation. `Picked` is one such store, and every
run of a session is its stores one after another.
-/

namespace RetroStation.Streaming

variable {config : StreamConfig} {loadDay : DayLoader}

def Slot.liner? : Slot → Option LinerSlot
  | .liner slot => some slot
  | _ => none

/-- The liners among the slots, in order. -/
def linersOf (slots : List Slot) : List LinerSlot := slots.filterMap Slot.liner?

theorem mem_linersOf {slots : List Slot} {slot : LinerSlot} :
    slot ∈ linersOf slots ↔ .liner slot ∈ slots := by
  unfold linersOf
  rw [List.mem_filterMap]
  constructor
  · rintro ⟨found, hfound, hliner⟩
    cases found with
    | liner found =>
        obtain rfl := Option.some.inj hliner
        exact hfound
    | song => cases hliner
    | clip => cases hliner
  · exact fun hslot => ⟨_, hslot, rfl⟩

/-- A library of liners as one call read it, with the shuffle it was given. -/
structure LinerRead where
  liners : List PlayableLiner
  shuffle : List Uuid → List Uuid

namespace LinerRead

def ids (read : LinerRead) : List Uuid := read.liners.map PlayableLiner.linerId

/-- What the rotation picks from this library, and the rotation after it. -/
def next (read : LinerRead) (rotation : LinerRotation) : Option Uuid × LinerRotation :=
  nextLiner rotation read.ids read.shuffle

end LinerRead

/-- The slot is this read's pick, sent after its song with that song's span. -/
structure Picked (config : StreamConfig) (rotation : LinerRotation) (read : LinerRead)
    (slot : LinerSlot) (later : LinerRotation) : Prop where
  next : read.next rotation = (some slot.liner.linerId, later)
  mem : slot.liner ∈ read.liners
  span : slot.afterSpanMs = sentSpanMs config.timing slot.after

/-- What a step may do to the session's liners: leave them, or store one. -/
inductive LinerMove (config : StreamConfig) (session next : StreamSession) :
    Option LinerRead → Prop
  | keeps (hslots : linersOf next.handedOut = linersOf session.handedOut)
      (hrotation : next.linerRotation = session.linerRotation) : LinerMove config session next none
  | stores (read : LinerRead) (slot : LinerSlot)
      (hslots : linersOf next.handedOut = linersOf session.handedOut ++ [slot])
      (hpicked : Picked config session.linerRotation read slot next.linerRotation) :
      LinerMove config session next (some read)

namespace LinerMove

variable {session next : StreamSession}

theorem of_eq (hassigned : next.assigned = session.assigned)
    (hrotation : next.linerRotation = session.linerRotation) : LinerMove config session next none :=
  .keeps (by rw [StreamSession.handedOut, hassigned]; rfl) hrotation

end LinerMove

/-! ## One call -/

section

variable {session : StreamSession}

/-- A slot that is stored comes after the others. -/
theorem linersOf_set (hconsecutive : session.Consecutive) {next : StreamSession} {slot : Slot}
    {seq : Nat} (hseq : seq = session.assigned.size)
    (hnext : next.assigned = session.assigned.set seq slot) :
    linersOf next.handedOut = linersOf session.handedOut ++ slot.liner?.toList := by
  subst hseq
  rw [StreamSession.handedOut, hnext, (hconsecutive.set slot).2.1, linersOf, List.filterMap_append]
  cases hliner : slot.liner? <;> simp [linersOf, hliner]

theorem LinerMove.of_set (hconsecutive : session.Consecutive) {next : StreamSession} {slot : Slot}
    {seq : Nat} (hseq : seq = session.assigned.size)
    (hnext : next.assigned = session.assigned.set seq slot) (hslot : slot.liner? = none)
    (hrotation : next.linerRotation = session.linerRotation) : LinerMove config session next none :=
  .keeps (by simpa [hslot] using linersOf_set hconsecutive hseq hnext) hrotation

theorem assign_keeps (hsession : SessionOk config loadDay session) {seq : Nat} {slot : Slot}
    (hslot : slot.liner? = none) :
    LinerMove config session (assign config session seq slot).1 none := by
  unfold assign
  split
  · exact .of_eq rfl rfl
  · exact .of_eq rfl rfl
  next hserved =>
    obtain ⟨hseq, -⟩ := (served_eq_none hsession).mp hserved
    split
    · exact .of_eq rfl rfl
    · exact .of_set hsession.consecutive hseq rfl hslot rfl

theorem endSchedule_keeps (hsession : SessionOk config loadDay session) {seq : Nat}
    {clip : Option FinalClip} :
    LinerMove config session (endSchedule config session seq clip).1 none := by
  unfold endSchedule
  split
  · exact .of_eq rfl rfl
  · exact .of_eq rfl rfl
  next hserved =>
    obtain ⟨hseq, -⟩ := (served_eq_none hsession).mp hserved
    cases clip with
    | none => exact .of_eq rfl rfl
    | some clip => exact .of_set hsession.consecutive hseq rfl rfl rfl

/-- The liner stored is the rotation's pick from the library this call read. -/
theorem linerAfter_moves (hsession : SessionOk config loadDay session) {seq : Nat}
    {song next : Assigned} (read : LinerRead) :
    ∃ stored, LinerMove config session
        (linerAfter config session seq song next read.liners read.shuffle).1 stored ∧
      ∀ other, stored = some other → other = read := by
  unfold linerAfter
  split
  · exact ⟨none, .of_eq rfl rfl, by simp⟩
  · exact ⟨none, .of_eq rfl rfl, by simp⟩
  next hserved =>
    obtain ⟨hseq, -⟩ := (served_eq_none hsession).mp hserved
    split
    · exact ⟨none, .of_eq rfl rfl, by simp⟩
    next picked rotation hpicked =>
      split
      next liner stationId root hfind hstation hroot =>
        generalize hslotEq : (⟨liner, linerPath config root stationId liner.fileName, song,
          sentSpanMs config.timing song, some next⟩ : LinerSlot) = slot
        have hassign : assign config session seq (.liner slot) =
            ({ session with assigned := session.assigned.set seq (.liner slot) },
              .ok (linerPayload config.host seq slot)) := by
          have hsent : slotPayload config seq (.liner slot) =
              .ok (linerPayload config.host seq slot) := rfl
          simp only [assign, hserved, hsent]
        have hstored : (session.assigned.set seq (.liner slot)).get? seq = some (.liner slot) := by
          simp
        simp only [hassign, hstored, if_true]
        refine ⟨some read, .stores read slot ?_ ⟨?_, ?_, ?_⟩, by simp⟩
        · exact @linersOf_set session hsession.consecutive _ (.liner slot) seq hseq rfl
        · have hid := List.find?_some hfind
          simp only [decide_eq_true_eq] at hid
          rw [← hslotEq, hid]
          exact hpicked
        · rw [← hslotEq]
          exact List.mem_of_find?_eq_some hfind
        · rw [← hslotEq]
      · exact ⟨none, .of_eq rfl rfl, by simp⟩

end

/-! ## One step -/

/-- The library an action answers a call with. -/
def SessionAction.linerRead : SessionAction → Option LinerRead
  | .resume _ (.liners (.answered liners) shuffle) => some ⟨liners, shuffle⟩
  | _ => none

theorem LinerMove.stores_mem {session next : StreamSession} {read : LinerRead}
    (hmove : LinerMove config session next (some read)) : read.liners ≠ [] := by
  cases hmove with
  | stores _ slot hslots hpicked => exact List.ne_nil_of_mem hpicked.mem

/-- A call that goes on leaves the liners, or stores the pick of the library it read. -/
theorem resumed_moves {session next : StreamSession} {isOpen : Bool} {call : ItemCall}
    {pending : Pending} {answer : Answer} {outcome : Outcome}
    (hsession : SessionOk config loadDay session)
    (hresumed : resumed config loadDay session isOpen call pending answer = some (next, outcome)) :
    ∃ stored, LinerMove config session next stored ∧ ∀ read, stored = some read →
      answer = .liners (.answered read.liners) read.shuffle := by
  have hkeeps (hmove : LinerMove config session next none) :
      ∃ stored, LinerMove config session next stored ∧ ∀ read, stored = some read →
        answer = .liners (.answered read.liners) read.shuffle := ⟨none, hmove, by simp⟩
  have hsame {later : Outcome} (heq : some (session, later) = some (next, outcome)) :
      LinerMove config session next none := by
    cases heq
    exact .of_eq rfl rfl
  unfold resumed at hresumed
  dsimp only at hresumed
  split at hresumed
  case h_1 => exact hkeeps (hsame hresumed)
  case h_2 =>
    split at hresumed
    · cases hresumed
    · split at hresumed <;> exact hkeeps (hsame hresumed)
  case h_3 =>
    split at hresumed
    · exact hkeeps (hsame hresumed)
    · split at hresumed
      · exact hkeeps (hsame hresumed)
      · exact hkeeps (hsame hresumed)
      · cases hresumed
        exact hkeeps (assign_keeps hsession rfl)
  case h_4 =>
    repeat' split at hresumed
    all_goals exact hkeeps (hsame hresumed)
  case h_5 =>
    split at hresumed
    · exact hkeeps (hsame hresumed)
    · exact hkeeps (hsame hresumed)
    · cases hresumed
      exact hkeeps (endSchedule_keeps hsession)
  -- The only place where liners are read: the other calls leave the rotation.
  case h_6 song found read shuffle =>
    cases read with
    | failed => exact hkeeps (hsame hresumed)
    | unread =>
        dsimp only at hresumed
        split at hresumed
        · exact hkeeps (hsame hresumed)
        · obtain ⟨stored, hmove, hread⟩ :=
            @linerAfter_moves config loadDay session hsession call.seq
            song found ⟨[], shuffle⟩
          have hsaved : (linerAfter config session call.seq song found [] shuffle).1 = next := by
            split at hresumed
            all_goals
              next later _ hafter =>
                cases hresumed
                rw [hafter]
          subst hsaved
          cases stored with
          | none => exact hkeeps hmove
          | some other =>
              exact absurd (congrArg LinerRead.liners (hread other rfl)) hmove.stores_mem
    | answered liners =>
        dsimp only at hresumed
        split at hresumed
        · exact hkeeps (hsame hresumed)
        · obtain ⟨stored, hmove, hread⟩ :=
            @linerAfter_moves config loadDay session hsession call.seq
            song found ⟨liners, shuffle⟩
          have hsaved : (linerAfter config session call.seq song found liners shuffle).1 =
            next := by
            split at hresumed
            all_goals
              next later _ hafter =>
                cases hresumed
                rw [hafter]
          subst hsaved
          refine ⟨stored, hmove, fun other hother => ?_⟩
          rw [hread other hother]
  case h_7 =>
    split at hresumed
    · exact hkeeps (hsame hresumed)
    · cases hresumed
      exact hkeeps (assign_keeps hsession rfl)
  case h_8 => cases hresumed

/-- A step stores at most one liner, picked from the library its action reads. -/
theorem step_moves {state next : SessionState} {action : SessionAction} {reply : Reply}
    (hstate : StateOk config loadDay state)
    (hstep : (itemMachine config loadDay).step state action = some (next, reply)) :
    ∃ stored, LinerMove config state.session next.session stored ∧
      ∀ read, stored = some read → action.linerRead = some read := by
  have hkeeps {session : StreamSession} (hassigned : session.assigned = state.session.assigned)
      (hrotation : session.linerRotation = state.session.linerRotation) :
      ∃ stored, LinerMove config state.session session stored ∧
        ∀ read, stored = some read → action.linerRead = some read :=
    ⟨none, .of_eq hassigned hrotation, by simp⟩
  cases action with
  | place schedule live saved =>
      simp only [itemMachine] at hstep
      split at hstep
      · cases hstep
      · cases hstep
        unfold placedSession
        split <;> exact hkeeps rfl rfl
  | placeFails =>
      simp only [itemMachine] at hstep
      split at hstep
      · cases hstep
      · cases hstep
        exact hkeeps rfl rfl
  | request id call =>
      simp only [itemMachine] at hstep
      split at hstep
      · cases hstep
      · have hnext : (state.after id call state.session
            (item config state.session state.isOpen call)).1 = next :=
          congrArg Prod.fst (Option.some.inj hstep)
        subst hnext
        exact hkeeps (by rw [SessionState.after_session]) (by rw [SessionState.after_session])
  | resume id answer =>
      simp only [itemMachine] at hstep
      split at hstep
      · cases hstep
      next call pending hcall =>
        obtain ⟨⟨stored, outcome⟩, hresumed, hafter⟩ := Option.map_eq_some_iff.mp hstep
        obtain ⟨kept, hmove, hread⟩ := resumed_moves hstate.session hresumed
        have hnext : (state.after id call stored outcome).1 = next := congrArg Prod.fst hafter
        subst hnext
        refine ⟨kept, by rw [SessionState.after_session]; exact hmove, fun read hkept => ?_⟩
        rw [hread read hkept]
        rfl
  | started call elapsedNow =>
      have hnext : { state with
          session := (started config state.session state.isOpen call elapsedNow).1 } = next :=
        congrArg Prod.fst (Option.some.inj hstep)
      subst hnext
      rcases @started_cases config state.session state.isOpen call elapsedNow with
        hsame | ⟨slot, nowPlaying, -, -, hsame⟩
      all_goals exact hkeeps (by rw [hsame]) (by rw [hsame])
  | failed call =>
      have hnext : { state with session := (failed state.session state.isOpen call).1 } = next :=
        congrArg Prod.fst (Option.some.inj hstep)
      subst hnext
      rcases failed_cases state.session state.isOpen call with hsame | ⟨clip, -, hsame⟩
      all_goals exact hkeeps (by rw [hsame]) (by rw [hsame])
  | close =>
      cases hstep
      exact hkeeps rfl rfl

/-! ## Every run -/

/-- The liners a session stores, each picked by the rotation the one before left. -/
inductive Rotates (config : StreamConfig) :
    List LinerRead → List LinerSlot → LinerRotation → Prop
  | start : Rotates config [] [] {}
  | stores {reads : List LinerRead} {slots : List LinerSlot} {rotation later : LinerRotation}
      {read : LinerRead} {slot : LinerSlot} (hrotates : Rotates config reads slots rotation)
      (hpicked : Picked config rotation read slot later) :
      Rotates config (reads ++ [read]) (slots ++ [slot]) later

/-- Each liner keeps the span its song was sent with. -/
theorem Rotates.span {reads : List LinerRead} {slots : List LinerSlot} {rotation : LinerRotation}
    (hrotates : Rotates config reads slots rotation) :
    ∀ slot ∈ slots, slot.afterSpanMs = sentSpanMs config.timing slot.after := by
  induction hrotates with
  | start => simp
  | stores hrotates hpicked ih =>
      intro slot hslot
      rcases List.mem_append.mp hslot with hslot | hslot
      · exact ih slot hslot
      · rw [List.mem_singleton.mp hslot]
        exact hpicked.span

/-- The step of a run that stores a liner: it answers a call with the library read, and
the liners before it are the first `index`. -/
structure StoredAt (config : StreamConfig) (loadDay : DayLoader) (start : SessionState)
    (trace : List (SessionAction × Reply)) (slots : List LinerSlot) (index : Nat)
    (read : LinerRead) : Prop where
  intro ::
  step : ∃ before after action reply earlier later,
    trace = before ++ (action, reply) :: after ∧
    (itemMachine config loadDay).Run start before earlier ∧
    (itemMachine config loadDay).step earlier action = some (later, reply) ∧
    action.linerRead = some read ∧
    linersOf earlier.session.handedOut = slots.take index ∧
    linersOf later.session.handedOut = slots.take (index + 1)

theorem StoredAt.later {start : SessionState} {trace more : List (SessionAction × Reply)}
    {slots last : List LinerSlot} {index : Nat} {read : LinerRead}
    (hstored : StoredAt config loadDay start trace slots index read)
    (hindex : index < slots.length) :
    StoredAt config loadDay start (trace ++ more) (slots ++ last) index read := by
  obtain ⟨before, after, action, reply, earlier, later, rfl, hrun, hstep, hread, hbefore, hafter⟩ :=
    hstored
  refine ⟨before, after ++ more, action, reply, earlier, later, by simp, hrun, hstep, hread, ?_, ?_⟩
  · rw [hbefore, List.take_append_of_le_length (by omega)]
  · rw [hafter, List.take_append_of_le_length (by omega)]

/-- However its calls overlap, a session's liners come from one rotation, each from the
library that was read by the call that stored it. -/
theorem run_rotates {openedAt : Int} {bookmarkKey : Option BookmarkKey} {token : String}
    {stationId : Option Uuid} {linerCadence : Option LinerCadence}
    {trace : List (SessionAction × Reply)} {state : SessionState}
    (hrun : (itemMachine config loadDay).Run
      (admitted openedAt bookmarkKey token stationId linerCadence) trace state) :
    ∃ reads, Rotates config reads (linersOf state.session.handedOut) state.session.linerRotation ∧
      reads.length = (linersOf state.session.handedOut).length ∧
      ∀ index read, reads[index]? = some read → StoredAt config loadDay
        (admitted openedAt bookmarkKey token stationId linerCadence) trace
        (linersOf state.session.handedOut) index read := by
  induction hrun with
  | nil => exact ⟨[], .start, rfl, by simp⟩
  | @snoc trace state next action reply hrun hstep ih =>
      obtain ⟨reads, hrotates, hlength, hstored⟩ := ih
      obtain ⟨stored, hmove, hread⟩ := step_moves (stateOk_run hrun) hstep
      have hearlier {index : Nat} {read : LinerRead} (last : List LinerSlot)
          (hindex : reads[index]? = some read) : StoredAt config loadDay
            (admitted openedAt bookmarkKey token stationId linerCadence)
            (trace ++ [(action, reply)]) (linersOf state.session.handedOut ++ last) index read :=
        (hstored index read hindex).later (hlength ▸ (List.getElem?_eq_some_iff.mp hindex).1)
      cases hmove with
      | keeps hslots hrotation =>
          rw [hslots, hrotation]
          refine ⟨reads, hrotates, hlength, fun index read hindex => ?_⟩
          simpa using hearlier [] hindex
      | stores read slot hslots hpicked =>
          rw [hslots]
          refine ⟨reads ++ [read], hrotates.stores hpicked, by simp [hlength],
            fun index found hfound => ?_⟩
          rcases getElem?_append_singleton_eq_some hfound with ⟨-, hindex⟩ | ⟨rfl, rfl⟩
          · exact hearlier [slot] hindex
          · refine ⟨trace, [], action, reply, state, next, rfl, hrun, hstep, hread _ rfl, ?_, ?_⟩
            · rw [hlength, List.take_left']
              rfl
            · rw [hslots, List.take_of_length_le]
              simp [hlength]

/-! ## A session with a liner -/

/-- The service with a liners folder. -/
def linerConfig : StreamConfig := { plainConfig with linersDir := some "liners/" }

def jingle : PlayableLiner := ⟨7, "jingle.wav", ⟨0, 5000, 0, 0, 0, 0, by decide, by decide⟩⟩

/-- A session whose station plays a liner after every song: a song, and the liner, which
has started. -/
def linerActions : List SessionAction :=
  [.place ⟨twoSongs, 1, ⟨1, 3, 4, 7, by decide, by decide, by decide⟩, none,
      { window := 7200000000, maxDaysAhead := 3 }⟩
      (some ⟨7, ⟨⟨1, 0⟩, 0⟩, 1, 0, 0⟩) none,
    .request 0 ⟨some "token", 0⟩, .resume 0 .placed, .resume 0 (.thread false),
    .request 1 ⟨some "token", 1⟩, .resume 1 (.thread false),
    .resume 1 (.liners (.answered [jingle]) id), .started ⟨some "token", 1⟩ 60000000]

/-- The song after the liner is asked for. -/
def afterJingle : List SessionAction :=
  [.request 2 ⟨some "token", 2⟩, .resume 2 (.thread false), .resume 2 (.cues none)]

def linerSession : SessionState :=
  admitted 0 none "token" (some 5) (some ⟨1, by decide⟩)

theorem linerSession_run : ∃ trace state,
    (itemMachine linerConfig twoSongs).Run linerSession trace state ∧
      trace.map Prod.fst = linerActions ∧
      (linersOf state.session.handedOut).map (fun slot => slot.liner) = [jingle] ∧
      (∃ slot, state.session.committed = some ⟨1, .liner slot, 60000000⟩ ∧
        state.session.handedOut[1]? = some (.liner slot)) ∧
      ∃ more later slot, (itemMachine linerConfig twoSongs).Run state more later ∧
        later.session.handedOut[2]? = some slot :=
  ⟨_, _, Transition.Machine.run_of_exec
    (rfl : (itemMachine linerConfig twoSongs).exec linerSession linerActions = some (_, _)),
    rfl, rfl, ⟨_, rfl, rfl⟩, _, _, _, Transition.Machine.run_of_exec
    (rfl : (itemMachine linerConfig twoSongs).exec _ afterJingle = some (_, _)), rfl⟩

/-! ## A session with several liners -/

def ident : PlayableLiner := ⟨8, "ident.wav", ⟨0, 4000, 0, 0, 0, 0, by decide, by decide⟩⟩

/-- A minute of each of four files, logged on day 1. -/
def fourSongs : DayLoader
  | 1 => [⟨1, 0, "First", "One", some ⟨11, "one.flac", some 60000, none⟩⟩,
      ⟨2, 60000000, "Second", "Two", some ⟨12, "two.flac", some 60000, none⟩⟩,
      ⟨3, 120000000, "Third", "Three", some ⟨13, "three.flac", some 60000, none⟩⟩,
      ⟨4, 180000000, "Fourth", "Four", some ⟨14, "four.flac", some 60000, none⟩⟩]
  | _ => []

/-- A liner is picked from two, and the song after it is asked for. -/
def linerAndSong (seq : Nat) (shuffle : List Uuid → List Uuid) : List SessionAction :=
  [.request seq ⟨some "token", seq⟩, .resume seq (.thread false),
    .resume seq (.liners (.answered [jingle, ident]) shuffle),
    .request (seq + 1) ⟨some "token", seq + 1⟩, .resume (seq + 1) (.thread false),
    .resume (seq + 1) (.cues none)]

/-- A liner after every song. The first shuffle turns the library round, the second leaves it. -/
def rotationActions : List SessionAction :=
  [.place ⟨fourSongs, 1, ⟨1, 3, 4, 7, by decide, by decide, by decide⟩, none,
      { window := 7200000000, maxDaysAhead := 3 }⟩
      (some ⟨7, ⟨⟨1, 0⟩, 0⟩, 1, 0, 0⟩) none,
    .request 0 ⟨some "token", 0⟩, .resume 0 .placed, .resume 0 (.thread false)] ++
    linerAndSong 1 List.reverse ++ linerAndSong 3 id ++ linerAndSong 5 id

def fourRefs : List ItemRef := [⟨1, 0⟩, ⟨1, 1⟩, ⟨1, 2⟩, ⟨1, 3⟩]

theorem rotation_run : ∃ trace state,
    (itemMachine linerConfig fourSongs).Run linerSession trace state ∧
      trace.map Prod.fst = rotationActions ∧
      (linersOf state.session.handedOut).map (fun slot => slot.liner.linerId) = [8, 7, 8] ∧
      (songsOf state.session.handedOut).map Assigned.ref = fourRefs ∧
      (state.session.handedOut.map fun slot => slot.liner?.isSome) =
        [false, true, false, true, false, true, false] :=
  ⟨_, _, Transition.Machine.run_of_exec
    (rfl : (itemMachine linerConfig fourSongs).exec linerSession rotationActions = some (_, _)),
    rfl, rfl, rfl, rfl⟩

end RetroStation.Streaming
