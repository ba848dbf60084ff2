import RetroStation.Locking.ReadCommitted
import RetroStation.Matching.DecisionMoves
import RetroStation.Matching.ShownFiles

/-! # Decisions of one song, statement by statement

A matching run decides a song with three statements, and so do the users, each in a
transaction of its own. Headline results: `decision_wins` (however the statements
interleave, the last decision that a user committed stands) and the `…_exec` theorems (each
transaction alone is the one step it is taken for elsewhere).
-/

namespace RetroStation.Matching

open Library Database Locking

abbrev SongProgram := Program BroadcastTrackIdentity Match

/-! ## The transactions -/

/-- A row as it is stored: an empty work id is none. -/
def storedRow (row : Match) : Match := { row with workId := truthy row.workId }

/-- A run's writes for a song, whose result it came to before. -/
def persistProgram (identity : BroadcastTrackIdentity) (result : IdentityMatchResult) :
    SongProgram :=
  .updateWhere (fun song => song.matchStatus = .pending) result.decision.write fun written =>
    if written then
      .deleteRows (match suggestion identity result with
        | some row => .insertRow (storedRow row) .finished
        | none => .finished)
    else .finished

def manualRow (identityId : Uuid) (file : LibraryFile) : Match where
  subject := .identity identityId
  confidenceScore := 1
  matchTier := .manual
  libraryFileId := some file.id
  targetType := some .libraryFile
  workId := truthy file.workId

def linked (song : BroadcastTrackIdentity) : BroadcastTrackIdentity :=
  { song with matchStatus := .manualMatched, matchTier := some .manual }

/-- A match by hand, to the file that the transaction finds under the id it was given. -/
def resolveProgram (identityId : Uuid) (file : Option LibraryFile) : SongProgram :=
  .updateWhere (fun _ => true) linked fun _ => .deleteRows (match file with
    | some file => .insertRow (storedRow (manualRow identityId file)) .finished
    | none => .refused)

def parked (libraryFileIds : List Uuid) (song : BroadcastTrackIdentity) :
    BroadcastTrackIdentity :=
  { song with
    rejectedFileIds := (song.rejectedFileIds ++ libraryFileIds).dedup
    matchStatus := .manualRejected
    matchTier := none
    reasonCode := some .userUnmatched
    reasonDetail := none }

def parkProgram (libraryFileIds : List Uuid) : SongProgram :=
  .updateWhere (fun _ => true) (parked libraryFileIds) fun _ => .deleteRows .finished

/-- The matched files are read under the lock, then rejected with the song. -/
def parkMatchedProgram : SongProgram :=
  .selectRows fun rows => parkProgram (rows.filterMap Match.libraryFileId).dedup

def rejectProgram (shownFileId : Option Uuid) : SongProgram :=
  .selectForUpdate fun song =>
    if song.matchStatus ∈ MATCHED then parkMatchedProgram
    else if song.matchStatus ∈ IN_REVIEW then
      match shownFileId with
      | some shown => parkProgram [shown]
      | none => .refused
    else .refused

def unmatchProgram : SongProgram :=
  .selectForUpdate fun song =>
    if song.matchStatus ∈ MATCHED then parkMatchedProgram else .refused

/-- What is asked of a song: by a run, or by a user. -/
inductive SongRequest
  | persist (identity : BroadcastTrackIdentity) (result : IdentityMatchResult)
  | resolve (file : Option LibraryFile)
  | reject (shownFileId : Option Uuid)
  | unmatch

def SongRequest.program (identityId : Uuid) : SongRequest → SongProgram
  | .persist identity result => persistProgram identity result
  | .resolve file => resolveProgram identityId file
  | .reject shownFileId => rejectProgram shownFileId
  | .unmatch => unmatchProgram

/-- What a user's decision makes of the song, its status and its rows. -/
def SongRequest.decision (identityId : Uuid) : SongRequest → Option (MatchStatus × List Match)
  | .persist _ _ => none
  | .resolve file =>
    file.map fun file => (.manualMatched, [storedRow (manualRow identityId file)])
  | .reject _ => some (.manualRejected, [])
  | .unmatch => some (.manualRejected, [])

abbrev songTransactions (identityId : Uuid) := Locking.machine (SongRequest.program identityId)

abbrev SongStore := Store SongRequest BroadcastTrackIdentity Match

abbrev SongCommit := Option (SongRequest × Bool)

/-! ## What each makes of the song alone -/

section

variable {identityId : Uuid} {request : SongRequest}
  {found left : View BroadcastTrackIdentity Match}

theorem locksFirst (request : SongRequest) : (request.program identityId).LocksFirst := by
  cases request with
  | persist identity result => exact fun _ _ => rfl
  | resolve file => exact fun _ hnever => Bool.noConfusion hnever
  | reject shownFileId => trivial
  | unmatch => trivial

/-- A decision makes what it decides of whatever it finds. -/
theorem decision_exec {status : MatchStatus} {rows : List Match}
    (hdecision : request.decision identityId = some (status, rows))
    (hexec : (request.program identityId).exec found = some left) :
    left.record.matchStatus = status ∧ left.rows = rows := by
  have hparked : ∀ {view : View BroadcastTrackIdentity Match}, view = left →
      view.record.matchStatus = .manualRejected ∧ view.rows = [] →
      some (MatchStatus.manualRejected, ([] : List Match)) = some (status, rows) →
      left.record.matchStatus = status ∧ left.rows = rows := by
    rintro view rfl hview heq
    obtain ⟨rfl, rfl⟩ := Prod.mk.inj (Option.some.inj heq)
    exact hview
  cases request with
  | persist identity result => cases hdecision
  | resolve file =>
      cases file with
      | none => cases hdecision
      | some file =>
          obtain rfl := Option.some.inj hexec
          obtain ⟨rfl, rfl⟩ := Prod.mk.inj (Option.some.inj hdecision)
          exact ⟨rfl, rfl⟩
  | reject shownFileId =>
      simp only [SongRequest.program, rejectProgram, Program.exec] at hexec
      split at hexec
      · exact hparked (Option.some.inj hexec) ⟨rfl, rfl⟩ hdecision
      · split at hexec
        · cases shownFileId with
          | none => cases hexec
          | some shown => exact hparked (Option.some.inj hexec) ⟨rfl, rfl⟩ hdecision
        · cases hexec
  | unmatch =>
      simp only [SongRequest.program, unmatchProgram, Program.exec] at hexec
      split at hexec
      · exact hparked (Option.some.inj hexec) ⟨rfl, rfl⟩ hdecision
      · cases hexec

/-- What is no decision leaves a decided song as it is. -/
theorem no_decision_exec (hnone : request.decision identityId = none)
    (hdecided : found.record.matchStatus ≠ .pending)
    (hexec : (request.program identityId).exec found = some left) : left = found := by
  cases request with
  | persist identity result =>
      rw [SongRequest.program, persistProgram, Program.exec,
        if_neg (by simpa using hdecided)] at hexec
      exact (Option.some.inj hexec).symm
  | resolve file =>
      cases file with
      | none => cases hexec
      | some file => cases hnone
  | reject shownFileId => cases hnone
  | unmatch => cases hnone

theorem alwaysLocks_of_decision {decided : MatchStatus × List Match}
    (hdecision : request.decision identityId = some decided) :
    (request.program identityId).AlwaysLocks := by
  cases request with
  | persist identity result => cases hdecision
  | resolve file => exact fun _ => rfl
  | reject shownFileId => trivial
  | unmatch => trivial

theorem decision_status_ne_pending {status : MatchStatus} {rows : List Match}
    (hdecision : request.decision identityId = some (status, rows)) : status ≠ .pending := by
  cases request with
  | persist identity result => cases hdecision
  | resolve file =>
      obtain ⟨file, -, heq⟩ := Option.map_eq_some_iff.mp hdecision
      obtain ⟨rfl, -⟩ := Prod.mk.inj heq
      simp
  | reject shownFileId =>
      obtain ⟨rfl, -⟩ := Prod.mk.inj (Option.some.inj hdecision)
      simp
  | unmatch =>
      obtain ⟨rfl, -⟩ := Prod.mk.inj (Option.some.inj hdecision)
      simp

end

/-! ## The steps they are taken for -/

section

variable {db : Database} {identityId : Uuid}

/-- The song in the database, with its rows. -/
def viewOf (db : Database) (identityId : Uuid) : Option (View BroadcastTrackIdentity Match) :=
  (db.getIdentity identityId).map fun song => ⟨song, db.rowsOf identityId⟩

theorem viewOf_changed {change : BroadcastTrackIdentity → BroadcastTrackIdentity}
    (hid : ∀ song, (change song).id = song.id) {next : Database}
    (hnext : next.identities =
      (db.changeSongs (fun song => song.id = identityId) change).identities) :
    viewOf next identityId =
      (db.getIdentity identityId).map fun song => ⟨change song, next.rowsOf identityId⟩ := by
  have hlater : next.getIdentity identityId = (db.getIdentity identityId).map fun song =>
      if decide (song.id = identityId) then change song else song := by
    rw [getIdentity, hnext]
    exact getIdentity_changeSongs hid
  rw [viewOf, hlater, Option.map_map]
  cases hsong : db.getIdentity identityId with
  | none => rfl
  | some song => simp [(getIdentity_eq_some hsong).2]

theorem persist_exec {identity : BroadcastTrackIdentity} {result : IdentityMatchResult}
    (hsongs : Table.UniqueBy BroadcastTrackIdentity.id db.identities) :
    viewOf (persist db identity result).2 identity.id =
      (viewOf db identity.id).bind (persistProgram identity result).exec := by
  obtain ⟨-, -, -, hrows⟩ := persist_writes db identity result
  rw [viewOf, viewOf, getIdentity_persist, hrows]
  cases hsong : db.getIdentity identity.id with
  | none => rfl
  | some song =>
      obtain ⟨hmem, hid⟩ := getIdentity_eq_some hsong
      have hany : db.identities.any (stillPending identity.id) = true ↔
          song.matchStatus = .pending := by
        rw [List.any_eq_true]
        constructor
        · rintro ⟨other, hother, hpending⟩
          obtain ⟨hsame, hpending⟩ := of_decide_eq_true hpending
          rwa [hsongs.eq hmem hother (hid.trans hsame.symm)]
        · exact fun hpending => ⟨song, hmem, decide_eq_true ⟨hid, hpending⟩⟩
      by_cases hpending : song.matchStatus = .pending
      · have hstill : stillPending identity.id song = true := decide_eq_true ⟨hid, hpending⟩
        simp only [Option.map_some, Option.bind_some, persistProgram, Program.exec, hpending,
          decide_true, if_true, hstill, hany, and_self]
        cases hsuggested : suggestion identity result with
        | none => simp [Program.exec, shownRows, hsuggested]
        | some row => simp [Program.exec, shownRows, hsuggested, storedRow]
      · simp [persistProgram, Program.exec, hpending, stillPending, hany]

theorem resolve_exec {libraryFileId : Uuid} :
    (resolveIdentityMatched db identityId libraryFileId).bind (viewOf · identityId) =
      (viewOf db identityId).bind
        (resolveProgram identityId (getById db.files libraryFileId)).exec := by
  unfold resolveIdentityMatched
  dsimp only
  cases hsong : db.getIdentity identityId with
  | none => simp [viewOf, hsong]
  | some song =>
      cases hfile : getById db.files libraryFileId with
      | none =>
          have hgone : getById ((db.changeSongs (fun song => song.id = identityId)
              linked).deleteForIdentity identityId).files libraryFileId = none := hfile
          change ((getById ((db.changeSongs (fun song => song.id = identityId)
            linked).deleteForIdentity identityId).files libraryFileId).map _).bind _ = _
          simp [viewOf, hsong, resolveProgram, Program.exec, hgone]
      | some file =>
          have hfound : getById ((db.changeSongs (fun song => song.id = identityId)
              linked).deleteForIdentity identityId).files libraryFileId = some file := hfile
          change ((getById ((db.changeSongs (fun song => song.id = identityId)
            linked).deleteForIdentity identityId).files libraryFileId).map _).bind _ = _
          obtain ⟨-, rfl⟩ := getById_eq_some hfile
          rw [hfound, Option.map_some, Option.bind_some]
          refine Eq.trans (@viewOf_changed db identityId linked (fun _ => rfl) _ ?_) ?_
          · rfl
          rw [rowsOf_createMatch, rowsOf_deleteForIdentity]
          simp [viewOf, hsong, resolveProgram, Program.exec, storedRow, manualRow]

theorem recordSongRejection_view {libraryFileIds : List Uuid} :
    viewOf (recordSongRejection db identityId libraryFileIds) identityId =
      (viewOf db identityId).bind (parkProgram libraryFileIds).exec := by
  refine Eq.trans (@viewOf_changed db identityId (parked libraryFileIds) (fun _ => rfl) _ ?_) ?_
  · rfl
  have hrows : (recordSongRejection db identityId libraryFileIds).rowsOf identityId = [] := by
    rw [recordSongRejection, rowsOf_deleteForIdentity, if_pos rfl]
  rw [hrows, viewOf]
  cases db.getIdentity identityId with
  | none => rfl
  | some song => rfl

theorem reject_exec {shownFileId : Option Uuid} :
    (rejectSongSuggestion db identityId shownFileId).bind (viewOf · identityId) =
      (viewOf db identityId).bind (rejectProgram shownFileId).exec := by
  unfold rejectSongSuggestion
  cases hsong : db.getIdentity identityId with
  | none => simp [viewOf, hsong]
  | some song =>
      simp only [viewOf, hsong, Option.bind_some, Option.map_some, rejectProgram, Program.exec]
      split
      · exact recordSongRejection_view.trans (by rw [viewOf, hsong]; rfl)
      · split
        · cases shownFileId with
          | none => rfl
          | some shown => exact recordSongRejection_view.trans (by rw [viewOf, hsong]; rfl)
        · rfl

theorem unmatch_exec :
    (unmatchSong db identityId).bind (viewOf · identityId) =
      (viewOf db identityId).bind unmatchProgram.exec := by
  unfold unmatchSong
  cases hsong : db.getIdentity identityId with
  | none => simp [viewOf, hsong]
  | some song =>
      simp only [viewOf, hsong, Option.bind_some, Option.map_some, unmatchProgram, Program.exec]
      split
      · exact recordSongRejection_view.trans (by rw [viewOf, hsong]; rfl)
      · rfl

end

/-! ## Every interleaving -/

/-- However the statements of runs and users interleave, the song is what the last decision
committed by a user made of it. -/
theorem decision_wins {identityId : Uuid} {start last : SongStore}
    {before after : List (Locking.Action SongRequest × SongCommit)} {tx : Tx}
    {request : SongRequest} {held : Bool} {status : MatchStatus} {rows : List Match}
    (hidle : start.Idle)
    (hrun : (songTransactions identityId).Run start
      (before ++ (.commit tx, some (request, held)) :: after) last)
    (hdecision : request.decision identityId = some (status, rows))
    (hlast : ∀ entry ∈ after, ∀ later held', entry.2 = some (later, held') →
      later.decision identityId = none) :
    last.record.matchStatus = status ∧ last.rows.map Prod.snd = rows := by
  -- A decision takes the row's lock whatever it finds, so its commit is one of the serial order.
  have hheld : held = true := committed_held locksFirst hidle hrun
    (List.mem_append_right _ List.mem_cons_self) (alwaysLocks_of_decision hdecision)
  subst hheld
  have hserial := serial_run locksFirst hidle hrun
  rw [List.filterMap_append, show List.filterMap (fun entry => effective entry.2)
    ((Locking.Action.commit tx, some (request, true)) :: after) =
      request :: List.filterMap (fun entry => effective entry.2) after from rfl] at hserial
  obtain ⟨found, left, hexec, hafter⟩ := replay_split hserial
  have hdecided := decision_exec hdecision hexec
  refine @replay_invariant _ _ _ _ (fun view => view.record.matchStatus = status ∧
    view.rows = rows) _ _ _ ?_ hafter hdecided
  -- What is committed later decides nothing, and leaves a song that is not pending.
  rintro later hlater found left ⟨hstatus, hrows⟩ hexec
  obtain ⟨entry, hentry, heffect⟩ := List.mem_filterMap.mp hlater
  have hcommitted : entry.2 = some (later, true) := by
    generalize entry.2 = output at heffect
    unfold effective at heffect
    split at heffect
    · exact Option.some.inj heffect ▸ rfl
    · cases heffect
  have hpending : found.record.matchStatus ≠ .pending :=
    hstatus ▸ decision_status_ne_pending hdecision
  rw [no_decision_exec (hlast entry hentry later true hcommitted) hpending hexec]
  exact ⟨hstatus, hrows⟩

/-- A pending song with the row of an old suggestion. -/
def suggestedSong : SongStore where
  record := goneSong
  rows := [(0, storedRow (manualRow 1 { id := 9, filePath := "/abba/old.flac" }))]
  nextKey := 1

def pickedFile : LibraryFile := { id := 7, filePath := "/abba/dancing.flac" }

theorem suggestedSong_idle : suggestedSong.Idle := ⟨rfl, fun _ => rfl⟩

/-- A run comes to a result for the song, and a user matches it. -/
def userFirst : List (Locking.Action SongRequest × SongCommit) :=
  [(.start 0 (.persist goneSong mbDeferral), none), (.start 1 (.resolve (some pickedFile)), none),
    (.statement 1, none), (.statement 1, none), (.statement 1, none)]

/-- The run then writes what it can. -/
def runLater : List (Locking.Action SongRequest × SongCommit) :=
  [(.statement 0, none), (.commit 0, some (.persist goneSong mbDeferral, false))]

theorem decision_wins_lateRun :
    ∃ last : SongStore, (songTransactions 1).Run suggestedSong
        (userFirst ++ (.commit 1, some (.resolve (some pickedFile), true)) :: runLater) last ∧
      last.record.matchStatus = .manualMatched ∧
      last.rows.map Prod.snd = [storedRow (manualRow 1 pickedFile)] := by
  obtain ⟨last, hexec⟩ : ∃ last, (songTransactions 1).exec suggestedSong
      [.start 0 (.persist goneSong mbDeferral), .start 1 (.resolve (some pickedFile)), .statement 1,
        .statement 1, .statement 1, .commit 1, .statement 0, .commit 0] =
      some (userFirst ++ (.commit 1, some (.resolve (some pickedFile), true)) :: runLater, last) :=
    ⟨_, rfl⟩
  have hrun := Transition.Machine.run_of_exec hexec
  refine ⟨last, hrun, @decision_wins 1 _ _ _ _ 1 (.resolve (some pickedFile)) true _ _
    suggestedSong_idle hrun rfl ?_⟩
  intro entry hentry later held hlater
  rcases List.mem_cons.mp hentry with rfl | hentry
  · cases hlater
  · obtain rfl := List.mem_singleton.mp hentry
    obtain ⟨rfl, -⟩ := Prod.mk.inj (Option.some.inj hlater)
    rfl

end RetroStation.Matching
