import RetroStation.Curation.LibraryRuns
import RetroStation.Matching.DecisionMoves

/-! # Runs of the station

Songs are decided while library rows are folded, moved and deleted, in any order. Each
step says what it makes of one song and of the files that its rows show.
-/

namespace RetroStation

open Library Matching Curation

namespace Curation

open Database

variable {db next : Database} {identityId : Uuid}

/-! ## What rows show -/

theorem shows_iff_mem {subject : MatchSubject} {fileId : Uuid} :
    Shows db subject fileId ↔ (subject, some fileId) ∈ db.matchRows.map shownFile := by
  simp [Shows, shownFile]

theorem shows_identity {fileId : Uuid} :
    Shows db (.identity identityId) fileId ↔
      ∃ row ∈ db.rowsOf identityId, row.libraryFileId = some fileId := by
  simp [Shows, rowsOf, and_assoc]

theorem rowsOf_length : (db.rowsOf identityId).length =
    (db.matchRows.map shownFile).countP fun entry => entry.1 = .identity identityId := by
  rw [List.countP_map, List.countP_eq_length_filter]
  rfl

/-- Every row of a song names a file that is there. -/
def RowsNamed (db : Database) : Prop :=
  ∀ identityId, ∀ row ∈ db.rowsOf identityId,
    ∃ fileId, row.libraryFileId = some fileId ∧ db.HasFile fileId

theorem RowsNamed.rowsOf_eq_nil (hnamed : RowsNamed db) :
    db.rowsOf identityId = [] ↔ ∀ fileId, ¬ Shows db (.identity identityId) fileId := by
  rw [List.eq_nil_iff_forall_not_mem]
  constructor
  · rintro hnone fileId hshows
    obtain ⟨row, hrow, -⟩ := shows_identity.mp hshows
    exact hnone row hrow
  · rintro hnone row hrow
    obtain ⟨fileId, hfile, -⟩ := hnamed identityId row hrow
    exact hnone fileId (shows_identity.mpr ⟨row, hrow, hfile⟩)

/-! ## Library steps -/

theorem hasFile_iff {fileId : Uuid} : db.HasFile fileId ↔ fileId ∈ db.files.map LibraryFile.id := by
  simp [HasFile]

section

variable (hkeeps : KeepsSongs db next)

include hkeeps

theorem KeepsSongs.getIdentity : next.getIdentity identityId = db.getIdentity identityId := by
  rw [Database.getIdentity, hkeeps.identities]
  rfl

theorem KeepsSongs.shows_iff {subject : MatchSubject} {fileId : Uuid} :
    Shows next subject fileId ↔ Shows db subject fileId := by
  rw [shows_iff_mem, shows_iff_mem, hkeeps.rows]

theorem KeepsSongs.hasFile_iff {fileId : Uuid} : next.HasFile fileId ↔ db.HasFile fileId := by
  rw [Curation.hasFile_iff, Curation.hasFile_iff, hkeeps.fileIds]

theorem KeepsSongs.rowsOf_length :
    (next.rowsOf identityId).length = (db.rowsOf identityId).length := by
  rw [Curation.rowsOf_length, Curation.rowsOf_length, hkeeps.rows]

theorem KeepsSongs.named (hnamed : RowsNamed db) : RowsNamed next := by
  intro identityId row hrow
  obtain ⟨hrow, hsubject⟩ := List.mem_filter.mp hrow
  obtain ⟨old, hold, heq⟩ :=
    List.mem_map.mp (hkeeps.rows ▸ List.mem_map_of_mem (f := shownFile) hrow)
  obtain ⟨hsame, hfile⟩ := Prod.mk.inj heq
  obtain ⟨fileId, hnames, hthere⟩ := hnamed identityId old
    (List.mem_filter.mpr ⟨hold, by rwa [hsame]⟩)
  exact ⟨fileId, hfile ▸ hnames, hkeeps.hasFile_iff.mpr hthere⟩

end

/-- A song that rejected the folded row has rejected the one that survives. -/
def foldRejected (source target : Uuid) (song : BroadcastTrackIdentity) : BroadcastTrackIdentity :=
  if source ∈ song.rejectedFileIds then
    { song with
      rejectedFileIds :=
        (song.rejectedFileIds.map fun id => if id = source then target else id).dedup }
  else song

theorem mem_foldRejected {source target fileId : Uuid} {song : BroadcastTrackIdentity} :
    fileId ∈ (foldRejected source target song).rejectedFileIds ↔
      ∃ old ∈ song.rejectedFileIds, (if old = source then target else old) = fileId := by
  unfold foldRejected
  split
  · simp [List.mem_dedup]
  next hother =>
    constructor
    · intro hmem
      exact ⟨fileId, hmem, if_neg fun hsame : fileId = source => hother (hsame ▸ hmem)⟩
    · rintro ⟨old, hold, rfl⟩
      rwa [if_neg fun hsame : old = source => hother (hsame ▸ hold)]

theorem foldRejected_status {source target : Uuid} {song : BroadcastTrackIdentity} :
    (foldRejected source target song).matchStatus = song.matchStatus := by
  unfold foldRejected
  split <;> rfl

theorem getIdentity_foldInto {source target : Uuid} :
    (db.foldInto source target).getIdentity identityId =
      (db.getIdentity identityId).map (foldRejected source target) := by
  refine (@getIdentity_changeSongs db identityId (fun song => source ∈ song.rejectedFileIds)
    (fun song => { song with
      rejectedFileIds :=
        (song.rejectedFileIds.map fun id => if id = source then target else id).dedup })
    fun _ => rfl).trans (congrArg (Option.map · _) (funext fun song => ?_))
  simp only [foldRejected, decide_eq_true_eq]

theorem foldInto_rowsOf_length {source target : Uuid} :
    ((db.foldInto source target).rowsOf identityId).length ≤ (db.rowsOf identityId).length := by
  unfold rowsOf foldInto
  dsimp only
  rw [Table.filter_update, Table.update, List.length_map, Table.delete, List.filter_filter,
    ← List.countP_eq_length_filter, ← List.countP_eq_length_filter]
  · exact List.countP_mono_left fun row _ hboth => (Bool.and_eq_true_iff.mp hboth).1
  · exact fun row _ => rfl

theorem foldInto_named {source target : Uuid} (hne : source ≠ target)
    (hthere : (∃ row ∈ db.matchRows, row.libraryFileId = some source) → db.HasFile target)
    (hnamed : RowsNamed db) : RowsNamed (db.foldInto source target) := by
  have hkept : ∀ fileId, db.HasFile fileId → fileId ≠ source →
      (db.foldInto source target).HasFile fileId := by
    rintro fileId ⟨file, hfile, rfl⟩ hother
    exact ⟨file, Table.mem_delete.mpr ⟨hfile, by simpa using hother⟩, rfl⟩
  intro identityId row hrow
  obtain ⟨hrow, hsubject⟩ := List.mem_filter.mp hrow
  rcases RefsOk.mem_foldInto_matchRows hrow with ⟨old, hold, hsource, rfl⟩ | ⟨hold, hother⟩
  · exact ⟨target, rfl, hkept target (hthere ⟨old, hold, hsource⟩) hne.symm⟩
  · obtain ⟨fileId, hfile, hthere⟩ := hnamed identityId row (List.mem_filter.mpr ⟨hold, hsubject⟩)
    refine ⟨fileId, hfile, hkept fileId hthere ?_⟩
    rintro rfl
    exact hother hfile

/-- A deletion leaves a song with its rows of other files. -/
theorem rowsOf_released {fileId : Uuid} : (released db fileId).rowsOf identityId =
    Table.delete (db.rowsOf identityId) fun row => row.libraryFileId = some fileId := by
  unfold rowsOf released releaseMatches
  exact (List.filter_filter ..).trans
    ((List.filter_congr fun row _ => Bool.and_comm _ _).trans (List.filter_filter ..).symm)

theorem mem_songsOfFile {fileId : Uuid} :
    identityId ∈ db.songsOfFile fileId ↔ Shows db (.identity identityId) fileId := by
  unfold songsOfFile Shows
  rw [List.mem_filterMap]
  refine exists_congr fun row => and_congr_right fun _ => ?_
  by_cases hfile : row.libraryFileId = some fileId
  · rw [if_pos hfile]
    cases hsubject : row.subject with
    | identity id => simp [hfile]
    | artist id => simp
  · simp [hfile]

/-- The song loses its last row with the file. -/
def LosesLast (db : Database) (fileId identityId : Uuid) : Prop :=
  Shows db (.identity identityId) fileId ∧ (released db fileId).rowsOf identityId = []

theorem getIdentity_released_eq_none {fileId : Uuid} :
    (released db fileId).getIdentity identityId = none ↔ db.getIdentity identityId = none := by
  have hupdate := @getIdentity_updateSongs (db.deleteMatchesForFile fileId) identityId
    (fun song => song.id ∈ db.songsOfFile fileId ∧
      (db.deleteMatchesForFile fileId).rowsOf song.id = [])
    { status := .needsReview, tier := none, reasonCode := some .libraryFileRemoved }
  exact (hupdate ▸ Option.map_eq_none_iff : _)

theorem getIdentity_released {fileId : Uuid} {song : BroadcastTrackIdentity}
    (hsong : db.getIdentity identityId = some song) :
    ∃ later, (released db fileId).getIdentity identityId = some later ∧
      later.rejectedFileIds = song.rejectedFileIds ∧
      (later = song ∨ later.matchStatus = .needsReview ∧ LosesLast db fileId identityId) ∧
      (LosesLast db fileId identityId → later.matchStatus = .needsReview) := by
  obtain ⟨-, hid⟩ := getIdentity_eq_some hsong
  have hlater : (released db fileId).getIdentity identityId = _ :=
    (@getIdentity_updateSongs (db.deleteMatchesForFile fileId) identityId
      (fun song => song.id ∈ db.songsOfFile fileId ∧
        (db.deleteMatchesForFile fileId).rowsOf song.id = [])
      { status := .needsReview, tier := none, reasonCode := some .libraryFileRemoved }).trans
      (congrArg _ hsong)
  have hloses : (song.id ∈ db.songsOfFile fileId ∧
      (db.deleteMatchesForFile fileId).rowsOf song.id = []) ↔ LosesLast db fileId identityId := by
    rw [hid, mem_songsOfFile]
    rfl
  by_cases hlast : LosesLast db fileId identityId
  · exact ⟨_, hlater.trans (congrArg some (if_pos (decide_eq_true (hloses.mpr hlast)))), rfl,
      .inr ⟨rfl, hlast⟩, fun _ => rfl⟩
  · exact ⟨song, hlater.trans (congrArg some (if_neg fun h =>
      hlast (hloses.mp (of_decide_eq_true h)))),
      rfl, .inl rfl, fun h => (hlast h).elim⟩

theorem released_hasFile {fileId other : Uuid} (hother : other ≠ fileId)
    (hthere : db.HasFile other) :
    (released db fileId).HasFile other := by
  obtain ⟨file, hfile, rfl⟩ := hthere
  exact ⟨file, Table.mem_delete.mpr ⟨hfile, by simp [hother]⟩, rfl⟩

theorem released_named {fileId : Uuid} (hnamed : RowsNamed db) :
    RowsNamed (released db fileId) := by
  intro identityId row hrow
  rw [rowsOf_released] at hrow
  obtain ⟨hrow, hother⟩ := Table.mem_delete.mp hrow
  obtain ⟨other, hfile, hthere⟩ := hnamed identityId row hrow
  refine ⟨other, hfile, released_hasFile ?_ hthere⟩
  rintro rfl
  simp [hfile] at hother

end Curation

namespace Matching

open Database

inductive StationAction
  | decide (action : DecisionAction)
  | curate (action : LibraryAction)

/-- One decision or one library step, and the fold it made. -/
def stationMachine : Transition.Machine Database StationAction (Option Fold) where
  step db
    | .decide action => (decisionMachine.step db action).map fun (next, _) => (next, none)
    | .curate action => libraryMachine.step db action

variable {db next : Database} {identityId : Uuid}

theorem station_decide {action : DecisionAction} {fold : Option Fold}
    (hstep : stationMachine.step db (.decide action) = some (next, fold)) :
    fold = none ∧ ∃ choices, decisionMachine.step db action = some (next, choices) := by
  obtain ⟨⟨decided, choices⟩, hdecided, heq⟩ := Option.map_eq_some_iff.mp hstep
  obtain ⟨rfl, rfl⟩ := Prod.mk.inj heq
  exact ⟨rfl, choices, hdecided⟩

/-! ## Decisions that do not move songs -/

/-- A rejected artist's songs that no user decided are rejected, and keep their rows. -/
def leavesOpen (artistId : Uuid) (song : BroadcastTrackIdentity) : Bool :=
  song.broadcastArtistId = artistId ∧ song.matchStatus ∉ PROTECTED_STATUSES

theorem resolveArtistRejected_songs {artistId : Uuid}
    (hresolve : resolveArtistRejected db artistId = some next) :
    next.getIdentity identityId = ((db.getIdentity identityId).map fun song =>
        if leavesOpen artistId song then { song with matchStatus := .autoRejected } else song) ∧
      next.rowsOf identityId = db.rowsOf identityId ∧ next.files = db.files := by
  obtain ⟨artist, -, rfl⟩ := Option.map_eq_some_iff.mp hresolve
  exact ⟨@getIdentity_changeSongs _ identityId (leavesOpen artistId)
    (fun song => { song with matchStatus := .autoRejected }) fun _ => rfl, rfl, rfl⟩

/-- More to read: new songs are pending and without rows, and no file goes. -/
structure Grows (db next : Database) : Prop where
  rows : ∀ identityId, next.rowsOf identityId = db.rowsOf identityId
  files : ∀ fileId, db.HasFile fileId → next.HasFile fileId
  kept : ∀ identityId song, db.getIdentity identityId = some song →
    next.getIdentity identityId = some song
  new : ∀ identityId song, next.getIdentity identityId = some song →
    db.getIdentity identityId = some song ∨
      db.getIdentity identityId = none ∧ song.matchStatus = .pending ∧ song.rejectedFileIds = []

theorem ingest_grows {ingestion : Ingestion} (hingest : ingest db ingestion = some next) :
    Grows db next := by
  unfold ingest at hingest
  split at hingest
  · obtain rfl := Option.some.inj hingest
    refine ⟨fun _ => rfl, fun _ hthere => hthere, fun identityId song hsong => ?_,
      fun identityId song hsong => ?_⟩
    · exact (List.find?_append ..).trans (by
        rw [show db.identities.find? _ = some song from hsong]; rfl)
    · have happend := (List.find?_append ..).symm.trans hsong
      cases hold : db.getIdentity identityId with
      | some old =>
          rw [show db.identities.find? _ = some old from hold] at happend
          exact .inl happend
      | none =>
          rw [show db.identities.find? _ = none from hold] at happend
          exact .inr ⟨rfl, ingestion.songsPending song (List.mem_of_find?_eq_some happend)⟩
  · cases hingest

theorem scanLibrary_grows {files : List LibraryFile} (hscan : scanLibrary db files = some next) :
    Grows db next := by
  unfold scanLibrary at hscan
  split at hscan
  next hkept =>
    obtain rfl := Option.some.inj hscan
    refine ⟨fun _ => rfl, ?_, fun _ _ hsong => hsong, fun _ _ hsong => .inl hsong⟩
    rintro fileId ⟨file, hfile, rfl⟩
    exact hkept.2 file hfile
  · cases hscan

/-- A decision moves songs, rejects an artist, or adds to what is read. -/
theorem decision_cases {action : DecisionAction} {choices : List ArtistChoice} (hkeys : KeysOk db)
    (hstep : decisionMachine.step db action = some (next, choices)) :
    (∃ artistId, action = .resolveArtistRejected artistId ∧
        resolveArtistRejected db artistId = some next) ∨
      (∀ artistId, action ≠ .resolveArtistRejected artistId) ∧
        (SongsMove db next ∨ Grows db next) := by
  by_cases hmoves : action.Moves
  · refine .inr ⟨?_, .inl (decision_moves hkeys hmoves hstep)⟩
    rintro artistId rfl
    exact hmoves
  · cases action with
    | resolveArtistRejected artistId =>
        obtain ⟨resolved, hresolve, heq⟩ := Option.map_eq_some_iff.mp hstep
        obtain ⟨rfl, -⟩ := Prod.mk.inj heq
        exact .inl ⟨artistId, rfl, hresolve⟩
    | ingest ingestion =>
        obtain ⟨ingested, hingest, heq⟩ := Option.map_eq_some_iff.mp hstep
        obtain ⟨rfl, -⟩ := Prod.mk.inj heq
        exact .inr ⟨by simp, .inr (ingest_grows hingest)⟩
    | scan files =>
        obtain ⟨scanned, hscan, heq⟩ := Option.map_eq_some_iff.mp hstep
        obtain ⟨rfl, -⟩ := Prod.mk.inj heq
        exact .inr ⟨by simp, .inr (scanLibrary_grows hscan)⟩
    | _ => exact (hmoves trivial).elim

/-! ## Keys -/

theorem KeepsSongs.keysOk (hkeeps : KeepsSongs db next) (hkeys : KeysOk db) : KeysOk next where
  artists := hkeeps.artists ▸ hkeys.artists
  songs := hkeeps.identities ▸ hkeys.songs
  files := by rw [Table.UniqueBy, hkeeps.fileIds]; exact hkeys.files

theorem foldInto_keysOk {source target : Uuid} (hkeys : KeysOk db) :
    KeysOk (db.foldInto source target) :=
  ⟨hkeys.artists, hkeys.songs.update fun _ => rfl, hkeys.files.delete⟩

theorem released_keysOk {fileId : Uuid} (hkeys : KeysOk db) : KeysOk (released db fileId) :=
  ⟨hkeys.artists, hkeys.songs.update fun _ => rfl, hkeys.files.delete⟩

theorem effect_keysOk {action : LibraryAction} {fold : Option Fold} (hkeys : KeysOk db)
    (heffect : SongEffect db next action fold) : KeysOk next := by
  cases heffect with
  | kept _ hkeeps => exact KeepsSongs.keysOk hkeeps hkeys
  | folded _ _ _ hkeeps => exact KeepsSongs.keysOk hkeeps (foldInto_keysOk hkeys)
  | gone hkeeps => exact KeepsSongs.keysOk hkeeps (released_keysOk hkeys)

theorem station_keysOk : stationMachine.Preserves KeysOk := by
  intro db next action fold hkeys hstep
  cases action with
  | decide action =>
      obtain ⟨-, choices, hdecided⟩ := station_decide hstep
      exact decision_keysOk hkeys hdecided
  | curate action => exact effect_keysOk hkeys (library_effect hkeys.files hstep)

/-- A pending song, and two files on disk that it can be matched to. -/
def abbaStation : Database where
  artists := [abba]
  identities := [{
    id := 1
    broadcastArtistId := 1
    originalTitle := "Dancing Queen"
    normalizedSignature := "abba|dancing queen" }]
  plays := [⟨1, 1⟩]
  files := twoCopies.files

theorem abbaStation_keys : KeysOk abbaStation := ⟨by decide, by decide, by decide⟩

end Matching

end RetroStation
