import RetroStation.Matching.StationRuns

/-! # A song's status and its row agree

Every song has at most one row, a matched song has one that names a file, and a
rejected song has none:

* `status_agrees_iff` — from a table without match rows a run keeps this exactly as
  long as an artist is rejected only when no song that the rejection sweeps has a row.

The rejection of an artist sets the status of such songs and leaves their rows.
-/

namespace RetroStation.Matching

open Library Curation Database

def REJECTED : List MatchStatus := [.autoRejected, .manualRejected]

/-- A song's status and its rows agree, and a deletion leaves a rejected song rejected. -/
structure StatusAgrees (db : Database) : Prop where
  one : ∀ identityId, (db.rowsOf identityId).length ≤ 1
  matched : ∀ song ∈ db.identities, song.matchStatus ∈ MATCHED →
    ∃ row fileId, db.rowsOf song.id = [row] ∧ row.libraryFileId = some fileId ∧ db.HasFile fileId
  rejected : ∀ song ∈ db.identities, song.matchStatus ∈ REJECTED → db.rowsOf song.id = []
  released : ∀ song ∈ db.identities, song.matchStatus ∈ REJECTED → ∀ fileId deleted,
    deleteMissingRow db fileId = some deleted → deleted.getIdentity song.id = some song

/-- No song that the rejection of an artist sweeps has a row. -/
def RejectsBare (db : Database) : StationAction → Prop
  | .decide (.resolveArtistRejected artistId) =>
    ∀ song ∈ db.identities, leavesOpen artistId song → db.rowsOf song.id = []
  | _ => True

/-! ## One song -/

/-- A song with at most one row, which names a file; a matched song has one. -/
structure ViewOk (hasFile : Uuid → Prop) (view : SongView) : Prop where
  one : view.2.length ≤ 1
  named : ∀ row ∈ view.2, ∃ fileId, row.libraryFileId = some fileId ∧ hasFile fileId
  matched : view.1.matchStatus ∈ MATCHED → view.2 ≠ []

def Bare (view : SongView) : Prop := view.1.matchStatus ∈ REJECTED → view.2 = []

theorem not_mem_MATCHED {status : MatchStatus}
    (hstatus : status = .pending ∨ status = .needsReview ∨ status = .autoRejected) :
    status ∉ MATCHED := by
  rcases hstatus with rfl | rfl | rfl <;> decide

section

variable {hasFile : Uuid → Prop} {view later : SongView}

theorem SongMove.viewOk (hmove : SongMove hasFile view later) (hok : ViewOk hasFile view) :
    ViewOk hasFile later := by
  cases hmove with
  | rewound hpending _ =>
      exact ⟨hok.one, hok.named, fun hmatched => (not_mem_MATCHED (.inl hpending) hmatched).elim⟩
  | cleared hstatus _ =>
      exact ⟨Nat.zero_le 1, by simp, fun hmatched => (not_mem_MATCHED hstatus hmatched).elim⟩
  | decided _ hstatus _ hone hmatched _ hshown =>
      refine ⟨hone, fun row hrow => ?_, fun hmem => ?_⟩
      · obtain ⟨fileId, hfile, hthere, -⟩ := hshown row hrow
        exact ⟨fileId, hfile, hthere⟩
      · rcases hstatus with hstatus | hstatus | hstatus
        · exact hmatched hstatus
        · exact (not_mem_MATCHED (.inr (.inr hstatus)) hmem).elim
        · exact (not_mem_MATCHED (.inr (.inl hstatus)) hmem).elim
  | matched _ _ hfile hthere =>
      refine ⟨Nat.le_refl 1, fun row hrow => ?_, fun _ => List.cons_ne_nil _ _⟩
      obtain rfl := List.mem_singleton.mp hrow
      exact ⟨_, hfile, hthere⟩
  | parked hstatus _ =>
      refine ⟨Nat.zero_le 1, by simp, fun hmatched => ?_⟩
      rw [hstatus] at hmatched
      exact absurd hmatched (by decide)

theorem SongMove.bare (hmove : SongMove hasFile view later) : Bare later := by
  intro hrejected
  cases hmove with
  | rewound hpending _ =>
      rw [hpending] at hrejected
      exact absurd hrejected (by decide)
  | cleared => rfl
  | decided _ hstatus _ _ _ hhidden _ =>
      rcases hstatus with hstatus | hstatus | hstatus
      · rw [hstatus] at hrejected
        exact absurd hrejected (by decide)
      · exact hhidden hstatus
      · rw [hstatus] at hrejected
        exact absurd hrejected (by decide)
  | matched hstatus _ _ _ =>
      rw [hstatus] at hrejected
      exact absurd hrejected (by decide)
  | parked => rfl

theorem SongMoves.viewOk (hmoves : SongMoves hasFile view later) (hok : ViewOk hasFile view) :
    ViewOk hasFile later := by
  induction hmoves with
  | refl => exact hok
  | tail _ hmove ih => exact hmove.viewOk ih

theorem SongMoves.bare (hmoves : SongMoves hasFile view later) (hbare : Bare view) :
    Bare later := by
  cases hmoves with
  | refl => exact hbare
  | tail _ hmove => exact hmove.bare

end

/-! ## Every song -/

/-- What holds of songs and rows however artists are rejected. -/
structure RowsOk (db : Database) : Prop where
  keys : KeysOk db
  known : ∀ identityId, db.getIdentity identityId = none → db.rowsOf identityId = []
  views : ∀ identityId song, db.getIdentity identityId = some song →
    ViewOk db.HasFile (song, db.rowsOf identityId)

def RejectedBare (db : Database) : Prop :=
  ∀ identityId song, db.getIdentity identityId = some song → Bare (song, db.rowsOf identityId)

variable {db next : Database}

theorem RowsOk.one (hok : RowsOk db) (identityId : Uuid) : (db.rowsOf identityId).length ≤ 1 := by
  cases hsong : db.getIdentity identityId with
  | none => simp [hok.known identityId hsong]
  | some song => exact (hok.views identityId song hsong).one

theorem RowsOk.named (hok : RowsOk db) : RowsNamed db := by
  intro identityId row hrow
  cases hsong : db.getIdentity identityId with
  | none => simp [hok.known identityId hsong] at hrow
  | some song => exact (hok.views identityId song hsong).named row hrow

/-! ## Decisions -/

theorem moves_rowsOk (hok : RowsOk db) (hmoves : SongsMove db next) : RowsOk next := by
  have hsame : next.HasFile = db.HasFile := by
    unfold HasFile
    rw [hmoves.files]
  refine ⟨hmoves.keysOk hok.keys, fun identityId hnone => ?_, fun identityId later hlater => ?_⟩
  · cases hsong : db.getIdentity identityId with
    | none =>
        rw [(hmoves.others identityId hsong).2]
        exact hok.known identityId hsong
    | some song =>
        obtain ⟨later, hlater, -⟩ := hmoves.songs identityId song hsong
        rw [hnone] at hlater
        cases hlater
  · cases hsong : db.getIdentity identityId with
    | none =>
        rw [(hmoves.others identityId hsong).1] at hlater
        cases hlater
    | some song =>
        obtain ⟨_, hlater', hmoved⟩ := hmoves.songs identityId song hsong
        obtain rfl := Option.some.inj (hlater.symm.trans hlater')
        exact hsame ▸ hmoved.viewOk (hok.views identityId song hsong)

theorem moves_bare (hbare : RejectedBare db) (hmoves : SongsMove db next) : RejectedBare next := by
  intro identityId later hlater
  cases hsong : db.getIdentity identityId with
  | none =>
      rw [(hmoves.others identityId hsong).1] at hlater
      cases hlater
  | some song =>
      obtain ⟨_, hlater', hmoved⟩ := hmoves.songs identityId song hsong
      obtain rfl := Option.some.inj (hlater.symm.trans hlater')
      exact hmoved.bare (hbare identityId song hsong)

theorem resolveArtistRejected_rowsOk {artistId : Uuid} (hok : RowsOk db) (hkeys : KeysOk next)
    (hresolve : resolveArtistRejected db artistId = some next) : RowsOk next := by
  have hsongs := fun identityId => @resolveArtistRejected_songs db next identityId artistId hresolve
  refine ⟨hkeys, fun identityId hnone => ?_, fun identityId later hlater => ?_⟩
  · obtain ⟨hsong, hrows, -⟩ := hsongs identityId
    rw [hsong, Option.map_eq_none_iff] at hnone
    rw [hrows]
    exact hok.known identityId hnone
  · obtain ⟨hsong, hrows, hfiles⟩ := hsongs identityId
    rw [hsong] at hlater
    obtain ⟨song, hold, rfl⟩ := Option.map_eq_some_iff.mp hlater
    have hview := hok.views identityId song hold
    have hsame : next.HasFile = db.HasFile := by
      unfold HasFile
      rw [hfiles]
    rw [hrows, hsame]
    refine ⟨hview.one, hview.named, fun hmatched => ?_⟩
    dsimp only at hmatched
    split at hmatched
    · exact (not_mem_MATCHED (.inr (.inr rfl)) hmatched).elim
    · exact hview.matched hmatched

/-- The rejection of an artist leaves every rejected song without a row exactly if the
songs that it sweeps have none. -/
theorem resolveArtistRejected_bare_iff {artistId : Uuid} (hkeys : KeysOk db)
    (hbare : RejectedBare db) (hresolve : resolveArtistRejected db artistId = some next) :
    RejectedBare next ↔
      ∀ song ∈ db.identities, leavesOpen artistId song → db.rowsOf song.id = [] := by
  have hsongs := fun identityId => @resolveArtistRejected_songs db next identityId artistId hresolve
  constructor
  · intro hnext song hsong hswept
    obtain ⟨hlater, hrows, -⟩ := hsongs song.id
    rw [getIdentity_of_mem hkeys.songs hsong, Option.map_some, if_pos hswept] at hlater
    exact hrows ▸ hnext song.id _ hlater (List.mem_cons_self : MatchStatus.autoRejected ∈ REJECTED)
  · intro hswept identityId later hlater hrejected
    obtain ⟨hsong, hrows, -⟩ := hsongs identityId
    rw [hsong] at hlater
    obtain ⟨song, hold, rfl⟩ := Option.map_eq_some_iff.mp hlater
    obtain ⟨hmem, hid⟩ := getIdentity_eq_some hold
    rw [hrows]
    dsimp only at hrejected
    split at hrejected
    next hopen => exact hid ▸ hswept song hmem hopen
    next => exact hbare identityId song hold hrejected

theorem grows_rowsOk (hok : RowsOk db) (hkeys : KeysOk next) (hgrows : Grows db next) :
    RowsOk next := by
  refine ⟨hkeys, fun identityId hnone => ?_, fun identityId song hsong => ?_⟩
  · rw [hgrows.rows]
    refine hok.known identityId (Option.eq_none_iff_forall_ne_some.mpr fun song hsong => ?_)
    rw [hgrows.kept identityId song hsong] at hnone
    cases hnone
  · rw [hgrows.rows]
    rcases hgrows.new identityId song hsong with hold | ⟨hnone, hpending, -⟩
    · have hview := hok.views identityId song hold
      refine ⟨hview.one, fun row hrow => ?_, hview.matched⟩
      obtain ⟨fileId, hfile, hthere⟩ := hview.named row hrow
      exact ⟨fileId, hfile, hgrows.files fileId hthere⟩
    · rw [hok.known identityId hnone]
      exact ⟨Nat.zero_le 1, by simp, fun hmatched =>
        (not_mem_MATCHED (.inl hpending) hmatched).elim⟩

theorem grows_bare (hbare : RejectedBare db) (hgrows : Grows db next) : RejectedBare next := by
  intro identityId song hsong
  rw [hgrows.rows]
  rcases hgrows.new identityId song hsong with hold | ⟨-, hpending, -⟩
  · exact hbare identityId song hold
  · intro hrejected
    rw [show song.matchStatus = .pending from hpending] at hrejected
    exact absurd hrejected (by decide)

/-! ## Library steps -/

theorem keeps_rowsOk (hok : RowsOk db) (hkeeps : KeepsSongs db next) : RowsOk next := by
  have hnamed := hkeeps.named hok.named
  refine ⟨KeepsSongs.keysOk hkeeps hok.keys, fun identityId hnone => ?_,
    fun identityId song hsong => ?_⟩
  · rw [hkeeps.getIdentity] at hnone
    rw [← List.length_eq_zero_iff, hkeeps.rowsOf_length, hok.known identityId hnone]
    rfl
  · rw [hkeeps.getIdentity] at hsong
    have hview := hok.views identityId song hsong
    refine ⟨hkeeps.rowsOf_length.trans_le hview.one, hnamed identityId, fun hmatched => ?_⟩
    rw [← List.length_pos_iff, hkeeps.rowsOf_length, List.length_pos_iff]
    exact hview.matched hmatched

theorem keeps_bare (hbare : RejectedBare db) (hkeeps : KeepsSongs db next) : RejectedBare next := by
  intro identityId song hsong hrejected
  rw [hkeeps.getIdentity] at hsong
  rw [← List.length_eq_zero_iff, hkeeps.rowsOf_length, List.length_eq_zero_iff]
  exact hbare identityId song hsong hrejected

theorem foldInto_rowsOf_eq_nil {source target identityId : Uuid} (hne : source ≠ target)
    (hnamed : RowsNamed db) (hfolded : RowsNamed (db.foldInto source target)) :
    (db.foldInto source target).rowsOf identityId = [] ↔ db.rowsOf identityId = [] := by
  rw [hfolded.rowsOf_eq_nil, hnamed.rowsOf_eq_nil]
  constructor
  · intro hnone fileId hshows
    exact hnone _ (((foldInto_follows hne).shows_iff _ _).mpr ⟨fileId, hshows, rfl⟩)
  · intro hnone fileId hshows
    obtain ⟨old, hold, -⟩ := ((foldInto_follows hne).shows_iff _ _).mp hshows
    exact hnone old hold

theorem foldInto_rowsOk {source target : Uuid} (hok : RowsOk db) (hne : source ≠ target)
    (hthere : (∃ row ∈ db.matchRows, row.libraryFileId = some source) → db.HasFile target) :
    RowsOk (db.foldInto source target) := by
  have hnamed := foldInto_named hne hthere hok.named
  have hnil := fun identityId => @foldInto_rowsOf_eq_nil db source target identityId hne hok.named
    hnamed
  refine ⟨foldInto_keysOk hok.keys, fun identityId hnone => ?_,
    fun identityId later hlater => ?_⟩
  · rw [getIdentity_foldInto, Option.map_eq_none_iff] at hnone
    exact (hnil identityId).mpr (hok.known identityId hnone)
  · rw [getIdentity_foldInto] at hlater
    obtain ⟨song, hsong, rfl⟩ := Option.map_eq_some_iff.mp hlater
    refine ⟨foldInto_rowsOf_length.trans (hok.one identityId),
      hnamed identityId, fun hmatched => ?_⟩
    rw [foldRejected_status] at hmatched
    exact fun hempty => (hok.views identityId song hsong).matched hmatched
      ((hnil identityId).mp hempty)

theorem foldInto_bare {source target : Uuid} (hok : RowsOk db) (hbare : RejectedBare db)
    (hne : source ≠ target)
    (hthere : (∃ row ∈ db.matchRows, row.libraryFileId = some source) → db.HasFile target) :
    RejectedBare (db.foldInto source target) := by
  intro identityId later hlater hrejected
  rw [getIdentity_foldInto] at hlater
  obtain ⟨song, hsong, rfl⟩ := Option.map_eq_some_iff.mp hlater
  rw [foldRejected_status] at hrejected
  exact (foldInto_rowsOf_eq_nil hne hok.named (foldInto_named hne hthere hok.named)).mpr
    (hbare identityId song hsong hrejected)

theorem released_rowsOk {fileId : Uuid} (hok : RowsOk db) : RowsOk (released db fileId) := by
  have hnamed : RowsNamed (released db fileId) := released_named hok.named
  refine ⟨released_keysOk hok.keys, fun identityId hnone => ?_,
    fun identityId later hlater => ?_⟩
  · rw [rowsOf_released, hok.known identityId (getIdentity_released_eq_none.mp hnone)]
    rfl
  · obtain ⟨song, hsong⟩ : ∃ song, db.getIdentity identityId = some song := by
      refine Option.ne_none_iff_exists'.mp fun hnone => ?_
      rw [getIdentity_released_eq_none.mpr hnone] at hlater
      cases hlater
    obtain ⟨_, hlater', -, hsame, hloses⟩ := @getIdentity_released db identityId fileId song hsong
    obtain rfl := Option.some.inj (hlater.symm.trans hlater')
    have hview := hok.views identityId song hsong
    refine ⟨?_, hnamed identityId, fun hmatched hempty => ?_⟩
    · dsimp only
      rw [rowsOf_released]
      exact (List.length_filter_le ..).trans hview.one
    · -- A matched song whose rows are gone has lost its last, and is in review.
      dsimp only at hmatched hempty
      have hreview : later.matchStatus ≠ .needsReview := fun hreview =>
        not_mem_MATCHED (.inr (.inl hreview)) hmatched
      obtain rfl := hsame.resolve_right fun h => hreview h.1
      obtain ⟨row, hrow⟩ := List.exists_mem_of_ne_nil _ (hview.matched hmatched)
      refine hreview (hloses ⟨shows_identity.mpr ⟨row, hrow, ?_⟩, hempty⟩)
      rw [rowsOf_released] at hempty
      by_contra hother
      have hstays : row ∈ Table.delete (db.rowsOf identityId) fun row =>
          row.libraryFileId = some fileId := Table.mem_delete.mpr ⟨hrow, by simpa using hother⟩
      rw [hempty] at hstays
      cases hstays

theorem released_bare {fileId : Uuid} (hbare : RejectedBare db) :
    RejectedBare (released db fileId) := by
  intro identityId later hlater hrejected
  obtain ⟨song, hsong⟩ : ∃ song, db.getIdentity identityId = some song := by
    refine Option.ne_none_iff_exists'.mp fun hnone => ?_
    rw [getIdentity_released_eq_none.mpr hnone] at hlater
    cases hlater
  obtain ⟨_, hlater', -, hsame, -⟩ := @getIdentity_released db identityId fileId song hsong
  obtain rfl := Option.some.inj (hlater.symm.trans hlater')
  rcases hsame with rfl | ⟨hreview, -⟩
  · dsimp only
    rw [rowsOf_released, show db.rowsOf identityId = [] from hbare identityId _ hsong hrejected]
    rfl
  · rw [show later.matchStatus = .needsReview from hreview] at hrejected
    exact absurd hrejected (by decide)

/-! ## Every step -/

theorem effect_rowsOk {action : LibraryAction} {fold : Option Fold} (hok : RowsOk db)
    (heffect : SongEffect db next action fold) : RowsOk next := by
  cases heffect with
  | kept _ hkeeps => exact keeps_rowsOk hok hkeeps
  | folded _ hne hthere hkeeps => exact keeps_rowsOk (foldInto_rowsOk hok hne hthere) hkeeps
  | gone hkeeps => exact keeps_rowsOk (released_rowsOk hok) hkeeps

theorem effect_bare {action : LibraryAction} {fold : Option Fold} (hok : RowsOk db)
    (hbare : RejectedBare db) (heffect : SongEffect db next action fold) :
    RejectedBare next := by
  cases heffect with
  | kept _ hkeeps => exact keeps_bare hbare hkeeps
  | folded _ hne hthere hkeeps => exact keeps_bare (foldInto_bare hok hbare hne hthere) hkeeps
  | gone hkeeps => exact keeps_bare (released_bare hbare) hkeeps

theorem station_rowsOk : stationMachine.Preserves RowsOk := by
  intro db next action fold hok hstep
  have hkeys := station_keysOk hok.keys hstep
  cases action with
  | curate action => exact effect_rowsOk hok (library_effect hok.keys.files hstep)
  | decide action =>
      obtain ⟨-, choices, hdecided⟩ := station_decide hstep
      rcases decision_cases hok.keys hdecided with ⟨artistId, -, hresolve⟩ | ⟨-, hmoves | hgrows⟩
      · exact resolveArtistRejected_rowsOk hok hkeys hresolve
      · exact moves_rowsOk hok hmoves
      · exact grows_rowsOk hok hkeys hgrows

/-- Only the rejection of an artist can leave a rejected song with a row. -/
theorem station_bare_iff {action : StationAction} {fold : Option Fold} (hok : RowsOk db)
    (hbare : RejectedBare db) (hstep : stationMachine.step db action = some (next, fold)) :
    RejectedBare next ↔ RejectsBare db action := by
  cases action with
  | curate action =>
      exact iff_of_true (effect_bare hok hbare (library_effect hok.keys.files hstep)) trivial
  | decide action =>
      obtain ⟨-, choices, hdecided⟩ := station_decide hstep
      rcases decision_cases hok.keys hdecided with ⟨artistId, rfl, hresolve⟩ | ⟨hother, hmoved⟩
      · exact resolveArtistRejected_bare_iff hok.keys hbare hresolve
      · refine iff_of_true ?_ ?_
        · exact hmoved.elim (moves_bare hbare) (grows_bare hbare)
        · cases action with
          | resolveArtistRejected artistId => exact (hother artistId rfl).elim
          | _ => trivial

theorem statusAgrees_iff (hok : RowsOk db) : StatusAgrees db ↔ RejectedBare db := by
  constructor
  · intro hagrees identityId song hsong hrejected
    obtain ⟨hmem, rfl⟩ := getIdentity_eq_some hsong
    exact hagrees.rejected song hmem hrejected
  · intro hbare
    have hbareOf : ∀ song ∈ db.identities, song.matchStatus ∈ REJECTED → db.rowsOf song.id = [] :=
      fun song hsong => hbare song.id song (getIdentity_of_mem hok.keys.songs hsong)
    refine ⟨hok.one, fun song hsong hmatched => ?_, hbareOf, fun song hsong hrejected fileId deleted
      hdeleted => ?_⟩
    · have hview := hok.views song.id song (getIdentity_of_mem hok.keys.songs hsong)
      obtain ⟨row, hrows⟩ := List.length_eq_one_iff.mp
        (le_antisymm hview.one (List.length_pos_iff.mpr (hview.matched hmatched)))
      obtain ⟨fileId, hfile, hthere⟩ := hview.named row (hrows ▸ List.mem_singleton_self row)
      exact ⟨row, fileId, hrows, hfile, hthere⟩
    · rw [(deleteMissingRow_keeps hdeleted).getIdentity]
      obtain ⟨later, hlater, -, hsame, -⟩ := @getIdentity_released db song.id fileId song
        (getIdentity_of_mem hok.keys.songs hsong)
      rcases hsame with rfl | ⟨-, hshows, -⟩
      · exact hlater
      · exact absurd hshows (hok.named.rowsOf_eq_nil.mp (hbareOf song hsong hrejected) fileId)

/-- A library as it is before anything is matched. -/
structure Unmatched (db : Database) : Prop where
  keys : KeysOk db
  bare : db.matchRows = []
  pending : ∀ song ∈ db.identities, song.matchStatus = .pending

theorem Unmatched.rowsOk (hstart : Unmatched db) : RowsOk db := by
  have hbare : ∀ identityId, db.rowsOf identityId = [] := fun identityId => by
    rw [rowsOf, hstart.bare]
    rfl
  refine ⟨hstart.keys, fun identityId _ => hbare identityId, fun identityId song hsong => ?_⟩
  rw [hbare]
  exact ⟨Nat.zero_le 1, by simp, fun hmatched => (not_mem_MATCHED
    (.inl (hstart.pending song (getIdentity_eq_some hsong).1)) hmatched).elim⟩

/-- Status and rows agree throughout a run exactly as long as each artist that is
rejected has no song with a row that the rejection sweeps. -/
theorem status_agrees_iff {start state : Database} {trace : List (StationAction × Option Fold)}
    (hstart : Unmatched start) (hrun : stationMachine.Run start trace state) :
    stationMachine.Meets RejectsBare start trace ↔
      ∀ before after reached, trace = before ++ after → stationMachine.Run start before reached →
        StatusAgrees reached := by
  have hgood : RejectedBare start := fun identityId song hsong hrejected => by
    rw [show song.matchStatus = .pending from hstart.pending song (getIdentity_eq_some hsong).1]
      at hrejected
    exact absurd hrejected (by decide)
  refine (@Transition.Machine.Meets.iff_invariant _ _ _ stationMachine RejectsBare start state trace
    RowsOk RejectedBare station_rowsOk (fun _ _ _ _ => station_bare_iff) hstart.rowsOk hgood
    hrun).trans ?_
  -- The other ways to disagree are excluded by the invariant.
  refine forall_congr' fun before => forall_congr' fun after => forall_congr' fun reached =>
    forall_congr' fun _ => forall_congr' fun hreached => ?_
  exact (statusAgrees_iff (hreached.invariant station_rowsOk hstart.rowsOk)).symm

theorem abbaStation_unmatched : Unmatched abbaStation where
  keys := abbaStation_keys
  bare := rfl
  pending := by decide

/-- A song that a run matched keeps its row when its artist is rejected. -/
theorem rejected_artist_leaves_row :
    ∃ trace state, stationMachine.Run abbaStation trace state ∧ ¬ StatusAgrees state := by
  obtain ⟨matched, hmatched, rejected, hrejected, hsong, hrows⟩ : ∃ matched,
      stationMachine.step abbaStation (.decide (.matchIdentities literalConfig 1)) =
        some (matched, none) ∧ ∃ rejected,
      stationMachine.step matched (.decide (.resolveArtistRejected 1)) = some (rejected, none) ∧
        (∃ song ∈ rejected.identities, song.id = 1 ∧ song.matchStatus ∈ REJECTED) ∧
        rejected.rowsOf 1 ≠ [] :=
    ⟨_, rfl, _, rfl, by decide, by decide⟩
  refine ⟨_, rejected, (Transition.Machine.Run.single hmatched).snoc hrejected, fun hagrees => ?_⟩
  obtain ⟨song, hmem, hid, hstatus⟩ := hsong
  exact hrows (hid ▸ hagrees.rejected song hmem hstatus)

/-- A song is matched and unmatched again before its artist is rejected. -/
theorem status_agrees_iff_unmatched :
    ∃ trace state, stationMachine.Run abbaStation trace state ∧ trace.length = 3 ∧
      StatusAgrees state := by
  obtain ⟨matched, hmatched, parked, hparked, rejected, hrejected, hbare⟩ : ∃ matched,
      stationMachine.step abbaStation (.decide (.matchIdentities literalConfig 1)) =
        some (matched, none) ∧ ∃ parked,
      stationMachine.step matched (.decide (.unmatchSong 1)) = some (parked, none) ∧ ∃ rejected,
      stationMachine.step parked (.decide (.resolveArtistRejected 1)) = some (rejected, none) ∧
        ∀ song ∈ parked.identities, parked.rowsOf song.id = [] :=
    ⟨_, rfl, _, rfl, _, rfl, by decide⟩
  have hrun := ((Transition.Machine.Run.single hmatched).snoc hparked).snoc hrejected
  refine ⟨_, rejected, hrun, rfl, ?_⟩
  refine (status_agrees_iff abbaStation_unmatched hrun).mp ?_ _ [] rejected (by simp) hrun
  exact .cons trivial hmatched (.cons trivial hparked
    (.cons (fun song hsong _ => hbare song hsong) hrejected .nil))

end RetroStation.Matching
