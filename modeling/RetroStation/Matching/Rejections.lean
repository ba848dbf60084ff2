import RetroStation.Matching.StationRuns

/-! # Rejected files

A song's rejected files stay rejected through every fold, and the song is not matched
to one, or shown one:

* `rejections_hold_iff` — a run keeps this exactly as long as no row is folded into
  another of which the song shows the one and has rejected the other.

A fold rewrites rejections and match rows apart, and compares neither with the other.
-/

namespace RetroStation.Matching

open Library Curation Database

/-- Statuses in which the row is a run's match or suggestion. -/
def SHOWN : List MatchStatus := [.autoMatched, .needsReview]

/-- No song that a run matched, or that is in review, shows a file that it rejected. -/
def KeepsRejections (db : Database) : Prop :=
  ∀ song ∈ db.identities, song.matchStatus ∈ SHOWN → ∀ row ∈ db.rowsOf song.id,
    ∀ fileId, row.libraryFileId = some fileId → fileId ∉ song.rejectedFileIds

/-- No such song shows one of the rows and has rejected the other. -/
def Apart (db : Database) (source target : Uuid) : Prop :=
  ∀ song ∈ db.identities, song.matchStatus ∈ SHOWN →
    (Shows db (.identity song.id) source → target ∉ song.rejectedFileIds) ∧
      (Shows db (.identity song.id) target → source ∉ song.rejectedFileIds)

/-- The rows that an action folds are apart. -/
def FoldsApart (db : Database) : StationAction → Prop
  | .curate (.applyMissingFileMove move) => Apart db move.missingId move.successorId
  | .curate (.foldStale keeperId staleId) => Apart db staleId keeperId
  | _ => True

/-- Every file that a song rejected on the way is rejected at the end, under the id of
the row that survived the folds since. -/
def Survive (start : Database) (trace : List (StationAction × Option Fold)) (state : Database) :
    Prop :=
  ∀ before after reached, trace = before ++ after → stationMachine.Run start before reached →
    ∀ song ∈ reached.identities, ∀ fileId ∈ song.rejectedFileIds,
      ∃ later ∈ state.identities, later.id = song.id ∧
        followFolds (after.filterMap Prod.snd) fileId ∈ later.rejectedFileIds

/-! ## One song -/

/-- What the song's rows show, if a run put them there, it has not rejected. -/
def NotRejected (view : SongView) : Prop :=
  view.1.matchStatus ∈ SHOWN → ∀ row ∈ view.2, ∀ fileId, row.libraryFileId = some fileId →
    fileId ∉ view.1.rejectedFileIds

section

variable {hasFile : Uuid → Prop} {view later : SongView}

theorem SongMove.notRejected (hmove : SongMove hasFile view later) : NotRejected later := by
  intro hshown row hrow fileId hfile
  cases hmove with
  | rewound hpending _ =>
      rw [hpending] at hshown
      exact absurd hshown (by decide)
  | cleared => cases hrow
  | decided _ _ hrejected _ _ _ hfiles =>
      obtain ⟨other, hother, -, hallowed⟩ := hfiles row hrow
      rw [hrejected, Option.some.inj (hfile.symm.trans hother)]
      exact hallowed
  | matched hstatus _ _ _ =>
      rw [hstatus] at hshown
      exact absurd hshown (by decide)
  | parked => cases hrow

theorem SongMove.rejected (hmove : SongMove hasFile view later) :
    view.1.rejectedFileIds ⊆ later.1.rejectedFileIds := by
  cases hmove with
  | rewound _ hrejected => exact Table.subset_of_eq hrejected.symm
  | cleared _ hrejected => exact Table.subset_of_eq hrejected.symm
  | decided _ _ hrejected _ _ _ _ => exact Table.subset_of_eq hrejected.symm
  | matched _ hrejected _ _ => exact Table.subset_of_eq hrejected.symm
  | parked _ hrejected => exact hrejected

theorem SongMoves.notRejected (hmoves : SongMoves hasFile view later) (hview : NotRejected view) :
    NotRejected later := by
  cases hmoves with
  | refl => exact hview
  | tail _ hmove => exact hmove.notRejected

theorem SongMoves.rejected (hmoves : SongMoves hasFile view later) :
    view.1.rejectedFileIds ⊆ later.1.rejectedFileIds := by
  induction hmoves with
  | refl => exact List.Subset.refl _
  | tail _ hmove ih => exact List.Subset.trans ih hmove.rejected

end

/-! ## Every song -/

variable {db next : Database}

def SongsNotRejected (db : Database) : Prop :=
  ∀ identityId song, db.getIdentity identityId = some song → song.matchStatus ∈ SHOWN →
    ∀ fileId, Shows db (.identity identityId) fileId → fileId ∉ song.rejectedFileIds

theorem songsNotRejected_view {identityId : Uuid} {song : BroadcastTrackIdentity} :
    (song.matchStatus ∈ SHOWN → ∀ fileId, Shows db (.identity identityId) fileId →
      fileId ∉ song.rejectedFileIds) ↔ NotRejected (song, db.rowsOf identityId) := by
  refine imp_congr_right fun _ => ⟨fun h row hrow fileId hfile => ?_, fun h fileId hshows => ?_⟩
  · exact h fileId (shows_identity.mpr ⟨row, hrow, hfile⟩)
  · obtain ⟨row, hrow, hfile⟩ := shows_identity.mp hshows
    exact h row hrow fileId hfile

theorem keepsRejections_iff (hkeys : KeysOk db) : KeepsRejections db ↔ SongsNotRejected db := by
  constructor
  · intro hkeeps identityId song hsong
    obtain ⟨hmem, rfl⟩ := getIdentity_eq_some hsong
    exact songsNotRejected_view.mpr (hkeeps song hmem)
  · intro hsongs song hsong
    exact songsNotRejected_view.mp (hsongs song.id song (getIdentity_of_mem hkeys.songs hsong))

theorem moves_notRejected (hsongs : SongsNotRejected db) (hmoves : SongsMove db next) :
    SongsNotRejected next := by
  intro identityId later hlater
  cases hsong : db.getIdentity identityId with
  | none =>
      rw [(hmoves.others identityId hsong).1] at hlater
      cases hlater
  | some song =>
      obtain ⟨_, hlater', hmoved⟩ := hmoves.songs identityId song hsong
      obtain rfl := Option.some.inj (hlater.symm.trans hlater')
      exact songsNotRejected_view.mpr
        (hmoved.notRejected (songsNotRejected_view.mp (hsongs identityId song hsong)))

/-- A song as it was, or of another status that shows nothing, whose rows are the same. -/
theorem same_notRejected (hsongs : SongsNotRejected db)
    (hrows : ∀ identityId, next.rowsOf identityId = db.rowsOf identityId)
    (hsame : ∀ identityId later, next.getIdentity identityId = some later →
      later.matchStatus ∈ SHOWN → db.getIdentity identityId = some later) :
    SongsNotRejected next := by
  intro identityId later hlater hshown fileId hfile
  rw [shows_identity, hrows, ← shows_identity] at hfile
  exact hsongs identityId later (hsame identityId later hlater hshown) hshown fileId hfile

theorem resolveArtistRejected_notRejected {artistId : Uuid} (hsongs : SongsNotRejected db)
    (hresolve : resolveArtistRejected db artistId = some next) : SongsNotRejected next := by
  have hnext := fun identityId => @resolveArtistRejected_songs db next identityId artistId hresolve
  obtain ⟨artist, -, rfl⟩ := Option.map_eq_some_iff.mp hresolve
  refine same_notRejected hsongs (fun _ => rfl) fun identityId later hlater hshown => ?_
  rw [(hnext identityId).1] at hlater
  obtain ⟨song, hsong, rfl⟩ := Option.map_eq_some_iff.mp hlater
  split at hshown
  · exact absurd (show MatchStatus.autoRejected ∈ SHOWN from hshown) (by decide)
  next hkept => rwa [if_neg hkept]

theorem grows_notRejected (hsongs : SongsNotRejected db) (hgrows : Grows db next) :
    SongsNotRejected next := by
  refine same_notRejected hsongs hgrows.rows fun identityId later hlater hshown => ?_
  rcases hgrows.new identityId later hlater with hold | ⟨-, hpending, -⟩
  · exact hold
  · rw [hpending] at hshown
    exact absurd hshown (by decide)

/-! ## Library steps -/

theorem keeps_notRejected_iff (hkeeps : KeepsSongs db next) :
    SongsNotRejected next ↔ SongsNotRejected db := by
  simp only [SongsNotRejected, hkeeps.getIdentity, hkeeps.shows_iff]

theorem released_notRejected {fileId : Uuid} (hsongs : SongsNotRejected db) :
    SongsNotRejected (released db fileId) := by
  intro identityId later hlater hshown other hshows
  obtain ⟨song, hsong⟩ : ∃ song, db.getIdentity identityId = some song := by
    refine Option.ne_none_iff_exists'.mp fun hnone => ?_
    rw [getIdentity_released_eq_none.mpr hnone] at hlater
    cases hlater
  obtain ⟨_, hlater', -, hsame, -⟩ := @getIdentity_released db identityId fileId song hsong
  obtain rfl := Option.some.inj (hlater.symm.trans hlater')
  obtain ⟨row, hrow, hfile⟩ := shows_identity.mp hshows
  rcases hsame with rfl | ⟨-, -, hempty⟩
  · rw [rowsOf_released] at hrow
    exact hsongs identityId later hsong hshown other
      (shows_identity.mpr ⟨row, (Table.mem_delete.mp hrow).1, hfile⟩)
  · rw [hempty] at hrow
    cases hrow

/-- A fold keeps shown and rejected files apart exactly if its two rows are. -/
theorem foldInto_notRejected_iff {source target : Uuid} (hkeys : KeysOk db)
    (hsongs : SongsNotRejected db) (hne : source ≠ target) :
    SongsNotRejected (db.foldInto source target) ↔ Apart db source target := by
  have hfollows := @foldInto_follows db source target hne
  constructor
  · intro hfolded song hsong hshown
    have hlater : (db.foldInto source target).getIdentity song.id =
        some (foldRejected source target song) := by
      rw [getIdentity_foldInto, getIdentity_of_mem hkeys.songs hsong]
      rfl
    have hnone := hfolded song.id _ hlater (by rwa [foldRejected_status]) target
    constructor
    · intro hshows hrejected
      exact hnone ((hfollows.shows_iff _ _).mpr ⟨source, hshows, by simp⟩)
        (mem_foldRejected.mpr ⟨target, hrejected, if_neg hne.symm⟩)
    · intro hshows hrejected
      exact hnone ((hfollows.shows_iff _ _).mpr ⟨target, hshows, by simp⟩)
        (mem_foldRejected.mpr ⟨source, hrejected, if_pos rfl⟩)
  · intro hapart identityId later hlater hshown fileId hshows hrejected
    rw [getIdentity_foldInto] at hlater
    obtain ⟨song, hsong, rfl⟩ := Option.map_eq_some_iff.mp hlater
    rw [foldRejected_status] at hshown
    obtain ⟨hmem, rfl⟩ := getIdentity_eq_some hsong
    obtain ⟨hsource, htarget⟩ := hapart song hmem hshown
    obtain ⟨old, hold, hgoes⟩ := (hfollows.shows_iff _ _).mp hshows
    obtain ⟨was, hwas, hwent⟩ := mem_foldRejected.mp hrejected
    have hgoes := Option.some.inj hgoes
    have hkept := hsongs song.id song hsong hshown
    -- Shown and rejected come from one file, or from the two rows.
    by_cases hold' : old = source
    · by_cases hwas' : was = source
      · exact hkept source (hold' ▸ hold) (hwas' ▸ hwas)
      · rw [if_pos hold'] at hgoes
        rw [if_neg hwas', ← hgoes] at hwent
        exact hsource (hold' ▸ hold) (hwent ▸ hwas)
    · rw [if_neg hold'] at hgoes
      by_cases hwas' : was = source
      · rw [if_pos hwas', ← hgoes] at hwent
        exact htarget (hwent ▸ hold) (hwas' ▸ hwas)
      · rw [if_neg hwas', ← hgoes] at hwent
        exact hkept old hold (hwent ▸ hwas)

theorem fold_notRejected_iff {action : LibraryAction} {source target : Uuid} (hkeys : KeysOk db)
    (hsongs : SongsNotRejected db)
    (heffect : SongEffect db next action (some ⟨source, target⟩)) :
    SongsNotRejected next ↔ Apart db source target := by
  cases heffect with
  | folded _ hne _ hkeeps =>
      exact (keeps_notRejected_iff hkeeps).trans (foldInto_notRejected_iff hkeys hsongs hne)

theorem effect_notRejected {action : LibraryAction} (hsongs : SongsNotRejected db)
    (heffect : SongEffect db next action none) : SongsNotRejected next := by
  cases heffect with
  | kept _ hkeeps => exact (keeps_notRejected_iff hkeeps).mpr hsongs
  | gone hkeeps => exact (keeps_notRejected_iff hkeeps).mpr (released_notRejected hsongs)

/-! ## Every step -/

theorem station_notRejected_iff {action : StationAction} {fold : Option Fold} (hkeys : KeysOk db)
    (hsongs : SongsNotRejected db) (hstep : stationMachine.step db action = some (next, fold)) :
    SongsNotRejected next ↔ FoldsApart db action := by
  cases action with
  | decide action =>
      obtain ⟨-, choices, hdecided⟩ := station_decide hstep
      refine iff_of_true ?_ trivial
      rcases decision_cases hkeys hdecided with ⟨artistId, -, hresolve⟩ | ⟨-, hmoves | hgrows⟩
      · exact resolveArtistRejected_notRejected hsongs hresolve
      · exact moves_notRejected hsongs hmoves
      · exact grows_notRejected hsongs hgrows
  | curate action =>
      have heffect := library_effect hkeys.files hstep
      cases action with
      | applyMissingFileMove move =>
          obtain ⟨folded, -, heq⟩ := Option.map_eq_some_iff.mp hstep
          obtain ⟨rfl, rfl⟩ := Prod.mk.inj heq
          exact fold_notRejected_iff hkeys hsongs heffect
      | foldStale keeperId staleId =>
          simp only [stationMachine, libraryMachine] at hstep
          split at hstep
          · cases hstep
          · obtain ⟨folded, -, heq⟩ := Option.map_eq_some_iff.mp hstep
            obtain ⟨rfl, rfl⟩ := Prod.mk.inj heq
            exact fold_notRejected_iff hkeys hsongs heffect
      | reselectMaster workId =>
          obtain ⟨rfl, rfl⟩ := Prod.mk.inj (Option.some.inj hstep)
          exact iff_of_true (effect_notRejected hsongs heffect) trivial
      | moveFileToWork fileId workId =>
          obtain ⟨file, -, hmove⟩ := Option.bind_eq_some_iff.mp hstep
          obtain ⟨moved, -, heq⟩ := Option.map_eq_some_iff.mp hmove
          obtain ⟨rfl, rfl⟩ := Prod.mk.inj heq
          exact iff_of_true (effect_notRejected hsongs heffect) trivial
      | _ =>
          obtain ⟨done, -, heq⟩ := Option.map_eq_some_iff.mp hstep
          obtain ⟨rfl, rfl⟩ := Prod.mk.inj heq
          exact iff_of_true (effect_notRejected hsongs heffect) trivial

/-- What a song rejected, it has rejected after a step under the survivor's id. -/
theorem station_rejected {action : StationAction} {fold : Option Fold} {identityId : Uuid}
    {song : BroadcastTrackIdentity} (hkeys : KeysOk db)
    (hstep : stationMachine.step db action = some (next, fold))
    (hsong : db.getIdentity identityId = some song) :
    ∃ later, next.getIdentity identityId = some later ∧ ∀ fileId ∈ song.rejectedFileIds,
      followFolds fold.toList fileId ∈ later.rejectedFileIds := by
  cases action with
  | decide action =>
      obtain ⟨rfl, choices, hdecided⟩ := station_decide hstep
      rcases decision_cases hkeys hdecided with ⟨artistId, -, hresolve⟩ | ⟨-, hmoves | hgrows⟩
      · refine ⟨_, (resolveArtistRejected_songs hresolve).1.trans
          (congrArg _ hsong), fun _ hmem => ?_⟩
        dsimp only
        split <;> exact hmem
      · obtain ⟨later, hlater, hmoved⟩ := hmoves.songs identityId song hsong
        exact ⟨later, hlater, fun _ hmem => hmoved.rejected hmem⟩
      · exact ⟨song, hgrows.kept identityId song hsong, fun _ hmem => hmem⟩
  | curate action =>
      cases library_effect hkeys.files hstep with
      | kept _ hkeeps => exact ⟨song, hkeeps.getIdentity.trans hsong, fun _ hmem => hmem⟩
      | folded _ _ _ hkeeps =>
          refine ⟨_, hkeeps.getIdentity.trans (getIdentity_foldInto.trans (congrArg _ hsong)),
            fun fileId hmem => mem_foldRejected.mpr ⟨fileId, hmem, rfl⟩⟩
      | gone hkeeps =>
          obtain ⟨later, hlater, hsame, -⟩ := getIdentity_released hsong
          exact ⟨later, hkeeps.getIdentity.trans hlater, fun _ hmem => hsame ▸ hmem⟩

theorem survive {start state : Database} {trace : List (StationAction × Option Fold)}
    (hkeys : KeysOk start) (hrun : stationMachine.Run start trace state) :
    Survive start trace state := by
  rintro before after reached rfl hreached song hsong fileId hrejected
  obtain ⟨middle, hmiddle, hafter⟩ := hrun.of_append
  obtain rfl := hreached.deterministic hmiddle
  have hmiddle := hreached.invariant station_keysOk hkeys
  suffices ∃ later, state.getIdentity song.id = some later ∧
      followFolds (after.filterMap Prod.snd) fileId ∈ later.rejectedFileIds by
    obtain ⟨later, hlater, hmem⟩ := this
    obtain ⟨hlater, hid⟩ := getIdentity_eq_some hlater
    exact ⟨later, hlater, hid, hmem⟩
  clear hrun
  induction hafter with
  | nil => exact ⟨song, getIdentity_of_mem hmiddle.songs hsong, hrejected⟩
  | @snoc more current next action fold hmore hstep ih =>
      obtain ⟨there, hthere, hmem⟩ := ih
      obtain ⟨later, hlater, hkept⟩ := station_rejected
        (hmore.invariant station_keysOk hmiddle) hstep hthere
      refine ⟨later, hlater, ?_⟩
      rw [List.filterMap_append, followFolds, List.foldl_append]
      cases fold <;> exact hkept _ hmem

/-- Rejected files survive every fold. No song shows a file that it rejected, exactly as
long as no fold joins a row that a song shows with one that it rejected. -/
theorem rejections_hold_iff {start state : Database} {trace : List (StationAction × Option Fold)}
    (hkeys : KeysOk start) (hstart : KeepsRejections start)
    (hrun : stationMachine.Run start trace state) :
    (stationMachine.Meets FoldsApart start trace ↔
        ∀ before after reached, trace = before ++ after →
          stationMachine.Run start before reached → KeepsRejections reached) ∧
      Survive start trace state := by
  refine ⟨?_, survive hkeys hrun⟩
  refine (@Transition.Machine.Meets.iff_invariant _ _ _ stationMachine FoldsApart start state trace
    KeysOk SongsNotRejected station_keysOk (fun _ _ _ _ => station_notRejected_iff) hkeys
    ((keepsRejections_iff hkeys).mp hstart) hrun).trans ?_
  refine forall_congr' fun before => forall_congr' fun after => forall_congr' fun reached =>
    forall_congr' fun _ => forall_congr' fun hreached => ?_
  exact (keepsRejections_iff (hreached.invariant station_keysOk hkeys)).symm

/-- A song rejects one spelling of its file and is matched to the other; the repair of
the spelling folds the first into the second. -/
theorem fold_shows_rejected_file :
    ∃ trace state, stationMachine.Run abbaStation trace state ∧ ¬ KeepsRejections state := by
  obtain ⟨first, hfirst, parked, hparked, again, hagain, second, hsecond, folded, hfolded, hleaks⟩ :
      ∃ first, stationMachine.step abbaStation (.decide (.matchIdentities literalConfig 1)) =
        some (first, none) ∧
      ∃ parked, stationMachine.step first (.decide (.unmatchSong 1)) = some (parked, none) ∧
      ∃ again, stationMachine.step parked (.decide (.recheck none)) = some (again, none) ∧
      ∃ second, stationMachine.step again (.decide (.matchIdentities literalConfig 1)) =
        some (second, none) ∧
      ∃ folded, stationMachine.step second (.curate (.foldStale 2 1)) =
        some (folded, some ⟨1, 2⟩) ∧
      ∃ song ∈ folded.identities, song.matchStatus ∈ SHOWN ∧ ∃ row ∈ folded.rowsOf song.id,
        row.libraryFileId = some 2 ∧ 2 ∈ song.rejectedFileIds :=
    ⟨_, rfl, _, rfl, _, rfl, _, rfl, _, rfl, by decide⟩
  refine ⟨_, folded, ((((Transition.Machine.Run.single hfirst).snoc hparked).snoc hagain).snoc
    hsecond).snoc hfolded, fun hkeeps => ?_⟩
  obtain ⟨song, hsong, hshown, row, hrow, hfile, hrejected⟩ := hleaks
  exact hkeeps song hsong hshown row hrow 2 hfile hrejected

/-- The station with a third spelling of the song's file. -/
def thriceStation : Database :=
  { abbaStation with
    files := abbaStation.files ++
      [{ id := 3
         filePath := "/c.flac"
         workId := some "W3"
         audio := { normalizedArtistName := some "abba" } }] }

/-- A song that rejected its first file is matched to the second, which is folded into the
third: the song shows the third, and the first stays rejected. -/
theorem rejections_hold_iff_folded :
    ∃ trace state, stationMachine.Run thriceStation trace state ∧
      (∃ song ∈ state.identities, song.matchStatus ∈ SHOWN ∧
        ∃ row ∈ state.rowsOf song.id, row.libraryFileId = some 3) ∧
      KeepsRejections state ∧ ∃ song ∈ state.identities, song.id = 1 ∧
        1 ∈ song.rejectedFileIds := by
  obtain ⟨first, hfirst, parked, hparked, again, hagain, second, hsecond, folded, hfolded, hapart,
      hrejected, hshows⟩ :
      ∃ first, stationMachine.step thriceStation (.decide (.matchIdentities literalConfig 1)) =
        some (first, none) ∧
      ∃ parked, stationMachine.step first (.decide (.unmatchSong 1)) = some (parked, none) ∧
      ∃ again, stationMachine.step parked (.decide (.recheck none)) = some (again, none) ∧
      ∃ second, stationMachine.step again (.decide (.matchIdentities literalConfig 1)) =
        some (second, none) ∧
      ∃ folded, stationMachine.step second (.curate (.foldStale 3 2)) =
        some (folded, some ⟨2, 3⟩) ∧
      (∀ song ∈ second.identities, 2 ∉ song.rejectedFileIds ∧ 3 ∉ song.rejectedFileIds) ∧
      (∃ song ∈ parked.identities, song.id = 1 ∧ 1 ∈ song.rejectedFileIds) ∧
      ∃ song ∈ folded.identities, song.matchStatus ∈ SHOWN ∧
        ∃ row ∈ folded.rowsOf song.id, row.libraryFileId = some 3 :=
    ⟨_, rfl, _, rfl, _, rfl, _, rfl, _, rfl, by decide, by decide, by decide⟩
  have hbefore := (Transition.Machine.Run.single hfirst).snoc hparked
  have hrun := ((hbefore.snoc hagain).snoc hsecond).snoc hfolded
  have hkeys : KeysOk thriceStation := ⟨abbaStation_keys.artists, abbaStation_keys.songs, by decide⟩
  have hstart : KeepsRejections thriceStation := fun _ _ _ _ hrow => by cases hrow
  obtain ⟨hiff, hsurvive⟩ := rejections_hold_iff hkeys hstart hrun
  refine ⟨_, folded, hrun, hshows, hiff.mp ?_ _ [] folded (by simp) hrun, ?_⟩
  · refine .cons trivial hfirst (.cons trivial hparked (.cons trivial hagain
      (.cons trivial hsecond (.cons ?_ hfolded .nil))))
    exact fun song hsong _ => ⟨fun _ => (hapart song hsong).2, fun _ => (hapart song hsong).1⟩
  · obtain ⟨song, hsong, hid, hmem⟩ := hrejected
    obtain ⟨later, hlater, hsame, hkept⟩ := hsurvive
      [(.decide (.matchIdentities literalConfig 1), none),
        (.decide (.unmatchSong 1), none)] _ parked rfl
      hbefore song hsong 1 hmem
    exact ⟨later, hlater, hsame.trans hid, hkept⟩

end RetroStation.Matching
