import Mathlib.Logic.Relation
import RetroStation.Matching.Decisions
import RetroStation.Matching.PlaylistRuns

/-! # What decisions do to one song

A song and its match rows move together. Every action but the rejection of an artist
moves each song by steps of six kinds, of which the run, the re-check and the users
take one or a few.
-/

namespace RetroStation

open Library Matching

namespace Database

variable {db : Database} {identityId : Uuid}

theorem getIdentity_changeSongs {which : BroadcastTrackIdentity → Bool}
    {change : BroadcastTrackIdentity → BroadcastTrackIdentity}
    (hid : ∀ song, (change song).id = song.id) :
    (db.changeSongs which change).getIdentity identityId =
      (db.getIdentity identityId).map fun song => if which song then change song else song :=
  Table.find?_update hid identityId

theorem getIdentity_updateSongs {which : BroadcastTrackIdentity → Bool} {decision : SongDecision} :
    (db.updateSongs which decision).getIdentity identityId =
      (db.getIdentity identityId).map fun song =>
        if which song then decision.write song else song :=
  @getIdentity_changeSongs db identityId which decision.write fun _ => rfl

theorem getIdentity_eq_some {song : BroadcastTrackIdentity}
    (hsong : db.getIdentity identityId = some song) :
    song ∈ db.identities ∧ song.id = identityId := Table.find?_key hsong

theorem getIdentity_of_mem (hunique : Table.UniqueBy BroadcastTrackIdentity.id db.identities)
    {song : BroadcastTrackIdentity} (hsong : song ∈ db.identities) :
    db.getIdentity song.id = some song := hunique.find? hsong

theorem mem_songIds (hunique : Table.UniqueBy BroadcastTrackIdentity.id db.identities)
    {which : BroadcastTrackIdentity → Bool} :
    identityId ∈ db.songIds which ↔
      ∃ song, db.getIdentity identityId = some song ∧ which song = true := by
  unfold songIds
  rw [List.mem_map]
  constructor
  · rintro ⟨song, hsong, rfl⟩
    obtain ⟨hmem, hwhich⟩ := List.mem_filter.mp hsong
    exact ⟨song, getIdentity_of_mem hunique hmem, hwhich⟩
  · rintro ⟨song, hsong, hwhich⟩
    obtain ⟨hmem, hid⟩ := getIdentity_eq_some hsong
    exact ⟨song, List.mem_filter.mpr ⟨hmem, hwhich⟩, hid⟩

theorem rowsOf_deleteForIdentity (deletedId : Uuid) :
    (db.deleteForIdentity deletedId).rowsOf identityId =
      if identityId = deletedId then [] else db.rowsOf identityId := by
  unfold rowsOf deleteForIdentity
  split
  next hsame =>
    subst hsame
    exact Table.filter_delete_of_imp fun _ hrow => hrow
  next hother =>
    refine Table.filter_delete_of_disjoint fun row hrow => ?_
    simp only [decide_eq_true_eq] at hrow
    simpa [hrow] using hother

theorem rowsOf_deleteForIdentities (ids : List Uuid) :
    (db.deleteForIdentities ids).rowsOf identityId =
      if identityId ∈ ids then [] else db.rowsOf identityId := by
  unfold rowsOf deleteForIdentities
  split
  next hmem =>
    refine Table.filter_delete_of_imp fun row hrow => ?_
    simp only [decide_eq_true_eq] at hrow
    simpa [Match.ofSongs, hrow] using hmem
  next hother =>
    refine Table.filter_delete_of_disjoint fun row hrow => ?_
    simp only [decide_eq_true_eq] at hrow
    simpa [Match.ofSongs, hrow] using hother

theorem rowsOf_createMatch (row : Match) :
    (db.createMatch row).rowsOf identityId = db.rowsOf identityId ++
      if row.subject = .identity identityId then [{ row with workId := truthy row.workId }]
        else [] := by
  unfold rowsOf createMatch
  rw [List.filter_append, List.filter_singleton]
  simp

theorem rowsOf_deleteForArtist (artistId : Uuid) :
    (db.deleteForArtist artistId).rowsOf identityId = db.rowsOf identityId := by
  unfold rowsOf deleteForArtist
  refine Table.filter_delete_of_disjoint fun row hrow => ?_
  simp only [decide_eq_true_eq] at hrow
  simp [hrow]

theorem rowsOf_upsertArtistRow (artistId : Uuid) (targetId : String) :
    (db.upsertArtistRow artistId targetId).rowsOf identityId = db.rowsOf identityId := by
  unfold upsertArtistRow
  split
  · unfold rowsOf
    refine Table.filter_update_of_disjoint (fun row hrow => ?_) fun row hrow => ?_
    all_goals
      simp only [targets, decide_eq_true_eq] at hrow
      simp [hrow.1]
  · rw [rowsOf_createMatch]
    simp

end Database

namespace Matching

open Database

/-! ## Steps of one song -/

/-- A song with its match rows. -/
abbrev SongView := BroadcastTrackIdentity × List Match

inductive SongMove (hasFile : Uuid → Prop) : SongView → SongView → Prop
  /-- Back to pending; the rows stay to be shown. -/
  | rewound {song later : BroadcastTrackIdentity} {rows : List Match}
      (hpending : later.matchStatus = .pending)
      (hrejected : later.rejectedFileIds = song.rejectedFileIds) :
      SongMove hasFile (song, rows) (later, rows)
  /-- Undecided or rejected, without a row. -/
  | cleared {song later : BroadcastTrackIdentity} {rows : List Match}
      (hstatus : later.matchStatus = .pending ∨ later.matchStatus = .needsReview ∨
        later.matchStatus = .autoRejected)
      (hrejected : later.rejectedFileIds = song.rejectedFileIds) :
      SongMove hasFile (song, rows) (later, [])
  /-- A run's result for a pending song. -/
  | decided {song later : BroadcastTrackIdentity} {rows shown : List Match}
      (hpending : song.matchStatus = .pending)
      (hstatus : later.matchStatus = .autoMatched ∨ later.matchStatus = .autoRejected ∨
        later.matchStatus = .needsReview)
      (hrejected : later.rejectedFileIds = song.rejectedFileIds) (hone : shown.length ≤ 1)
      (hmatched : later.matchStatus = .autoMatched → shown ≠ [])
      (hhidden : later.matchStatus = .autoRejected → shown = [])
      (hshown : ∀ row ∈ shown, ∃ fileId, row.libraryFileId = some fileId ∧ hasFile fileId ∧
        fileId ∉ song.rejectedFileIds) :
      SongMove hasFile (song, rows) (later, shown)
  /-- Matched by hand. -/
  | matched {song later : BroadcastTrackIdentity} {rows : List Match} {row : Match} {fileId : Uuid}
      (hstatus : later.matchStatus = .manualMatched)
      (hrejected : later.rejectedFileIds = song.rejectedFileIds)
      (hfile : row.libraryFileId = some fileId) (hthere : hasFile fileId) :
      SongMove hasFile (song, rows) (later, [row])
  /-- Rejected by hand, with more files rejected. -/
  | parked {song later : BroadcastTrackIdentity} {rows : List Match}
      (hstatus : later.matchStatus = .manualRejected)
      (hrejected : song.rejectedFileIds ⊆ later.rejectedFileIds) :
      SongMove hasFile (song, rows) (later, [])

abbrev SongMoves (hasFile : Uuid → Prop) : SongView → SongView → Prop :=
  Relation.ReflTransGen (SongMove hasFile)

/-- Songs move, and nothing else that they are read with changes. -/
structure SongsMove (db next : Database) : Prop where
  ids : next.identities.map BroadcastTrackIdentity.id =
    db.identities.map BroadcastTrackIdentity.id
  artistIds : next.artists.map BroadcastArtist.id = db.artists.map BroadcastArtist.id
  files : next.files = db.files
  songs : ∀ identityId song, db.getIdentity identityId = some song →
    ∃ later, next.getIdentity identityId = some later ∧
      SongMoves db.HasFile (song, db.rowsOf identityId) (later, next.rowsOf identityId)
  others : ∀ identityId, db.getIdentity identityId = none →
    next.getIdentity identityId = none ∧ next.rowsOf identityId = db.rowsOf identityId

namespace SongsMove

variable {db middle next : Database}

theorem refl (db : Database) : SongsMove db db :=
  ⟨rfl, rfl, rfl, fun _ song hsong => ⟨song, hsong, .refl⟩, fun _ hnone => ⟨hnone, rfl⟩⟩

theorem trans (hfirst : SongsMove db middle) (hsecond : SongsMove middle next) :
    SongsMove db next where
  ids := hsecond.ids.trans hfirst.ids
  artistIds := hsecond.artistIds.trans hfirst.artistIds
  files := hsecond.files.trans hfirst.files
  songs identityId song hsong := by
    obtain ⟨there, hthere, hmoves⟩ := hfirst.songs identityId song hsong
    obtain ⟨later, hlater, hmoves'⟩ := hsecond.songs identityId there hthere
    rw [show middle.HasFile = db.HasFile by unfold HasFile; rw [hfirst.files]] at hmoves'
    exact ⟨later, hlater, hmoves.trans hmoves'⟩
  others identityId hnone := by
    obtain ⟨hthere, hrows⟩ := hfirst.others identityId hnone
    obtain ⟨hlater, hrows'⟩ := hsecond.others identityId hthere
    exact ⟨hlater, hrows'.trans hrows⟩

theorem foldl {Item : Type} {step : Database → Item → Database}
    (hstep : ∀ current item, SongsMove db current → SongsMove current (step current item))
    (items : List Item) (hdb : SongsMove db middle) :
    SongsMove db (items.foldl step middle) := by
  induction items generalizing middle with
  | nil => exact hdb
  | cons item rest ih => exact ih (hdb.trans (hstep middle item hdb))

/-- Songs and rows that are the same. -/
theorem of_same (hidentities : next.identities = db.identities)
    (hartists : next.artists.map BroadcastArtist.id = db.artists.map BroadcastArtist.id)
    (hfiles : next.files = db.files) (hrows : ∀ identityId, next.rowsOf identityId =
      db.rowsOf identityId) : SongsMove db next where
  ids := by rw [hidentities]
  artistIds := hartists
  files := hfiles
  songs identityId song hsong := ⟨song, by rwa [getIdentity, hidentities], by
    rw [hrows]⟩
  others identityId hnone := ⟨by rwa [getIdentity, hidentities], hrows identityId⟩

/-- One change of some songs, and of the rows of each. -/
theorem of_change {which : BroadcastTrackIdentity → Bool}
    {change : BroadcastTrackIdentity → BroadcastTrackIdentity}
    (hid : ∀ song, (change song).id = song.id)
    (hidentities : next.identities = Table.update db.identities which change)
    (hartists : next.artists.map BroadcastArtist.id = db.artists.map BroadcastArtist.id)
    (hfiles : next.files = db.files)
    (hmove : ∀ identityId song, db.getIdentity identityId = some song → which song = true →
      SongMove db.HasFile (song, db.rowsOf identityId) (change song, next.rowsOf identityId))
    (hrows : ∀ identityId, (∀ song, db.getIdentity identityId = some song → which song = false) →
      next.rowsOf identityId = db.rowsOf identityId) : SongsMove db next where
  ids := by rw [hidentities, Table.map_update_key hid]
  artistIds := hartists
  files := hfiles
  songs identityId song hsong := by
    have hlater : next.getIdentity identityId =
        some (if which song then change song else song) := by
      rw [getIdentity, hidentities]
      exact (getIdentity_changeSongs hid).trans (by rw [hsong]; rfl)
    refine ⟨_, hlater, ?_⟩
    cases hwhich : which song with
    | true =>
        rw [if_pos rfl]
        exact .single (hmove identityId song hsong hwhich)
    | false =>
        rw [if_neg Bool.false_ne_true, hrows identityId fun other hother => by
          rw [hsong] at hother
          exact Option.some.inj hother ▸ hwhich]
  others identityId hnone := by
    refine ⟨?_, hrows identityId fun song hsong => by simp [hnone] at hsong⟩
    rw [getIdentity, hidentities]
    exact (getIdentity_changeSongs hid).trans (by rw [hnone]; rfl)

end SongsMove

end Matching

end RetroStation
