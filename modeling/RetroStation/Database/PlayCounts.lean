import Mathlib.Tactic.Linarith
import RetroStation.Library.Values
import RetroStation.Tally.Basic
import RetroStation.Table.Basic
import RetroStation.Transition.Run

/-! # The plays of each identity on each station

`station_identity_plays` keeps a count that would otherwise be read from every play. Its
triggers follow the statements on plays, playlists and stations; each works out, from the
rows the statement touched, the differences to apply. After every statement the table is
the count it stands for (`counts_exact`).
-/

namespace RetroStation.PlayCounts

open Library Transition

structure BroadcastDay where
  id : Uuid
  stationId : Uuid

structure Playlist where
  id : Uuid
  stationId : Option Uuid

structure PlayEvent where
  identityId : Uuid
  playlistId : Uuid
  broadcastDayId : Option Uuid

/-- The tables the counts depend on, and the counts, keyed by station and identity. -/
structure Tables where
  stations : List Uuid
  broadcastDays : List BroadcastDay
  playlists : List Playlist
  playEvents : List PlayEvent
  counts : Dict (Uuid × Uuid) Int

/-- The station of a playlist; none if it has none, or is gone. -/
def stationOf (playlists : List Playlist) (playlistId : Uuid) : Option Uuid :=
  (playlists.find? fun playlist => playlist.id = playlistId).bind Playlist.stationId

/-- The station and identity a play counts for, by the stations of the playlists. -/
def pairOf (station : Uuid → Option Uuid) (play : PlayEvent) : Option (Uuid × Uuid) :=
  (station play.playlistId).map (·, play.identityId)

/-- How many plays there are of an identity on a station's playlists. -/
def playCount (tables : Tables) (pair : Uuid × Uuid) : Nat :=
  tables.playEvents.countP fun play => pairOf (stationOf tables.playlists) play = some pair

/-! ## The triggers -/

/-- `play_events_identity_plays_sync`, after an insert: the new rows' groups are added. -/
def syncInsert (tables : Tables) (newRows : List PlayEvent) : Tables :=
  { tables with
    counts := Tally.addAll tables.counts
      (Tally.groupSum (pairOf (stationOf tables.playlists)) (newRows.map (·, 1))) }

/-- `play_events_identity_plays_sync`, after a delete. -/
def syncDelete (tables : Tables) (oldRows : List PlayEvent) : Tables :=
  { tables with
    counts := Tally.apply tables.counts
      (Tally.groupSum (pairOf (stationOf tables.playlists)) (oldRows.map (·, -1))) }

/-- `play_events_identity_plays_sync`, after an update: the groups that do not come out even. -/
def syncUpdate (tables : Tables) (oldRows newRows : List PlayEvent) : Tables :=
  { tables with
    counts := Tally.apply tables.counts
      ((Tally.groupSum (pairOf (stationOf tables.playlists))
        (newRows.map (·, 1) ++ oldRows.map (·, -1))).filter fun entry => entry.2 ≠ 0) }

/-- The plays of one playlist, as one station's. -/
def pairAt (playlistId : Uuid) (station : Option Uuid) (play : PlayEvent) : Option (Uuid × Uuid) :=
  if play.playlistId = playlistId then station.map (·, play.identityId) else none

/-- `playlists_identity_plays_delete`, before a playlist goes: unless its station has gone. -/
def beforeDelete (tables : Tables) (old : Playlist) : Tables :=
  if old.stationId.any (· ∈ tables.stations) then
    { tables with
      counts := Tally.apply tables.counts
        (Tally.groupSum (pairAt old.id old.stationId) (tables.playEvents.map (·, -1))) }
  else tables

/-- `playlists_identity_plays_move`, after a playlist's station has changed. -/
def afterMove (tables : Tables) (old : Playlist) (stationId : Option Uuid) : Tables :=
  if old.stationId = stationId then tables
  else
    { tables with
      counts := Tally.apply tables.counts
        (Tally.groupSum (pairAt old.id old.stationId) (tables.playEvents.map (·, -1)) ++
          Tally.groupSum (pairAt old.id stationId) (tables.playEvents.map (·, 1))) }

/-! ## The statements -/

/-- A statement says which rows it is about, and what becomes of them. -/
inductive Statement
  | insertStation (id : Uuid)
  | insertDay (day : BroadcastDay)
  | insertPlaylist (playlist : Playlist)
  | insertPlays (rows : List PlayEvent)
  | updatePlays (change : PlayEvent → Option PlayEvent)
  | deletePlays (matched : PlayEvent → Bool)
  | truncatePlays
  | movePlaylists (change : Playlist → Option (Option Uuid))
  | deletePlaylists (matched : Playlist → Bool)
  | deleteDays (matched : BroadcastDay → Bool)
  | deleteStations (matched : Uuid → Bool)

/-- The playlist of a play is there, as its foreign key asks. -/
def hasPlaylist (tables : Tables) (play : PlayEvent) : Bool :=
  tables.playlists.any fun playlist => playlist.id = play.playlistId

/-- Delete plays, and let the trigger see them. -/
def deletePlays (tables : Tables) (matched : PlayEvent → Bool) : Tables :=
  syncDelete { tables with playEvents := Table.delete tables.playEvents matched }
    (tables.playEvents.filter matched)

/-- Delete playlists: each is seen before it goes, and its plays go with it. -/
def deletePlaylists (tables : Tables) (matched : Playlist → Bool) : Tables :=
  let gone := tables.playlists.filter matched
  let counted := gone.foldl beforeDelete tables
  deletePlays { counted with playlists := Table.delete counted.playlists matched }
    fun play => gone.any fun playlist => playlist.id = play.playlistId

/-- Delete broadcast days, and the plays on them. -/
def deleteDays (tables : Tables) (matched : BroadcastDay → Bool) : Tables :=
  let gone := tables.broadcastDays.filter matched
  deletePlays { tables with broadcastDays := Table.delete tables.broadcastDays matched }
    fun play => gone.any fun day => play.broadcastDayId = some day.id

/-- Delete stations: their days, playlists and counts go, and the plays of either. -/
def deleteStations (tables : Tables) (matched : Uuid → Bool) : Tables :=
  let days := tables.broadcastDays.filter fun day => matched day.stationId
  let gone := tables.playlists.filter fun playlist => playlist.stationId.any matched
  let left : Tables :=
    { tables with
      stations := Table.delete tables.stations matched
      broadcastDays := Table.delete tables.broadcastDays fun day => matched day.stationId }
  let counted := gone.foldl beforeDelete left
  deletePlays
    { counted with
      playlists := Table.delete counted.playlists fun playlist => playlist.stationId.any matched
      counts := (counted.counts.keys.filter fun pair => matched pair.1).foldl Dict.erase
        counted.counts }
    fun play => (days.any fun day => play.broadcastDayId = some day.id) ||
      gone.any fun playlist => playlist.id = play.playlistId

/-- Move playlists, then let the trigger see each of those that were matched. -/
def movePlaylists (tables : Tables) (change : Playlist → Option (Option Uuid)) : Tables :=
  (tables.playlists.filterMap fun playlist => (change playlist).map (playlist, ·)).foldl
    (fun tables moved => afterMove tables moved.1 moved.2)
    { tables with
      playlists := tables.playlists.map fun playlist =>
        { playlist with stationId := (change playlist).getD playlist.stationId } }

/-- What a statement does; `none` is one that a key refuses, and that changes nothing. -/
def execute (tables : Tables) : Statement → Option Tables
  | .insertStation id =>
    if id ∈ tables.stations then none else some { tables with stations := id :: tables.stations }
  | .insertDay day =>
    if (tables.broadcastDays.any fun other => other.id = day.id) ||
        day.stationId ∉ tables.stations then none
    else some { tables with broadcastDays := day :: tables.broadcastDays }
  | .insertPlaylist playlist =>
    if (tables.playlists.any fun other => other.id = playlist.id) ||
        playlist.stationId.any (· ∉ tables.stations) then none
    else some { tables with playlists := playlist :: tables.playlists }
  | .insertPlays rows =>
    if rows.all (hasPlaylist tables) then
      some (syncInsert { tables with playEvents := tables.playEvents ++ rows } rows)
    else none
  | .updatePlays change =>
    if (tables.playEvents.filterMap change).all (hasPlaylist tables) then
      some (syncUpdate
        { tables with playEvents := tables.playEvents.map fun play => (change play).getD play }
        (tables.playEvents.filter fun play => (change play).isSome)
        (tables.playEvents.filterMap change))
    else none
  | .deletePlays matched => some (deletePlays tables matched)
  | .truncatePlays => some { tables with playEvents := [], counts := Dict.empty }
  | .movePlaylists change =>
    if tables.playlists.all fun playlist =>
        (change playlist).all fun station => station.all (· ∈ tables.stations) then
      some (movePlaylists tables change)
    else none
  | .deletePlaylists matched => some (deletePlaylists tables matched)
  | .deleteDays matched => some (deleteDays tables matched)
  | .deleteStations matched => some (deleteStations tables matched)

def database : Machine Tables Statement Unit where
  step tables statement := (execute tables statement).map (·, ())

/-- The end of the migration: the counts are worked out from the plays that are there. -/
def backfill (tables : Tables) : Tables :=
  { tables with
    counts := Tally.addAll Dict.empty
      (Tally.groupSum (pairOf (stationOf tables.playlists)) (tables.playEvents.map (·, 1))) }

/-! ## Counting -/

/-- The plays of a pair, by the stations of the playlists. -/
def countBy (station : Uuid → Option Uuid) (plays : List PlayEvent) (pair : Uuid × Uuid) : Nat :=
  plays.countP fun play => pairOf station play = some pair

section

variable {tables : Tables} {station after : Uuid → Option Uuid} {plays : List PlayEvent}

theorem holds_insert {rows : List PlayEvent} {counts : Dict (Uuid × Uuid) Int}
    (hholds : Tally.Holds counts (countBy station plays)) :
    Tally.Holds (Tally.addAll counts (Tally.groupSum (pairOf station) (rows.map (·, 1))))
      (countBy station (plays ++ rows)) := by
  apply Tally.holds_addAll hholds Tally.nodup_groupSum
  · intro pair
    rw [Tally.delta_groupSum, Tally.total_map, countBy, List.countP_append, one_mul]
    push_cast
    rfl
  · intro pair
    rw [Tally.delta_groupSum, Tally.total_map, one_mul]
    exact Int.natCast_nonneg _

theorem holds_delete {matched : PlayEvent → Bool} {counts : Dict (Uuid × Uuid) Int}
    (hholds : Tally.Holds counts (countBy station plays)) :
    Tally.Holds
      (Tally.apply counts
        (Tally.groupSum (pairOf station) ((plays.filter matched).map (·, -1))))
      (countBy station (Table.delete plays matched)) := by
  apply Tally.holds_apply hholds Tally.nodup_groupSum
  intro pair
  have hsplit : countBy station plays pair =
      countBy station (plays.filter matched) pair +
        countBy station (Table.delete plays matched) pair :=
    List.countP_eq_countP_filter_add _ _ _
  rw [Tally.delta_groupSum, Tally.total_map, hsplit]
  simp only [countBy]
  push_cast
  ring

theorem holds_update {change : PlayEvent → Option PlayEvent} {counts : Dict (Uuid × Uuid) Int}
    (hholds : Tally.Holds counts (countBy station plays)) :
    Tally.Holds
      (Tally.apply counts
        ((Tally.groupSum (pairOf station) ((plays.filterMap change).map (·, 1) ++
          (plays.filter fun play => (change play).isSome).map (·, -1))).filter
            fun entry => entry.2 ≠ 0))
      (countBy station (plays.map fun play => (change play).getD play)) := by
  apply Tally.holds_apply hholds (Tally.nodup_filter Tally.nodup_groupSum _)
  intro pair
  rw [Tally.delta_filter_ne_zero Tally.nodup_groupSum, Tally.delta_groupSum, Tally.total_append,
    Tally.total_map, Tally.total_map]
  simp only [countBy]
  clear hholds
  induction plays with
  | nil => simp
  | cons play rest ih =>
      cases hchange : change play with
      | none =>
          simp only [List.map_cons, List.filterMap_cons, List.filter_cons, hchange,
            Option.getD_none, Option.isSome_none, Bool.false_eq_true, if_false, List.countP_cons]
          push_cast
          linarith
      | some changed =>
          simp only [List.map_cons, List.filterMap_cons, List.filter_cons, hchange,
            Option.getD_some, Option.isSome_some, if_true, List.countP_cons]
          push_cast
          linarith

/-- One playlist changes its station, or goes: its plays change from the old to the new. -/
theorem countBy_rekey {id : Uuid} (hsame : ∀ other, other ≠ id → after other = station other)
    (pair : Uuid × Uuid) :
    (countBy after plays pair : Int) = countBy station plays pair +
      (-1 * (plays.countP fun play => pairAt id (station id) play = some pair) +
        1 * (plays.countP fun play => pairAt id (after id) play = some pair)) := by
  induction plays with
  | nil => rfl
  | cons play rest ih =>
      simp only [countBy, List.countP_cons, decide_eq_true_eq] at ih ⊢
      by_cases hid : play.playlistId = id
      · have hbefore : pairOf station play = pairAt id (station id) play := by
          rw [pairOf, pairAt, if_pos hid, hid]
        have hafter : pairOf after play = pairAt id (after id) play := by
          rw [pairOf, pairAt, if_pos hid, hid]
        rw [hbefore, hafter]
        push_cast
        linarith
      · have hbefore : pairOf after play = pairOf station play := by
          rw [pairOf, pairOf, hsame _ hid]
        have hout : ∀ stationId, pairAt id stationId play ≠ some pair := by
          intro stationId
          rw [pairAt, if_neg hid]
          nofun
        rw [hbefore, if_neg (hout _), if_neg (hout _)]
        push_cast
        linarith

/-- The two groupings of a move have no pair in common: one is each station's. -/
theorem disjoint_groups {id : Uuid} {old new : Option Uuid} (hne : old ≠ new)
    (rows more : List (PlayEvent × Int)) :
    ∀ entry ∈ Tally.groupSum (pairAt id old) rows, ∀ other ∈ Tally.groupSum (pairAt id new) more,
      entry.1 ≠ other.1 := by
  have hstation : ∀ {stationId : Option Uuid} {rows : List (PlayEvent × Int)}
      {entry : (Uuid × Uuid) × Int}, entry ∈ Tally.groupSum (pairAt id stationId) rows →
      stationId = some entry.1.1 := by
    intro stationId rows entry hentry
    obtain ⟨pair, hpair, rfl⟩ := List.mem_map.mp hentry
    obtain ⟨row, -, hrow⟩ := List.mem_filterMap.mp (List.mem_dedup.mp hpair)
    simp only [pairAt] at hrow
    split at hrow
    · obtain ⟨value, hvalue, rfl⟩ := Option.map_eq_some_iff.mp hrow
      exact hvalue
    · cases hrow
  intro entry hentry other hother hsame
  exact hne ((hstation hentry).trans (hsame ▸ (hstation hother).symm))

theorem holds_afterMove {old : Playlist} {stationId : Option Uuid}
    (hholds : Tally.Holds tables.counts (countBy station tables.playEvents))
    (hold : station old.id = old.stationId) (hnew : after old.id = stationId)
    (hsame : ∀ other, other ≠ old.id → after other = station other) :
    Tally.Holds (afterMove tables old stationId).counts (countBy after tables.playEvents) := by
  unfold afterMove
  split
  next hunmoved =>
    have heq : after = station := by
      funext other
      by_cases hid : other = old.id
      · rw [hid, hnew, hold, hunmoved]
      · exact hsame other hid
    rw [heq]
    exact hholds
  next hmoved =>
    have hdisjoint := fun rows more => @disjoint_groups old.id _ _ hmoved rows more
    apply Tally.holds_apply hholds
    · rw [List.map_append, List.nodup_append]
      refine ⟨Tally.nodup_groupSum, Tally.nodup_groupSum, ?_⟩
      intro first hfirst second hsecond
      obtain ⟨entry, hentry, rfl⟩ := List.mem_map.mp hfirst
      obtain ⟨other, hother, rfl⟩ := List.mem_map.mp hsecond
      exact hdisjoint _ _ entry hentry other hother
    · intro pair
      rw [Tally.delta_append (hdisjoint _ _), Tally.delta_groupSum, Tally.delta_groupSum,
        Tally.total_map, Tally.total_map, countBy_rekey hsame, hold, hnew]

theorem afterMove_playEvents {old : Playlist} {stationId : Option Uuid} :
    (afterMove tables old stationId).playEvents = tables.playEvents := by
  unfold afterMove
  split <;> rfl

/-- The rows of a statement, each moved in its turn. -/
theorem holds_moves {moved : List (Playlist × Option Uuid)}
    (hnodup : (moved.map fun entry => entry.1.id).Nodup)
    (hholds : Tally.Holds tables.counts (countBy station tables.playEvents))
    (hold : ∀ entry ∈ moved, station entry.1.id = entry.1.stationId)
    (hnew : ∀ entry ∈ moved, after entry.1.id = entry.2)
    (hsame : ∀ id, id ∉ moved.map (fun entry => entry.1.id) → after id = station id) :
    Tally.Holds (moved.foldl (fun tables entry => afterMove tables entry.1 entry.2) tables).counts
      (countBy after tables.playEvents) := by
  induction moved generalizing tables station with
  | nil =>
      have heq : after = station := funext fun id => hsame id List.not_mem_nil
      rw [heq]
      exact hholds
  | cons entry rest ih =>
      obtain ⟨hfresh, hnodup⟩ := List.nodup_cons.mp hnodup
      have hfirst := holds_afterMove hholds (hold entry List.mem_cons_self)
        (Function.update_self entry.1.id entry.2 station)
        (fun other hother => Function.update_of_ne hother _ _)
      rw [List.foldl_cons]
      rw [← @afterMove_playEvents tables entry.1 entry.2] at hfirst ⊢
      refine ih hnodup hfirst (fun other hother => ?_)
        (fun other hother => hnew other (List.mem_cons_of_mem _ hother)) fun id hid => ?_
      · have hne : other.1.id ≠ entry.1.id := fun heq =>
          hfresh (List.mem_map.mpr ⟨other, hother, heq⟩)
        rw [Function.update_of_ne hne]
        exact hold other (List.mem_cons_of_mem _ hother)
      · by_cases heq : id = entry.1.id
        · subst heq
          rw [Function.update_self]
          exact hnew entry List.mem_cons_self
        · rw [Function.update_of_ne heq]
          refine hsame id fun hmem => ?_
          rcases List.mem_cons.mp hmem with hfirst | hlater
          · exact heq hfirst
          · exact hid hlater

end

/-! ## What every statement keeps -/

/-- The keys of the tables. -/
structure Keyed (tables : Tables) : Prop where
  unique : Table.UniqueBy Playlist.id tables.playlists
  stations : ∀ playlist ∈ tables.playlists, ∀ stationId, playlist.stationId = some stationId →
    stationId ∈ tables.stations
  plays : ∀ play ∈ tables.playEvents, hasPlaylist tables play

/-- The keys, and the counts. -/
structure Sound (tables : Tables) : Prop extends Keyed tables where
  counts : Tally.Holds tables.counts (playCount tables)

section

variable {tables next : Tables}

theorem stationOf_of_mem {playlists : List Playlist} {playlist : Playlist}
    (hunique : Table.UniqueBy Playlist.id playlists) (hmem : playlist ∈ playlists) :
    stationOf playlists playlist.id = playlist.stationId := by
  rw [stationOf, hunique.find? hmem]
  rfl

/-- Where the playlists are after a delete. -/
theorem stationOf_delete {playlists : List Playlist} {matched : Playlist → Bool} {id : Uuid}
    (hunique : Table.UniqueBy Playlist.id playlists) :
    stationOf (Table.delete playlists matched) id =
      (playlists.find? fun playlist => playlist.id = id).bind fun playlist =>
        if matched playlist then none else playlist.stationId := by
  rw [stationOf]
  cases hfind : playlists.find? fun playlist => playlist.id = id with
  | none =>
      rw [Table.find?_delete, hfind]
      · rfl
      · intro playlist hplaylist hid
        cases List.find?_eq_none.mp hfind playlist hplaylist (decide_eq_true hid)
  | some playlist =>
      obtain ⟨hplaylist, rfl⟩ := Table.find?_key hfind
      have honly : ∀ other ∈ playlists, other.id = playlist.id → other = playlist :=
        fun other hother hid => hunique.eq hother hplaylist hid
      cases hmatched : matched playlist with
      | true =>
          rw [Table.find?_delete_eq_none fun other hother hid => honly other hother hid ▸ hmatched,
            Option.bind_some, if_pos hmatched]
          rfl
      | false =>
          rw [Table.find?_delete fun other hother hid => honly other hother hid ▸ hmatched, hfind,
            Option.bind_some, Option.bind_some, if_neg (hmatched ▸ Bool.false_ne_true)]

theorem sound_deletePlays {matched : PlayEvent → Bool} (hsound : Sound tables) :
    Sound (deletePlays tables matched) where
  unique := hsound.unique
  stations := hsound.stations
  plays play hplay := hsound.plays play (Table.mem_delete.mp hplay).1
  counts := holds_delete hsound.counts

theorem afterMove_eq (tables : Tables) (old : Playlist) (stationId : Option Uuid) :
    ∃ counts, afterMove tables old stationId = { tables with counts := counts } := by
  unfold afterMove
  split
  · exact ⟨tables.counts, rfl⟩
  · exact ⟨_, rfl⟩

/-- The triggers of a move touch the counts only. -/
theorem foldl_afterMove_eq (tables : Tables) (moved : List (Playlist × Option Uuid)) :
    ∃ counts, moved.foldl (fun tables entry => afterMove tables entry.1 entry.2) tables =
      { tables with counts := counts } := by
  induction moved generalizing tables with
  | nil => exact ⟨tables.counts, rfl⟩
  | cons entry rest ih =>
      obtain ⟨counts, hfirst⟩ := afterMove_eq tables entry.1 entry.2
      rw [List.foldl_cons, hfirst]
      exact ih _

/-- A playlist whose station is there goes as one that is moved off it. -/
theorem beforeDelete_eq {old : Playlist}
    (hstation : ∀ stationId, old.stationId = some stationId → stationId ∈ tables.stations) :
    beforeDelete tables old = afterMove tables old none := by
  unfold beforeDelete afterMove
  cases hold : old.stationId with
  | none => simp
  | some stationId =>
      have hnone :
          Tally.groupSum (pairAt old.id none) (tables.playEvents.map (·, (1 : Int))) = [] := by
        have hempty : (fun row : PlayEvent × Int => pairAt old.id none row.1) = fun _ => none := by
          funext row
          simp [pairAt]
        simp [Tally.groupSum, hempty]
      simp [hstation stationId hold, hnone]

theorem foldl_beforeDelete_eq {gone : List Playlist}
    (hstations : ∀ playlist ∈ gone, ∀ stationId, playlist.stationId = some stationId →
      stationId ∈ tables.stations) :
    gone.foldl beforeDelete tables =
      (gone.map (·, none)).foldl (fun tables entry => afterMove tables entry.1 entry.2) tables := by
  induction gone generalizing tables with
  | nil => rfl
  | cons playlist rest ih =>
      obtain ⟨counts, hfirst⟩ := afterMove_eq tables playlist none
      rw [List.foldl_cons, List.map_cons, List.foldl_cons,
        beforeDelete_eq (hstations playlist List.mem_cons_self)]
      refine ih fun other hother stationId hstation => ?_
      rw [hfirst]
      exact hstations other (List.mem_cons_of_mem _ hother) stationId hstation

/-- Once the station is gone, its playlists go without a word. -/
theorem foldl_beforeDelete_gone {gone : List Playlist}
    (hgone : ∀ playlist ∈ gone, playlist.stationId.any (· ∈ tables.stations) = false) :
    gone.foldl beforeDelete tables = tables := by
  induction gone with
  | nil => rfl
  | cons playlist rest ih =>
      have hfirst : beforeDelete tables playlist = tables := by
        rw [beforeDelete, if_neg (by simp [hgone playlist List.mem_cons_self])]
      rw [List.foldl_cons, hfirst]
      exact ih fun other hother => hgone other (List.mem_cons_of_mem _ hother)

theorem sound_insertPlaylist {playlist : Playlist} (hsound : Sound tables)
    (hfresh : ∀ other ∈ tables.playlists, other.id ≠ playlist.id)
    (hstation : ∀ stationId, playlist.stationId = some stationId → stationId ∈ tables.stations) :
    Sound { tables with playlists := playlist :: tables.playlists } where
  unique := by
    refine List.nodup_cons.mpr ⟨fun hmem => ?_, hsound.unique⟩
    obtain ⟨other, hother, hid⟩ := List.mem_map.mp hmem
    exact hfresh other hother hid
  stations other hother := by
    rcases List.mem_cons.mp hother with rfl | hother
    · exact hstation
    · exact hsound.stations other hother
  plays play hplay := by
    simp only [hasPlaylist, List.any_cons, Bool.or_eq_true]
    exact .inr (hsound.plays play hplay)
  counts := by
    intro pair
    have hcount : playCount { tables with playlists := playlist :: tables.playlists } pair =
        playCount tables pair := by
      refine List.countP_congr fun play hplay => ?_
      obtain ⟨other, hother, hid⟩ := List.any_eq_true.mp (hsound.plays play hplay)
      have hne : playlist.id ≠ play.playlistId := fun hsame =>
        hfresh other hother ((of_decide_eq_true hid).trans hsame.symm)
      simp [pairOf, stationOf, hne]
    rw [hcount]
    exact hsound.counts pair

theorem sound_insertPlays {rows : List PlayEvent} (hsound : Sound tables)
    (hplaylists : rows.all (hasPlaylist tables)) :
    Sound (syncInsert { tables with playEvents := tables.playEvents ++ rows } rows) where
  unique := hsound.unique
  stations := hsound.stations
  plays play hplay := by
    rcases List.mem_append.mp hplay with hold | hnew
    · exact hsound.plays play hold
    · exact List.all_eq_true.mp hplaylists play hnew
  counts := holds_insert hsound.counts

theorem sound_updatePlays {change : PlayEvent → Option PlayEvent} (hsound : Sound tables)
    (hplaylists : (tables.playEvents.filterMap change).all (hasPlaylist tables)) :
    Sound (syncUpdate
      { tables with playEvents := tables.playEvents.map fun play => (change play).getD play }
      (tables.playEvents.filter fun play => (change play).isSome)
      (tables.playEvents.filterMap change)) where
  unique := hsound.unique
  stations := hsound.stations
  plays play hplay := by
    obtain ⟨old, hold, rfl⟩ := List.mem_map.mp hplay
    show hasPlaylist tables ((change old).getD old) = true
    cases hchange : change old with
    | none => exact hsound.plays old hold
    | some changed =>
        exact List.all_eq_true.mp hplaylists changed (List.mem_filterMap.mpr ⟨old, hold, hchange⟩)
  counts := holds_update hsound.counts

/-- Where the playlists are after a move. -/
theorem stationOf_moved {playlists : List Playlist} {change : Playlist → Option (Option Uuid)}
    {id : Uuid} :
    stationOf (playlists.map fun playlist =>
        { playlist with stationId := (change playlist).getD playlist.stationId }) id =
      (playlists.find? fun playlist => playlist.id = id).bind fun playlist =>
        (change playlist).getD playlist.stationId := by
  rw [stationOf, List.find?_map, Option.bind_map]
  rfl

theorem moved_sublist {playlists : List Playlist} {change : Playlist → Option (Option Uuid)} :
    ((playlists.filterMap fun playlist => (change playlist).map (playlist, ·)).map
      fun entry => entry.1.id).Sublist (playlists.map Playlist.id) := by
  induction playlists with
  | nil => exact List.Sublist.refl _
  | cons playlist rest ih =>
      cases hchange : change playlist with
      | none => simpa [List.filterMap_cons, hchange] using ih.cons playlist.id
      | some station => simpa [List.filterMap_cons, hchange] using ih.cons_cons playlist.id

theorem hasPlaylist_iff {play : PlayEvent} :
    hasPlaylist tables play ↔ play.playlistId ∈ tables.playlists.map Playlist.id := by
  simp [hasPlaylist]

theorem sound_movePlaylists {change : Playlist → Option (Option Uuid)} (hsound : Sound tables)
    (hstations : ∀ playlist ∈ tables.playlists, ∀ station, change playlist = some station →
      ∀ stationId, station = some stationId → stationId ∈ tables.stations) :
    Sound (movePlaylists tables change) := by
  have hids : (tables.playlists.map fun playlist =>
      { playlist with stationId := (change playlist).getD playlist.stationId }).map Playlist.id =
        tables.playlists.map Playlist.id := by
    simp [Function.comp_def]
  have hentry : ∀ entry ∈ tables.playlists.filterMap fun playlist =>
      (change playlist).map (playlist, ·),
      entry.1 ∈ tables.playlists ∧ change entry.1 = some entry.2 := by
    intro entry hentry
    obtain ⟨playlist, hplaylist, hchange⟩ := List.mem_filterMap.mp hentry
    obtain ⟨station, hstation, rfl⟩ := Option.map_eq_some_iff.mp hchange
    exact ⟨hplaylist, hstation⟩
  -- The trigger runs once for each playlist whose station the statement sets.
  have hcounts := @holds_moves
    { tables with
      playlists := tables.playlists.map fun playlist =>
        { playlist with stationId := (change playlist).getD playlist.stationId } }
    (stationOf tables.playlists)
    (stationOf (tables.playlists.map fun playlist =>
      { playlist with stationId := (change playlist).getD playlist.stationId }))
    (tables.playlists.filterMap fun playlist => (change playlist).map (playlist, ·))
    (moved_sublist.nodup hsound.unique) hsound.counts ?_ ?_ ?_
  · obtain ⟨counts, hfold⟩ := foldl_afterMove_eq
      { tables with
        playlists := tables.playlists.map fun playlist =>
          { playlist with stationId := (change playlist).getD playlist.stationId } }
      (tables.playlists.filterMap fun playlist => (change playlist).map (playlist, ·))
    rw [hfold] at hcounts
    rw [movePlaylists, hfold]
    refine ⟨⟨?_, fun playlist hplaylist stationId hstation => ?_, fun play hplay => ?_⟩, hcounts⟩
    · unfold Table.UniqueBy
      rw [hids]
      exact hsound.unique
    · obtain ⟨old, hold, rfl⟩ := List.mem_map.mp hplaylist
      show stationId ∈ tables.stations
      simp only at hstation
      cases hchange : change old with
      | none =>
          rw [hchange] at hstation
          exact hsound.stations old hold stationId hstation
      | some station =>
          rw [hchange] at hstation
          exact hstations old hold station hchange stationId hstation
    · rw [hasPlaylist_iff, hids]
      exact hasPlaylist_iff.mp (hsound.plays play hplay)
  · intro entry hmem
    exact stationOf_of_mem hsound.unique (hentry entry hmem).1
  · intro entry hmem
    obtain ⟨hplaylist, hchange⟩ := hentry entry hmem
    rw [stationOf_moved, hsound.unique.find? hplaylist, Option.bind_some, hchange]
    rfl
  · intro id hid
    rw [stationOf_moved, stationOf]
    cases hfind : tables.playlists.find? fun playlist => playlist.id = id with
    | none => rfl
    | some playlist =>
        have hkept : change playlist = none := by
          refine Option.eq_none_iff_forall_ne_some.mpr fun station hchange => hid ?_
          refine List.mem_map.mpr ⟨(playlist, station), List.mem_filterMap.mpr
            ⟨playlist, List.mem_of_find?_eq_some hfind, by rw [hchange]; rfl⟩, ?_⟩
          simpa using List.find?_some hfind
        rw [Option.bind_some, Option.bind_some, hkept]
        rfl

/-- Once the playlists have been counted off, their plays count for nothing. -/
theorem holds_beforeDelete {matched : Playlist → Bool} (hsound : Sound tables) :
    Tally.Holds ((tables.playlists.filter matched).foldl beforeDelete tables).counts
      (countBy (stationOf (Table.delete tables.playlists matched)) tables.playEvents) := by
  rw [foldl_beforeDelete_eq fun playlist hplaylist =>
    hsound.stations playlist (List.mem_of_mem_filter hplaylist)]
  have hids : ((tables.playlists.filter matched).map (·, (none : Option Uuid))).map
      (fun entry => entry.1.id) = (tables.playlists.filter matched).map Playlist.id := by
    simp [Function.comp_def]
  apply @holds_moves tables (stationOf tables.playlists)
  · rw [hids]
    exact (List.filter_sublist.map Playlist.id).nodup hsound.unique
  · exact hsound.counts
  · intro entry hentry
    obtain ⟨playlist, hplaylist, rfl⟩ := List.mem_map.mp hentry
    exact stationOf_of_mem hsound.unique (List.mem_of_mem_filter hplaylist)
  · intro entry hentry
    obtain ⟨playlist, hplaylist, rfl⟩ := List.mem_map.mp hentry
    obtain ⟨hplaylist, hmatched⟩ := List.mem_filter.mp hplaylist
    rw [stationOf_delete hsound.unique, hsound.unique.find? hplaylist, Option.bind_some,
      if_pos hmatched]
  · intro id hid
    rw [hids] at hid
    rw [stationOf_delete hsound.unique, stationOf]
    cases hfind : tables.playlists.find? fun playlist => playlist.id = id with
    | none => rfl
    | some playlist =>
        obtain ⟨hplaylist, rfl⟩ := Table.find?_key hfind
        have hkept : ¬ matched playlist := fun hmatched =>
          hid (List.mem_map.mpr ⟨playlist, List.mem_filter.mpr ⟨hplaylist, hmatched⟩, rfl⟩)
        rw [Option.bind_some, Option.bind_some, if_neg hkept]

/-- Playlists go with their plays. -/
theorem hasPlaylist_delete {matched : Playlist → Bool} {play : PlayEvent}
    (hplay : hasPlaylist tables play)
    (hkept : ((tables.playlists.filter matched).any fun playlist =>
      playlist.id = play.playlistId) = false) :
    (Table.delete tables.playlists matched).any fun playlist => playlist.id = play.playlistId := by
  obtain ⟨playlist, hplaylist, hid⟩ := List.any_eq_true.mp hplay
  refine List.any_eq_true.mpr ⟨playlist, Table.mem_delete.mpr ⟨hplaylist, ?_⟩, hid⟩
  by_contra hmatched
  refine List.any_eq_false.mp hkept playlist (List.mem_filter.mpr ⟨hplaylist, ?_⟩) hid
  simpa using hmatched

theorem foldl_beforeDelete_counts {gone : List Playlist}
    (hstations : ∀ playlist ∈ gone, ∀ stationId, playlist.stationId = some stationId →
      stationId ∈ tables.stations) :
    ∃ counts, gone.foldl beforeDelete tables = { tables with counts := counts } := by
  rw [foldl_beforeDelete_eq hstations]
  exact foldl_afterMove_eq _ _

theorem sound_deletePlaylists {matched : Playlist → Bool} (hsound : Sound tables) :
    Sound (deletePlaylists tables matched) := by
  have hcounted := @holds_beforeDelete tables matched hsound
  obtain ⟨counts, hfold⟩ := @foldl_beforeDelete_counts tables (tables.playlists.filter matched)
    fun playlist hplaylist => hsound.stations playlist (List.mem_of_mem_filter hplaylist)
  rw [hfold] at hcounted
  rw [deletePlaylists, hfold]
  refine ⟨⟨hsound.unique.delete, fun playlist hplaylist => ?_, fun play hplay => ?_⟩, ?_⟩
  · exact hsound.stations playlist (Table.mem_delete.mp hplaylist).1
  · obtain ⟨hplay, hkept⟩ := Table.mem_delete.mp hplay
    exact hasPlaylist_delete (hsound.plays play hplay) hkept
  · exact holds_delete hcounted

/-- A station's playlists are all its own, so that no other station's count is touched. -/
theorem countBy_deleteStations {matched : Uuid → Bool} (hsound : Sound tables)
    (pair : Uuid × Uuid) :
    countBy (stationOf (Table.delete tables.playlists fun playlist =>
        playlist.stationId.any matched)) tables.playEvents pair =
      if matched pair.1 then 0 else playCount tables pair := by
  have hstation : ∀ id, stationOf (Table.delete tables.playlists fun playlist =>
      playlist.stationId.any matched) id =
        (stationOf tables.playlists id).filter fun stationId => !matched stationId := by
    intro id
    rw [stationOf_delete hsound.unique, stationOf]
    cases tables.playlists.find? fun playlist => playlist.id = id with
    | none => rfl
    | some playlist =>
        rw [Option.bind_some, Option.bind_some]
        cases playlist.stationId with
        | none => rfl
        | some stationId =>
            cases hmatched : matched stationId <;> simp [Option.filter_some, hmatched]
  have hpair : ∀ play : PlayEvent, pairOf (stationOf (Table.delete tables.playlists fun playlist =>
      playlist.stationId.any matched)) play = some pair ↔
        pairOf (stationOf tables.playlists) play = some pair ∧ matched pair.1 = false := by
    intro play
    rw [pairOf, pairOf, hstation]
    obtain ⟨stationId, identityId⟩ := pair
    cases stationOf tables.playlists play.playlistId with
    | none => simp
    | some other =>
        cases hmatched : matched other with
        | true =>
            suffices hother : other = stationId → play.identityId = identityId →
                matched stationId = true by simpa [Option.filter_some, hmatched] using hother
            rintro rfl -
            exact hmatched
        | false =>
            suffices hother : other = stationId → play.identityId = identityId →
                matched stationId = false by simpa [Option.filter_some, hmatched] using hother
            rintro rfl -
            exact hmatched
  simp only [countBy, playCount, hpair]
  cases matched pair.1 <;> simp

theorem sound_deleteStations {matched : Uuid → Bool} (hsound : Sound tables) :
    Sound (deleteStations tables matched) := by
  unfold deleteStations
  simp only
  rw [foldl_beforeDelete_gone]
  · refine ⟨⟨hsound.unique.delete, fun playlist hplaylist stationId hstation => ?_,
      fun play hplay => ?_⟩, ?_⟩
    · obtain ⟨hplaylist, hkept⟩ := Table.mem_delete.mp hplaylist
      rw [hstation] at hkept
      exact Table.mem_delete.mpr ⟨hsound.stations playlist hplaylist stationId hstation, hkept⟩
    · obtain ⟨hplay, hkept⟩ := Table.mem_delete.mp hplay
      exact hasPlaylist_delete (hsound.plays play hplay) (Bool.or_eq_false_iff.mp hkept).2
    · apply holds_delete
      exact Tally.holds_erase hsound.counts _ (@countBy_deleteStations tables matched hsound)
  · intro playlist hplaylist
    obtain ⟨-, hmatched⟩ := List.mem_filter.mp hplaylist
    cases hstation : playlist.stationId with
    | none => rfl
    | some stationId =>
        rw [hstation] at hmatched
        simp_all [Table.delete]

/-- Every statement that is let through keeps the tables sound. -/
theorem sound_execute {statement : Statement} (hsound : Sound tables)
    (hexecute : execute tables statement = some next) : Sound next := by
  -- One case a statement: the constraints give what its trigger needs.
  cases statement with
  | insertStation id =>
      rw [execute, Option.ite_none_left_eq_some] at hexecute
      obtain ⟨-, ⟨⟩⟩ := hexecute
      exact ⟨⟨hsound.unique, fun playlist hplaylist stationId hstation => List.mem_cons_of_mem _
        (hsound.stations playlist hplaylist stationId hstation), hsound.plays⟩, hsound.counts⟩
  | insertDay day =>
      rw [execute, Option.ite_none_left_eq_some] at hexecute
      obtain ⟨-, ⟨⟩⟩ := hexecute
      exact ⟨⟨hsound.unique, hsound.stations, hsound.plays⟩, hsound.counts⟩
  | insertPlaylist playlist =>
      rw [execute, Option.ite_none_left_eq_some] at hexecute
      obtain ⟨hchecked, ⟨⟩⟩ := hexecute
      rw [Bool.or_eq_true, not_or] at hchecked
      apply sound_insertPlaylist hsound
      · intro other hother hid
        exact hchecked.1 (List.any_eq_true.mpr ⟨other, hother, decide_eq_true hid⟩)
      · intro stationId hstation
        by_contra habsent
        exact hchecked.2 (by rw [hstation]; exact decide_eq_true habsent)
  | insertPlays rows =>
      rw [execute, Option.ite_none_right_eq_some] at hexecute
      obtain ⟨hplaylists, ⟨⟩⟩ := hexecute
      exact sound_insertPlays hsound hplaylists
  | updatePlays change =>
      rw [execute, Option.ite_none_right_eq_some] at hexecute
      obtain ⟨hplaylists, ⟨⟩⟩ := hexecute
      exact sound_updatePlays hsound hplaylists
  | deletePlays matched =>
      cases hexecute
      exact sound_deletePlays hsound
  -- The truncate trigger empties the counts as well.
  | truncatePlays =>
      cases hexecute
      exact ⟨⟨hsound.unique, hsound.stations, nofun⟩, fun pair => rfl⟩
  | movePlaylists change =>
      rw [execute, Option.ite_none_right_eq_some] at hexecute
      obtain ⟨hstations, ⟨⟩⟩ := hexecute
      apply sound_movePlaylists hsound
      rintro playlist hplaylist station hchange stationId rfl
      have hstation := List.all_eq_true.mp hstations playlist hplaylist
      rw [hchange] at hstation
      exact of_decide_eq_true hstation
  | deletePlaylists matched =>
      cases hexecute
      exact sound_deletePlaylists hsound
  | deleteDays matched =>
      cases hexecute
      exact sound_deletePlays ⟨⟨hsound.unique, hsound.stations, hsound.plays⟩, hsound.counts⟩
  | deleteStations matched =>
      cases hexecute
      exact sound_deleteStations hsound

theorem preserves_sound : database.Preserves Sound := by
  intro tables statement output next hsound hstep
  obtain ⟨after, hexecute, heq⟩ := Option.map_eq_some_iff.mp hstep
  cases heq
  exact sound_execute hsound hexecute

theorem sound_backfill (hkeyed : Keyed tables) : Sound (backfill tables) where
  toKeyed := ⟨hkeyed.unique, hkeyed.stations, hkeyed.plays⟩
  counts := by
    have hempty : Tally.Holds Dict.empty (countBy (stationOf tables.playlists) []) :=
      fun pair => rfl
    exact holds_insert hempty

end

/-- After every statement, the table holds the count of each pair that has plays, and nothing
at zero or below. -/
theorem counts_exact {start state : Tables} {trace : List (Statement × Unit)}
    (hkeyed : Keyed start) (hrun : database.Run (backfill start) trace state)
    (pair : Uuid × Uuid) :
    state.counts.get? pair =
        (if playCount state pair = 0 then none else some (playCount state pair : Int)) ∧
      ∀ count, state.counts.get? pair = some count → 0 < count := by
  have hcount := (hrun.invariant preserves_sound (sound_backfill hkeyed)).counts pair
  refine ⟨hcount, fun count hget => ?_⟩
  rw [hcount] at hget
  split at hget
  next => cases hget
  next hplays =>
    cases hget
    exact Int.natCast_pos.mpr (Nat.pos_of_ne_zero hplays)

/-- Two stations with a playlist each, one of them played. -/
def twoStations : Tables where
  stations := [1, 2]
  broadcastDays := [⟨50, 1⟩]
  playlists := [⟨10, some 1⟩, ⟨11, some 2⟩]
  playEvents := [⟨7, 10, some 50⟩]
  counts := Dict.empty

/-- Plays come in on both, one changes its identity, one playlist moves and the other goes. -/
def busyDay : List Statement :=
  [.insertPlays [⟨7, 10, none⟩, ⟨8, 11, none⟩],
    .updatePlays fun play =>
      if play.identityId = 8 then some { play with identityId := 7 } else none,
    .movePlaylists fun playlist => if playlist.id = 10 then some (some 2) else none,
    .deletePlaylists fun playlist => playlist.id = 11]

theorem counts_exact_busyDay : ∃ trace state, database.Run (backfill twoStations) trace state ∧
    state.counts.get? (2, 7) = some 2 ∧ playCount state (2, 7) = 2 := by
  have hkeyed : Keyed twoStations := ⟨by decide, by decide, by decide⟩
  obtain ⟨trace, state, hexec, hcount⟩ : ∃ trace state,
      database.exec (backfill twoStations) busyDay = some (trace, state) ∧
        playCount state (2, 7) = 2 := ⟨_, _, rfl, rfl⟩
  have hrun := Machine.run_of_exec hexec
  refine ⟨trace, state, hrun, ?_, hcount⟩
  rw [(counts_exact hkeyed hrun (2, 7)).1, hcount]
  rfl

end RetroStation.PlayCounts
