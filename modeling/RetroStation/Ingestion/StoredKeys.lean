import RetroStation.Effect.Simulation
import RetroStation.Ingestion.Ingest

/-! # The keys of what an ingest stores

Each statement of an ingest leaves its key in its table, and no other key comes into a table.
-/

namespace RetroStation.Ingestion

open Upsert

namespace Statement

@[simp] def artist? : Statement → Option String
  | .upsertArtist normalizedName => some normalizedName
  | .upsertIdentity _ | .getOrCreateDay _ | .createEvent _ => none

@[simp] def identity? : Statement → Option String
  | .upsertIdentity normalizedSignature => some normalizedSignature
  | .upsertArtist _ | .getOrCreateDay _ | .createEvent _ => none

@[simp] def day? : Statement → Option Day
  | .getOrCreateDay date => some date
  | .upsertArtist _ | .upsertIdentity _ | .createEvent _ => none

@[simp] def event? : Statement → Option BroadcastPlayEvent
  | .createEvent event => some event
  | .upsertArtist _ | .upsertIdentity _ | .getOrCreateDay _ => none

end Statement

/-- The keys of the tables are those from before and those of the statements made. -/
structure StoredKeys (stationId : Option Uuid) (before : Store) (ingest : Ingest) : Prop where
  artists : ∀ name, name ∈ ingest.store.artists.map BroadcastArtist.normalizedName ↔
    name ∈ before.artists.map BroadcastArtist.normalizedName ∨
      name ∈ ingest.statements.filterMap Statement.artist?
  identities : ∀ signature,
    signature ∈ ingest.store.identities.map BroadcastTrackIdentity.normalizedSignature ↔
      signature ∈ before.identities.map BroadcastTrackIdentity.normalizedSignature ∨
        signature ∈ ingest.statements.filterMap Statement.identity?
  days : ∀ key, key ∈ ingest.store.days.map BroadcastDay.key ↔
    key ∈ before.days.map BroadcastDay.key ∨
      stationId = some key.1 ∧ key.2 ∈ ingest.statements.filterMap Statement.day?
  events : ∀ key, key ∈ ingest.store.events.map BroadcastPlayEvent.key ↔
    key ∈ before.events.map BroadcastPlayEvent.key ∨
      key ∈ (ingest.statements.filterMap Statement.event?).map BroadcastPlayEvent.key

section

variable {newId : Nat → Uuid} {reading : Reading} {stationId : Option Uuid} {playlistId : Uuid}
  {before : Store} {ingest : Ingest}

theorem StoredKeys.report (count : Nat) (hstored : StoredKeys stationId before ingest) :
    StoredKeys stationId before (Ingestion.report count ingest) :=
  ⟨hstored.artists, hstored.identities, hstored.days, hstored.events⟩

theorem StoredKeys.skipRow (reason : SkipReason) (hstored : StoredKeys stationId before ingest) :
    StoredKeys stationId before (Ingestion.skipRow reason ingest) :=
  ⟨hstored.artists, hstored.identities, hstored.days, hstored.events⟩

theorem findArtist_stored (rawArtist normArtist : String)
    (hstored : StoredKeys stationId before ingest) :
    StoredKeys stationId before (findArtist newId rawArtist normArtist ingest).2 := by
  unfold findArtist
  split
  · exact hstored
  · refine ⟨fun name => mem_keys_upsert.trans ?_, fun signature => ?_, fun key => ?_, fun key => ?_⟩
    · simp [hstored.artists, or_assoc]
    · simpa [List.filterMap_cons] using hstored.identities signature
    · simpa [List.filterMap_cons] using hstored.days key
    · simpa [List.filterMap_cons] using hstored.events key

theorem findIdentity_stored (artist : BroadcastArtist) (rawTitle normTitle signature : String)
    (hstored : StoredKeys stationId before ingest) :
    StoredKeys stationId before
      (findIdentity newId artist rawTitle normTitle signature ingest).2 := by
  unfold findIdentity
  split
  · exact hstored
  · refine ⟨fun name => ?_, fun other => mem_keys_upsert.trans ?_, fun key => ?_, fun key => ?_⟩
    · simpa [List.filterMap_cons] using hstored.artists name
    · simp [hstored.identities, or_assoc]
    · simpa [List.filterMap_cons] using hstored.days key
    · simpa [List.filterMap_cons] using hstored.events key

theorem findDay_stored (date : Day) (hstored : StoredKeys stationId before ingest) :
    StoredKeys stationId before (findDay newId stationId date ingest).2 := by
  unfold findDay
  split
  · exact hstored
  · exact hstored
  next station _ =>
    refine ⟨fun name => ?_, fun signature => ?_, fun key => mem_keys_upsert.trans ?_, fun key => ?_⟩
    · simpa [List.filterMap_cons] using hstored.artists name
    · simpa [List.filterMap_cons] using hstored.identities signature
    · obtain ⟨of, on⟩ := key
      simp only [hstored.days, BroadcastDay.key, Prod.mk.injEq, Option.some.injEq,
        List.filterMap_append, List.mem_append, or_assoc, and_or_left]
      simp [eq_comm]
    · simpa [List.filterMap_cons] using hstored.events key

theorem createEvent_stored (identity : BroadcastTrackIdentity) (playedAt : Moment)
    (day : Option BroadcastDay) (hstored : StoredKeys stationId before ingest) :
    StoredKeys stationId before (createEvent newId playlistId identity playedAt day ingest) := by
  unfold createEvent
  refine ⟨fun name => ?_, fun signature => ?_, fun key => ?_, fun key => mem_keys_upsert.trans ?_⟩
  · simpa [List.filterMap_cons] using hstored.artists name
  · simpa [List.filterMap_cons] using hstored.identities signature
  · simpa [List.filterMap_cons] using hstored.days key
  · simp [hstored.events, or_assoc]

theorem ingestRow_stored {row : Dict String String} {ingest' : Ingest}
    (hstored : StoredKeys stationId before ingest)
    (hrow : ingestRow newId reading stationId playlistId row ingest = .ok ingest') :
    StoredKeys stationId before ingest' := by
  unfold ingestRow at hrow
  split at hrow
  · cases hrow
  next playedAt _ =>
    simp only at hrow
    replace hstored := @findArtist_stored newId stationId before ingest (column row "Artist")
      (reading.normalizeArtist (column row "Artist")) hstored
    generalize findArtist newId (column row "Artist")
      (reading.normalizeArtist (column row "Artist")) ingest = found at *
    obtain ⟨artist, ingest₁⟩ := found
    replace hstored := @findIdentity_stored newId stationId before ingest₁ artist
      (column row "Title") (reading.normalizeTitle (column row "Title"))
      (reading.signature (reading.normalizeArtist (column row "Artist"))
        (reading.normalizeTitle (column row "Title"))) hstored
    generalize findIdentity newId artist (column row "Title")
      (reading.normalizeTitle (column row "Title"))
      (reading.signature (reading.normalizeArtist (column row "Artist"))
        (reading.normalizeTitle (column row "Title"))) ingest₁ = found at *
    obtain ⟨identity, ingest₂⟩ := found
    replace hstored := @findDay_stored newId stationId before ingest₂ playedAt.date hstored
    generalize findDay newId stationId playedAt.date ingest₂ = found at *
    obtain ⟨day, ingest₃⟩ := found
    replace hstored := @createEvent_stored newId stationId playlistId before ingest₃ identity
      playedAt day hstored
    obtain rfl := Except.ok.inj hrow
    split
    · exact hstored.report _
    · exact hstored

/-- The rows of a file keep what holds of the keys. -/
theorem ingestRawRows_stored {rawRows : List (Dict (Option String) CsvValue)} {ingest' : Ingest}
    (hstored : StoredKeys stationId before ingest)
    (hrows : rawRows.foldlM (ingestRawRow newId reading stationId playlistId) ingest =
      .ok ingest') : StoredKeys stationId before ingest' := by
  induction rawRows generalizing ingest with
  | nil =>
      obtain rfl := Except.ok.inj hrows
      exact hstored
  | cons rawRow rest ih =>
      rw [List.foldlM_cons] at hrows
      obtain ⟨next, hnext, hrest⟩ := Effect.bind_eq_ok_iff.mp hrows
      refine ih ?_ hrest
      unfold ingestRawRow at hnext
      split at hnext
      · obtain rfl := Except.ok.inj hnext
        exact hstored.skipRow _
      · exact ingestRow_stored hstored hnext

end

end RetroStation.Ingestion
