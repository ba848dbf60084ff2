import Mathlib.Algebra.GroupWithZero.Nat
import RetroStation.Ingestion.StoredKeys

/-! # What an ingest accounts for

Every row of a file is processed or skipped. Each name, signature and day of its valid rows is
looked up once, and the play of a row is of the song with its signature.
-/

namespace RetroStation.Ingestion

open Upsert

variable {newId : Nat → Uuid} {reading : Reading} {stationId : Option Uuid} {playlistId : Uuid}

/-! ## What a row says -/

namespace Reading

variable (reading : Reading) (row : Dict String String)

def artistName : String := reading.normalizeArtist (column row "Artist")

def titleName : String := reading.normalizeTitle (column row "Title")

def rowSignature : String := reading.signature (reading.artistName row) (reading.titleName row)

def playedAt? : Option Moment := reading.strptime (column row "Played")

end Reading

/-! ## Tables -/

/-- The songs of a store belong to artists whose names their signatures are made of. -/
def Store.Linked (reading : Reading) (store : Store) : Prop :=
  ∀ identity ∈ store.identities, ∃ artist ∈ store.artists,
    artist.id = identity.broadcastArtistId ∧
      reading.signature artist.normalizedName identity.normalizedTitle =
        identity.normalizedSignature

/-- No two artists have a name, no two songs a signature, and no station a day twice. -/
structure Store.Keyed (store : Store) : Prop where
  artists : Table.UniqueBy BroadcastArtist.normalizedName store.artists
  identities : Table.UniqueBy BroadcastTrackIdentity.normalizedSignature store.identities
  days : Table.UniqueBy BroadcastDay.key store.days
  events : Table.UniqueBy BroadcastPlayEvent.key store.events

/-- A store with more rows. -/
structure Store.Within (store store' : Store) : Prop where
  playlists : store.playlists <+: store'.playlists
  artists : store.artists <+: store'.artists
  identities : store.identities <+: store'.identities
  days : store.days <+: store'.days
  events : store.events <+: store'.events

theorem Store.Within.refl (store : Store) : store.Within store :=
  ⟨List.prefix_rfl, List.prefix_rfl, List.prefix_rfl, List.prefix_rfl, List.prefix_rfl⟩

theorem Store.Within.trans {first second third : Store} (hfirst : first.Within second)
    (hsecond : second.Within third) : first.Within third :=
  ⟨hfirst.playlists.trans hsecond.playlists, hfirst.artists.trans hsecond.artists,
    hfirst.identities.trans hsecond.identities, hfirst.days.trans hsecond.days,
    hfirst.events.trans hsecond.events⟩

/-- The day of a play: the station's, if there is a station. -/
def DayOf (stationId : Option Uuid) (store : Store) (date : Day) (dayId : Option Uuid) : Prop :=
  match stationId with
  | none => dayId = none
  | some stationId => ∃ day, lookup BroadcastDay.key store.days (stationId, date) = some day ∧
      dayId = some day.id

/-- The play of a row: of the song with its signature, at its time, on its day. -/
structure EventOf (reading : Reading) (stationId : Option Uuid) (playlistId : Uuid) (store : Store)
    (row : Dict String String) (event : BroadcastPlayEvent) : Prop where
  playlist : event.playlistId = playlistId
  playedAt : reading.playedAt? row = some event.playedAt
  identity : ∃ identity, lookup BroadcastTrackIdentity.normalizedSignature store.identities
    (reading.rowSignature row) = some identity ∧ event.identityId = identity.id
  day : DayOf stationId store event.playedAt.date event.broadcastDayId

theorem DayOf.mono {store store' : Store} {date : Day} {dayId : Option Uuid}
    (hday : DayOf stationId store date dayId) (hwithin : store.Within store') :
    DayOf stationId store' date dayId := by
  cases stationId with
  | none => exact hday
  | some stationId =>
      obtain ⟨day, hlookup, hid⟩ := hday
      exact ⟨day, lookup_of_extended hwithin.days hlookup, hid⟩

theorem EventOf.mono {store store' : Store} {row : Dict String String} {event : BroadcastPlayEvent}
    (hevent : EventOf reading stationId playlistId store row event)
    (hwithin : store.Within store') : EventOf reading stationId playlistId store' row event := by
  obtain ⟨identity, hlookup, hid⟩ := hevent.identity
  exact ⟨hevent.playlist, hevent.playedAt,
    ⟨identity, lookup_of_extended hwithin.identities hlookup, hid⟩, hevent.day.mono hwithin⟩

/-- What was looked up for some artists' names, signatures and days, and the plays of some
rows. -/
structure Filed (reading : Reading) (stationId : Option Uuid) (playlistId : Uuid)
    (names signatures : List String) (dates : List Day) (rows : List (Dict String String))
    (ingest : Ingest) : Prop where
  artists : Remembers BroadcastArtist.normalizedName id ingest.seenArtists ingest.store.artists
    (ingest.statements.filterMap Statement.artist?) names
  identities : Remembers BroadcastTrackIdentity.normalizedSignature id ingest.seenSignatures
    ingest.store.identities (ingest.statements.filterMap Statement.identity?) signatures
  days : ∀ station, stationId = some station →
    Remembers BroadcastDay.key (station, ·) ingest.seenBroadcastDates ingest.store.days
      (ingest.statements.filterMap Statement.day?) dates
  noDays : stationId = none → ingest.seenBroadcastDates = Dict.empty ∧
    ingest.statements.filterMap Statement.day? = []
  daysUnique : Table.UniqueBy BroadcastDay.key ingest.store.days
  eventsUnique : Table.UniqueBy BroadcastPlayEvent.key ingest.store.events
  events : List.Forall₂ (EventOf reading stationId playlistId ingest.store) rows
    (ingest.statements.filterMap Statement.event?)
  linked : ingest.store.Linked reading

theorem Filed.keyed {names signatures : List String} {dates : List Day}
    {rows : List (Dict String String)} {ingest : Ingest}
    (hfiled : Filed reading stationId playlistId names signatures dates rows ingest) :
    ingest.store.Keyed :=
  ⟨hfiled.artists.unique, hfiled.identities.unique, hfiled.daysUnique, hfiled.eventsUnique⟩

section

variable {names signatures : List String} {dates : List Day} {rows : List (Dict String String)}
  {ingest : Ingest}

theorem Store.Linked.mono_artists {store : Store} {artists : List BroadcastArtist}
    (hlinked : store.Linked reading) (hextended : store.artists <+: artists) :
    Store.Linked reading { store with artists } := by
  intro identity hidentity
  obtain ⟨artist, hartist, hid, hsignature⟩ := hlinked identity hidentity
  exact ⟨artist, hextended.subset hartist, hid, hsignature⟩

theorem findArtist_filed (newId : Nat → Uuid) (rawArtist normArtist : String)
    (hfiled : Filed reading stationId playlistId names signatures dates rows ingest) :
    Filed reading stationId playlistId (names ++ [normArtist]) signatures dates rows
        (findArtist newId rawArtist normArtist ingest).2 ∧
      ingest.store.Within (findArtist newId rawArtist normArtist ingest).2.store ∧
      lookup BroadcastArtist.normalizedName
        (findArtist newId rawArtist normArtist ingest).2.store.artists normArtist =
          some (findArtist newId rawArtist normArtist ingest).1 := by
  unfold findArtist
  cases hseen : ingest.seenArtists.get? normArtist with
  | some artist =>
      obtain ⟨hartists, hlookup⟩ := hfiled.artists.hit hseen
      exact ⟨{ hfiled with artists := hartists }, Store.Within.refl _, hlookup⟩
  | none =>
      let artist : BroadcastArtist := ⟨newId ingest.drawn, rawArtist, normArtist⟩
      have hkey : artist.normalizedName = id normArtist := rfl
      obtain ⟨hartists, hlookup⟩ := hfiled.artists.miss hseen hkey
      have hextended : ingest.store.artists <+:
          (upsert BroadcastArtist.normalizedName ingest.store.artists artist).2 :=
        prefix_upsert _ _
      have hwithin : ingest.store.Within { ingest.store with
          artists := (upsert BroadcastArtist.normalizedName ingest.store.artists artist).2 } :=
        ⟨List.prefix_rfl, hextended, List.prefix_rfl, List.prefix_rfl, List.prefix_rfl⟩
      refine ⟨?_, hwithin, hlookup⟩
      constructor
      · rw [List.filterMap_append]
        exact hartists
      · simpa [List.filterMap_cons] using hfiled.identities
      · simpa [List.filterMap_cons] using hfiled.days
      · simpa using hfiled.noDays
      · exact hfiled.daysUnique
      · exact hfiled.eventsUnique
      · rw [List.filterMap_append]
        simpa [List.filterMap_cons] using hfiled.events.imp fun _ _ hevent => hevent.mono hwithin
      · exact hfiled.linked.mono_artists hextended

theorem findIdentity_filed (newId : Nat → Uuid) {normArtist : String}
    {artist : BroadcastArtist} (rawTitle normTitle : String) {signature : String}
    (hfiled : Filed reading stationId playlistId names signatures dates rows ingest)
    (hartist : lookup BroadcastArtist.normalizedName ingest.store.artists normArtist = some artist)
    (hsignature : reading.signature normArtist normTitle = signature) :
    Filed reading stationId playlistId names (signatures ++ [signature]) dates rows
        (findIdentity newId artist rawTitle normTitle signature ingest).2 ∧
      ingest.store.Within (findIdentity newId artist rawTitle normTitle signature ingest).2.store ∧
      lookup BroadcastTrackIdentity.normalizedSignature
        (findIdentity newId artist rawTitle normTitle signature ingest).2.store.identities
          signature = some (findIdentity newId artist rawTitle normTitle signature ingest).1 := by
  unfold findIdentity
  cases hseen : ingest.seenSignatures.get? signature with
  | some identity =>
      obtain ⟨hidentities, hlookup⟩ := hfiled.identities.hit hseen
      exact ⟨{ hfiled with identities := hidentities }, Store.Within.refl _, hlookup⟩
  | none =>
      let identity : BroadcastTrackIdentity :=
        ⟨newId ingest.drawn, artist.id, rawTitle, normTitle, signature⟩
      have hkey : identity.normalizedSignature = id signature := rfl
      obtain ⟨hidentities, hlookup⟩ := hfiled.identities.miss hseen hkey
      have hwithin : ingest.store.Within { ingest.store with
          identities := (upsert BroadcastTrackIdentity.normalizedSignature
            ingest.store.identities identity).2 } :=
        ⟨List.prefix_rfl, List.prefix_rfl, prefix_upsert _ _, List.prefix_rfl, List.prefix_rfl⟩
      refine ⟨?_, hwithin, hlookup⟩
      constructor
      · simpa [List.filterMap_cons] using hfiled.artists
      · rw [List.filterMap_append]
        exact hidentities
      · simpa [List.filterMap_cons] using hfiled.days
      · simpa using hfiled.noDays
      · exact hfiled.daysUnique
      · exact hfiled.eventsUnique
      · rw [List.filterMap_append]
        simpa [List.filterMap_cons] using hfiled.events.imp fun _ _ hevent => hevent.mono hwithin
      · intro other hother
        rcases upsert_cases BroadcastTrackIdentity.normalizedSignature ingest.store.identities
          identity with ⟨-, hrows⟩ | ⟨found, -, hrows⟩
        · simp only [identity] at hrows
          simp only [hrows, List.mem_append, List.mem_singleton] at hother
          rcases hother with hother | rfl
          · exact hfiled.linked other hother
          · obtain ⟨hmem, hname⟩ := mem_of_lookup hartist
            exact ⟨artist, hmem, rfl, by rw [hname]; exact hsignature⟩
        · simp only [identity] at hrows
          simp only [hrows] at hother
          exact hfiled.linked other hother

theorem findDay_filed (newId : Nat → Uuid) (date : Day)
    (hfiled : Filed reading stationId playlistId names signatures dates rows ingest) :
    Filed reading stationId playlistId names signatures (dates ++ [date]) rows
        (findDay newId stationId date ingest).2 ∧
      ingest.store.Within (findDay newId stationId date ingest).2.store ∧
      DayOf stationId (findDay newId stationId date ingest).2.store date
        ((findDay newId stationId date ingest).1.map BroadcastDay.id) := by
  cases stationId with
  | none =>
      have hnone : ingest.seenBroadcastDates.get? date = none := by
        rw [(hfiled.noDays rfl).1, Dict.get?_empty]
      simp only [findDay, hnone]
      exact ⟨{ hfiled with days := fun _ hnone => by cases hnone }, Store.Within.refl _, rfl⟩
  | some station =>
      unfold findDay
      cases hseen : ingest.seenBroadcastDates.get? date with
      | some day =>
          obtain ⟨hdays, hlookup⟩ := (hfiled.days station rfl).hit hseen
          refine ⟨{ hfiled with days := ?_ }, Store.Within.refl _, day, hlookup, rfl⟩
          rintro other hother
          obtain rfl := Option.some.inj hother
          exact hdays
      | none =>
          let day : BroadcastDay := ⟨newId ingest.drawn, station, date⟩
          have hkey : day.key = (station, date) := rfl
          obtain ⟨hdays, hlookup⟩ := (hfiled.days station rfl).miss hseen hkey
          have hwithin : ingest.store.Within { ingest.store with
              days := (upsert BroadcastDay.key ingest.store.days day).2 } :=
            ⟨List.prefix_rfl, List.prefix_rfl, List.prefix_rfl, prefix_upsert _ _, List.prefix_rfl⟩
          refine ⟨?_, hwithin, _, hlookup, rfl⟩
          constructor
          · simpa [List.filterMap_cons] using hfiled.artists
          · simpa [List.filterMap_cons] using hfiled.identities
          · rintro other hother
            obtain rfl := Option.some.inj hother
            rw [List.filterMap_append]
            exact hdays
          · intro hnone
            cases hnone
          · exact hdays.unique
          · exact hfiled.eventsUnique
          · rw [List.filterMap_append]
            simpa [List.filterMap_cons] using
              hfiled.events.imp fun _ _ hevent => hevent.mono hwithin
          · exact hfiled.linked

theorem createEvent_filed (newId : Nat → Uuid) {row : Dict String String}
    {identity : BroadcastTrackIdentity} {playedAt : Moment} {day : Option BroadcastDay}
    (hfiled : Filed reading stationId playlistId names signatures dates rows ingest)
    (hplayed : reading.playedAt? row = some playedAt)
    (hidentity : lookup BroadcastTrackIdentity.normalizedSignature ingest.store.identities
      (reading.rowSignature row) = some identity)
    (hday : DayOf stationId ingest.store playedAt.date (day.map BroadcastDay.id)) :
    Filed reading stationId playlistId names signatures dates (rows ++ [row])
        (createEvent newId playlistId identity playedAt day ingest) ∧
      ingest.store.Within (createEvent newId playlistId identity playedAt day ingest).store := by
  have hwithin : ingest.store.Within
      (createEvent newId playlistId identity playedAt day ingest).store :=
    ⟨List.prefix_rfl, List.prefix_rfl, List.prefix_rfl, List.prefix_rfl, prefix_upsert _ _⟩
  refine ⟨?_, hwithin⟩
  constructor
  · simpa [createEvent, List.filterMap_cons] using hfiled.artists
  · simpa [createEvent, List.filterMap_cons] using hfiled.identities
  · simpa [createEvent, List.filterMap_cons] using hfiled.days
  · simpa [createEvent] using hfiled.noDays
  · exact hfiled.daysUnique
  · exact uniqueBy_upsert hfiled.eventsUnique _
  · rw [createEvent, List.filterMap_append]
    refine List.rel_append (hfiled.events.imp fun _ _ hevent => hevent.mono hwithin) ?_
    exact .cons ⟨rfl, hplayed, ⟨identity, hidentity, rfl⟩, hday⟩ .nil
  · exact hfiled.linked

/-! ## Counts -/

/-- The counts after so many valid and so many skipped rows; the caller was told of each
hundred. -/
structure Counted (playlistId : Uuid) (valid skipped : Nat) (ingest : Ingest) : Prop where
  playlist : ingest.result.playlistId = some playlistId
  processed : ingest.result.rowsProcessed = valid
  events : ingest.result.eventsCreated = valid
  skips : ingest.result.rowsSkipped = skipped
  reasons : ingest.result.skipReasons.values.sum = skipped
  reported : ingest.reported =
    0 :: (List.range (valid / PROGRESS_REPORT_INTERVAL)).map fun index =>
      PROGRESS_REPORT_INTERVAL * (index + 1)

theorem findArtist_counted (newId : Nat → Uuid) {valid skipped : Nat}
    (rawArtist normArtist : String) (hcounted : Counted playlistId valid skipped ingest) :
    Counted playlistId valid skipped (findArtist newId rawArtist normArtist ingest).2 := by
  unfold findArtist
  split
  · exact hcounted
  · exact ⟨hcounted.playlist, hcounted.processed, hcounted.events, hcounted.skips,
      hcounted.reasons, hcounted.reported⟩

theorem findIdentity_counted (newId : Nat → Uuid) {valid skipped : Nat} (artist : BroadcastArtist)
    (rawTitle normTitle signature : String) (hcounted : Counted playlistId valid skipped ingest) :
    Counted playlistId valid skipped
      (findIdentity newId artist rawTitle normTitle signature ingest).2 := by
  unfold findIdentity
  split
  · exact hcounted
  · exact ⟨hcounted.playlist, hcounted.processed, hcounted.events, hcounted.skips,
      hcounted.reasons, hcounted.reported⟩

theorem findDay_counted (newId : Nat → Uuid) (stationId : Option Uuid) {valid skipped : Nat}
    (date : Day)
    (hcounted : Counted playlistId valid skipped ingest) :
    Counted playlistId valid skipped (findDay newId stationId date ingest).2 := by
  unfold findDay
  split
  · exact hcounted
  · exact hcounted
  · exact ⟨hcounted.playlist, hcounted.processed, hcounted.events, hcounted.skips,
      hcounted.reasons, hcounted.reported⟩

/-- A row more is told of exactly if it fills a hundred. -/
theorem reports_succ (valid : Nat) :
    (List.range ((valid + 1) / PROGRESS_REPORT_INTERVAL)).map
        (fun index => PROGRESS_REPORT_INTERVAL * (index + 1)) =
      (List.range (valid / PROGRESS_REPORT_INTERVAL)).map
          (fun index => PROGRESS_REPORT_INTERVAL * (index + 1)) ++
        if (valid + 1) % PROGRESS_REPORT_INTERVAL = 0 then [valid + 1] else [] := by
  rw [PROGRESS_REPORT_INTERVAL]
  by_cases hfull : (valid + 1) % 100 = 0
  · have hnext : (valid + 1) / 100 = valid / 100 + 1 := by omega
    have hcount : 100 * (valid / 100 + 1) = valid + 1 := by omega
    rw [hnext, List.range_succ, List.map_append, if_pos hfull, List.map_singleton, hcount]
  · have hsame : (valid + 1) / 100 = valid / 100 := by omega
    rw [hsame, if_neg hfull, List.append_nil]

/-- A valid row is counted, and told of if it fills a hundred. -/
theorem created_counted {valid skipped : Nat} {identity : BroadcastTrackIdentity}
    {playedAt : Moment} {day : Option BroadcastDay}
    (hcounted : Counted playlistId valid skipped ingest) :
    let created := createEvent newId playlistId identity playedAt day ingest
    Counted playlistId (valid + 1) skipped
      (if created.result.rowsProcessed % PROGRESS_REPORT_INTERVAL = 0 then
        report created.result.rowsProcessed created else created) := by
  intro created
  have hprocessed : created.result.rowsProcessed = valid + 1 :=
    congrArg (· + 1) hcounted.processed
  have hevents : created.result.eventsCreated = valid + 1 := congrArg (· + 1) hcounted.events
  have hreports := reports_succ valid
  by_cases hfull : (valid + 1) % PROGRESS_REPORT_INTERVAL = 0
  · rw [if_pos (by rw [hprocessed]; exact hfull)]
    refine ⟨hcounted.playlist, hprocessed, hevents, hcounted.skips, hcounted.reasons, ?_⟩
    rw [hreports, if_pos hfull, report, hprocessed]
    exact congrArg (· ++ [valid + 1]) hcounted.reported
  · rw [if_neg (by rw [hprocessed]; exact hfull)]
    refine ⟨hcounted.playlist, hprocessed, hevents, hcounted.skips, hcounted.reasons, ?_⟩
    rw [hreports, if_neg hfull, List.append_nil]
    exact hcounted.reported

theorem sum_values_bump (dict : Dict SkipReason Nat) (reason : SkipReason) :
    (dict.set reason ((dict.get? reason).getD 0 + 1)).values.sum = dict.values.sum + 1 := by
  obtain ⟨entries, hnodup⟩ := dict
  simp only [Dict.set, Dict.get?, Dict.values]
  clear hnodup
  induction entries with
  | nil => simp [Dict.setEntries]
  | cons entry rest ih =>
      by_cases hsame : entry.1 = reason
      · simp [Dict.setEntries, hsame, Nat.add_right_comm]
      · simp [Dict.setEntries, hsame, ih, Nat.add_assoc]

theorem skipRow_counted {valid skipped : Nat} (reason : SkipReason)
    (hcounted : Counted playlistId valid skipped ingest) :
    Counted playlistId valid (skipped + 1) (skipRow reason ingest) :=
  ⟨hcounted.playlist, hcounted.processed, hcounted.events, congrArg (· + 1) hcounted.skips,
    (sum_values_bump _ _).trans (congrArg (· + 1) hcounted.reasons), hcounted.reported⟩

/-! ## Rows -/

/-- The ingest after some valid rows and some skipped ones. -/
structure Accounted (reading : Reading) (stationId : Option Uuid) (playlistId : Uuid)
    (rows : List (Dict String String)) (skipped : Nat) (ingest : Ingest) : Prop where
  filed : Filed reading stationId playlistId (rows.map reading.artistName)
    (rows.map reading.rowSignature)
    (rows.filterMap fun row => (reading.playedAt? row).map Moment.date) rows ingest
  counted : Counted playlistId rows.length skipped ingest

theorem report_filed (count : Nat)
    (hfiled : Filed reading stationId playlistId names signatures dates rows ingest) :
    Filed reading stationId playlistId names signatures dates rows (report count ingest) :=
  ⟨hfiled.artists, hfiled.identities, hfiled.days, hfiled.noDays, hfiled.daysUnique,
    hfiled.eventsUnique, hfiled.events, hfiled.linked⟩

theorem ingestRow_accounted {skipped : Nat} {row : Dict String String} {ingest' : Ingest}
    (haccounted : Accounted reading stationId playlistId rows skipped ingest)
    (hrow : ingestRow newId reading stationId playlistId row ingest = .ok ingest') :
    Accounted reading stationId playlistId (rows ++ [row]) skipped ingest' ∧
      ingest.store.Within ingest'.store := by
  unfold ingestRow at hrow
  cases hplayed : reading.strptime (column row "Played") with
  | none =>
      rw [hplayed] at hrow
      cases hrow
  -- Artist, identity, day and event in turn: each step files its own row and keeps the others.
  | some playedAt =>
      simp only [hplayed] at hrow
      obtain ⟨hnames, hwithinNames, hartist⟩ := findArtist_filed newId (column row "Artist")
        (reading.normalizeArtist (column row "Artist")) haccounted.filed
      have hcounted := findArtist_counted newId (column row "Artist")
        (reading.normalizeArtist (column row "Artist")) haccounted.counted
      generalize findArtist newId (column row "Artist")
        (reading.normalizeArtist (column row "Artist")) ingest = found at *
      obtain ⟨artist, ingest₁⟩ := found
      obtain ⟨hsignatures, hwithinSignatures, hidentity⟩ := findIdentity_filed newId
        (column row "Title") (reading.normalizeTitle (column row "Title")) hnames hartist rfl
      replace hcounted := findIdentity_counted newId artist (column row "Title")
        (reading.normalizeTitle (column row "Title")) (reading.signature
          (reading.normalizeArtist (column row "Artist"))
          (reading.normalizeTitle (column row "Title"))) hcounted
      generalize findIdentity newId artist (column row "Title")
        (reading.normalizeTitle (column row "Title")) (reading.signature
          (reading.normalizeArtist (column row "Artist"))
          (reading.normalizeTitle (column row "Title"))) ingest₁ = found at *
      obtain ⟨identity, ingest₂⟩ := found
      obtain ⟨hdates, hwithinDates, hday⟩ := findDay_filed newId playedAt.date hsignatures
      replace hcounted := findDay_counted newId stationId playedAt.date hcounted
      generalize findDay newId stationId playedAt.date ingest₂ = found at *
      obtain ⟨day, ingest₃⟩ := found
      obtain ⟨hrows, hwithinRows⟩ := createEvent_filed newId hdates hplayed
        (lookup_of_extended hwithinDates.identities hidentity) hday
      obtain rfl := Except.ok.inj hrow
      have hwithin := ((hwithinNames.trans hwithinSignatures).trans hwithinDates).trans hwithinRows
      have hdate : [row].filterMap (fun row => (reading.playedAt? row).map Moment.date) =
          [playedAt.date] := by
        simp [Reading.playedAt?, hplayed]
      refine ⟨⟨?_, ?_⟩, ?_⟩
      · rw [List.map_append, List.map_append, List.filterMap_append, hdate]
        split
        · exact report_filed _ hrows
        · exact hrows
      · rw [List.length_append]
        exact created_counted hcounted
      · split
        · exact hwithin
        · exact hwithin

theorem skipRow_accounted {skipped : Nat} (reason : SkipReason)
    (haccounted : Accounted reading stationId playlistId rows skipped ingest) :
    Accounted reading stationId playlistId rows (skipped + 1) (skipRow reason ingest) :=
  ⟨⟨haccounted.filed.artists, haccounted.filed.identities, haccounted.filed.days,
    haccounted.filed.noDays, haccounted.filed.daysUnique, haccounted.filed.eventsUnique,
    haccounted.filed.events, haccounted.filed.linked⟩, skipRow_counted reason haccounted.counted⟩

end

/-- The valid ones of some rows. -/
def validRows (rawRows : List (Dict (Option String) CsvValue)) : List (Dict String String) :=
  rawRows.filterMap fun rawRow => (extractIngestibleRow rawRow).toOption

/-- Every row is processed or skipped. -/
theorem ingestRawRows_accounted {rawRows : List (Dict (Option String) CsvValue)}
    {rows : List (Dict String String)} {skipped : Nat} {ingest ingest' : Ingest}
    (haccounted : Accounted reading stationId playlistId rows skipped ingest)
    (hrows : rawRows.foldlM (ingestRawRow newId reading stationId playlistId) ingest =
      .ok ingest') :
    ∃ skipped',
      Accounted reading stationId playlistId (rows ++ validRows rawRows) skipped' ingest' ∧
      rows.length + skipped + rawRows.length = (rows ++ validRows rawRows).length + skipped' ∧
      ingest.store.Within ingest'.store := by
  induction rawRows generalizing rows skipped ingest with
  | nil =>
      obtain rfl := Except.ok.inj hrows
      exact ⟨skipped, by simpa [validRows] using haccounted, by simp [validRows],
        Store.Within.refl _⟩
  | cons rawRow rest ih =>
      rw [List.foldlM_cons] at hrows
      obtain ⟨next, hnext, hrest⟩ := Effect.bind_eq_ok_iff.mp hrows
      unfold ingestRawRow at hnext
      cases hextract : extractIngestibleRow rawRow with
      | error reason =>
          rw [hextract] at hnext
          obtain rfl := Except.ok.inj hnext
          obtain ⟨skipped', hlater, hcount, hwithin⟩ :=
            ih (skipRow_accounted reason haccounted) hrest
          have hvalid : validRows (rawRow :: rest) = validRows rest := by
            simp [validRows, hextract, Except.toOption]
          rw [hvalid]
          exact ⟨skipped', hlater, by rw [List.length_cons]; omega, hwithin⟩
      | ok row =>
          rw [hextract] at hnext
          obtain ⟨hrow, hwithinRow⟩ := ingestRow_accounted haccounted hnext
          obtain ⟨skipped', hlater, hcount, hwithin⟩ := ih hrow hrest
          have hvalid : validRows (rawRow :: rest) = row :: validRows rest := by
            simp [validRows, hextract, Except.toOption]
          rw [List.append_assoc, List.singleton_append] at hlater hcount
          rw [hvalid]
          refine ⟨skipped', hlater, ?_, hwithinRow.trans hwithin⟩
          rw [List.length_append, List.length_singleton] at hcount
          rw [List.length_cons]
          omega

/-! ## A whole file -/

/-- The rows of a file that its ingest processes. -/
def processedRows (text : String) : List (Dict String String) := validRows (rawRows text)

theorem countCsvRows_eq {upload : Upload} {text : String}
    (hdecoded : decodeCsvBytes upload = .ok text) (hheader : checkHeader text = .ok ())
    (hread : csvFailure text = none) :
    countCsvRows upload = .ok (processedRows text).length := by
  unfold countCsvRows
  rw [hdecoded]
  simp only [hheader, hread]
  refine congrArg Except.ok ?_
  rw [processedRows, validRows, List.length_filterMap_eq_countP]
  refine List.countP_congr fun row _ => ?_
  cases extractIngestibleRow row <;> simp [Except.toOption, Except.isOk, Except.toBool]

/-- What a caller was told: nothing yet, then each hundred, and at the end all. -/
theorem reports_increasing (count : Nat) :
    let reported := 0 :: (List.range (count / PROGRESS_REPORT_INTERVAL)).map (fun index =>
      PROGRESS_REPORT_INTERVAL * (index + 1)) ++
        if count % PROGRESS_REPORT_INTERVAL = 0 then [] else [count]
    reported.Pairwise (· < ·) ∧ reported.getLast? = some count := by
  rw [PROGRESS_REPORT_INTERVAL]
  have hhundreds : 0 :: (List.range (count / 100)).map (fun index => 100 * (index + 1)) =
      (List.range (count / 100 + 1)).map (100 * ·) := by
    rw [List.range_succ_eq_map, List.map_cons, List.map_map]
    rfl
  have hincreasing : ((List.range (count / 100 + 1)).map (100 * ·)).Pairwise (· < ·) :=
    List.pairwise_map.mpr (List.pairwise_lt_range.imp fun hlt => by omega)
  intro reported
  have hreported : reported = (List.range (count / 100 + 1)).map (100 * ·) ++
      if count % 100 = 0 then [] else [count] := by
    rw [← hhundreds]
  rw [hreported]
  by_cases hfull : count % 100 = 0
  · have hlast : 100 * (count / 100) = count := by omega
    rw [if_pos hfull, List.append_nil]
    refine ⟨hincreasing, ?_⟩
    rw [List.range_succ, List.map_append, List.map_singleton, List.getLast?_concat, hlast]
  · rw [if_neg hfull, List.getLast?_concat]
    refine ⟨List.pairwise_append.mpr ⟨hincreasing, List.pairwise_singleton _ _, ?_⟩, rfl⟩
    intro hundred hhundred last hlast
    obtain ⟨index, hindex, rfl⟩ := List.mem_map.mp hhundred
    obtain rfl := List.mem_singleton.mp hlast
    rw [List.mem_range] at hindex
    omega

/-- What an ingest accounts for. -/
structure Accounts (reading : Reading) (upload : Upload) (text : String) (stationId : Option Uuid)
    (store : Store) (ingest : Ingest) : Prop where
  decoded : decodeCsvBytes upload = .ok text
  rows : ingest.result.rowsProcessed + ingest.result.rowsSkipped = (csvRows text).length
  reasons : ingest.result.skipReasons.values.sum = ingest.result.rowsSkipped
  counted : countCsvRows upload = .ok ingest.result.rowsProcessed
  created : ingest.result.eventsCreated = ingest.result.rowsProcessed
  reported : ∃ later, ingest.reported = 0 :: later ∧ ingest.reported.Pairwise (· < ·) ∧
    ingest.reported.getLast? = some ingest.result.rowsProcessed
  artists : (ingest.statements.filterMap Statement.artist?).Nodup ∧
    ∀ name, name ∈ ingest.statements.filterMap Statement.artist? ↔
      ∃ row ∈ processedRows text, reading.artistName row = name
  identities : (ingest.statements.filterMap Statement.identity?).Nodup ∧
    ∀ signature, signature ∈ ingest.statements.filterMap Statement.identity? ↔
      ∃ row ∈ processedRows text, reading.rowSignature row = signature
  days : (ingest.statements.filterMap Statement.day?).Nodup ∧
    ∀ date, date ∈ ingest.statements.filterMap Statement.day? ↔
      stationId.isSome ∧ ∃ row ∈ processedRows text,
        (reading.playedAt? row).map Moment.date = some date
  plays : ∃ playlist ∈ ingest.store.playlists, playlist.contentHash = upload.contentHash ∧
    playlist.stationId = stationId ∧ ingest.result.playlistId = some playlist.id ∧
    List.Forall₂ (EventOf reading stationId playlist.id ingest.store) (processedRows text)
      (ingest.statements.filterMap Statement.event?)
  stored : StoredKeys stationId store ingest
  keyed : ingest.store.Keyed
  linked : ingest.store.Linked reading
  within : store.Within ingest.store

/-- The ingest before its first row. -/
theorem started_accounted {store : Store} {playlists : List BroadcastPlaylist} {drawn : Nat}
    {result : IngestionResult} (hkeyed : store.Keyed) (hlinked : store.Linked reading)
    (hresult : result = { playlistId := some playlistId }) :
    Accounted reading stationId playlistId [] 0
      (report 0 { store := { store with playlists }, drawn, result }) := by
  subst hresult
  refine ⟨⟨remembers_empty hkeyed.artists, remembers_empty hkeyed.identities,
    fun _ _ => remembers_empty hkeyed.days, fun _ => ⟨rfl, rfl⟩, hkeyed.days, hkeyed.events,
    .nil, hlinked⟩, ⟨rfl, rfl, rfl, rfl, rfl, rfl⟩⟩

/-- The end of an ingest, where its caller is told of the last rows. -/
theorem finished_accounts {upload : Upload} {text : String} {store : Store}
    {playlist : BroadcastPlaylist}
    {skipped : Nat} {last : Ingest}
    (haccounted : Accounted reading stationId playlist.id (processedRows text) skipped last)
    (hcount : (rawRows text).length = (processedRows text).length + skipped)
    (hdecoded : decodeCsvBytes upload = .ok text) (hheader : checkHeader text = .ok ())
    (hread : csvFailure text = none) (hkeys : StoredKeys stationId store last)
    (hplaylist : playlist ∈ last.store.playlists)
    (hhash : playlist.contentHash = upload.contentHash)
    (hstation : playlist.stationId = stationId) (hwithin : store.Within last.store) :
    Accounts reading upload text stationId store
      (if last.result.rowsProcessed % PROGRESS_REPORT_INTERVAL = 0 then last
        else report last.result.rowsProcessed last) := by
  -- The last report changes neither the store nor the counts.
  generalize hfinal : (if last.result.rowsProcessed % PROGRESS_REPORT_INTERVAL = 0 then last
    else report last.result.rowsProcessed last) = final
  have hstore : final.store = last.store := by
    rw [← hfinal]
    split <;> rfl
  have hresult : final.result = last.result := by
    rw [← hfinal]
    split <;> rfl
  have hstatements : final.statements = last.statements := by
    rw [← hfinal]
    split <;> rfl
  obtain ⟨hfiled, hcounted⟩ := haccounted
  have hreported : final.reported = 0 :: (List.range ((processedRows text).length /
      PROGRESS_REPORT_INTERVAL)).map (fun index => PROGRESS_REPORT_INTERVAL * (index + 1)) ++
        if (processedRows text).length % PROGRESS_REPORT_INTERVAL = 0 then []
        else [(processedRows text).length] := by
    rw [← hfinal, hcounted.processed, ← hcounted.reported]
    split
    · rw [List.append_nil]
    · rfl
  obtain ⟨hincreasing, hlast⟩ := reports_increasing (processedRows text).length
  constructor
  · exact hdecoded
  · rw [hresult, hcounted.processed, hcounted.skips, ← hcount, rawRows, List.length_map]
  · rw [hresult, hcounted.reasons, hcounted.skips]
  · rw [hresult, hcounted.processed, countCsvRows_eq hdecoded hheader hread]
  · rw [hresult, hcounted.processed, hcounted.events]
  · rw [hresult, hcounted.processed]
    exact ⟨_, hreported, hreported ▸ hincreasing, hreported ▸ hlast⟩
  · rw [hstatements]
    refine ⟨hfiled.artists.nodup, fun name => hfiled.artists.mem_asked.trans ?_⟩
    rw [List.mem_map]
  · rw [hstatements]
    refine ⟨hfiled.identities.nodup, fun signature => hfiled.identities.mem_asked.trans ?_⟩
    rw [List.mem_map]
  · rw [hstatements]
    cases stationId with
    | none =>
        rw [(hfiled.noDays rfl).2]
        exact ⟨List.nodup_nil, fun date => by simp⟩
    | some station =>
        refine ⟨(hfiled.days station rfl).nodup, fun date =>
          (hfiled.days station rfl).mem_asked.trans ?_⟩
        rw [List.mem_filterMap]
        simp
  · rw [hstore, hstatements, hresult]
    exact ⟨playlist, hplaylist, hhash, hstation, hcounted.playlist, hfiled.events⟩
  · rw [← hfinal]
    split
    · exact hkeys
    · exact hkeys.report _
  · rw [hstore]
    exact hfiled.keyed
  · rw [hstore]
    exact hfiled.linked
  · rw [hstore]
    exact hwithin

theorem ingestRawRows_returns {rawRows : List (Dict (Option String) CsvValue)} (ingest : Ingest)
    (htimes : ∀ row ∈ validRows rawRows, (reading.playedAt? row).isSome) :
    ∃ last, rawRows.foldlM (ingestRawRow newId reading stationId playlistId) ingest = .ok last := by
  induction rawRows generalizing ingest with
  | nil => exact ⟨ingest, rfl⟩
  | cons rawRow rest ih =>
      rw [List.foldlM_cons]
      unfold ingestRawRow
      cases hextract : extractIngestibleRow rawRow with
      | error reason =>
          refine ih (skipRow reason ingest) fun row hrow => htimes row ?_
          simpa [validRows, hextract, Except.toOption] using hrow
      | ok row =>
          have hvalid : validRows (rawRow :: rest) = row :: validRows rest := by
            simp [validRows, hextract, Except.toOption]
          rw [hvalid] at htimes
          obtain ⟨playedAt, hplayed⟩ := Option.isSome_iff_exists.mp (htimes row List.mem_cons_self)
          rw [Reading.playedAt?] at hplayed
          simp only [ingestRow, hplayed]
          exact ih _ fun other hother => htimes other (List.mem_cons_of_mem _ hother)

/-- A new file that can be read is ingested, if the times of its valid rows can be read. -/
theorem ingestCsv_returns (newId : Nat → Uuid) (reading : Reading) (upload : Upload)
    (stationId : Option Uuid) (store : Store) {text : String}
    (hdecoded : decodeCsvBytes upload = .ok text) (hheader : checkHeader text = .ok ())
    (hread : csvFailure text = none)
    (hnew : ∀ playlist ∈ store.playlists, playlist.contentHash ≠ upload.contentHash)
    (htimes : ∀ row ∈ processedRows text, (reading.playedAt? row).isSome) :
    ∃ ingest, ingestCsv newId reading upload stationId store = .ok ingest := by
  have hfound : (store.playlists.find? fun playlist =>
      decide (playlist.contentHash = upload.contentHash)) = none :=
    List.find?_eq_none.mpr fun playlist hplaylist => by simpa using hnew playlist hplaylist
  unfold ingestCsv
  simp only [hdecoded, hheader, hfound, ingestRows, hread]
  obtain ⟨last, hlast⟩ := @ingestRawRows_returns newId reading stationId (newId 0) (rawRows text)
    (report 0 {
      store := { store with playlists := store.playlists ++
        [⟨newId 0, basename upload.fileName, upload.contentHash, stationId⟩] }
      drawn := 1
      result := { playlistId := some (newId 0) } }) htimes
  simp only [hlast]
  exact ⟨_, rfl⟩

/-- Names in lower case, and the one time of the file below. -/
def plainReading : Reading where
  normalizeArtist := String.toLower
  normalizeTitle := String.toLower
  signature artist title := artist ++ "|" ++ title
  strptime text := if text = "1999-06-29 12:00:00" then some 930657600 else none

def smoothText : String :=
  "Artist,Title,Played\nSantana, Smooth ,1999-06-29 12:00:00\n,Maria,1999-06-29 12:00:00\n" ++
    "SANTANA,Corazon,1999-06-29 12:00:00\n"

def smoothUpload : Upload where
  decode encoding := if encoding = "utf-8" then some smoothText else none
  contentHash := "c0ffee"
  fileName := "logs/june.csv"

end RetroStation.Ingestion
