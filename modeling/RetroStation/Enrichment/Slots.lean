import RetroStation.Enrichment.Passes
import RetroStation.Table.Slots

/-! # Recordings in their version slots

A work has one recording of each version. An upsert of a recording goes through exactly when
its slot is free; the changes that ask for their slot are made where it is; and a work that
is stored, a file that moves and a work that is deleted keep every recording in its slot.
-/

namespace RetroStation.Enrichment

open Library Curation

/-! ## Recordings in their slots -/

/-- A work, by its MBID if it has one. -/
inductive WorkName
  | musicbrainz (mbid : String)
  | stored (workId : String)
  deriving DecidableEq, Repr

def nameOf (db : Database) (workId : String) : WorkName :=
  match (db.works.find? fun work => work.id = workId).bind Work.mbid with
  | some mbid => .musicbrainz mbid
  | none => .stored workId

/-- The work and version of each recording. -/
def rowsOf (db : Database) : Slots.Rows String WorkName VersionType := fun recordingId =>
  (db.getRecording recordingId).map fun recording =>
    (recording.workId.map (nameOf db), recording.versionType)

/-- The recording and the status that a file is linked with. -/
def linkOf (db : Database) (fileId : Uuid) : Option (Option String × EnrichmentStatus) :=
  (getById db.files fileId).map fun file => (file.recordingId, file.enrichmentStatus)

/-- The keys of the tables that enrichment writes. -/
structure Catalogued (db : Database) : Prop where
  recordings : Table.UniqueBy Recording.id db.recordings
  works : Table.UniqueBy Work.id db.works
  mbids : ∀ work ∈ db.works, ∀ other ∈ db.works, ∀ mbid, work.mbid = some mbid →
    other.mbid = some mbid → work = other
  onWork : ∀ recording ∈ db.recordings, ∀ workId, recording.workId = some workId →
    db.hasWork workId

variable {db next : Database} {recordingId workId : String}

theorem hasWork_iff : db.hasWork workId ↔ ∃ work ∈ db.works, work.id = workId := by
  simp [Database.hasWork]

theorem nameOf_of_mem (hworks : Table.UniqueBy Work.id db.works) {work : Work}
    (hwork : work ∈ db.works) :
    nameOf db work.id = match work.mbid with
      | some mbid => .musicbrainz mbid
      | none => .stored work.id := by
  rw [nameOf, hworks.find? hwork, Option.bind_some]

/-- No two works have one name. -/
theorem nameOf_injective (hok : Catalogued db) {other : String} (hwork : db.hasWork workId)
    (hother : db.hasWork other) (hname : nameOf db workId = nameOf db other) : workId = other := by
  obtain ⟨first, hfirst, rfl⟩ := hasWork_iff.mp hwork
  obtain ⟨second, hsecond, rfl⟩ := hasWork_iff.mp hother
  rw [nameOf_of_mem hok.works hfirst, nameOf_of_mem hok.works hsecond] at hname
  cases hmbid : first.mbid with
  | none =>
      cases hmbid' : second.mbid with
      | none =>
          rw [hmbid, hmbid'] at hname
          exact WorkName.stored.inj hname
      | some mbid =>
          rw [hmbid, hmbid'] at hname
          cases hname
  | some mbid =>
      cases hmbid' : second.mbid with
      | none =>
          rw [hmbid, hmbid'] at hname
          cases hname
      | some mbid' =>
          rw [hmbid, hmbid'] at hname
          obtain rfl := WorkName.musicbrainz.inj hname
          rw [hok.mbids first hfirst second hsecond mbid hmbid hmbid']

/-- The check of a slot reads what is stored in it. -/
theorem slotTaken_iff (hok : Catalogued db) {work : Option String} {version : VersionType}
    (hwork : ∀ workId, work = some workId → db.hasWork workId) :
    db.slotTaken recordingId work version ↔ ∃ name, work.map (nameOf db) = some name ∧
      ∃ other, other ≠ recordingId ∧ rowsOf db other = some (some name, version) := by
  cases work with
  | none => simp [Database.slotTaken]
  | some workId =>
      simp only [Database.slotTaken, Option.isSome_some, Bool.true_and, List.any_eq_true,
        decide_eq_true_eq, Option.map_some, Option.some.injEq, exists_eq_left']
      constructor
      · rintro ⟨other, hother, honWork, rfl, hne⟩
        refine ⟨other.id, hne, ?_⟩
        rw [rowsOf, Database.getRecording, hok.recordings.find? hother, Option.map_some, honWork,
          Option.map_some]
      · rintro ⟨other, hne, hrow⟩
        obtain ⟨stored, hget, heq⟩ := Option.map_eq_some_iff.mp hrow
        obtain ⟨hname, rfl⟩ := Prod.mk.inj heq
        obtain ⟨hmem, rfl⟩ := Table.find?_key hget
        obtain ⟨otherWork, honWork, hname⟩ := Option.map_eq_some_iff.mp hname
        refine ⟨stored, hmem, ?_, rfl, hne⟩
        rw [honWork, nameOf_injective hok (hok.onWork stored hmem _ honWork) (hwork _ rfl) hname]

theorem not_slotTaken_iff (hok : Catalogued db) {work : Option String}
    (hwork : ∀ workId, work = some workId → db.hasWork workId)
    {upsert : Slots.Upsert String WorkName VersionType}
    (hplace : upsert.target (rowsOf db) = work.map (nameOf db)) :
    db.slotTaken upsert.id work upsert.version = false ↔ Slots.Free (rowsOf db) upsert := by
  rw [← Bool.not_eq_true, slotTaken_iff hok hwork, ← hplace]
  constructor
  · intro hempty name hname other hne hrow
    exact hempty ⟨name, hname, other, hne, hrow⟩
  · rintro hfree ⟨name, hname, other, hne, hrow⟩
    exact hfree name hname other hne hrow

/-- The upsert of a recording, as its slot sees it. -/
def upsertOf (db : Database) (recording : Recording) :
    Slots.Upsert String WorkName VersionType where
  id := recording.id
  place := recording.workId.map (nameOf db)
  version := recording.versionType

theorem upsertedRow_version (recording : Recording) :
    (db.upsertedRow recording).versionType = recording.versionType := by
  unfold Database.upsertedRow
  split <;> rfl

theorem upsertedRow_name (recording : Recording) :
    (db.upsertedRow recording).workId.map (nameOf db) =
      (upsertOf db recording).target (rowsOf db) := by
  unfold Database.upsertedRow Slots.Upsert.target upsertOf rowsOf
  dsimp only
  cases db.getRecording recording.id with
  | none => cases recording.workId <;> rfl
  | some stored => cases hwork : recording.workId <;> simp [Database.onConflict, hwork]

theorem upsertedRow_hasWork (hok : Catalogued db) {recording : Recording}
    (hwork : ∀ workId, recording.workId = some workId → db.hasWork workId) :
    ∀ workId, (db.upsertedRow recording).workId = some workId → db.hasWork workId := by
  intro workId hrow
  unfold Database.upsertedRow at hrow
  split at hrow
  next stored hget =>
    rcases Option.or_eq_some_iff.mp hrow with hnew | ⟨-, hold⟩
    · exact hwork workId hnew
    · exact hok.onWork stored (Table.find?_key hget).1 workId hold
  next => exact hwork workId hrow

/-- An upsert goes through exactly when its slot is free. -/
theorem upsertRecording_isSome_iff (hok : Catalogued db) {recording : Recording}
    (hwork : ∀ workId, recording.workId = some workId → db.hasWork workId) :
    (db.upsertRecording recording).isSome ↔ Slots.Free (rowsOf db) (upsertOf db recording) := by
  rw [← not_slotTaken_iff hok (upsertedRow_hasWork hok hwork) (upsertedRow_name recording).symm,
    Database.upsertRecording, upsertedRow_version]
  split
  next hfull => exact iff_of_false nofun fun hempty => Bool.noConfusion (hempty.symm.trans hfull)
  next hempty => exact iff_of_true rfl (Bool.eq_false_of_not_eq_true hempty)

/-- The recordings after one is written over, or added. -/
theorem getRecording_upserted {recording : Recording} {id : String} :
    ((if (db.getRecording recording.id).isSome then
        Table.update db.recordings (fun stored => stored.id = recording.id)
          (Database.onConflict recording)
      else db.recordings ++ [recording]).find? fun other => other.id = id) =
      if id = recording.id then some (db.upsertedRow recording) else db.getRecording id := by
  have hkey : ∀ stored, (Database.onConflict recording stored).id = stored.id := fun _ => rfl
  unfold Database.upsertedRow
  cases hget : db.getRecording recording.id with
  | none =>
      have habsent := List.find?_eq_none.mp hget
      rw [Option.isSome_none, if_neg Bool.false_ne_true, List.find?_append]
      by_cases hid : id = recording.id
      · subst hid
        rw [if_pos rfl, List.find?_eq_none.mpr habsent]
        simp
      · rw [if_neg hid, List.find?_cons_of_neg (by simpa using Ne.symm hid), List.find?_nil,
          Option.or_none]
        rfl
  | some stored =>
      rw [Option.isSome_some, if_pos rfl, Table.find?_update hkey]
      by_cases hid : id = recording.id
      · subst hid
        have hstored := (Table.find?_key hget).2
        have hget : db.recordings.find? (fun row => row.id = recording.id) = some stored := hget
        rw [if_pos rfl, hget, Option.map_some, if_pos (decide_eq_true hstored)]
      · rw [if_neg hid, Database.getRecording]
        cases hfind : db.recordings.find? fun row => row.id = id with
        | none => rfl
        | some row =>
            have hrow : row.id ≠ recording.id := (Table.find?_key hfind).2 ▸ hid
            rw [Option.map_some, if_neg (by simpa using hrow)]

/-- What an upsert leaves: the one row written, everything else as it was. -/
theorem upsertRecording_eq (hok : Catalogued db) {recording : Recording}
    (hwork : ∀ workId, recording.workId = some workId → db.hasWork workId)
    (hupsert : db.upsertRecording recording = some next) :
    Catalogued next ∧ rowsOf next = Slots.write (rowsOf db) (upsertOf db recording) ∧
      next.works = db.works ∧ next.files = db.files := by
  have hrow := upsertedRow_hasWork hok hwork
  rw [Database.upsertRecording] at hupsert
  split at hupsert
  · cases hupsert
  obtain rfl := Option.some.inj hupsert
  refine ⟨⟨?_, hok.works, hok.mbids, ?_⟩, ?_, rfl, rfl⟩
  · dsimp only
    split
    next => exact hok.recordings.update fun _ => rfl
    next habsent =>
      refine hok.recordings.append fun old hold hsame => habsent ?_
      exact List.find?_isSome.mpr ⟨old, hold, decide_eq_true hsame⟩
  · intro row hmem workId honWork
    change db.hasWork workId = true
    dsimp only at hmem
    split at hmem
    next hthere =>
      rcases Table.mem_update.mp hmem with ⟨old, hold, hsame, rfl⟩ | ⟨hold, -⟩
      · refine hrow workId ?_
        obtain hid := of_decide_eq_true hsame
        rw [Database.upsertedRow, Database.getRecording, ← hid, hok.recordings.find? hold]
        exact honWork
      · exact hok.onWork row hold workId honWork
    next =>
      rcases List.mem_append.mp hmem with hold | hnew
      · exact hok.onWork row hold workId honWork
      · obtain rfl := List.mem_singleton.mp hnew
        exact hwork workId honWork
  · funext id
    have hget := @getRecording_upserted db recording id
    change Option.map (fun row : Recording => (row.workId.map (nameOf db), row.versionType))
      (List.find? _ _) = _
    rw [hget, Slots.write, Function.update_apply]
    have howner : (upsertOf db recording).id = recording.id := rfl
    rw [howner]
    by_cases hid : id = recording.id
    · rw [if_pos hid, if_pos hid, Option.map_some, upsertedRow_version, upsertedRow_name]
      rfl
    · rw [if_neg hid, if_neg hid]
      rfl

/-! ## What keeps the slots -/

/-- The slots, links and keys stay. -/
structure KeepsSlots (db next : Database) : Prop where
  rows : rowsOf next = rowsOf db
  links : linkOf next = linkOf db
  catalogued : Catalogued next

theorem KeepsSlots.trans {middle : Database} (hfirst : KeepsSlots db middle)
    (hsecond : KeepsSlots middle next) : KeepsSlots db next :=
  ⟨hsecond.rows.trans hfirst.rows, hsecond.links.trans hfirst.links, hsecond.catalogued⟩

theorem rowsOf_congr (hrecordings : next.recordings = db.recordings)
    (hnames : ∀ recording ∈ db.recordings, ∀ workId, recording.workId = some workId →
      nameOf next workId = nameOf db workId) : rowsOf next = rowsOf db := by
  funext id
  rw [rowsOf, rowsOf, Database.getRecording, hrecordings]
  change Option.map _ (db.getRecording id) = _
  cases hget : db.getRecording id with
  | none => rfl
  | some recording =>
      have hmem := (Table.find?_key hget).1
      cases honWork : recording.workId with
      | none => simp [honWork]
      | some workId => simp [honWork, hnames recording hmem workId honWork]

theorem upsertMusicbrainzArtist_keeps (hok : Catalogued db) {mbid name newId : String} :
    KeepsSlots db (db.upsertMusicbrainzArtist mbid name newId).2 := by
  have hkeeps : ∀ catalog, KeepsSlots db { db with catalog := catalog } := fun catalog =>
    ⟨rfl, rfl, hok.recordings, hok.works, hok.mbids, hok.onWork⟩
  unfold Database.upsertMusicbrainzArtist
  split
  · exact hkeeps db.catalog
  · split
    · split
      · exact hkeeps db.catalog
      · exact hkeeps _
    · exact hkeeps _

theorem upsertArtist_keeps (config : EnrichmentConfig) (hok : Catalogued db)
    (credits : List MbArtistCredit) :
    KeepsSlots db (upsertArtistFromCredits config db credits).2 := by
  unfold upsertArtistFromCredits
  cases extractArtistFromCredits credits with
  | none => exact ⟨rfl, rfl, hok⟩
  | some artist => exact upsertMusicbrainzArtist_keeps hok

/-- A work is stored under its MBID, with the recordings where they were. -/
theorem upsertWorkFromMb_keeps (hok : Catalogued db) {mbid title artistId newId : String}
    (hnew : ¬ db.hasWork newId) :
    KeepsSlots db (db.upsertWorkFromMb mbid title artistId newId).2 ∧
      (db.upsertWorkFromMb mbid title artistId newId).2.hasWork
        (db.upsertWorkFromMb mbid title artistId newId).1 ∧
      nameOf (db.upsertWorkFromMb mbid title artistId newId).2
        (db.upsertWorkFromMb mbid title artistId newId).1 = .musicbrainz mbid := by
  unfold Database.upsertWorkFromMb
  cases hfind : db.works.find? fun work => work.mbid = some mbid with
  | some work =>
      have hwork := List.mem_of_find?_eq_some hfind
      have hmbid : work.mbid = some mbid := by simpa using List.find?_some hfind
      refine ⟨⟨rfl, rfl, hok⟩, hasWork_iff.mpr ⟨work, hwork, rfl⟩, ?_⟩
      rw [nameOf_of_mem hok.works hwork, hmbid]
  | none =>
      have habsent : ∀ work ∈ db.works, work.mbid ≠ some mbid := by
        simpa using List.find?_eq_none.mp hfind
      have hfresh : ∀ work ∈ db.works, work.id ≠ newId := fun work hwork hid =>
        hnew (hasWork_iff.mpr ⟨work, hwork, hid⟩)
      have hadded : Catalogued ({ db with
          works := db.works ++ [{ id := newId, title, artistId, mbid := some mbid }] } :
            Database) := by
        refine ⟨hok.recordings, hok.works.append hfresh, ?_, ?_⟩
        · intro first hfirst second hsecond other hmbid hmbid'
          rcases List.mem_append.mp hfirst with hold | hlast <;>
            rcases List.mem_append.mp hsecond with hold' | hlast'
          · exact hok.mbids first hold second hold' other hmbid hmbid'
          · obtain rfl := List.mem_singleton.mp hlast'
            cases hmbid'
            exact (habsent first hold hmbid).elim
          · obtain rfl := List.mem_singleton.mp hlast
            cases hmbid
            exact (habsent second hold' hmbid').elim
          · exact (List.mem_singleton.mp hlast).trans (List.mem_singleton.mp hlast').symm
        · intro recording hrecording workId honWork
          obtain ⟨work, hwork, hid⟩ :=
            hasWork_iff.mp (hok.onWork recording hrecording workId honWork)
          exact hasWork_iff.mpr ⟨work, List.mem_append_left _ hwork, hid⟩
      refine ⟨⟨rowsOf_congr rfl fun recording hrecording workId honWork => ?_, rfl, hadded⟩,
        hasWork_iff.mpr ⟨_, List.mem_append_right _ (List.mem_singleton_self _), rfl⟩, ?_⟩
      · obtain ⟨work, hwork, rfl⟩ := hasWork_iff.mp (hok.onWork recording hrecording workId honWork)
        rw [nameOf_of_mem hadded.works (List.mem_append_left _ hwork),
          nameOf_of_mem hok.works hwork]
      · exact nameOf_of_mem hadded.works (List.mem_append_right _ (List.mem_singleton_self _))

theorem upsertWork_keeps (config : EnrichmentConfig)
    (hnew : ∀ db : Database, ¬ db.hasWork (config.newId db))
    (hok : Catalogued db) (work : Option (String × String)) (artistId : Option String) :
    KeepsSlots db (upsertWork config db work artistId).2 ∧
      (∀ workId, (upsertWork config db work artistId).1 = some workId →
        (upsertWork config db work artistId).2.hasWork workId) ∧
      (upsertWork config db work artistId).1.map
          (nameOf (upsertWork config db work artistId).2) =
        artistId.bind fun _ => work.map fun work => .musicbrainz work.1 := by
  have hsame : KeepsSlots db db := ⟨rfl, rfl, hok⟩
  cases work with
  | none => cases artistId <;> exact ⟨hsame, nofun, rfl⟩
  | some work =>
      cases artistId with
      | none => exact ⟨hsame, nofun, rfl⟩
      | some artistId =>
          obtain ⟨hkeeps, hthere, hname⟩ := @upsertWorkFromMb_keeps db hok work.1 work.2 artistId
            (config.newId db) (hnew db)
          refine ⟨hkeeps, ?_, congrArg some hname⟩
          rintro workId ⟨⟩
          exact hthere

theorem updateRecordingLink_keeps {fileId : Uuid} {recMbid : Option String}
    {status : EnrichmentStatus} (hok : Catalogued db) :
    rowsOf (db.updateRecordingLink fileId recMbid status) = rowsOf db ∧
      Catalogued (db.updateRecordingLink fileId recMbid status) :=
  ⟨rfl, hok.recordings, hok.works, hok.mbids, hok.onWork⟩

/-- The links after one file is linked. -/
def relink (links : Uuid → Option (Option String × EnrichmentStatus))
    (link : Uuid × Option String × EnrichmentStatus) :
    Uuid → Option (Option String × EnrichmentStatus) := fun fileId =>
  if fileId = link.1 then (links fileId).map fun _ => link.2 else links fileId

theorem linkOf_updateRecordingLink {fileId : Uuid} {recMbid : Option String}
    {status : EnrichmentStatus} : linkOf (db.updateRecordingLink fileId recMbid status) =
      relink (linkOf db) (fileId, recMbid, status) := by
  have hkey : ∀ file : LibraryFile, LibraryFile.id
      { file with recordingId := recMbid, enrichmentStatus := status } = file.id := fun _ => rfl
  funext other
  rw [linkOf, getById, Database.updateRecordingLink, Table.find?_update hkey, Option.map_map,
    relink, linkOf, getById, Option.map_map]
  cases hfind : db.files.find? fun file => file.id = other with
  | none => split <;> rfl
  | some file =>
      obtain rfl := (Table.find?_key hfind).2
      by_cases hid : file.id = fileId <;> simp [hid]

/-- A file that is linked with one thing alone ends linked with it. -/
theorem foldl_relink {links : List (Uuid × Option String × EnrichmentStatus)} {fileId : Uuid}
    {link : Option String × EnrichmentStatus}
    {stored : Uuid → Option (Option String × EnrichmentStatus)} (hstored : (stored fileId).isSome)
    (honly : ∀ other, (fileId, other) ∈ links → other = link)
    (hlinked : stored fileId = some link ∨ (fileId, link) ∈ links) :
    links.foldl relink stored fileId = some link := by
  induction links generalizing stored with
  | nil => exact hlinked.resolve_right List.not_mem_nil
  | cons first rest ih =>
      obtain ⟨id, value⟩ := first
      have hrest : ∀ other, (fileId, other) ∈ rest → other = link := fun other hother =>
        honly other (List.mem_cons_of_mem _ hother)
      by_cases hid : fileId = id
      · subst hid
        obtain rfl := honly value List.mem_cons_self
        have hwritten : relink stored (fileId, value) fileId = some value := by
          obtain ⟨old, hold⟩ := Option.isSome_iff_exists.mp hstored
          rw [relink, if_pos rfl, hold, Option.map_some]
        exact ih (by rw [hwritten]; rfl) hrest (.inl hwritten)
      · have hkept : relink stored (id, value) fileId = stored fileId := if_neg hid
        refine ih (hkept ▸ hstored) hrest (hlinked.imp (hkept.trans ·) fun hmem => ?_)
        exact (List.mem_cons.mp hmem).resolve_left fun heq => hid (Prod.mk.inj heq).1

/-- What writes no recording, no work and no link of a file. -/
theorem keepsSlots_of_same (hok : Catalogued db) (hrecordings : next.recordings = db.recordings)
    (hworks : next.works = db.works) (hlinks : linkOf next = linkOf db) : KeepsSlots db next := by
  have hnames : nameOf next = nameOf db := by
    funext workId
    rw [nameOf, nameOf, hworks]
  refine ⟨rowsOf_congr hrecordings fun _ _ _ _ => by rw [hnames], hlinks, ?_⟩
  refine ⟨hrecordings ▸ hok.recordings, hworks ▸ hok.works, hworks ▸ hok.mbids, ?_⟩
  rw [hrecordings]
  intro recording hmem workId honWork
  rw [Database.hasWork, hworks]
  exact hok.onWork recording hmem workId honWork

/-- A work is deleted with no recording on it. -/
theorem settleWork_keeps (hok : Catalogued db) (previous : String) :
    KeepsSlots db (settleWork db previous) ∧ ∀ workId, workId ≠ previous → db.hasWork workId →
      (settleWork db previous).hasWork workId := by
  unfold settleWork Database.deleteIfEmpty
  by_cases hreferenced : db.isReferenced previous
  · rw [if_pos hreferenced]
    refine ⟨keepsSlots_of_same hok reselect_recordings reselect_works ?_, fun workId _ hwork => ?_⟩
    · funext fileId
      rw [linkOf, reselect_files]
      rfl
    · rwa [Database.hasWork, reselect_works]
  · rw [if_neg hreferenced]
    have hoff : ∀ recording ∈ db.recordings, recording.workId ≠ some previous := by
      intro recording hmem honWork
      refine hreferenced ?_
      simp only [Database.isReferenced, Bool.or_eq_true, List.any_eq_true, decide_eq_true_eq]
      exact .inl (.inl (.inl (.inr ⟨recording, hmem, honWork⟩)))
    have hstays : ∀ work ∈ db.works, work.id ≠ previous →
        work ∈ Table.delete db.works fun work => work.id = previous := fun work hwork hne =>
      Table.mem_delete.mpr ⟨hwork, decide_eq_false hne⟩
    have hthere : ∀ workId, workId ≠ previous → db.hasWork workId →
        (({ db.deleteMasterByWork previous with
          works := Table.delete db.works fun work => work.id = previous } : Database)).hasWork
            workId := by
      intro workId hne hwork
      obtain ⟨work, hmem, rfl⟩ := hasWork_iff.mp hwork
      exact hasWork_iff.mpr ⟨work, hstays work hmem hne, rfl⟩
    refine ⟨⟨rowsOf_congr rfl ?_, rfl, hok.recordings, hok.works.delete, ?_, ?_⟩, hthere⟩
    · intro recording hmem workId honWork
      obtain ⟨work, hwork, rfl⟩ := hasWork_iff.mp (hok.onWork recording hmem workId honWork)
      have hne : work.id ≠ previous := fun hsame => hoff recording hmem (hsame ▸ honWork)
      rw [nameOf_of_mem hok.works.delete (hstays work hwork hne), nameOf_of_mem hok.works hwork]
    · intro first hfirst second hsecond
      exact hok.mbids first (Table.mem_delete.mp hfirst).1 second (Table.mem_delete.mp hsecond).1
    · intro recording hmem workId honWork
      refine hthere workId (fun hsame => hoff recording hmem (hsame ▸ honWork)) ?_
      exact hok.onWork recording hmem workId honWork

/-- A file moves onto a stored work. -/
theorem moveFileToWork_keeps (hok : Catalogued db) (hwork : db.hasWork workId)
    (file : LibraryFile) : ∃ moved, moveFileToWork db file workId = some moved ∧
      KeepsSlots db moved ∧ moved.hasWork workId := by
  unfold moveFileToWork
  by_cases hsame : file.workId = some workId
  · exact ⟨db, if_pos hsame, ⟨rfl, rfl, hok⟩, hwork⟩
  rw [if_neg hsame, if_pos hwork]
  dsimp only
  have hmoved : KeepsSlots db (reselectMasterFromFiles ((db.updateWorkId file.id
      (some workId)).moveMatchesToWork file.id (some workId)) workId) := by
    refine keepsSlots_of_same hok reselect_recordings reselect_works ?_
    have hkey : ∀ row : LibraryFile, LibraryFile.id { row with workId := some workId } = row.id :=
      fun _ => rfl
    funext fileId
    rw [linkOf, reselect_files, getById]
    change Option.map _ ((Table.update db.files _ _).find? _) = _
    rw [Table.find?_update hkey, Option.map_map, linkOf, getById]
    congr 1
    funext row
    simp only [Function.comp_apply]
    split <;> rfl
  have hthere : (reselectMasterFromFiles ((db.updateWorkId file.id
      (some workId)).moveMatchesToWork file.id (some workId)) workId).hasWork workId := by
    rwa [Database.hasWork, reselect_works]
  cases hprevious : file.workId with
  | none => exact ⟨_, rfl, hmoved, hthere⟩
  | some previous =>
      obtain ⟨hsettled, hstays⟩ := settleWork_keeps hmoved.catalogued previous
      have hne : workId ≠ previous := fun heq => hsame (hprevious.trans (congrArg some heq.symm))
      exact ⟨_, rfl, hmoved.trans hsettled, hstays workId hne hthere⟩

/-! ## The changes that ask for their slot -/

/-- A recording that is changed where it is `free`, with the rest as it was. -/
theorem change_keeps {free : Recording → Bool} {change : Recording → Recording}
    (hok : Catalogued db) (hkey : ∀ recording, (change recording).id = recording.id)
    (hwork : ∀ recording workId, (change recording).workId = some workId →
      recording.workId = some workId ∨ db.hasWork workId)
    (hnext : next = { db with
      recordings := Table.update db.recordings
        (fun recording => decide (recording.id = recordingId) && free recording) change }) :
    Catalogued next ∧ linkOf next = linkOf db ∧ next.works = db.works ∧
      ((∃ stored, db.getRecording recordingId = some stored ∧ free stored = true ∧
          rowsOf next = Function.update (rowsOf db) recordingId
            (some ((change stored).workId.map (nameOf db), (change stored).versionType))) ∨
        (∀ stored, db.getRecording recordingId = some stored → free stored = false) ∧
          rowsOf next = rowsOf db) := by
  have hrow : ∀ id, rowsOf next id = (db.getRecording id).map fun recording =>
      if id = recordingId ∧ free recording = true then
        ((change recording).workId.map (nameOf db), (change recording).versionType)
      else (recording.workId.map (nameOf db), recording.versionType) := by
    intro id
    rw [hnext, rowsOf, Database.getRecording, Table.find?_update hkey, Option.map_map]
    change Option.map _ (db.getRecording id) = _
    cases hget : db.getRecording id with
    | none => rfl
    | some recording =>
        obtain rfl := (Table.find?_key hget).2
        by_cases hchanged : recording.id = recordingId ∧ free recording = true
        · simp [hchanged]
          rfl
        · simp [hchanged]
          rfl
  have hkept : Catalogued next ∧ linkOf next = linkOf db ∧ next.works = db.works := by
    subst hnext
    refine ⟨⟨hok.recordings.update hkey, hok.works, hok.mbids, ?_⟩, rfl, rfl⟩
    refine Table.forall_mem_update hok.onWork fun recording hmem _ workId hchanged => ?_
    exact (hwork recording workId hchanged).elim (hok.onWork recording hmem workId) id
  refine ⟨hkept.1, hkept.2.1, hkept.2.2, ?_⟩
  cases hget : db.getRecording recordingId with
  | none =>
      refine .inr ⟨nofun, funext fun id => ?_⟩
      rw [hrow, rowsOf]
      by_cases hid : id = recordingId
      · rw [hid, hget]
        rfl
      · simp [hid]
  | some stored =>
      cases hfree : free stored with
      | true =>
          refine .inl ⟨stored, rfl, hfree, funext fun id => ?_⟩
          rw [hrow, Function.update_apply]
          by_cases hid : id = recordingId
          · simp [hid, hget, hfree]
          · simp [hid, rowsOf]
      | false =>
          refine .inr ⟨fun other hother => Option.some.inj hother ▸ hfree, funext fun id => ?_⟩
          rw [hrow, rowsOf]
          by_cases hid : id = recordingId
          · simp [hid, hget, hfree]
          · simp [hid]

theorem updateDuration_keeps (hok : Catalogued db) {durationMs : Int} :
    KeepsSlots db (db.updateDuration recordingId durationMs) := by
  obtain ⟨hcatalogued, hlinks, -, ⟨stored, hget, -, hrows⟩ | ⟨-, hrows⟩⟩ := @change_keeps db
    (db.updateDuration recordingId durationMs) recordingId (fun _ => true)
    (fun recording => { recording with durationMs := some durationMs }) hok (fun _ => rfl)
    (fun _ _ honWork => .inl honWork) (by simp only [Bool.and_true]; rfl)
  · refine ⟨hrows.trans (funext fun id => ?_), hlinks, hcatalogued⟩
    rw [Function.update_apply]
    split
    next hid => rw [hid, rowsOf, hget, Option.map_some]
    next => rfl
  · exact ⟨hrows, hlinks, hcatalogued⟩

/-- A change that asks for the slot of an upsert, and writes what it writes. -/
theorem change_writesIfFree {free : Recording → Bool} {change : Recording → Recording}
    {upsert : Slots.Upsert String WorkName VersionType}
    (hslot : ∀ stored, db.getRecording upsert.id = some stored →
      (free stored = true ↔ Slots.Free (rowsOf db) upsert) ∧
        (change stored).workId.map (nameOf db) = upsert.target (rowsOf db) ∧
        (change stored).versionType = upsert.version)
    (hrows : (∃ stored, db.getRecording upsert.id = some stored ∧ free stored = true ∧
          rowsOf next = Function.update (rowsOf db) upsert.id
            (some ((change stored).workId.map (nameOf db), (change stored).versionType))) ∨
        (∀ stored, db.getRecording upsert.id = some stored → free stored = false) ∧
          rowsOf next = rowsOf db) :
    Slots.WritesIfFree (rowsOf db) upsert (rowsOf next) := by
  rcases hrows with ⟨stored, hget, hfree, hrows⟩ | ⟨htaken, hrows⟩
  · obtain ⟨hfree_iff, hplace, hversion⟩ := hslot stored hget
    rw [hrows, hplace, hversion]
    exact .written (by rw [rowsOf, hget]; rfl) (hfree_iff.mp hfree)
  · rw [hrows]
    refine .left fun ⟨hstored, hfree⟩ => ?_
    obtain ⟨row, hrow⟩ := Option.isSome_iff_exists.mp hstored
    obtain ⟨stored, hget, -⟩ := Option.map_eq_some_iff.mp hrow
    have hclash := htaken stored hget
    rw [(hslot stored hget).1.mpr hfree] at hclash
    cases hclash

/-- A version is changed only where its slot is free. -/
theorem updateVersionType_rows (hok : Catalogued db) (version : VersionType) :
    Catalogued (db.updateVersionType recordingId version).2 ∧
      Slots.WritesIfFree (rowsOf db) ⟨recordingId, none, version⟩
        (rowsOf (db.updateVersionType recordingId version).2) := by
  obtain ⟨hcatalogued, -, -, hrows⟩ := @change_keeps db
    (db.updateVersionType recordingId version).2 recordingId
    (fun recording => !db.slotTaken recordingId recording.workId version)
    (fun recording => { recording with versionType := version }) hok (fun _ => rfl)
    (fun _ _ honWork => .inl honWork) rfl
  refine ⟨hcatalogued, change_writesIfFree (fun stored hget => ?_) hrows⟩
  have hplace : Slots.Upsert.target (rowsOf db) ⟨recordingId, none, version⟩ =
      stored.workId.map (nameOf db) := by
    rw [Slots.Upsert.target, rowsOf, hget]
    rfl
  refine ⟨?_, hplace.symm, rfl⟩
  rw [Bool.not_eq_true', ← not_slotTaken_iff hok
    (hok.onWork stored (Table.find?_key hget).1) hplace]

theorem linkWork_keeps (hok : Catalogued db) (hwork : db.hasWork workId) :
    Catalogued (db.linkWork recordingId workId).2 ∧
      (db.linkWork recordingId workId).2.works = db.works := by
  obtain ⟨hcatalogued, -, hworks, -⟩ := @change_keeps db
    (db.linkWork recordingId workId).2 recordingId
    (fun recording => !db.slotTaken recordingId (some workId) recording.versionType)
    (fun recording => { recording with workId := some workId }) hok (fun _ => rfl)
    (fun _ _ honWork => .inr (Option.some.inj honWork ▸ hwork)) rfl
  exact ⟨hcatalogued, hworks⟩

/-- A recording is put on a work only where its version's slot is free. -/
theorem linkWork_rows (hok : Catalogued db) (hwork : db.hasWork workId) {version : VersionType}
    (hversion : ∀ stored, db.getRecording recordingId = some stored →
      stored.versionType = version) :
    Slots.WritesIfFree (rowsOf db) ⟨recordingId, some (nameOf db workId), version⟩
      (rowsOf (db.linkWork recordingId workId).2) := by
  obtain ⟨-, -, -, hrows⟩ := @change_keeps db (db.linkWork recordingId workId).2 recordingId
    (fun recording => !db.slotTaken recordingId (some workId) recording.versionType)
    (fun recording => { recording with workId := some workId }) hok (fun _ => rfl)
    (fun _ _ honWork => .inr (Option.some.inj honWork ▸ hwork)) rfl
  refine change_writesIfFree (fun stored hget => ?_) hrows
  obtain rfl := hversion stored hget
  refine ⟨?_, rfl, rfl⟩
  rw [Bool.not_eq_true', ← not_slotTaken_iff hok (fun _ hsame => Option.some.inj hsame ▸ hwork) rfl]

end RetroStation.Enrichment
