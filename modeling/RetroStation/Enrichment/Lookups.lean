import RetroStation.Enrichment.Slots

/-! # A recording looked up

The lookup of a stored recording asks for its slot before it takes it, so it always goes
through.
-/

namespace RetroStation.Enrichment

open Library Curation

/-- The work that a payload performs, where its artist is known. -/
def performedName (credits : List MbArtistCredit) (data : MbRecording) : Option WorkName :=
  (extractArtistFromCredits credits).bind fun _ =>
    (performedWorkOf data).map fun work => .musicbrainz work.1

variable {config : EnrichmentConfig} {client : MbClient} {db next : Database}
  {recording : Recording} {data : MbRecording} {workId : String}

theorem upsertArtist_isSome (credits : List MbArtistCredit) :
    (upsertArtistFromCredits config db credits).1.isSome =
      (extractArtistFromCredits credits).isSome := by
  unfold upsertArtistFromCredits
  cases extractArtistFromCredits credits <;> rfl

theorem upsertPerformedWork_keeps (hnew : ∀ db : Database, ¬ db.hasWork (config.newId db))
    (hok : Catalogued db) :
    KeepsSlots db (upsertPerformedWork config db data).2 ∧
      (∀ workId, (upsertPerformedWork config db data).1 = some workId →
        (upsertPerformedWork config db data).2.hasWork workId) ∧
      (upsertPerformedWork config db data).1.map
          (nameOf (upsertPerformedWork config db data).2) =
        performedName data.artistCredit data := by
  unfold upsertPerformedWork performedName
  cases hwork : performedWorkOf data with
  | none =>
      refine ⟨⟨rfl, rfl, hok⟩, nofun, ?_⟩
      cases extractArtistFromCredits data.artistCredit <;> rfl
  | some work =>
      have hartist := upsertArtist_keeps config hok data.artistCredit
      obtain ⟨hkeeps, hthere, hname⟩ := upsertWork_keeps config hnew hartist.catalogued (some work)
        (upsertArtistFromCredits config db data.artistCredit).1
      refine ⟨hartist.trans hkeeps, hthere, hname.trans ?_⟩
      have hknown := @upsertArtist_isSome config db data.artistCredit
      cases hcredit : extractArtistFromCredits data.artistCredit with
      | none =>
          rw [hcredit, Option.isSome_none, Option.isSome_eq_false_iff, Option.isNone_iff_eq_none]
            at hknown
          rw [hknown]
          rfl
      | some artist =>
          rw [hcredit, Option.isSome_some] at hknown
          obtain ⟨artistId, hartistId⟩ := Option.isSome_iff_exists.mp hknown
          rw [hartistId]
          rfl

theorem moveFilesToWork_keeps (hok : Catalogued db) (hwork : db.hasWork workId)
    (files : List LibraryFile) :
    ∃ count next, moveFilesToWork db workId files = some (count, next) ∧ KeepsSlots db next := by
  induction files generalizing db with
  | nil => exact ⟨0, db, rfl, rfl, rfl, hok⟩
  | cons file rest ih =>
      rw [moveFilesToWork]
      split
      next => exact ih hok hwork
      next =>
        obtain ⟨moved, hmove, hkeeps, hthere⟩ := moveFileToWork_keeps hok hwork file
        obtain ⟨count, next, hrest, hnext⟩ := ih hkeeps.catalogued hthere
        refine ⟨count + 1, next, ?_, hkeeps.trans hnext⟩
        rw [hmove, Option.bind_eq_bind, Option.bind_some, hrest]
        rfl

theorem applyDuration_keeps (hok : Catalogued db) :
    KeepsSlots db (applyDuration db recording data).2 := by
  unfold applyDuration
  split
  · exact updateDuration_keeps hok
  · exact ⟨rfl, rfl, hok⟩

/-- The live version is stored where the lookup says so and its slot is free. -/
theorem applyLive_rows (hok : Catalogued db) :
    Catalogued (applyLive config db recording data).2 ∧
      if recording.versionType ≠ .live ∧
          recordingVersionType config.toTextReader data = .live then
        Slots.WritesIfFree (rowsOf db) ⟨recording.id, none, .live⟩
          (rowsOf (applyLive config db recording data).2)
      else rowsOf (applyLive config db recording data).2 = rowsOf db := by
  unfold applyLive
  split
  · exact updateVersionType_rows hok .live
  · exact ⟨hok, rfl⟩

/-- The work of a stored recording, which neither the length nor the live version changes. -/
def workOfRecording (db : Database) (recordingId : String) : Option (Option String) :=
  (db.getRecording recordingId).map Recording.workId

theorem workOfRecording_change {p : Recording → Bool} {change : Recording → Recording}
    (hrecordings : next.recordings = Table.update db.recordings p change)
    (hkey : ∀ recording, (change recording).id = recording.id)
    (hwork : ∀ recording, (change recording).workId = recording.workId) (recordingId : String) :
    workOfRecording next recordingId = workOfRecording db recordingId := by
  rw [workOfRecording, Database.getRecording, hrecordings, Table.find?_update hkey, Option.map_map]
  change Option.map _ (db.getRecording recordingId) = _
  rw [workOfRecording]
  congr 1
  funext stored
  simp only [Function.comp_apply]
  split
  · exact hwork stored
  · rfl

theorem upsertArtist_recordings (credits : List MbArtistCredit) :
    (upsertArtistFromCredits config db credits).2.recordings = db.recordings := by
  unfold upsertArtistFromCredits
  cases extractArtistFromCredits credits with
  | none => rfl
  | some artist =>
      dsimp only
      unfold Database.upsertMusicbrainzArtist
      split
      · rfl
      · split
        · split <;> rfl
        · rfl

theorem upsertPerformedWork_recordings :
    (upsertPerformedWork config db data).2.recordings = db.recordings := by
  unfold upsertPerformedWork
  cases performedWorkOf data with
  | none => rfl
  | some work =>
      rw [← @upsertArtist_recordings config db data.artistCredit]
      dsimp only
      unfold upsertWork
      split
      · dsimp only
        unfold Database.upsertWorkFromMb
        split <;> rfl
      · rfl

theorem workOfRecording_looked_up (recordingId : String) :
    workOfRecording (upsertPerformedWork config
        (applyLive config (applyDuration db recording data).2 recording data).2 data).2
      recordingId = workOfRecording db recordingId := by
  have hduration : workOfRecording (applyDuration db recording data).2 recordingId =
      workOfRecording db recordingId := by
    unfold applyDuration
    split
    next length _ _ =>
      exact @workOfRecording_change db (db.updateDuration recording.id length) _
        (fun stored => { stored with durationMs := some length }) rfl (fun _ => rfl) (fun _ => rfl)
        recordingId
    · rfl
  have hlive : ∀ db : Database, workOfRecording (applyLive config db recording data).2 recordingId =
      workOfRecording db recordingId := by
    intro db
    unfold applyLive
    split
    · exact @workOfRecording_change db (db.updateVersionType recording.id .live).2 _
        (fun stored => { stored with versionType := .live }) rfl (fun _ => rfl) (fun _ => rfl)
        recordingId
    · rfl
  rw [workOfRecording, Database.getRecording, upsertPerformedWork_recordings]
  exact (hlive _).trans hduration

/-- A lookup goes through; it leaves the slots as the live version and the link leave them. -/
theorem applyRecordingLookup_eq (hnew : ∀ db : Database, ¬ db.hasWork (config.newId db))
    (hok : Catalogued db) (recording : Recording) (data : MbRecording) :
    ∃ applied next, applyRecordingLookup config db recording data = some (applied, next) ∧
      Catalogued next ∧ ∃ live, Catalogued live ∧
      workOfRecording live recording.id = workOfRecording db recording.id ∧
      (if recording.versionType ≠ .live ∧ recordingVersionType config.toTextReader data = .live then
        Slots.WritesIfFree (rowsOf db) ⟨recording.id, none, .live⟩ (rowsOf live)
      else rowsOf live = rowsOf db) ∧
      ((performedName data.artistCredit data = none ∧ rowsOf next = rowsOf live) ∨
        ∃ workId, live.hasWork workId ∧
          performedName data.artistCredit data = some (nameOf live workId) ∧
          rowsOf next = rowsOf (if recording.workId = some workId then live
            else (live.linkWork recording.id workId).2)) := by
  have htimed := @applyDuration_keeps db recording data hok
  obtain ⟨hlive, hrows⟩ := @applyLive_rows config _ recording data htimed.catalogued
  obtain ⟨hnamed, hthere, hname⟩ := @upsertPerformedWork_keeps config _ data hnew hlive
  have honWork := @workOfRecording_looked_up config db recording data recording.id
  rw [htimed.rows, ← hnamed.rows] at hrows
  unfold applyRecordingLookup
  dsimp only
  split
  next named hperformed =>
    rw [hperformed] at hrows hnamed hname honWork
    exact ⟨_, named, rfl, hnamed.catalogued, named, hnamed.catalogued, honWork, hrows,
      .inl ⟨hname.symm, rfl⟩⟩
  next workId named hperformed =>
    rw [hperformed] at hrows hnamed hname honWork hthere
    have hwork := hthere workId rfl
    by_cases hsame : recording.workId = some workId
    · rw [if_pos hsame]
      obtain ⟨count, next, hmoves, hmoved⟩ := moveFilesToWork_keeps hnamed.catalogued hwork
        (named.getByRecording recording.id)
      rw [hmoves]
      refine ⟨_, next, rfl, hmoved.catalogued, named, hnamed.catalogued, honWork, hrows,
        .inr ⟨workId, hwork, hname.symm, ?_⟩⟩
      rw [if_pos hsame, hmoved.rows]
    · rw [if_neg hsame]
      obtain ⟨hlinked, hworks⟩ := @linkWork_keeps named recording.id workId hnamed.catalogued hwork
      have hstays : (named.linkWork recording.id workId).2.hasWork workId := by
        rwa [Database.hasWork, hworks]
      obtain ⟨count, next, hmoves, hmoved⟩ := moveFilesToWork_keeps hlinked hstays
        ((named.linkWork recording.id workId).2.getByRecording recording.id)
      rw [hmoves]
      refine ⟨_, next, rfl, hmoved.catalogued, named, hnamed.catalogued, honWork, hrows,
        .inr ⟨workId, hwork, hname.symm, ?_⟩⟩
      rw [if_neg hsame, hmoved.rows]

/-- The index stands after the lookup of any recording. -/
theorem applyRecordingLookup_distinct (hnew : ∀ db : Database, ¬ db.hasWork (config.newId db))
    (hok : Catalogued db) (hslots : Slots.Distinct (rowsOf db)) (recording : Recording)
    (data : MbRecording) :
    ∃ applied next, applyRecordingLookup config db recording data = some (applied, next) ∧
      Slots.Distinct (rowsOf next) := by
  obtain ⟨applied, next, happly, -, live, hlive, -, hrows, hlinked⟩ :=
    applyRecordingLookup_eq hnew hok recording data
  refine ⟨applied, next, happly, ?_⟩
  have hdistinct : Slots.Distinct (rowsOf live) := by
    split at hrows
    · exact hslots.writesIfFree hrows
    · rwa [hrows]
  rcases hlinked with ⟨-, hnext⟩ | ⟨workId, hwork, -, hnext⟩
  · rwa [hnext]
  rw [hnext]
  split
  · exact hdistinct
  · refine hdistinct.writesIfFree (@linkWork_rows live recording.id workId hlive hwork
      (((live.getRecording recording.id).map Recording.versionType).getD .live) ?_)
    intro stored hget
    rw [hget]
    rfl

end RetroStation.Enrichment
