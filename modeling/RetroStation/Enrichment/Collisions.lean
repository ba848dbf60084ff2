import RetroStation.Enrichment.Lookups

/-! # Enrichment and the version slots

The lookup of a stored recording asks for its slot before it takes it; an upsert does not:

* `enrichment_goes_through_iff` — a lookup of a stored recording always goes through, and each
  other call links its files exactly when every recording that it upserts finds its slot free.
-/

namespace RetroStation.Enrichment

open Library Curation

/-! ## What a call does -/

/-- All the upserts found their slots free, and the files are linked. -/
structure Settled (db next : Database)
    (upserts : List (Slots.Upsert String WorkName VersionType))
    (links : List (Uuid × Option String × EnrichmentStatus)) : Prop where
  free : Slots.AllFree (rowsOf db) upserts
  catalogued : Catalogued next
  rows : rowsOf next = Slots.settled (rowsOf db) upserts
  links : linkOf next = links.foldl relink (linkOf db)

/-- A call settles its upserts and links, or is refused for an upsert. -/
def Settles {Result : Type} (db : Database)
    (upserts : List (Slots.Upsert String WorkName VersionType))
    (links : List (Uuid × Option String × EnrichmentStatus)) : Option (Result × Database) → Prop
  | some (_, next) => Settled db next upserts links
  | none => ¬ Slots.AllFree (rowsOf db) upserts

variable {config : EnrichmentConfig} {client : MbClient} {db middle next : Database}
  {Result : Type} {upserts later : List (Slots.Upsert String WorkName VersionType)}
  {links laterLinks : List (Uuid × Option String × EnrichmentStatus)}
  {result : Option (Result × Database)}

theorem KeepsSlots.settles (hkeeps : KeepsSlots db middle)
    (hsettles : Settles middle upserts links result) : Settles db upserts links result := by
  cases result with
  | none => exact fun hfree => hsettles (hkeeps.rows ▸ hfree)
  | some result =>
      refine ⟨hkeeps.rows ▸ hsettles.free, hsettles.catalogued, ?_, ?_⟩
      · rw [hsettles.rows, hkeeps.rows]
      · rw [hsettles.links, hkeeps.links]

theorem Settled.settles (hfirst : Settled db middle upserts links)
    (hsecond : Settles middle later laterLinks result) :
    Settles db (upserts ++ later) (links ++ laterLinks) result := by
  have hfree : Slots.AllFree (rowsOf db) (upserts ++ later) ↔
      Slots.AllFree (rowsOf middle) later := by
    rw [Slots.allFree_append, hfirst.rows]
    exact and_iff_right hfirst.free
  cases result with
  | none => exact fun hall => hsecond (hfree.mp hall)
  | some result =>
      refine ⟨hfree.mpr hsecond.free, hsecond.catalogued, ?_, ?_⟩
      · rw [hsecond.rows, hfirst.rows, Slots.settled_append]
      · rw [hsecond.links, hfirst.links, List.foldl_append]

theorem Settles.refused (hrefused : Settles db upserts links (none : Option (Result × Database))) :
    ¬ Slots.AllFree (rowsOf db) (upserts ++ later) := fun hfree =>
  hrefused (Slots.allFree_append.mp hfree).1

theorem Settles.goesThrough (hsettles : Settles db upserts links result)
    (hfree : Slots.AllFree (rowsOf db) upserts) :
    ∃ value next, result = some (value, next) ∧ Settled db next upserts links := by
  cases result with
  | none => exact (hsettles hfree).elim
  | some result => exact ⟨result.1, result.2, rfl, hsettles⟩

/-- Links alone always go through. -/
theorem settled_nil (hok : Catalogued next) (hrows : rowsOf next = rowsOf db)
    (hlinks : linkOf next = links.foldl relink (linkOf db)) : Settled db next [] links :=
  ⟨Slots.allFree_nil, hok, hrows, hlinks⟩

/-- The upsert of a recording is settled, or refused for its slot. -/
theorem upsertRecording_settles (hok : Catalogued db) {recording : Recording}
    (hwork : ∀ workId, recording.workId = some workId → db.hasWork workId) :
    (∀ next, db.upsertRecording recording = some next →
      Settled db next [upsertOf db recording] [] ∧ next.works = db.works) ∧
    (db.upsertRecording recording = none →
      ¬ Slots.AllFree (rowsOf db) [upsertOf db recording]) := by
  have hgoes := upsertRecording_isSome_iff hok hwork
  rw [← Slots.allFree_singleton] at hgoes
  constructor
  · intro next hupsert
    rw [hupsert] at hgoes
    obtain ⟨hcatalogued, hrows, hworks, hfiles⟩ := upsertRecording_eq hok hwork hupsert
    refine ⟨⟨hgoes.mp rfl, hcatalogued, ?_, ?_⟩, hworks⟩
    · rw [hrows, Slots.settled_eq_foldl]
      rfl
    · funext fileId
      rw [linkOf, hfiles]
      rfl
  · intro hrefused hfree
    rw [hrefused] at hgoes
    exact Bool.noConfusion (hgoes.mpr hfree)

/-- The upsert of a recording on a payload whose artist is credited. -/
def recordingUpsert (reader : TextReader) (credits : List MbArtistCredit)
    (found : String × MbRecording) : Slots.Upsert String WorkName VersionType where
  id := found.1
  place := performedName credits found.2
  version := recordingVersionType reader found.2

theorem upsertRecordingWithWork_settles (hnew : ∀ db : Database, ¬ db.hasWork (config.newId db))
    (hok : Catalogued db) {credits : List MbArtistCredit} {artistId : Option String}
    (hartist : artistId.isSome = (extractArtistFromCredits credits).isSome) (recMbid : String)
    (data : MbRecording) :
    Settles db [recordingUpsert config.toTextReader credits (recMbid, data)] []
        (upsertRecordingWithWork config db recMbid data artistId) ∧
      ∀ workId next, upsertRecordingWithWork config db recMbid data artistId =
        some (some workId, next) → next.hasWork workId := by
  obtain ⟨hkeeps, hthere, hname⟩ := upsertWork_keeps config hnew hok
    (extractWorkFromRelations data.relations) artistId
  have hplace : artistId.bind (fun _ => (extractWorkFromRelations data.relations).map
      fun work => WorkName.musicbrainz work.1) = performedName credits data := by
    rw [performedName]
    cases hcredit : extractArtistFromCredits credits <;> rw [hcredit] at hartist <;>
      cases artistId <;> first | rfl | cases hartist
  unfold upsertRecordingWithWork
  cases hstored : upsertWork config db (extractWorkFromRelations data.relations) artistId with
  | mk workId named =>
      rw [hstored, hplace] at hname
      rw [hstored] at hkeeps hthere
      have hupsert : upsertOf named (recordingOf config recMbid data workId) =
          recordingUpsert config.toTextReader credits (recMbid, data) := by
        unfold upsertOf recordingUpsert
        rw [← hname]
        rfl
      obtain ⟨hsettled, hrefused⟩ := @upsertRecording_settles named hkeeps.catalogued
        (recordingOf config recMbid data workId) hthere
      rw [hupsert] at hsettled hrefused
      dsimp only
      cases hrow : named.upsertRecording (recordingOf config recMbid data workId) with
      | none => exact ⟨hkeeps.settles (hrefused hrow), nofun⟩
      | some next =>
          obtain ⟨hnext, hworks⟩ := hsettled next hrow
          refine ⟨hkeeps.settles hnext, ?_⟩
          rintro workId' next' ⟨⟩
          rw [Database.hasWork, hworks]
          exact hthere workId' rfl

theorem linkFileToRecording_settled (hok : Catalogued db) (fileId : Uuid)
    (recMbid : Option String) (status : EnrichmentStatus) :
    Settled db (db.updateRecordingLink fileId recMbid status) [] [(fileId, recMbid, status)] := by
  obtain ⟨hrows, hcatalogued⟩ := @updateRecordingLink_keeps db fileId recMbid status hok
  exact settled_nil hcatalogued hrows linkOf_updateRecordingLink

/-- A file is linked, and moved onto the stored work of its recording. -/
theorem linkAndMove_settled (hok : Catalogued db) {workId : Option String}
    (hwork : ∀ work, workId = some work → db.hasWork work) (file : LibraryFile)
    (recMbid : String) :
    ∃ next, linkAndMove db file recMbid workId = some next ∧
      Settled db next [] [(file.id, some recMbid, .enriched)] ∧
      ∀ work, workId = some work → next.hasWork work := by
  have hlinked := linkFileToRecording_settled hok file.id (some recMbid) .enriched
  unfold linkAndMove
  cases workId with
  | none => exact ⟨_, rfl, hlinked, nofun⟩
  | some work =>
      obtain ⟨moved, hmove, hkeeps, hthere⟩ := @moveFileToWork_keeps
        (linkFileToRecording db file recMbid) work hlinked.catalogued (hwork work rfl) file
      refine ⟨moved, hmove, settled_nil hkeeps.catalogued (hkeeps.rows.trans hlinked.rows)
        (hkeeps.links.trans hlinked.links), ?_⟩
      rintro work ⟨⟩
      exact hthere

/-! ## The three calls -/

/-- How a file is linked with what was found for it. -/
def linkWith (file : LibraryFile) (found : Option (String × MbRecording)) :
    Uuid × Option String × EnrichmentStatus :=
  (file.id, found.map Prod.fst, if found.isSome then .enriched else .failed)

theorem enrichOneFile_settles (hnew : ∀ db : Database, ¬ db.hasWork (config.newId db))
    (hok : Catalogued db) {credits : List MbArtistCredit} {release : ReleaseLookup}
    (hartist : release.artistId.isSome = (extractArtistFromCredits credits).isSome)
    (file : LibraryFile) :
    Settles db
      ((resolvedRecording config client release file).toList.map
        (recordingUpsert config.toTextReader credits))
      [linkWith file (resolvedRecording config client release file)]
      (enrichOneFile config client release db file) := by
  unfold enrichOneFile
  cases resolvedRecording config client release file with
  | none => exact linkFileToRecording_settled hok file.id none .failed
  | some found =>
      obtain ⟨recMbid, data⟩ := found
      obtain ⟨hsettles, hthere⟩ :=
        upsertRecordingWithWork_settles hnew hok hartist recMbid data
      dsimp only
      cases hstored : upsertRecordingWithWork config db recMbid data release.artistId with
      | none =>
          rw [hstored] at hsettles
          exact hsettles
      | some stored =>
          obtain ⟨workId, middle⟩ := stored
          rw [hstored] at hsettles
          have hsettled : Settled db middle _ _ := hsettles
          obtain ⟨next, hlink, hlinked, -⟩ := linkAndMove_settled hsettled.catalogued
            (fun work hwork => hthere work middle (hwork ▸ hstored)) file recMbid
          have hnext : Settles middle [] _ (some (true, next)) := hlinked
          simp only [Option.bind_eq_bind, Option.bind_some, hlink]
          exact hsettled.settles hnext

theorem filterMap_cons_eq {Item Found : Type} (find : Item → Option Found) (first : Item)
    (rest : List Item) :
    (first :: rest).filterMap find = (find first).toList ++ rest.filterMap find := by
  rw [List.filterMap_cons]
  cases find first <;> rfl

theorem filterMap_filter_eq {Item Found : Type} {find : Item → Option Found} {keep : Item → Bool}
    (hnone : ∀ item, keep item = false → find item = none) (items : List Item) :
    (items.filter keep).filterMap find = items.filterMap find := by
  rw [List.filterMap_filter]
  refine List.filterMap_congr fun item _ => ?_
  cases hkeep : keep item with
  | true => rfl
  | false => exact (hnone item hkeep).symm

theorem enrichFilesOnRelease_settles (hnew : ∀ db : Database, ¬ db.hasWork (config.newId db))
    (hok : Catalogued db) {credits : List MbArtistCredit} {release : ReleaseLookup}
    (hartist : release.artistId.isSome = (extractArtistFromCredits credits).isSome)
    (files : List LibraryFile) :
    Settles db
      ((files.filterMap (resolvedRecording config client release)).map
        (recordingUpsert config.toTextReader credits))
      (files.map fun file => linkWith file (resolvedRecording config client release file))
      (enrichFilesOnRelease config client release db files) := by
  induction files generalizing db with
  | nil => exact settled_nil hok rfl rfl
  | cons file rest ih =>
      have hone := @enrichOneFile_settles config client db hnew hok credits release hartist file
      rw [filterMap_cons_eq, List.map_append, List.map_cons]
      unfold enrichFilesOnRelease
      cases hfile : enrichOneFile config client release db file with
      | none =>
          rw [hfile] at hone
          exact hone.refused
      | some result =>
          obtain ⟨enriched, middle⟩ := result
          rw [hfile] at hone
          have hsettled : Settled db middle _ _ := hone
          have hrest := ih hsettled.catalogued
          simp only [Option.bind_eq_bind, Option.bind_some]
          cases hfiles : enrichFilesOnRelease config client release middle rest with
          | none =>
              rw [hfiles] at hrest
              exact hsettled.settles hrest
          | some result =>
              obtain ⟨count, next⟩ := result
              rw [hfiles] at hrest
              exact hsettled.settles hrest

/-- The upsert of a recording that a search found; a search names no work. -/
def searchedUpsert (reader : TextReader) (found : String × MbRecording) :
    Slots.Upsert String WorkName VersionType where
  id := found.1
  place := none
  version := recordingVersionType reader found.2

theorem enrichFoundFiles_settles (hok : Catalogued db) (found : String → Option MbRecording)
    (files : List LibraryFile) :
    Settles db ((files.filterMap (foundRecording found)).map (searchedUpsert config.toTextReader))
      (files.filterMap fun file => (foundRecording found file).map fun result =>
        linkWith file (some result))
      (enrichFoundFiles config found db files) := by
  induction files generalizing db with
  | nil => exact settled_nil hok rfl rfl
  | cons file rest ih =>
      rw [filterMap_cons_eq, filterMap_cons_eq, List.map_append]
      unfold enrichFoundFiles
      cases foundRecording found file with
      | none =>
          have hrest := ih hok
          dsimp only
          cases hfiles : enrichFoundFiles config found db rest with
          | none =>
              rw [hfiles] at hrest
              exact hrest
          | some result =>
              rw [hfiles] at hrest
              exact hrest
      | some result =>
          obtain ⟨recMbid, data⟩ := result
          have hartist := upsertArtist_keeps config hok data.artistCredit
          obtain ⟨hsettled, hrefused⟩ := @upsertRecording_settles _ hartist.catalogued
            (recordingOf config recMbid data none) nofun
          simp only [Option.toList_some, List.map_cons, List.map_nil, Option.map_some]
          refine hartist.settles ?_
          cases hupsert : (upsertArtistFromCredits config db data.artistCredit).2.upsertRecording
              (recordingOf config recMbid data none) with
          | none => exact @Settles.refused _ BatchEnrichment _ _ [] (hrefused hupsert)
          | some middle =>
              have hstored := (hsettled middle hupsert).1
              have hlinked := linkFileToRecording_settled hstored.catalogued file.id (some recMbid)
                .enriched
              have hrest := hlinked.settles (ih hlinked.catalogued)
              simp only [Option.bind_eq_bind, Option.bind_some]
              cases hfiles : enrichFoundFiles config found (linkFileToRecording middle file recMbid)
                  rest with
              | none =>
                  rw [linkFileToRecording] at hfiles
                  rw [hfiles] at hrest
                  exact hstored.settles hrest
              | some result =>
                  rw [linkFileToRecording] at hfiles
                  rw [hfiles] at hrest
                  exact hstored.settles hrest

theorem linkFilesToRecording_settled (hok : Catalogued db) {workId : Option String}
    (hwork : ∀ work, workId = some work → db.hasWork work) (recMbid : String)
    (files : List LibraryFile) :
    ∃ next, linkFilesToRecording db recMbid workId files = some next ∧
      Settled db next [] (files.map fun file => (file.id, some recMbid, .enriched)) := by
  induction files generalizing db with
  | nil => exact ⟨db, rfl, settled_nil hok rfl rfl⟩
  | cons file rest ih =>
      obtain ⟨middle, hlink, hfirst, hthere⟩ := linkAndMove_settled hok hwork file recMbid
      obtain ⟨next, hfiles, hrest⟩ := ih hfirst.catalogued hthere
      have hnext : Settles middle [] _ (some ((), next)) := hrest
      refine ⟨next, ?_, hfirst.settles hnext⟩
      rw [linkFilesToRecording, hlink, Option.bind_some, hfiles]

/-! ## When a call goes through -/

/-- The call goes through with every file linked to the recording found for it. -/
def LinksAll (pendingFiles : List LibraryFile) (found : LibraryFile → Option (String × MbRecording))
    (result : Option (Result × Database)) : Prop :=
  ∃ value next, result = some (value, next) ∧ Slots.Distinct (rowsOf next) ∧
    ∀ file ∈ pendingFiles, ∀ recMbid data, found file = some (recMbid, data) →
      linkOf next file.id = some (some recMbid, .enriched)

theorem linksAll_iff (hslots : Slots.Distinct (rowsOf db))
    (hfiles : Table.UniqueBy LibraryFile.id db.files) {pendingFiles : List LibraryFile}
    (hpending : pendingFiles ⊆ db.files) {found : LibraryFile → Option (String × MbRecording)}
    (hlinked : ∀ file ∈ pendingFiles, (found file).isSome → linkWith file (found file) ∈ links)
    (hlinks : ∀ link ∈ links, ∃ file ∈ pendingFiles, link = linkWith file (found file))
    (hsettles : Settles db upserts links result) :
    LinksAll pendingFiles found result ↔ Slots.AllFree (rowsOf db) upserts := by
  cases result with
  | none => exact iff_of_false nofun hsettles
  | some result =>
      obtain ⟨value, next⟩ := result
      have hsettled : Settled db next upserts links := hsettles
      refine iff_of_true ⟨value, next, rfl, ?_, fun file hfile recMbid data hfound => ?_⟩
        hsettled.free
      · rw [hsettled.rows]
        exact hslots.settled hsettled.free
      · have hstored : (linkOf db file.id).isSome := by
          rw [linkOf, getById, hfiles.find? (hpending hfile)]
          rfl
        have hlink : linkWith file (found file) = (file.id, some recMbid, .enriched) := by
          rw [hfound]
          rfl
        rw [hsettled.links]
        refine foldl_relink hstored (fun other hother => ?_) (.inr ?_)
        · obtain ⟨owner, howner, heq⟩ := hlinks _ hother
          have hsame : file = owner :=
            hfiles.eq (hpending hfile) (hpending howner) (Prod.mk.inj heq).1
          rw [← hsame, hlink] at heq
          exact (Prod.mk.inj heq).2
        · exact hlink ▸ hlinked file hfile (hfound ▸ rfl)

section

variable (config client)

/-- The recordings that a batch finds, for the files of each. -/
def batchRecording (pendingFiles : List LibraryFile) : LibraryFile →
    Option (String × MbRecording) :=
  foundRecording (client.searchRecordingsByMbids (searchedMbids pendingFiles))

def batchUpserts (pendingFiles : List LibraryFile) :
    List (Slots.Upsert String WorkName VersionType) :=
  (pendingFiles.filterMap (batchRecording client pendingFiles)).map
    (searchedUpsert config.toTextReader)

/-- The recording of a file on a release that MusicBrainz knows. -/
def listedRecording (releaseMbid : String) (file : LibraryFile) : Option (String × MbRecording) :=
  if config.isMbid releaseMbid then
    (client.lookupRelease releaseMbid).bind fun data =>
      resolvedRecording config client { recordingMap := buildRecordingMap data, artistId := none }
        file
  else none

def releaseUpserts (db : Database) (releaseMbid : String) :
    List (Slots.Upsert String WorkName VersionType) :=
  ((getPendingByRelease db releaseMbid).filterMap (listedRecording config client releaseMbid)).map
    (recordingUpsert config.toTextReader
      ((client.lookupRelease releaseMbid).elim [] MbRelease.artistCredit))

/-- The recording that a lookup answers with. -/
def lookedUp (recMbid : String) : Option (String × MbRecording) :=
  if config.isMbid recMbid then (client.lookupRecording recMbid).map (recMbid, ·) else none

def lookupUpserts (recMbid : String) : List (Slots.Upsert String WorkName VersionType) :=
  (lookedUp config client recMbid).toList.map fun found =>
    recordingUpsert config.toTextReader found.2.artistCredit found

/-- The files that a batch found a recording for, with it. -/
def batchLinks (pendingFiles : List LibraryFile) : List (Uuid × Option String × EnrichmentStatus) :=
  pendingFiles.filterMap fun file =>
    (batchRecording client pendingFiles file).map fun result => linkWith file (some result)

end

theorem enrichByRecordingBatch_settles (hok : Catalogued db) (pendingFiles : List LibraryFile) :
    Settles db (batchUpserts config client pendingFiles) (batchLinks client pendingFiles)
      (enrichByRecordingBatch config client db pendingFiles) := by
  have huntagged : ∀ file : LibraryFile, (truthy file.audio.recordingMbid).isSome = false →
      batchRecording client pendingFiles file = none := by
    intro file htag
    have hnone : truthy file.audio.recordingMbid = none := by simpa using htag
    rw [batchRecording, foundRecording, hnone]
    rfl
  have hsearched := @enrichFoundFiles_settles config db hok
    (client.searchRecordingsByMbids (searchedMbids pendingFiles))
    (pendingFiles.filter fun file => (truthy file.audio.recordingMbid).isSome)
  change Settles db (List.map _ (List.filterMap (batchRecording client pendingFiles) _))
    (List.filterMap (fun file => (batchRecording client pendingFiles file).map fun result =>
      linkWith file (some result)) _) _ at hsearched
  rw [filterMap_filter_eq huntagged, filterMap_filter_eq fun file htag => by
    rw [huntagged file htag, Option.map_none]] at hsearched
  unfold enrichByRecordingBatch
  dsimp only
  cases hbatch : enrichFoundFiles config
      (client.searchRecordingsByMbids (searchedMbids pendingFiles)) db
      (pendingFiles.filter fun file => (truthy file.audio.recordingMbid).isSome) with
  | none =>
      rw [hbatch] at hsearched
      exact hsearched
  | some result =>
      rw [hbatch] at hsearched
      exact hsearched

theorem enrichFilesByRecording_settles (hnew : ∀ db : Database, ¬ db.hasWork (config.newId db))
    (hok : Catalogued db) {recMbid : String} (hvalid : config.isMbid recMbid = true)
    {data : MbRecording} (hlookup : client.lookupRecording recMbid = some data)
    (pendingFiles : List LibraryFile) :
    Settles db [recordingUpsert config.toTextReader data.artistCredit (recMbid, data)]
      (pendingFiles.map fun file => linkWith file (some (recMbid, data)))
      (enrichFilesByRecording config client db recMbid pendingFiles) := by
  have hartist := upsertArtist_keeps config hok data.artistCredit
  obtain ⟨hsettles, hthere⟩ := upsertRecordingWithWork_settles hnew hartist.catalogued
    (upsertArtist_isSome data.artistCredit) recMbid data
  unfold enrichFilesByRecording
  rw [hlookup]
  refine hartist.settles ?_
  simp only [hvalid, Bool.not_true, Bool.false_eq_true, if_false]
  cases hstored : upsertRecordingWithWork config
      (upsertArtistFromCredits config db data.artistCredit).2 recMbid data
      (upsertArtistFromCredits config db data.artistCredit).1 with
  | none =>
      rw [hstored] at hsettles
      exact hsettles
  | some stored =>
      obtain ⟨workId, middle⟩ := stored
      rw [hstored] at hsettles
      have hsettled : Settled _ middle _ _ := hsettles
      obtain ⟨next, hlink, hlinked⟩ := linkFilesToRecording_settled hsettled.catalogued
        (fun work hwork => hthere work middle (hwork ▸ hstored)) recMbid pendingFiles
      have hnext : Settles middle [] _ (some (pendingFiles.length, next)) := hlinked
      simp only [Option.bind_eq_bind, Option.bind_some, hlink]
      exact hsettled.settles hnext

theorem batch_goes_through_iff (hok : Catalogued db) (hslots : Slots.Distinct (rowsOf db))
    (hfiles : Table.UniqueBy LibraryFile.id db.files) {pendingFiles : List LibraryFile}
    (hpending : pendingFiles ⊆ db.files) :
    LinksAll pendingFiles (batchRecording client pendingFiles)
        (enrichByRecordingBatch config client db pendingFiles) ↔
      Slots.AllFree (rowsOf db) (batchUpserts config client pendingFiles) := by
  refine linksAll_iff hslots hfiles hpending ?_ ?_
    (enrichByRecordingBatch_settles hok pendingFiles)
  · intro file hfile hfound
    obtain ⟨result, hresult⟩ := Option.isSome_iff_exists.mp hfound
    exact List.mem_filterMap.mpr ⟨file, hfile, by rw [hresult]; rfl⟩
  · intro link hlink
    obtain ⟨file, hfile, hfound⟩ := List.mem_filterMap.mp hlink
    obtain ⟨result, hresult, rfl⟩ := Option.map_eq_some_iff.mp hfound
    exact ⟨file, hfile, by rw [hresult]⟩

/-- A call that links nothing and writes no recording goes through. -/
theorem linksAll_of_failed {pendingFiles : List LibraryFile}
    {found : LibraryFile → Option (String × MbRecording)} (hslots : Slots.Distinct (rowsOf db))
    (hnone : ∀ file ∈ pendingFiles, found file = none) (hrows : rowsOf next = rowsOf db)
    (value : Result) : LinksAll pendingFiles found (some (value, next)) := by
  refine ⟨value, next, rfl, hrows ▸ hslots, fun file hfile recMbid data hfound => ?_⟩
  rw [hnone file hfile] at hfound
  cases hfound

theorem markFilesFailed_rows (pendingFiles : List LibraryFile) :
    rowsOf (markFilesFailed db pendingFiles) = rowsOf db := by
  unfold markFilesFailed
  induction pendingFiles generalizing db with
  | nil => rfl
  | cons file rest ih => exact ih

theorem release_goes_through_iff (hnew : ∀ db : Database, ¬ db.hasWork (config.newId db))
    (hok : Catalogued db) (hslots : Slots.Distinct (rowsOf db))
    (hfiles : Table.UniqueBy LibraryFile.id db.files) (releaseMbid : String) :
    LinksAll (getPendingByRelease db releaseMbid) (listedRecording config client releaseMbid)
        (enrichByRelease config client db releaseMbid) ↔
      Slots.AllFree (rowsOf db) (releaseUpserts config client db releaseMbid) := by
  have hfailed : (∀ file, listedRecording config client releaseMbid file = none) →
      Slots.AllFree (rowsOf db) (releaseUpserts config client db releaseMbid) := by
    intro hnone
    rw [releaseUpserts, List.filterMap_eq_nil_iff.mpr fun file _ => hnone file]
    exact Slots.allFree_nil
  have hsub : getPendingByRelease db releaseMbid ⊆ db.files := List.filter_sublist.subset
  unfold enrichByRelease
  dsimp only
  split
  next hempty =>
    rw [releaseUpserts, hempty]
    exact iff_of_true (linksAll_of_failed hslots
      (fun _ hfile => (List.not_mem_nil hfile).elim) rfl 0) Slots.allFree_nil
  next =>
    cases hvalid : config.isMbid releaseMbid with
    | false =>
        have hnone : ∀ file, listedRecording config client releaseMbid file = none := by
          intro file
          rw [listedRecording, hvalid]
          rfl
        exact iff_of_true (linksAll_of_failed hslots (fun file _ => hnone file)
          (markFilesFailed_rows _) 0) (hfailed hnone)
    | true =>
        cases hlookup : client.lookupRelease releaseMbid with
        | none =>
            have hnone : ∀ file, listedRecording config client releaseMbid file = none := by
              intro file
              rw [listedRecording, hvalid, hlookup]
              rfl
            exact iff_of_true (linksAll_of_failed hslots (fun file _ => hnone file)
              (markFilesFailed_rows _) 0) (hfailed hnone)
        | some data =>
            have hlisted : listedRecording config client releaseMbid =
                resolvedRecording config client ⟨buildRecordingMap data,
                  (upsertArtistFromCredits config db data.artistCredit).1⟩ := by
              funext file
              rw [listedRecording, hvalid, hlookup]
              rfl
            have hartist := upsertArtist_keeps config hok data.artistCredit
            have hsettles := hartist.settles (@enrichFilesOnRelease_settles config client _ hnew
              hartist.catalogued data.artistCredit ⟨buildRecordingMap data,
                (upsertArtistFromCredits config db data.artistCredit).1⟩
              (upsertArtist_isSome data.artistCredit) (getPendingByRelease db releaseMbid))
            rw [releaseUpserts, hlookup, hlisted]
            refine linksAll_iff hslots hfiles hsub ?_ ?_ hsettles
            · exact fun file hfile _ => List.mem_map.mpr ⟨file, hfile, rfl⟩
            · intro link hlink
              obtain ⟨file, hfile, rfl⟩ := List.mem_map.mp hlink
              exact ⟨file, hfile, rfl⟩

theorem recording_goes_through_iff (hnew : ∀ db : Database, ¬ db.hasWork (config.newId db))
    (hok : Catalogued db) (hslots : Slots.Distinct (rowsOf db))
    (hfiles : Table.UniqueBy LibraryFile.id db.files) {pendingFiles : List LibraryFile}
    (hpending : pendingFiles ⊆ db.files) (recMbid : String) :
    LinksAll pendingFiles (fun _ => lookedUp config client recMbid)
        (enrichFilesByRecording config client db recMbid pendingFiles) ↔
      Slots.AllFree (rowsOf db) (lookupUpserts config client recMbid) := by
  have hfailed : lookedUp config client recMbid = none → (∃ marked,
      enrichFilesByRecording config client db recMbid pendingFiles = some (0, marked) ∧
        rowsOf marked = rowsOf db) →
      (LinksAll pendingFiles (fun _ => lookedUp config client recMbid)
          (enrichFilesByRecording config client db recMbid pendingFiles) ↔
        Slots.AllFree (rowsOf db) (lookupUpserts config client recMbid)) := by
    rintro hnone ⟨marked, hmarked, hrows⟩
    rw [hmarked, lookupUpserts, hnone]
    exact iff_of_true (linksAll_of_failed hslots (fun _ _ => rfl) hrows 0) Slots.allFree_nil
  cases hvalid : config.isMbid recMbid with
  | false =>
      refine hfailed (by rw [lookedUp, hvalid]; rfl) ⟨_, ?_, markFilesFailed_rows pendingFiles⟩
      rw [enrichFilesByRecording, hvalid]
      rfl
  | true =>
      cases hlookup : client.lookupRecording recMbid with
      | none =>
          refine hfailed (by rw [lookedUp, hvalid, hlookup]; rfl)
            ⟨_, ?_, markFilesFailed_rows pendingFiles⟩
          rw [enrichFilesByRecording, hvalid, hlookup]
          rfl
      | some data =>
          have hfound : lookedUp config client recMbid = some (recMbid, data) := by
            rw [lookedUp, hvalid, hlookup]
            rfl
          rw [lookupUpserts, hfound]
          refine linksAll_iff hslots hfiles hpending ?_ ?_
            (enrichFilesByRecording_settles hnew hok hvalid hlookup pendingFiles)
          · exact fun file hfile _ => List.mem_map.mpr ⟨file, hfile, rfl⟩
          · intro link hlink
            obtain ⟨file, hfile, rfl⟩ := List.mem_map.mp hlink
            exact ⟨file, hfile, rfl⟩

/-- The lookup of a stored recording always goes through. The other calls go through, with
every file linked, exactly when each recording in turn finds no other recording of its version
on the work that it is put on. -/
theorem enrichment_goes_through_iff (hnew : ∀ db : Database, ¬ db.hasWork (config.newId db))
    (hok : Catalogued db) (hslots : Slots.Distinct (rowsOf db))
    (hfiles : Table.UniqueBy LibraryFile.id db.files) :
    (∀ recording data, ∃ applied next,
      applyRecordingLookup config db recording data = some (applied, next) ∧
        Slots.Distinct (rowsOf next)) ∧
    (∀ pendingFiles, pendingFiles ⊆ db.files →
      (LinksAll pendingFiles (batchRecording client pendingFiles)
          (enrichByRecordingBatch config client db pendingFiles) ↔
        Slots.AllFree (rowsOf db) (batchUpserts config client pendingFiles))) ∧
    (∀ releaseMbid, LinksAll (getPendingByRelease db releaseMbid)
          (listedRecording config client releaseMbid)
          (enrichByRelease config client db releaseMbid) ↔
        Slots.AllFree (rowsOf db) (releaseUpserts config client db releaseMbid)) ∧
    ∀ recMbid pendingFiles, pendingFiles ⊆ db.files →
      (LinksAll pendingFiles (fun _ => lookedUp config client recMbid)
          (enrichFilesByRecording config client db recMbid pendingFiles) ↔
        Slots.AllFree (rowsOf db) (lookupUpserts config client recMbid)) :=
  ⟨applyRecordingLookup_distinct hnew hok hslots,
    fun _ hpending => batch_goes_through_iff hok hslots hfiles hpending,
    release_goes_through_iff hnew hok hslots hfiles,
    fun recMbid _ hpending => recording_goes_through_iff hnew hok hslots hfiles hpending recMbid⟩

/-! ## Two takes of one song -/

/-- An identifier longer than that of any work. -/
def longWorkId (db : Database) : String :=
  db.works.foldr (fun work longer => work.id ++ longer) "w"

theorem longWorkId_fresh (db : Database) : ¬ db.hasWork (longWorkId db) := by
  have hlonger : ∀ works : List Work, 0 < (works.foldr (fun work longer => work.id ++ longer)
      "w").length ∧ ∀ work ∈ works, work.id.length <
        (works.foldr (fun work longer => work.id ++ longer) "w").length := by
    intro works
    induction works with
    | nil => exact ⟨by decide, nofun⟩
    | cons first rest ih =>
        simp only [List.foldr_cons, String.length_append]
        refine ⟨by omega, fun work hwork => ?_⟩
        rcases List.mem_cons.mp hwork with rfl | hrest
        · omega
        · have := ih.2 work hrest
          omega
  intro hwork
  obtain ⟨work, hmem, hid⟩ := hasWork_iff.mp hwork
  exact absurd (hid ▸ (hlonger db.works).2 work hmem) (Nat.lt_irrefl _)

def plainTitles : EnrichmentConfig where
  saysLive := fun _ => false
  versionOfTitle := fun _ => .original
  normalizeArtist := id
  isMbid := fun _ => true
  newId := longWorkId

def takeOf (recMbid song : String) : MbRecording where
  id := recMbid
  title := "Song"
  relations := [{ type := "performance", work := some { id := song, title := "Song" } }]

def albumOf (first second : MbRecording) : MbRelease where
  artistCredit := [{ artist := some { id := "band", name := "Band" } }]
  media := [{ tracks := [{ recording := first }, { recording := second }] }]

/-- A release with two takes of one song, and a search that finds the second alone. -/
def twoTakes : MbClient where
  lookupRelease := fun _ => some (albumOf (takeOf "first" "song") (takeOf "second" "song"))
  lookupRecording := fun _ => none
  searchRecordingsByMbids := fun _ recMbid =>
    if recMbid = "second" then some { id := "second", title := "Song" } else none

def takeFile (fileId : Uuid) (recMbid : String) (releaseMbid : Option String) : LibraryFile where
  id := fileId
  filePath := recMbid
  audio := { recordingMbid := recMbid, releaseMbid := releaseMbid }

/-- Both takes on the release, and pending. -/
def ripped : Database where
  files := [takeFile 1 "first" "album", takeFile 2 "second" "album"]

/-- The second take is stored as live, and a file of it is pending. -/
def retagged : Database where
  files := [takeFile 2 "second" none]
  works := [{ id := "song" }]
  recordings := [{ id := "first", workId := "song" },
    { id := "second", workId := "song", versionType := .live }]

theorem ripped_catalogued : Catalogued ripped :=
  ⟨List.nodup_nil, List.nodup_nil, nofun, nofun⟩

theorem ripped_distinct : Slots.Distinct (rowsOf ripped) := nofun

theorem retagged_catalogued : Catalogued retagged := by
  refine ⟨by decide, by decide, by decide, ?_⟩
  intro recording hrecording workId honWork
  rcases List.mem_cons.mp hrecording with rfl | hsecond
  · cases honWork
    rfl
  · obtain rfl := List.mem_singleton.mp hsecond
    cases honWork
    rfl

/-- Two takes of a song on one release keep both files pending, and so does a take that a
lookup has marked live and a later search reads as the original. -/
theorem takes_collide :
    (Catalogued ripped ∧ enrichByRelease plainTitles twoTakes ripped "album" = none) ∧
      Catalogued retagged ∧
        enrichByRecordingBatch plainTitles twoTakes retagged retagged.files = none := by
  refine ⟨⟨ripped_catalogued, by decide⟩, retagged_catalogued, by decide⟩

/-- The release with a take of another song in the place of the second. -/
def twoSongs : MbClient :=
  { twoTakes with
    lookupRelease := fun _ => some (albumOf (takeOf "first" "song") (takeOf "second" "tune")) }

theorem twoSongs_free :
    Slots.AllFree (rowsOf ripped) (releaseUpserts plainTitles twoSongs ripped "album") := by
  have hupserts : releaseUpserts plainTitles twoSongs ripped "album" =
      [⟨"first", some (.musicbrainz "song"), .original⟩,
        ⟨"second", some (.musicbrainz "tune"), .original⟩] := rfl
  rw [hupserts, Slots.allFree_cons, Slots.allFree_singleton]
  refine ⟨fun place _ other _ hrow => ?_, fun place hplace other _ hrow => ?_⟩
  · cases hrow
  · obtain rfl := Option.some.inj hplace
    by_cases hfirst : other = "first"
    · rw [hfirst] at hrow
      exact absurd hrow (by decide)
    · rw [Slots.write, Function.update_of_ne hfirst] at hrow
      cases hrow

/-- Both files of the release are linked if it has two songs, and not if it has two takes of
one. -/
theorem enrichment_goes_through_iff_ripped :
    LinksAll (getPendingByRelease ripped "album") (listedRecording plainTitles twoSongs "album")
        (enrichByRelease plainTitles twoSongs ripped "album") ∧
      ¬ Slots.AllFree (rowsOf ripped) (releaseUpserts plainTitles twoTakes ripped "album") := by
  have hiff (client : MbClient) :=
    (@enrichment_goes_through_iff plainTitles client _ longWorkId_fresh
    ripped_catalogued ripped_distinct (by decide)).2.2.1 "album"
  refine ⟨(hiff twoSongs).mpr twoSongs_free, fun hfree => ?_⟩
  obtain ⟨value, next, hresult, -⟩ := (hiff twoTakes).mpr hfree
  have hnone : enrichByRelease plainTitles twoTakes ripped "album" = none := by decide
  rw [hnone] at hresult
  cases hresult

end RetroStation.Enrichment
