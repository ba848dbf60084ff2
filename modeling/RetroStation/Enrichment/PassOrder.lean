import RetroStation.Enrichment.Collisions

/-! # The order of enrichment passes

One recording goes through the batched pass, which knows its title, and through lookups, which
know its performance relation too. A search keeps the work and writes the version over:

* `order_does_not_matter_iff` — passes with a lookup among them leave the recording where that
  lookup alone leaves it exactly when no search comes last that reads another version than
  the lookup's live one, and a lookup that leaves the version as stored is not mixed with
  passes that write another.
-/

namespace RetroStation.Enrichment

open Library Curation

/-- A call on one recording: a search for files tagged with it, a lookup for files that are
linked to it, or a lookup of the stored recording. -/
inductive Pass
  | batch (pendingFiles : List LibraryFile)
  | files (pendingFiles : List LibraryFile)
  | lookup
  deriving DecidableEq, Repr

def Pass.isBatch : Pass → Bool
  | .batch _ => true
  | .files _ | .lookup => false

section

variable (config : EnrichmentConfig) (client : MbClient) (recMbid : String)

/-- A pass over the recording; a lookup needs it stored and known. -/
def runPass (db : Database) : Pass → Option Database
  | .batch pendingFiles => (enrichByRecordingBatch config client db pendingFiles).map Prod.snd
  | .files pendingFiles =>
    (enrichFilesByRecording config client db recMbid pendingFiles).map Prod.snd
  | .lookup =>
    match db.getRecording recMbid, client.lookupRecording recMbid with
    | some recording, some data => (applyRecordingLookup config db recording data).map Prod.snd
    | _, _ => some db

/-- What MusicBrainz holds on the recording: one payload for a lookup, and one for a search, which
carries no relations. -/
structure FixedPayloads (search data : MbRecording) : Prop where
  valid : config.isMbid recMbid = true
  lookedUp : client.lookupRecording recMbid = some data
  noRelations : search.relations = []
  title : search.title = data.title
  length : search.length = data.length
  disambiguation : search.disambiguation = data.disambiguation

/-- The call is on the recording: a batch is of files that the search links to it. -/
def Pass.IsOn (search : MbRecording) : Pass → Prop
  | .batch pendingFiles => pendingFiles ≠ [] ∧
    ∀ file ∈ pendingFiles, batchRecording client pendingFiles file = some (recMbid, search)
  | .files _ | .lookup => True

end

/-! ## A pass on the recording's row -/

section

variable (reader : TextReader) (search data : MbRecording)

/-- Where a lookup leaves a version. -/
def lookedUpVersion (version : VersionType) : VersionType :=
  if recordingVersionType reader data = .live then .live else version

/-- What a pass makes of the recording's work and version. -/
def Pass.row (row : Option (Option WorkName × VersionType)) :
    Pass → Option (Option WorkName × VersionType)
  | .batch _ => some (row.bind Prod.fst, recordingVersionType reader search)
  | .files _ => some ((performedName data.artistCredit data).or (row.bind Prod.fst),
      recordingVersionType reader data)
  | .lookup => row.map fun stored =>
      ((performedName data.artistCredit data).or stored.1, lookedUpVersion reader data stored.2)

/-- The slots that passes may give to a recording stored in `row`. -/
def Takes (row : Option (Option WorkName × VersionType)) (place : WorkName)
    (version : VersionType) : Prop :=
  (row.bind Prod.fst = some place ∨ performedName data.artistCredit data = some place) ∧
    (row.map Prod.snd = some version ∨ version = recordingVersionType reader search ∨
      version = recordingVersionType reader data)

/-- No other recording is in them. -/
def SlotsFree (rows : Slots.Rows String WorkName VersionType) (recMbid : String) : Prop :=
  ∀ other, other ≠ recMbid →
    ∀ place version, Takes reader search data (rows recMbid) place version →
    rows other ≠ some (some place, version)

end

variable {config : EnrichmentConfig} {client : MbClient} {db next : Database} {recMbid : String}
  {reader : TextReader} {search data : MbRecording} {pass : Pass}
  {row : Option (Option WorkName × VersionType)}

/-- A pass takes no slot that was not among those it may take. -/
theorem takes_row {place : WorkName} {version : VersionType}
    (htakes : Takes reader search data (pass.row reader search data row) place version) :
    Takes reader search data row place version := by
  obtain ⟨hplace, hversion⟩ := htakes
  cases pass with
  | batch pendingFiles =>
      refine ⟨hplace, .inr (hversion.elim (fun hstored => ?_) id)⟩
      exact .inl (Option.some.inj hstored).symm
  | files pendingFiles =>
      refine ⟨hplace.elim (fun hstored => ?_) .inr,
        .inr (hversion.elim (fun hstored => .inr (Option.some.inj hstored).symm) id)⟩
      rcases Option.or_eq_some_iff.mp hstored with hnew | ⟨-, hold⟩
      · exact .inr hnew
      · exact .inl hold
  | lookup =>
      cases row with
      | none => exact ⟨hplace, hversion⟩
      | some stored =>
          obtain ⟨work, old⟩ := stored
          refine ⟨hplace.elim (fun hstored => ?_) .inr, hversion.elim (fun hstored => ?_) .inr⟩
          · rcases Option.or_eq_some_iff.mp hstored with hnew | ⟨-, hold⟩
            · exact .inr hnew
            · exact .inl hold
          · obtain rfl := Option.some.inj hstored
            unfold lookedUpVersion
            split
            next hlive => exact .inr (.inr hlive.symm)
            next => exact .inl rfl

/-- An upsert into one of those slots finds it free. -/
theorem SlotsFree.free {rows : Slots.Rows String WorkName VersionType}
    (hfree : SlotsFree reader search data rows recMbid)
    {upsert : Slots.Upsert String WorkName VersionType} (hid : upsert.id = recMbid)
    (htakes : ∀ place, upsert.target rows = some place →
      Takes reader search data (rows recMbid) place upsert.version) : Slots.Free rows upsert := by
  intro place hplace other hother
  exact hfree other (hid ▸ hother) place upsert.version (htakes place hplace)

/-! ## A pass on the database -/

/-- A call on the recording goes through, and leaves the other recordings alone. -/
def RunsTo (config : EnrichmentConfig) (client : MbClient) (recMbid : String) (db : Database)
    (pass : Pass) (row : Option (Option WorkName × VersionType)) : Prop :=
  ∃ next, runPass config client recMbid db pass = some next ∧ Catalogued next ∧
    (∀ other, other ≠ recMbid → rowsOf next other = rowsOf db other) ∧
    rowsOf next recMbid = row

/-- A settled upsert of the recording, in the slots it may take. -/
theorem Settles.runsTo {Result : Type} {result : Option (Result × Database)} {count : Nat}
    {upsert : Slots.Upsert String WorkName VersionType}
    {links : List (Uuid × Option String × EnrichmentStatus)}
    (hsettles : Settles db (List.replicate (count + 1) upsert) links result)
    (hfree : Slots.Free (rowsOf db) upsert) (hid : upsert.id = recMbid)
    (hrun : runPass config client recMbid db pass = result.map Prod.snd) :
    RunsTo config client recMbid db pass (some (upsert.target (rowsOf db), upsert.version)) := by
  obtain ⟨value, next, hresult, hsettled⟩ := hsettles.goesThrough (hfree.replicate _)
  refine ⟨next, by rw [hrun, hresult]; rfl, hsettled.catalogued, ?_, ?_⟩
  · intro other hother
    rw [hsettled.rows, Slots.settled_replicate, Slots.write, Function.update_of_ne (hid ▸ hother)]
  · rw [hsettled.rows, Slots.settled_replicate, Slots.write, ← hid, Function.update_self]

theorem filterMap_eq_replicate {Item Found : Type} {find : Item → Option Found} {found : Found}
    {items : List Item} (hfound : ∀ item ∈ items, find item = some found) :
    items.filterMap find = List.replicate items.length found := by
  induction items with
  | nil => rfl
  | cons first rest ih =>
      rw [List.filterMap_cons_some (hfound first List.mem_cons_self),
        ih fun item hitem => hfound item (List.mem_cons_of_mem _ hitem)]
      rfl

/-- The live version is stored in a free slot. -/
theorem live_row {live : Database} {recording : Recording}
    (hfree : SlotsFree reader search data (rowsOf db) recording.id)
    (hrow : rowsOf db recording.id =
      some (recording.workId.map (nameOf db), recording.versionType))
    (hmarked : if recording.versionType ≠ .live ∧ recordingVersionType reader data = .live then
        Slots.WritesIfFree (rowsOf db) ⟨recording.id, none, .live⟩ (rowsOf live)
      else rowsOf live = rowsOf db) :
    (∀ other, other ≠ recording.id → rowsOf live other = rowsOf db other) ∧
      rowsOf live recording.id = some (recording.workId.map (nameOf db),
        lookedUpVersion reader data recording.versionType) := by
  unfold lookedUpVersion
  split at hmarked
  next hspoken =>
    have hwritten := hmarked.eq_write (by rw [hrow]; rfl)
      (hfree.free rfl fun place hplace => ⟨.inl hplace, .inr (.inr hspoken.2.symm)⟩)
    rw [hwritten, if_pos hspoken.2]
    refine ⟨fun other hother => Function.update_of_ne hother _ _, ?_⟩
    rw [Slots.write, Function.update_self, Slots.Upsert.target]
    dsimp only
    rw [hrow]
    rfl
  next hnot =>
    rw [hmarked]
    refine ⟨fun _ _ => rfl, hrow.trans ?_⟩
    split
    next hspoken => rw [not_not.mp fun hne => hnot ⟨hne, hspoken⟩]
    next => rfl

section

variable (hok : Catalogued db) (hpayloads : FixedPayloads config client recMbid search data)
  (hfree : SlotsFree config.toTextReader search data (rowsOf db) recMbid)

include hok hfree

theorem batch_runsTo {pendingFiles : List LibraryFile}
    (hon : (Pass.batch pendingFiles).IsOn client recMbid search) :
    RunsTo config client recMbid db (.batch pendingFiles)
      ((Pass.batch pendingFiles).row config.toTextReader search data (rowsOf db recMbid)) := by
  obtain ⟨count, hcount⟩ := Nat.exists_eq_succ_of_ne_zero (mt List.length_eq_zero_iff.mp hon.1)
  have hsettles := @enrichByRecordingBatch_settles config client db hok pendingFiles
  rw [batchUpserts, filterMap_eq_replicate hon.2, hcount, List.map_replicate] at hsettles
  exact hsettles.runsTo (hfree.free rfl fun place hplace => ⟨.inl hplace, .inr (.inl rfl)⟩) rfl rfl

include hpayloads

theorem files_runsTo (hnew : ∀ db : Database, ¬ db.hasWork (config.newId db))
    (pendingFiles : List LibraryFile) :
    RunsTo config client recMbid db (.files pendingFiles)
      ((Pass.files pendingFiles).row config.toTextReader search data (rowsOf db recMbid)) := by
  have hsettles := enrichFilesByRecording_settles hnew hok hpayloads.valid hpayloads.lookedUp
    pendingFiles
  refine @Settles.runsTo config client db recMbid _ _ _ 0 _ _ hsettles
    (hfree.free rfl fun place hplace => ⟨?_, .inr (.inr rfl)⟩) rfl rfl
  exact (Option.or_eq_some_iff.mp hplace).elim .inr fun hstored => .inl hstored.2

theorem lookup_runsTo (hnew : ∀ db : Database, ¬ db.hasWork (config.newId db)) :
    RunsTo config client recMbid db .lookup
      (Pass.lookup.row config.toTextReader search data (rowsOf db recMbid)) := by
  cases hget : db.getRecording recMbid with
  | none =>
      refine ⟨db, by rw [runPass, hget], hok, fun _ _ => rfl, ?_⟩
      rw [rowsOf, hget]
      rfl
  | some recording =>
      obtain rfl := (Table.find?_key hget).2
      have hrow : rowsOf db recording.id =
          some (recording.workId.map (nameOf db), recording.versionType) := by
        rw [rowsOf, hget, Option.map_some]
      obtain ⟨applied, next, happly, hnext, live, hlive, honWork, hmarked, hlinked⟩ :=
        applyRecordingLookup_eq hnew hok recording data
      obtain ⟨hothers, hlive_row⟩ := live_row hfree hrow hmarked
      have hafter : Pass.lookup.row config.toTextReader search data (rowsOf db recording.id) =
          some ((performedName data.artistCredit data).or (recording.workId.map (nameOf db)),
            lookedUpVersion config.toTextReader data recording.versionType) := by
        rw [hrow]
        rfl
      refine ⟨next, by simp only [runPass, hget, hpayloads.lookedUp, happly]; rfl, hnext, ?_⟩
      rw [hafter]
      rcases hlinked with ⟨hnone, hsame⟩ | ⟨workId, hwork, hname, hsame⟩
      · rw [hsame, hnone]
        exact ⟨hothers, hlive_row⟩
      rw [hname]
      -- A recording already on the work it is linked to is not written again.
      by_cases hstays : recording.workId = some workId
      · rw [hsame, if_pos hstays]
        have hstored : workOfRecording live recording.id = some (some workId) := by
          rw [honWork, workOfRecording, hget, Option.map_some, hstays]
        obtain ⟨kept, hkept, hkeptOn⟩ := Option.map_eq_some_iff.mp hstored
        have hplace := hlive_row
        rw [rowsOf, hkept, Option.map_some, hkeptOn, Option.map_some] at hplace
        rw [← (Prod.mk.inj (Option.some.inj hplace)).1] at hlive_row ⊢
        exact ⟨hothers, hlive_row⟩
      · rw [hsame, if_neg hstays]
        have hversion : ∀ stored, live.getRecording recording.id = some stored →
            stored.versionType =
              lookedUpVersion config.toTextReader data recording.versionType := by
          intro stored hstored
          rw [rowsOf, hstored, Option.map_some] at hlive_row
          exact (Prod.mk.inj (Option.some.inj hlive_row)).2
        have htakes : Takes config.toTextReader search data (rowsOf db recording.id)
            (nameOf live workId)
            (lookedUpVersion config.toTextReader data recording.versionType) := by
          refine ⟨.inr hname, ?_⟩
          unfold lookedUpVersion
          split
          next hspoken => exact .inr (.inr hspoken.symm)
          next => exact .inl (by rw [hrow, Option.map_some])
        have hwritten := (linkWork_rows hlive hwork hversion).eq_write (by rw [hlive_row]; rfl) (by
          intro place hplace other hother
          obtain rfl := Option.some.inj hplace
          rw [hothers other hother]
          exact hfree other hother _ _ htakes)
        rw [hwritten]
        refine ⟨fun other hother => ?_, Function.update_self _ _ _⟩
        rw [Slots.write, Function.update_of_ne hother, hothers other hother]

/-- One pass, whichever it is. -/
theorem runPass_runsTo (hnew : ∀ db : Database, ¬ db.hasWork (config.newId db))
    (hon : pass.IsOn client recMbid search) :
    RunsTo config client recMbid db pass
      (pass.row config.toTextReader search data (rowsOf db recMbid)) := by
  cases pass with
  | batch pendingFiles => exact batch_runsTo hok hfree hon
  | files pendingFiles => exact files_runsTo hok hpayloads hfree hnew pendingFiles
  | lookup => exact lookup_runsTo hok hpayloads hfree hnew

end

/-- Passes over the recording go through, and do to its row what each does in turn. -/
theorem runPasses_row (hnew : ∀ db : Database, ¬ db.hasWork (config.newId db))
    (hpayloads : FixedPayloads config client recMbid search data) {passes : List Pass}
    (hon : ∀ pass ∈ passes, pass.IsOn client recMbid search) (hok : Catalogued db)
    (hfree : SlotsFree config.toTextReader search data (rowsOf db) recMbid) :
    ∃ final, passes.foldlM (runPass config client recMbid) db = some final ∧
      rowsOf final recMbid =
        passes.foldl (Pass.row config.toTextReader search data) (rowsOf db recMbid) := by
  induction passes generalizing db with
  | nil => exact ⟨db, rfl, rfl⟩
  | cons pass rest ih =>
      obtain ⟨next, hrun, hnext, hothers, hrow⟩ := runPass_runsTo hok hpayloads hfree hnew
        (hon pass List.mem_cons_self)
      have hstays : SlotsFree config.toTextReader search data (rowsOf next) recMbid := by
        intro other hother place version htakes
        rw [hothers other hother]
        exact hfree other hother place version (takes_row (hrow ▸ htakes))
      obtain ⟨final, hrest, hfinal⟩ := ih (fun other hother =>
        hon other (List.mem_cons_of_mem _ hother)) hnext hstays
      refine ⟨final, ?_, ?_⟩
      · rw [List.foldlM_cons, hrun, Option.bind_eq_bind, Option.bind_some, hrest]
      · rw [hfinal, hrow, List.foldl_cons]

/-! ## What passes leave in the row -/

/-- Once on the work that the recording performs, it stays there. -/
theorem or_or_self {Value : Type} (first second : Option Value) :
    first.or (first.or second) = first.or second := by
  cases first <;> rfl

/-- A pass leaves the recording where it was, or puts it on the work that it performs. -/
theorem row_place (pass : Pass) (row : Option (Option WorkName × VersionType)) :
    (pass.row reader search data row).bind Prod.fst = row.bind Prod.fst ∨
      (pass.row reader search data row).bind Prod.fst =
        (performedName data.artistCredit data).or (row.bind Prod.fst) := by
  cases pass with
  | batch pendingFiles => exact .inl rfl
  | files pendingFiles => exact .inr rfl
  | lookup =>
      cases row with
      | none => exact .inl rfl
      | some stored => exact .inr rfl

theorem row_isSome (pass : Pass) (hstored : row.isSome) :
    (pass.row reader search data row).isSome := by
  cases pass with
  | batch pendingFiles => rfl
  | files pendingFiles => rfl
  | lookup => simpa [Pass.row] using hstored

theorem rows_isSome (passes : List Pass) (hstored : row.isSome) :
    (passes.foldl (Pass.row reader search data) row).isSome := by
  induction passes generalizing row with
  | nil => exact hstored
  | cons pass rest ih => exact ih (row_isSome pass hstored)

/-- Before any lookup the recording may still be where it was. -/
theorem rows_place {work : Option WorkName} (passes : List Pass)
    (hplace : row.bind Prod.fst = work ∨
      row.bind Prod.fst = (performedName data.artistCredit data).or work) :
    (passes.foldl (Pass.row reader search data) row).bind Prod.fst = work ∨
      (passes.foldl (Pass.row reader search data) row).bind Prod.fst =
        (performedName data.artistCredit data).or work := by
  induction passes generalizing row with
  | nil => exact hplace
  | cons pass rest ih =>
      refine ih ?_
      rcases @row_place reader search data pass row with hrow | hrow <;> rw [hrow]
      · exact hplace
      · rcases hplace with hplace | hplace <;> rw [hplace]
        · exact .inr rfl
        · exact .inr (or_or_self _ _)

/-- A lookup puts the recording on the work that it performs. -/
theorem lookup_place (hlookup : pass.isBatch = false) (hstored : pass = .lookup → row.isSome) :
    (pass.row reader search data row).isSome ∧
      (pass.row reader search data row).bind Prod.fst =
        (performedName data.artistCredit data).or (row.bind Prod.fst) := by
  cases pass with
  | batch pendingFiles => cases hlookup
  | files pendingFiles => exact ⟨rfl, rfl⟩
  | lookup =>
      obtain ⟨stored, hrow⟩ := Option.isSome_iff_exists.mp (hstored rfl)
      rw [hrow]
      exact ⟨rfl, rfl⟩

/-- With a lookup among the passes, the recording ends on the work that it performs. -/
theorem rows_place_of_lookup {passes : List Pass} (hmem : pass ∈ passes)
    (hlookup : pass.isBatch = false) (hstored : pass = .lookup → row.isSome) :
    (passes.foldl (Pass.row reader search data) row).isSome ∧
      (passes.foldl (Pass.row reader search data) row).bind Prod.fst =
        (performedName data.artistCredit data).or (row.bind Prod.fst) := by
  obtain ⟨before, after, rfl⟩ := List.append_of_mem hmem
  rw [List.foldl_append, List.foldl_cons]
  obtain ⟨hthere, hplace⟩ := @lookup_place reader search data pass
    (before.foldl (Pass.row reader search data) row) hlookup
    fun heq => rows_isSome before (hstored heq)
  have hput : (pass.row reader search data (before.foldl (Pass.row reader search data) row)).bind
      Prod.fst = (performedName data.artistCredit data).or (row.bind Prod.fst) := by
    rw [hplace]
    rcases @rows_place reader search data row _ before (.inl rfl) with hrow | hrow <;> rw [hrow]
    exact or_or_self _ _
  refine ⟨rows_isSome after hthere, ?_⟩
  rcases @rows_place reader search data _ _ after (.inl hput) with hrow | hrow <;> rw [hrow]
  exact or_or_self _ _

/-- Where the lookup does not say live, a search reads the same version; it is written by any
pass that writes one. -/
theorem rows_version (hplain : recordingVersionType reader data ≠ .live)
    (hsame : recordingVersionType reader search = recordingVersionType reader data)
    (passes : List Pass) :
    (passes.foldl (Pass.row reader search data) row).map Prod.snd =
      if ∀ pass ∈ passes, pass = .lookup then row.map Prod.snd
      else some (recordingVersionType reader data) := by
  induction passes generalizing row with
  | nil => exact (if_pos nofun).symm
  | cons pass rest ih =>
      rw [List.foldl_cons, ih]
      cases pass with
      | batch pendingFiles => simp [Pass.row, hsame]
      | files pendingFiles => simp [Pass.row]
      | lookup =>
          have hversion : (Pass.lookup.row reader search data row).map Prod.snd =
              row.map Prod.snd := by
            cases row with
            | none => rfl
            | some stored => simp [Pass.row, lookedUpVersion, hplain]
          simp [hversion]

/-- Where the lookup says live, the last pass decides. -/
theorem rows_version_live (hlive : recordingVersionType reader data = .live) {passes : List Pass}
    (hthere : (passes.foldl (Pass.row reader search data) row).isSome) (hne : passes ≠ []) :
    (passes.foldl (Pass.row reader search data) row).map Prod.snd =
      some (if (passes.getLast hne).isBatch then recordingVersionType reader search
        else .live) := by
  obtain ⟨before, last, rfl⟩ := (List.eq_nil_or_concat' passes).resolve_left hne
  rw [List.foldl_append] at hthere ⊢
  simp only [List.getLast_append_singleton, List.foldl_cons, List.foldl_nil] at hthere ⊢
  cases last with
  | batch pendingFiles => rfl
  | files pendingFiles => exact congrArg some hlive
  | lookup =>
      have hbefore : (before.foldl (Pass.row reader search data) row).isSome := by
        simpa [Pass.row] using hthere
      obtain ⟨stored, hrow⟩ := Option.isSome_iff_exists.mp hbefore
      rw [hrow]
      simp [Pass.row, lookedUpVersion, hlive, Pass.isBatch]

/-- A search reads the version that a lookup reads, but for what the relation alone says. -/
theorem FixedPayloads.same_version
    (hpayloads : FixedPayloads config client recMbid search data)
    (hplain : recordingVersionType config.toTextReader data ≠ .live) :
    recordingVersionType config.toTextReader search =
      recordingVersionType config.toTextReader data := by
  unfold recordingVersionType musicbrainzMarksLive at hplain ⊢
  rw [hpayloads.noRelations, hpayloads.title, hpayloads.disambiguation]
  cases hspoken : config.saysLive (data.disambiguation.getD "") with
  | true => simp [hspoken] at hplain
  | false =>
      split at hplain
      next => exact (hplain rfl).elim
      next hmarks =>
        rw [hspoken] at hmarks
        rw [if_neg hmarks]
        rfl

/-- When the passes leave the version where the lookup alone leaves it. -/
def SameVersion (reader : TextReader) (search data : MbRecording)
    (row : Option (Option WorkName × VersionType)) (passes : List Pass) (pass : Pass) : Prop :=
  if recordingVersionType reader data = .live then
    recordingVersionType reader search = .live ∨ ¬ (passes.getLast?.any Pass.isBatch)
  else pass ≠ .lookup ∨ row.map Prod.snd = some (recordingVersionType reader data) ∨
    ∀ other ∈ passes, other = .lookup

theorem rows_eq_iff (hplain : recordingVersionType reader data ≠ .live →
      recordingVersionType reader search = recordingVersionType reader data)
    {passes : List Pass} (hmem : pass ∈ passes) (hlookup : pass.isBatch = false)
    (hstored : pass = .lookup → row.isSome) :
    passes.foldl (Pass.row reader search data) row = pass.row reader search data row ↔
      SameVersion reader search data row passes pass := by
  obtain ⟨hthere, hplace⟩ :=
    @rows_place_of_lookup reader search data pass row _ hmem hlookup hstored
  obtain ⟨hthere', hplace'⟩ := @lookup_place reader search data pass row hlookup hstored
  have hversion : passes.foldl (Pass.row reader search data) row = pass.row reader search data row ↔
      (passes.foldl (Pass.row reader search data) row).map Prod.snd =
        (pass.row reader search data row).map Prod.snd := by
    obtain ⟨final, hfinal⟩ := Option.isSome_iff_exists.mp hthere
    obtain ⟨alone, halone⟩ := Option.isSome_iff_exists.mp hthere'
    rw [hfinal] at hplace ⊢
    rw [halone] at hplace' ⊢
    have hsame : final.1 = alone.1 := hplace.trans hplace'.symm
    simp [Prod.ext_iff, hsame]
  rw [hversion, SameVersion]
  split
  next hlive =>
    have hne := List.ne_nil_of_mem hmem
    have halone := @rows_version_live reader search data row hlive [pass] hthere' (by simp)
    simp only [List.foldl_cons, List.foldl_nil, List.getLast_singleton, hlookup] at halone
    rw [rows_version_live hlive hthere hne, halone, List.getLast?_eq_some_getLast hne]
    cases hlast : (passes.getLast hne).isBatch with
    | true => simp [hlast]
    | false => simp [hlast]
  next hnot =>
    have halone := @rows_version reader search data row hnot (hplain hnot) [pass]
    simp only [List.foldl_cons, List.foldl_nil, List.forall_mem_singleton] at halone
    rw [rows_version hnot (hplain hnot), halone]
    by_cases hall : ∀ other ∈ passes, other = .lookup
    · rw [if_pos hall, if_pos (hall pass hmem)]
      exact iff_of_true rfl (.inr (.inr hall))
    · rw [if_neg hall]
      by_cases hpass : pass = .lookup
      · rw [if_pos hpass]
        exact ⟨fun heq => .inr (.inl heq.symm), fun hcases =>
          ((hcases.resolve_left (not_not.mpr hpass)).resolve_right hall).symm⟩
      · rw [if_neg hpass]
        exact iff_of_true rfl (.inl hpass)

/-- Passes over a recording, with a lookup among them, leave it in the slot where that lookup
alone leaves it exactly when the version comes out the same: with a lookup that says live, the
last pass is no search that reads another version; else the lookup writes the version, or it is
stored already, or no pass writes one. -/
theorem order_does_not_matter_iff (hnew : ∀ db : Database, ¬ db.hasWork (config.newId db))
    (hok : Catalogued db) (hpayloads : FixedPayloads config client recMbid search data)
    (hfree : SlotsFree config.toTextReader search data (rowsOf db) recMbid) {passes : List Pass}
    (hon : ∀ pass ∈ passes, pass.IsOn client recMbid search) (hmem : pass ∈ passes)
    (hlookup : pass.isBatch = false) (hstored : pass = .lookup → (rowsOf db recMbid).isSome) :
    ∃ final alone, passes.foldlM (runPass config client recMbid) db = some final ∧
      runPass config client recMbid db pass = some alone ∧
      (rowsOf final recMbid = rowsOf alone recMbid ↔
        SameVersion config.toTextReader search data (rowsOf db recMbid) passes pass) := by
  obtain ⟨final, hrun, hfinal⟩ := runPasses_row hnew hpayloads hon hok hfree
  obtain ⟨alone, honce, -, -, halone⟩ :=
    runPass_runsTo hok hpayloads hfree hnew (hon pass hmem)
  refine ⟨final, alone, hrun, honce, ?_⟩
  rw [hfinal, halone]
  exact rows_eq_iff hpayloads.same_version hmem hlookup hstored

/-! ## A live take searched again -/

def liveTake : MbRecording where
  id := "take"
  title := "Song"
  relations := [{
    type := "performance"
    attributes := ["live"]
    work := some { id := "song", title := "Song" } }]
  artistCredit := [{ artist := some { id := "band", name := "Band" } }]

def searchedTake : MbRecording where
  id := "take"
  title := "Song"

def oneTake : MbClient where
  lookupRelease := fun _ => none
  lookupRecording := fun _ => some liveTake
  searchRecordingsByMbids := fun _ _ => some searchedTake

/-- A file that was tagged again, with the recording that it had. -/
def retaggedFile : LibraryFile := takeFile 1 "take" none

def retaggedTake : Database where
  files := [retaggedFile]
  recordings := [{ id := "take" }]

theorem retaggedTake_catalogued : Catalogued retaggedTake := by
  refine ⟨by decide, by decide, by decide, ?_⟩
  intro recording hrecording workId honWork
  obtain rfl := List.mem_singleton.mp hrecording
  cases honWork

theorem oneTake_payloads : FixedPayloads plainTitles oneTake "take" searchedTake liveTake :=
  ⟨rfl, rfl, rfl, rfl, rfl, rfl⟩

theorem retaggedTake_slotsFree :
    SlotsFree plainTitles.toTextReader searchedTake liveTake (rowsOf retaggedTake) "take" := by
  intro other hother place version _ hrow
  obtain ⟨recording, hget, -⟩ := Option.map_eq_some_iff.mp hrow
  obtain ⟨hmem, rfl⟩ := Table.find?_key hget
  obtain rfl := List.mem_singleton.mp hmem
  exact hother rfl

theorem passes_isOn : ∀ pass ∈ [Pass.lookup, .batch [retaggedFile]],
    pass.IsOn oneTake "take" searchedTake := by
  intro pass hpass
  rcases List.mem_cons.mp hpass with rfl | hbatch
  · trivial
  · obtain rfl := List.mem_singleton.mp hbatch
    exact ⟨by decide, by decide⟩

/-- A take that its lookup marks live is the original again after a search. -/
theorem search_takes_live_back :
    (∀ pass ∈ [Pass.lookup, .batch [retaggedFile]], pass.IsOn oneTake "take" searchedTake) ∧
    SlotsFree plainTitles.toTextReader searchedTake liveTake (rowsOf retaggedTake) "take" ∧
    (([.lookup, .batch [retaggedFile]].foldlM (runPass plainTitles oneTake "take") retaggedTake).map
        fun final => rowsOf final "take") =
      some (some (some (.musicbrainz "song"), .original)) ∧
    ((runPass plainTitles oneTake "take" retaggedTake .lookup).map fun alone =>
      rowsOf alone "take") =
      some (some (some (.musicbrainz "song"), .live)) :=
  ⟨passes_isOn, retaggedTake_slotsFree, by decide, by decide⟩

theorem order_does_not_matter_iff_retaggedTake :
    ∃ final alone,
      [.lookup, .batch [retaggedFile]].foldlM (runPass plainTitles oneTake "take") retaggedTake =
        some final ∧
      runPass plainTitles oneTake "take" retaggedTake .lookup = some alone ∧
      (rowsOf final "take" = rowsOf alone "take" ↔
        SameVersion plainTitles.toTextReader searchedTake liveTake (rowsOf retaggedTake "take")
          [.lookup, .batch [retaggedFile]] .lookup) :=
  order_does_not_matter_iff longWorkId_fresh retaggedTake_catalogued oneTake_payloads
    retaggedTake_slotsFree
    passes_isOn (by decide) rfl fun _ => rfl

end RetroStation.Enrichment
