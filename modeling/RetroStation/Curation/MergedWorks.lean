import RetroStation.Curation.OverrideMerge

/-! # Merging works

Works are folded into one with all that they hold: the versions that any of them has, the files
of each, and the formats that any of them overrides. No statement breaks a unique index, and it
does not matter whether the works are folded at once or one at a time.
-/

namespace RetroStation.Curation

open Library
open Database (onWorks)

/-- What the schema keeps: the unique indexes, and the files' links to recordings. -/
structure MergeKeys (db : Database) : Prop where
  recordings : RecordingsKeyed db
  overrides : OverridesKeyed db
  links : ∀ file ∈ db.files, ∀ recordingId ∈ file.recordingId,
    ∃ recording ∈ db.recordings, recording.id = recordingId

/-! ## The merge, a statement at a time -/

/-- The works that are folded: those there are, without the target. -/
def foldedWorks (db : Database) (target : String) (sourceIds : List String) : List String :=
  (db.works.map Work.id).filter fun id => id ∈ sourceIds ∧ id ≠ target

/-- A keeper takes its version's files, and moves if the unique index lets it. -/
def keepRecording? (target : String) (sources : List String) (db : Database)
    (keeper : Recording) : Option Database :=
  let db := handOverAll db (dupesOf db sources keeper)
  if db.slotTaken keeper.id (some target) keeper.versionType then none
  else some (moveRecording db target keeper.id)

def mergeRecordings? (db : Database) (target : String) (sources : List String) :
    Option Database :=
  let db := handOverAll db (db.recordingClashes target sources)
  (db.recordingKeepers sources).foldlM (keepRecording? target sources) db

/-- The files and the matches of the sources go to the target. -/
def repointWorks (db : Database) (target : String) (sources : List String) : Database :=
  { db with
    files := Table.update db.files (fun file => onWorks sources file.workId)
      fun file => { file with workId := some target }
    matchRows := Table.update
      (Table.update db.matchRows (fun row => onWorks sources row.workId)
        fun row => { row with workId := some target })
      (fun row => decide (row.targetType = some .work) && onWorks sources row.targetId)
      fun row => { row with targetId := some target } }

def deleteWorks (db : Database) (sources : List String) : Database :=
  { db with
    songMasters := Table.delete db.songMasters fun master => master.workId ∈ sources
    works := Table.delete db.works fun work => work.id ∈ sources }

/-- Fold works into one; none if a statement breaks a unique index. -/
def mergeWorksInto? (rows : RowOrder) (target : String) (sourceIds : List String)
    (db : Database) : Option Database :=
  let sources := foldedWorks db target sourceIds
  if sources = [] then some db
  else do
    let db ← mergeRecordings? db target sources
    let db ← mergeFormatOverrides? rows (repointWorks db target sources) target sources
    return deleteWorks db sources

variable {db db' : Database} {target : String} {sources sourceIds : List String}

theorem mergeWorksInto_statements : db.mergeWorksInto target sourceIds =
    if foldedWorks db target sourceIds = [] then db
    else deleteWorks ((repointWorks (db.mergeRecordings target (foldedWorks db target sourceIds))
      target (foldedWorks db target sourceIds)).mergeFormatOverrides target
        (foldedWorks db target sourceIds)) (foldedWorks db target sourceIds) := rfl

theorem mem_foldedWorks {workId : String} :
    workId ∈ foldedWorks db target sourceIds ↔
      db.hasWork workId ∧ workId ∈ sourceIds ∧ workId ≠ target := by
  simp [foldedWorks, Database.hasWork]

theorem target_not_mem_foldedWorks : target ∉ foldedWorks db target sourceIds :=
  fun hmem => (mem_foldedWorks.mp hmem).2.2 rfl

theorem keepRecording?_eq {keeper : Recording} {rest : List Recording}
    (hpending : Pending target sources (keeper :: rest) db) :
    keepRecording? target sources db keeper = some (db.keepRecording target sources keeper) := by
  have hclear : (handOverAll db (dupesOf db sources keeper)).slotTaken keeper.id (some target)
      keeper.versionType = false := by
    simp only [Database.slotTaken, Option.isSome_some, Bool.true_and, List.any_eq_false,
      decide_eq_true_eq]
    exact fun other hother htaken => gathered_free hpending other hother htaken.1 htaken.2.1
  rw [keepRecording?, hclear, keepRecording_eq]
  rfl

theorem foldlM_keepRecording? (htarget : target ∉ sources) {keepers : List Recording}
    (hpending : Pending target sources keepers db) :
    keepers.foldlM (keepRecording? target sources) db =
      some (keepers.foldl (fun db keeper => db.keepRecording target sources keeper) db) := by
  induction keepers generalizing db with
  | nil => rfl
  | cons keeper rest ih =>
      rw [List.foldlM_cons, keepRecording?_eq hpending, Option.bind_eq_bind, Option.bind_some,
        ih (hpending.step htarget), List.foldl_cons]

theorem mergeRecordings?_eq (htarget : target ∉ sources) (hkeyed : RecordingsKeyed db) :
    mergeRecordings? db target sources = some (db.mergeRecordings target sources) := by
  obtain ⟨-, hkeyed', hunshared⟩ := clashes_fold htarget hkeyed
  exact foldlM_keepRecording? htarget (Pending.keepers hkeyed' hunshared)

theorem mergeRecordings_overrides :
    (db.mergeRecordings target sources).formatOverrides = db.formatOverrides :=
  (SameRefs.mergeRecordings target sources db).formatOverrides

theorem OverridesKeyed.congr (hkeyed : OverridesKeyed db)
    (hsame : db'.formatOverrides = db.formatOverrides) : OverridesKeyed db' :=
  ⟨hsame ▸ hkeyed.ids, hsame ▸ hkeyed.slots⟩

/-- No statement of a merge breaks a unique index, in whatever order the rows are updated. -/
theorem mergeWorksInto?_eq (hkeys : MergeKeys db) (rows : RowOrder) (target : String)
    (sourceIds : List String) :
    mergeWorksInto? rows target sourceIds db = some (db.mergeWorksInto target sourceIds) := by
  have htarget := @target_not_mem_foldedWorks db target sourceIds
  rw [mergeWorksInto?, mergeWorksInto_statements]
  split
  · rfl
  · have hkeyed : OverridesKeyed (repointWorks (db.mergeRecordings target
        (foldedWorks db target sourceIds)) target (foldedWorks db target sourceIds)) :=
      hkeys.overrides.congr mergeRecordings_overrides
    rw [mergeRecordings?_eq htarget hkeys.recordings, Option.bind_eq_bind, Option.bind_some,
      mergeFormatOverrides?_eq hkeyed]
    rfl

/-! ## What a merge keeps -/

/-- A work has a recording of a version. -/
def Holds (db : Database) (version : VersionType) (workId : String) : Prop :=
  ∃ recording ∈ db.recordings, recording.workId = some workId ∧ recording.versionType = version

/-- A work has an override for a format. -/
def Overrides (db : Database) (formatName workId : String) : Prop :=
  ∃ override ∈ db.formatOverrides, override.workId = workId ∧ override.formatName = formatName

/-- A file's work, and the version of the recording that it is linked to. -/
def placeOf (db : Database) (file : LibraryFile) : Uuid × Option String × Option VersionType :=
  (file.id, file.workId, file.recordingId.bind fun recordingId =>
    (db.getRecording recordingId).map Recording.versionType)

def retarget (target : String) (sources : List String) :
    Uuid × Option String × Option VersionType → Uuid × Option String × Option VersionType
  | (fileId, workId, version) =>
    (fileId, bif onWorks sources workId then some target else workId, version)

/-- What the sources had the target has, and the other works have what they had. -/
def Gathers (target : String) (sources : List String) (had has : String → Prop) : Prop :=
  ∀ workId, has workId ↔
    (workId ∉ sources ∧ had workId) ∨ workId = target ∧ ∃ source ∈ sources, had source

/-- The sources are gone, and the target has their files, versions and overridden formats. -/
structure Merged (target : String) (sources : List String) (db db' : Database) : Prop where
  works : ∀ workId, db'.hasWork workId ↔ db.hasWork workId ∧ workId ∉ sources
  versions : ∀ version, Gathers target sources (Holds db version) (Holds db' version)
  formats : ∀ formatName, Gathers target sources (Overrides db formatName)
    (Overrides db' formatName)
  places : db'.files.map (placeOf db') = db.files.map fun file =>
    retarget target sources (placeOf db file)

/-- What a merge does to the recordings and the files, from the fold of the recordings. -/
structure MergeSteps (target : String) (sources : List String) (db db' : Database)
    (heir : String → String) : Prop where
  target_off : target ∉ sources
  recordings : db'.recordings = (db.mergeRecordings target sources).recordings
  folds : Folds target sources db (db.mergeRecordings target sources) heir
  keyed : RecordingsKeyed (db.mergeRecordings target sources)
  cleared : ∀ recording ∈ db'.recordings, onWorks sources recording.workId = false
  files : db'.files = db.files.map fun file => { relink heir file with
    workId := bif onWorks sources file.workId then some target else file.workId }
  overrides : db'.formatOverrides = (db.mergeFormatOverrides target sources).formatOverrides
  works : db'.works = Table.delete db.works fun work => work.id ∈ sources

@[simp] theorem onWorks_nil {workId : Option String} : onWorks [] workId = false := by
  cases workId <;> simp [onWorks]

theorem mergeSteps (hkeys : MergeKeys db) :
    ∃ heir, MergeSteps target (foldedWorks db target sourceIds) db
      (db.mergeWorksInto target sourceIds) heir := by
  have htarget := @target_not_mem_foldedWorks db target sourceIds
  obtain ⟨heir, hfolds, hkeyed, hcleared⟩ := mergeRecordings_spec htarget hkeys.recordings
  rw [mergeWorksInto_statements]
  split
  next hnone =>
    rw [hnone] at hfolds hkeyed hcleared htarget ⊢
    have hsame : db.mergeRecordings target [] = db := by
      simp [Database.mergeRecordings, Database.recordingClashes, Database.recordingKeepers]
    refine ⟨heir, htarget, by rw [hsame], hfolds, hkeyed, by simp, ?_, ?_, ?_⟩
    · have hfiles : db.files = db.files.map (relink heir) := by
        simpa only [hsame] using hfolds.files
      exact hfiles.trans (List.map_congr_left fun file _ => by simp [relink])
    · simp [Database.mergeFormatOverrides, Table.update, Table.delete]
    · simp [Table.delete]
  next hsome =>
    have hsame := SameRefs.mergeRecordings target (foldedWorks db target sourceIds) db
    refine ⟨heir, htarget, rfl, hfolds, hkeyed, hcleared, ?_, ?_, ?_⟩
    · change Table.update (db.mergeRecordings target _).files _ _ = _
      rw [hfolds.files, Table.update, List.map_map]
      refine List.map_congr_left fun file _ => ?_
      by_cases hon : onWorks (foldedWorks db target sourceIds) file.workId
      · simp [relink, hon]
      · simp [relink, hon]
    · simp only [deleteWorks, Database.mergeFormatOverrides, Database.olderOverride, repointWorks,
        hsame.formatOverrides]
      rfl
    · change Table.delete (db.mergeRecordings target _).works _ = _
      rw [hsame.works]

namespace MergeSteps

variable {heir : String → String}

theorem mem_recordings (hsteps : MergeSteps target sources db db' heir) {kept : Recording} :
    kept ∈ db'.recordings ↔ kept ∈ (db.mergeRecordings target sources).recordings := by
  rw [hsteps.recordings]

/-- The recording of the group that has a version is on the target. -/
theorem exists_kept (hsteps : MergeSteps target sources db db' heir) {recording : Recording}
    (hrecording : recording ∈ db.recordings)
    (hgroup : onWorks (target :: sources) recording.workId) :
    ∃ kept ∈ db'.recordings, kept.id = heir recording.id ∧ kept.workId = some target ∧
      kept.versionType = recording.versionType := by
  obtain ⟨kept, hkept, hid, hversion, hin, -⟩ := hsteps.folds.heirs recording hrecording
  have hkept := hsteps.mem_recordings.mpr hkept
  refine ⟨kept, hkept, hid, ?_, hversion⟩
  obtain ⟨work, hwork, hsame⟩ := onWorks_iff.mp (hin hgroup)
  rcases List.mem_cons.mp hwork with rfl | hsource
  · exact hsame
  · have hon : onWorks sources kept.workId := onWorks_iff.mpr ⟨work, hsource, hsame⟩
    rw [hsteps.cleared kept hkept] at hon
    cases hon

theorem gathers_versions (hsteps : MergeSteps target sources db db' heir) (version : VersionType) :
    Gathers target sources (Holds db version) (Holds db' version) := by
  intro workId
  constructor
  · rintro ⟨kept, hkept, hwork, hversion⟩
    have hclear := hsteps.cleared kept hkept
    obtain ⟨recording, hrecording, -, hsame, hmoved⟩ :=
      hsteps.folds.origins kept (hsteps.mem_recordings.mp hkept)
    rcases hmoved with rfl | ⟨hon, htarget⟩
    · refine .inl ⟨fun hmem => ?_, kept, hrecording, hwork, hversion⟩
      rw [onWorks_iff.mpr ⟨workId, hmem, hwork⟩] at hclear
      cases hclear
    · obtain ⟨source, hsource, hwork'⟩ := onWorks_iff.mp hon
      exact .inr ⟨Option.some.inj (hwork.symm.trans htarget), source, hsource, recording,
        hrecording, hwork', hsame.trans hversion⟩
  · rintro (⟨hoff, recording, hrecording, hwork, hversion⟩ |
      ⟨rfl, source, hsource, recording, hrecording, hwork, hversion⟩)
    · obtain ⟨kept, hkept, -, -, -, hstays⟩ := hsteps.folds.heirs recording hrecording
      have hnot : onWorks sources recording.workId = false := by
        rw [hwork]
        simpa [onWorks] using hoff
      obtain rfl := hstays hnot
      exact ⟨kept, hsteps.mem_recordings.mpr hkept, hwork, hversion⟩
    · obtain ⟨kept, hkept, -, htarget, hsame⟩ := hsteps.exists_kept hrecording
        (onWorks_iff.mpr ⟨source, List.mem_cons_of_mem _ hsource, hwork⟩)
      exact ⟨kept, hkept, htarget, hsame.trans hversion⟩

theorem gathers_formats (hsteps : MergeSteps target sources db db' heir) (formatName : String) :
    Gathers target sources (Overrides db formatName) (Overrides db' formatName) := by
  intro workId
  simp only [Overrides, hsteps.overrides, mem_mergeFormatOverrides]
  constructor
  · rintro ⟨override, ⟨hstored, hoff⟩ | ⟨stays, hstays, rfl⟩, rfl, rfl⟩
    · exact .inl ⟨hoff, override, hstored, rfl, rfl⟩
    · exact .inr ⟨rfl, stays.workId, hstays.onSource, stays, hstays.stored, rfl, rfl⟩
  · rintro (⟨hoff, override, hstored, rfl, rfl⟩ |
      ⟨rfl, source, hsource, override, hstored, rfl, rfl⟩)
    · exact ⟨override, .inl ⟨hstored, hoff⟩, rfl, rfl⟩
    · by_cases hclaimed : ∃ kept ∈ db.formatOverrides, kept.workId = workId ∧
          kept.formatName = override.formatName
      · obtain ⟨kept, hkept, hwork, hformat⟩ := hclaimed
        exact ⟨kept, .inl ⟨hkept, hwork ▸ hsteps.target_off⟩, hwork, hformat⟩
      · obtain ⟨stays, hstays, hformat⟩ := @exists_stays db workId sources override hstored hsource
          fun kept hkept hwork hformat => hclaimed ⟨kept, hkept, hwork, hformat⟩
        exact ⟨{ stays with workId := workId }, .inr ⟨stays, hstays, rfl⟩, rfl, hformat⟩

/-- A file is linked to a recording of the version that it was linked to. -/
theorem places (hsteps : MergeSteps target sources db db' heir) (hkeys : MergeKeys db) :
    db'.files.map (placeOf db') = db.files.map fun file =>
      retarget target sources (placeOf db file) := by
  rw [hsteps.files, List.map_map]
  refine List.map_congr_left fun file hfile => ?_
  simp only [Function.comp_apply, placeOf, retarget, relink, Prod.mk.injEq, true_and]
  cases hlink : file.recordingId with
  | none => rfl
  | some recordingId =>
      obtain ⟨recording, hrecording, rfl⟩ := hkeys.links file hfile recordingId hlink
      obtain ⟨kept, hkept, hid, hversion, -, -⟩ := hsteps.folds.heirs recording hrecording
      have hold : db.getRecording recording.id = some recording :=
        hkeys.recordings.ids.find? hrecording
      have hnew : db'.getRecording (heir recording.id) = some kept := by
        rw [Database.getRecording, hsteps.recordings, ← hid]
        exact hsteps.keyed.ids.find? hkept
      simp only [Option.map_some, Option.bind_some, hold, hnew, hversion]

theorem merged (hsteps : MergeSteps target sources db db' heir) (hkeys : MergeKeys db) :
    Merged target sources db db' where
  works workId := by
    rw [Database.hasWork, hsteps.works]
    simp only [Database.hasWork, List.any_eq_true, Table.mem_delete, decide_eq_true_eq,
      decide_eq_false_iff_not]
    constructor
    · rintro ⟨work, ⟨hwork, hoff⟩, rfl⟩
      exact ⟨⟨work, hwork, rfl⟩, hoff⟩
    · rintro ⟨⟨work, hwork, rfl⟩, hoff⟩
      exact ⟨work, ⟨hwork, hoff⟩, rfl⟩
  versions := hsteps.gathers_versions
  formats := hsteps.gathers_formats
  places := hsteps.places hkeys

theorem keys (hsteps : MergeSteps target sources db db' heir) (hkeys : MergeKeys db) :
    MergeKeys db' where
  recordings := ⟨hsteps.recordings ▸ hsteps.keyed.ids, hsteps.recordings ▸ hsteps.keyed.slots⟩
  overrides := hkeys.overrides.merge.congr hsteps.overrides
  links file hfile recordingId hlink := by
    rw [hsteps.files] at hfile
    obtain ⟨old, hold, rfl⟩ := List.mem_map.mp hfile
    obtain ⟨oldId, hold', rfl⟩ := Option.map_eq_some_iff.mp hlink
    obtain ⟨recording, hrecording, rfl⟩ := hkeys.links old hold oldId hold'
    obtain ⟨kept, hkept, hid, -⟩ := hsteps.folds.heirs recording hrecording
    exact ⟨kept, hsteps.mem_recordings.mpr hkept, hid⟩

end MergeSteps

/-! ## One merge and several -/

theorem merged_mergeWorksInto (hkeys : MergeKeys db) :
    Merged target (foldedWorks db target sourceIds) db (db.mergeWorksInto target sourceIds) ∧
      MergeKeys (db.mergeWorksInto target sourceIds) := by
  obtain ⟨heir, hsteps⟩ := @mergeSteps db target sourceIds hkeys
  exact ⟨hsteps.merged hkeys, hsteps.keys hkeys⟩

variable {first second : List String} {db'' : Database}

theorem Gathers.trans {had has will : String → Prop} (hoff : target ∉ second)
    (hfirst : Gathers target first had has) (hsecond : Gathers target second has will) :
    Gathers target (first ++ second) had will := by
  intro workId
  rw [hsecond workId, hfirst workId]
  simp only [List.mem_append, not_or]
  constructor
  · rintro (⟨hnot, ⟨hout, hhad⟩ | ⟨rfl, source, hsource, hhad⟩⟩ | ⟨rfl, source, hsource, hhas⟩)
    · exact .inl ⟨⟨hout, hnot⟩, hhad⟩
    · exact .inr ⟨rfl, source, .inl hsource, hhad⟩
    · rcases (hfirst source).mp hhas with ⟨-, hhad⟩ | ⟨rfl, -⟩
      · exact .inr ⟨rfl, source, .inr hsource, hhad⟩
      · exact absurd hsource hoff
  · rintro (⟨⟨hout, hnot⟩, hhad⟩ | ⟨rfl, source, hsource, hhad⟩)
    · exact .inl ⟨hnot, .inl ⟨hout, hhad⟩⟩
    · by_cases hmem : source ∈ first
      · exact .inl ⟨hoff, .inr ⟨rfl, source, hmem, hhad⟩⟩
      · exact .inr ⟨rfl, source, hsource.resolve_left hmem, (hfirst source).mpr (.inl ⟨hmem, hhad⟩)⟩

theorem onWorks_append {workId : Option String} :
    onWorks (first ++ second) workId = (onWorks first workId || onWorks second workId) := by
  cases workId <;> simp [onWorks]

theorem Merged.trans (hoff : target ∉ second) (hfirst : Merged target first db db')
    (hsecond : Merged target second db' db'') : Merged target (first ++ second) db db'' where
  works workId := by
    rw [hsecond.works, hfirst.works, List.mem_append, not_or, and_assoc]
  versions version := (hfirst.versions version).trans hoff (hsecond.versions version)
  formats formatName := (hfirst.formats formatName).trans hoff (hsecond.formats formatName)
  places := by
    have hmap := congrArg (List.map (retarget target second)) hfirst.places
    simp only [List.map_map, Function.comp_def] at hmap
    rw [hsecond.places, hmap]
    refine List.map_congr_left fun file _ => ?_
    simp only [placeOf, retarget, onWorks_append]
    cases hon : onWorks first file.workId with
    | true => simp [not_onWorks_target hoff]
    | false => simp

/-- Only which works are folded matters. -/
theorem Merged.congr (hsame : ∀ workId, workId ∈ first ↔ workId ∈ second)
    (hfirst : Merged target first db db') : Merged target second db db' where
  works workId := by rw [hfirst.works, hsame]
  versions version workId := by simp only [hfirst.versions version workId, hsame]
  formats formatName workId := by simp only [hfirst.formats formatName workId, hsame]
  places := by
    have hworks : ∀ workId, onWorks first workId = onWorks second workId := by
      intro workId
      rw [Bool.eq_iff_iff, onWorks_iff, onWorks_iff]
      simp only [hsame]
    rw [hfirst.places]
    exact List.map_congr_left fun file _ => by simp only [placeOf, retarget, hworks]

/-- Folding works one at a time folds those of them that there are. -/
theorem merged_foldl (hkeys : MergeKeys db) (rows : RowOrder) (order : List String) :
    let one := order.foldl (fun db source => db.mergeWorksInto target [source]) db
    order.foldlM (fun db source => mergeWorksInto? rows target [source] db) db = some one ∧
      Merged target (foldedWorks db target order) db one := by
  induction order generalizing db with
  | nil =>
      have hnone : foldedWorks db target [] = [] := by simp [foldedWorks]
      rw [hnone]
      exact ⟨rfl, by simp, by simp [Gathers], by simp [Gathers], by simp [retarget, onWorks]⟩
  | cons source rest ih =>
      obtain ⟨hmerged, hkeys'⟩ := @merged_mergeWorksInto db target [source] hkeys
      obtain ⟨hrun, hrest⟩ := ih hkeys'
      refine ⟨?_, (hmerged.trans target_not_mem_foldedWorks hrest).congr fun workId => ?_⟩
      · rw [List.foldlM_cons, mergeWorksInto?_eq hkeys, Option.bind_eq_bind, Option.bind_some]
        exact hrun
      · simp only [List.mem_append, mem_foldedWorks, hmerged.works, List.mem_cons,
          List.not_mem_nil, or_false]
        tauto

/-! ## Nothing is lost -/

/-- Every version, link and override of the works of a group is kept on the target. -/
structure KeepsAll (target : String) (sources : List String) (db db' : Database) : Prop where
  versions : ∀ recording ∈ db.recordings, onWorks (target :: sources) recording.workId →
    ∃ kept ∈ db'.recordings, kept.workId = some target ∧
      kept.versionType = recording.versionType ∧
      (∀ other ∈ db'.recordings, onWorks (target :: sources) other.workId →
        other.versionType = recording.versionType → other = kept) ∧
      (recording.workId = some target → kept = recording)
  links : ∀ fileId file, getById db.files fileId = some file → ∀ recording ∈ db.recordings,
    file.recordingId = some recording.id → onWorks (target :: sources) recording.workId →
    ∃ linked, getById db'.files fileId = some linked ∧ ∃ kept ∈ db'.recordings,
      linked.recordingId = some kept.id ∧ kept.workId = some target ∧
        kept.versionType = recording.versionType
  overrides : ∀ override ∈ db.formatOverrides, override.workId ∈ target :: sources →
    ∃ kept ∈ db'.formatOverrides, kept.workId = target ∧
      kept.formatName = override.formatName ∧
      (∀ other ∈ db'.formatOverrides, other.workId ∈ target :: sources →
        other.formatName = override.formatName → other = kept) ∧
      ((kept ∈ db.formatOverrides) ∨
        ∃ stays, Stays db target sources stays ∧ kept = { stays with workId := target })

namespace MergeSteps

variable {heir : String → String}

/-- What is left of a group is on the target. -/
theorem onTarget (hsteps : MergeSteps target sources db db' heir) {kept : Recording}
    (hkept : kept ∈ db'.recordings) (hgroup : onWorks (target :: sources) kept.workId) :
    kept.workId = some target := by
  obtain ⟨work, hwork, hsame⟩ := onWorks_iff.mp hgroup
  rcases List.mem_cons.mp hwork with rfl | hsource
  · exact hsame
  · have hon : onWorks sources kept.workId := onWorks_iff.mpr ⟨work, hsource, hsame⟩
    rw [hsteps.cleared kept hkept] at hon
    cases hon

theorem keeps_versions (hsteps : MergeSteps target sources db db' heir) (hkeys : MergeKeys db') :
    ∀ recording ∈ db.recordings, onWorks (target :: sources) recording.workId →
      ∃ kept ∈ db'.recordings, kept.workId = some target ∧
        kept.versionType = recording.versionType ∧
        (∀ other ∈ db'.recordings, onWorks (target :: sources) other.workId →
          other.versionType = recording.versionType → other = kept) ∧
        (recording.workId = some target → kept = recording) := by
  intro recording hrecording hgroup
  obtain ⟨kept, hkept, -, htarget, hversion⟩ := hsteps.exists_kept hrecording hgroup
  have honly : ∀ other ∈ db'.recordings, onWorks (target :: sources) other.workId →
      other.versionType = recording.versionType → other = kept := by
    intro other hother hon hsame
    have hwork := hsteps.onTarget hother hon
    exact hkeys.recordings.slots other hother kept hkept (by rw [hwork]; rfl)
      (hwork.trans htarget.symm) (hsame.trans hversion.symm)
  refine ⟨kept, hkept, htarget, hversion, honly, fun hown => ?_⟩
  obtain ⟨same, hsame, -, -, -, hstays⟩ := hsteps.folds.heirs recording hrecording
  have hoff : onWorks sources recording.workId = false := by
    rw [hown]
    exact not_onWorks_target hsteps.target_off
  obtain rfl := hstays hoff
  exact (honly same (hsteps.mem_recordings.mpr hsame) hgroup rfl).symm

theorem keeps_links (hsteps : MergeSteps target sources db db' heir) (fileId : Uuid)
    (file : LibraryFile) (hfile : getById db.files fileId = some file) (recording : Recording)
    (hrecording : recording ∈ db.recordings) (hlink : file.recordingId = some recording.id)
    (hgroup : onWorks (target :: sources) recording.workId) :
    ∃ linked, getById db'.files fileId = some linked ∧ ∃ kept ∈ db'.recordings,
      linked.recordingId = some kept.id ∧ kept.workId = some target ∧
        kept.versionType = recording.versionType := by
  obtain ⟨kept, hkept, hid, htarget, hversion⟩ := hsteps.exists_kept hrecording hgroup
  let linked : LibraryFile := { relink heir file with
    workId := bif onWorks sources file.workId then some target else file.workId }
  have hlinked : linked.recordingId = some kept.id := by
    rw [hid]
    exact congrArg (Option.map heir) hlink
  refine ⟨linked, ?_, kept, hkept, hlinked, htarget, hversion⟩
  rw [getById, hsteps.files, List.find?_map]
  exact congrArg (Option.map _) hfile

theorem keeps_overrides (hsteps : MergeSteps target sources db db' heir) (hkeys : MergeKeys db') :
    ∀ override ∈ db.formatOverrides, override.workId ∈ target :: sources →
      ∃ kept ∈ db'.formatOverrides, kept.workId = target ∧
        kept.formatName = override.formatName ∧
        (∀ other ∈ db'.formatOverrides, other.workId ∈ target :: sources →
          other.formatName = override.formatName → other = kept) ∧
        (kept ∈ db.formatOverrides ∨
          ∃ stays, Stays db target sources stays ∧ kept = { stays with workId := target }) := by
  intro override hoverride hgroup
  have hover : Overrides db' override.formatName target := by
    rw [hsteps.gathers_formats override.formatName target]
    rcases List.mem_cons.mp hgroup with hown | hsource
    · exact .inl ⟨hsteps.target_off, override, hoverride, hown, rfl⟩
    · exact .inr ⟨rfl, override.workId, hsource, override, hoverride, rfl, rfl⟩
  obtain ⟨kept, hkept, hwork, hformat⟩ := hover
  have hmem := hkept
  rw [hsteps.overrides, mem_mergeFormatOverrides] at hmem
  refine ⟨kept, hkept, hwork, hformat, fun other hother hon hsame => ?_, hmem.imp_left And.left⟩
  have htarget : other.workId = target := by
    rcases List.mem_cons.mp hon with hown | hsource
    · exact hown
    · rw [hsteps.overrides, mem_mergeFormatOverrides] at hother
      rcases hother with ⟨-, hoff⟩ | ⟨stays, -, rfl⟩
      · exact absurd hsource hoff
      · rfl
  exact hkeys.overrides.slots other hother kept hkept (htarget.trans hwork.symm)
    (hsame.trans hformat.symm)

end MergeSteps

/-- Two ways of folding works leave the same: each file's work and version, and the target's
versions and overridden formats. -/
structure SameHoldings (target : String) (first second : Database) : Prop where
  files : first.files.map (placeOf first) = second.files.map (placeOf second)
  versions : ∀ version, Holds first version target ↔ Holds second version target
  formats : ∀ formatName, Overrides first formatName target ↔ Overrides second formatName target

/-- A merge goes through and keeps all that the works have, as folding them one at a time
does. -/
theorem merge_keeps_all (hkeys : MergeKeys db) (rows : RowOrder) (target : String)
    (sourceIds : List String) :
    mergeWorksInto? rows target sourceIds db = some (db.mergeWorksInto target sourceIds) ∧
      KeepsAll target (foldedWorks db target sourceIds) db (db.mergeWorksInto target sourceIds) ∧
      ∀ order : List String, (∀ workId, workId ∈ order ↔ workId ∈ sourceIds) →
        ∃ one, order.foldlM (fun db source => mergeWorksInto? rows target [source] db) db =
          some one ∧ SameHoldings target one (db.mergeWorksInto target sourceIds) := by
  obtain ⟨heir, hsteps⟩ := @mergeSteps db target sourceIds hkeys
  have hkeys' := hsteps.keys hkeys
  refine ⟨mergeWorksInto?_eq hkeys rows target sourceIds,
    ⟨hsteps.keeps_versions hkeys', hsteps.keeps_links, hsteps.keeps_overrides hkeys'⟩, ?_⟩
  intro order horder
  -- One source at a time leads to the same merged state as all of them at once.
  obtain ⟨hrun, hone⟩ := @merged_foldl db target hkeys rows order
  have hall := hsteps.merged hkeys
  have hone : Merged target (foldedWorks db target sourceIds) db _ := hone.congr fun workId => by
    simp only [mem_foldedWorks, horder]
  exact ⟨_, hrun, hone.places.trans hall.places.symm,
    fun version => (hone.versions version target).trans (hall.versions version target).symm,
    fun formatName => (hone.formats formatName target).trans (hall.formats formatName target).symm⟩

/-- A song that two works hold one recording of each, and its copy's override. -/
def twoTakes : Database where
  works := [{ id := "kept" }, { id := "copy" }]
  recordings := [
    { id := "first", workId := some "kept" }, { id := "second", workId := some "copy" }]
  files := [{ id := 7, filePath := "/music/song.mp3", format := "mp3", recordingId := some "second",
              workId := some "copy" }]
  formatOverrides := [{ id := 1, workId := "copy", formatName := "Gold", preferredFileId := 7 }]

theorem merge_keeps_all_twoTakes :
    KeepsAll "kept" (foldedWorks twoTakes "kept" ["copy"]) twoTakes
      (twoTakes.mergeWorksInto "kept" ["copy"]) :=
  (merge_keeps_all ⟨⟨by decide, by simp [twoTakes]⟩, ⟨by decide, by simp [twoTakes]⟩,
    by simp [twoTakes]⟩ ⟨id, fun _ => .refl _⟩ "kept" ["copy"]).2.1

end RetroStation.Curation
