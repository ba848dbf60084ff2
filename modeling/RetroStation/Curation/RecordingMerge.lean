import Mathlib.Data.List.MinMax
import Mathlib.Data.String.Basic
import RetroStation.Curation.Merging

/-! # Folding recordings together

The recordings of several works become those of one, which has one of each version. A recording
that goes gives its files to another of its version, its heir.
-/

namespace RetroStation.Curation

open Library
open Database (onWorks)

/-- Each recording has its own id, and a work has one of each version. -/
structure RecordingsKeyed (db : Database) : Prop where
  ids : Table.UniqueBy Recording.id db.recordings
  slots : ∀ first ∈ db.recordings, ∀ second ∈ db.recordings, first.workId.isSome →
    first.workId = second.workId → first.versionType = second.versionType → first = second

def relink (heir : String → String) (file : LibraryFile) : LibraryFile :=
  { file with recordingId := file.recordingId.map heir }

/-- Where the files of a recording go. -/
def heirOf (pairs : List (String × String)) (recordingId : String) : String :=
  (pairs.lookup recordingId).getD recordingId

/-- Each recording of the pairs gives its files to the other of its pair, and goes. -/
def handOverAll (db : Database) (pairs : List (String × String)) : Database :=
  pairs.foldl (fun db pair => db.handOverRecording pair.1 pair.2) db

theorem relink_id : relink id = id := by
  funext file
  simp only [relink, Option.map_id]
  rfl

/-- The recordings go all at once, if none of them is handed anything. -/
theorem handOverAll_eq {pairs : List (String × String)}
    (hdisjoint : ∀ first ∈ pairs, ∀ second ∈ pairs, first.2 ≠ second.1) (db : Database) :
    handOverAll db pairs = { db with
      files := db.files.map (relink (heirOf pairs))
      recordings := Table.delete db.recordings fun recording =>
        recording.id ∈ pairs.map Prod.fst } := by
  induction pairs generalizing db with
  | nil =>
      have hsame : relink (heirOf []) = id := relink_id
      simp [handOverAll, hsame, Table.delete]
  | cons pair rest ih =>
      obtain ⟨source, target⟩ := pair
      have hrest := ih (fun first hfirst second hsecond =>
        hdisjoint first (List.mem_cons_of_mem _ hfirst) second (List.mem_cons_of_mem _ hsecond))
        (db.handOverRecording source target)
      have htarget : rest.lookup target = none := by
        rw [List.lookup_eq_none_iff]
        intro other hother
        exact bne_iff_ne.mpr
          (hdisjoint _ List.mem_cons_self other (List.mem_cons_of_mem _ hother))
      rw [handOverAll, List.foldl_cons]
      refine hrest.trans ?_
      simp only [Database.handOverRecording, Table.update, Table.delete, List.map_map,
        List.filter_filter, List.map_cons, List.mem_cons]
      congr 1
      · refine List.map_congr_left fun file _ => ?_
        cases hlink : file.recordingId with
        | none => simp [relink, hlink]
        | some recordingId =>
            by_cases hsource : recordingId = source
            · simp [relink, heirOf, hlink, hsource, htarget]
            · simp [relink, heirOf, hlink, hsource, List.lookup_cons,
                beq_eq_false_iff_ne.mpr hsource]
      · refine List.filter_congr fun recording _ => ?_
        simp only [Bool.decide_or, Bool.not_or]
        exact Bool.and_comm _ _

/-! ## What a fold of recordings does -/

theorem onWorks_iff {sources : List String} {workId : Option String} :
    onWorks sources workId ↔ ∃ source ∈ sources, workId = some source := by
  cases workId <;> simp [onWorks]

/-- From one state to another: a recording of the sources moves to the target or goes, and its
files go to its heir, of its version and in the group; the other recordings stay. -/
structure Folds (target : String) (sources : List String) (db db' : Database)
    (heir : String → String) : Prop where
  files : db'.files = db.files.map (relink heir)
  heirs : ∀ recording ∈ db.recordings, ∃ kept ∈ db'.recordings, kept.id = heir recording.id ∧
    kept.versionType = recording.versionType ∧
    (onWorks (target :: sources) recording.workId → onWorks (target :: sources) kept.workId) ∧
    (onWorks sources recording.workId = false → kept = recording)
  origins : ∀ kept ∈ db'.recordings, ∃ recording ∈ db.recordings, recording.id = kept.id ∧
    recording.versionType = kept.versionType ∧
    (kept = recording ∨ onWorks sources recording.workId ∧ kept.workId = some target)

variable {target : String} {sources : List String} {db db' db'' : Database}
  {heir heir' : String → String}

theorem relink_relink (file : LibraryFile) :
    relink heir' (relink heir file) = relink (heir' ∘ heir) file := by
  simp [relink]

theorem Folds.trans (htarget : target ∉ sources) (hfirst : Folds target sources db db' heir)
    (hsecond : Folds target sources db' db'' heir') :
    Folds target sources db db'' (heir' ∘ heir) where
  files := by
    rw [hsecond.files, hfirst.files, List.map_map]
    exact List.map_congr_left fun file _ => relink_relink file
  heirs recording hrecording := by
    obtain ⟨kept, hkept, hid, hversion, hgroup, hstays⟩ := hfirst.heirs recording hrecording
    obtain ⟨last, hlast, hid', hversion', hgroup', hstays'⟩ := hsecond.heirs kept hkept
    refine ⟨last, hlast, by rw [hid', hid]; rfl, hversion'.trans hversion,
      fun hon => hgroup' (hgroup hon), fun hoff => ?_⟩
    obtain rfl := hstays hoff
    exact hstays' hoff
  origins last hlast := by
    obtain ⟨kept, hkept, hid, hversion, hmoved⟩ := hsecond.origins last hlast
    obtain ⟨recording, hrecording, hid', hversion', hmoved'⟩ := hfirst.origins kept hkept
    refine ⟨recording, hrecording, hid'.trans hid, hversion'.trans hversion, ?_⟩
    rcases hmoved with rfl | ⟨hon, htarget'⟩
    · exact hmoved'
    · rcases hmoved' with rfl | ⟨hon', hmoved'⟩
      · exact .inr ⟨hon, htarget'⟩
      · rw [hmoved', onWorks_iff] at hon
        obtain ⟨source, hsource, hsame⟩ := hon
        exact absurd (Option.some.inj hsame ▸ hsource) htarget

/-- The recordings of some pairs go to others of their version, in the group. -/
theorem Folds.handOverAll {pairs : List (String × String)} (hids : RecordingsKeyed db)
    (hdisjoint : ∀ first ∈ pairs, ∀ second ∈ pairs, first.2 ≠ second.1)
    (hpairs : ∀ pair ∈ pairs, ∃ source ∈ db.recordings, ∃ kept ∈ db.recordings,
      pair = (source.id, kept.id) ∧ kept.versionType = source.versionType ∧
        onWorks sources source.workId ∧ onWorks (target :: sources) kept.workId) :
    Folds target sources db (Curation.handOverAll db pairs) (heirOf pairs) := by
  rw [handOverAll_eq hdisjoint]
  refine ⟨rfl, fun recording hrecording => ?_, fun kept hkept => ?_⟩
  · cases hlookup : pairs.lookup recording.id with
    | none =>
        have hstays : recording.id ∉ pairs.map Prod.fst := by
          rw [List.lookup_eq_none_iff] at hlookup
          simp only [List.mem_map, not_exists, not_and]
          exact fun pair hpair hsame => bne_iff_ne.mp (hlookup pair hpair) hsame.symm
        refine ⟨recording, ?_, by simp [heirOf, hlookup], rfl, id, fun _ => rfl⟩
        exact Table.mem_delete.mpr ⟨hrecording, by simpa using hstays⟩
    | some heirId =>
        have hpair : (recording.id, heirId) ∈ pairs := by
          obtain ⟨before, after, hsplit, -⟩ := List.lookup_eq_some_iff.mp hlookup
          simp [hsplit]
        obtain ⟨source, hsource, kept, hkept, hsame, hversion, hon, hgroup⟩ := hpairs _ hpair
        obtain ⟨hid, rfl⟩ := Prod.mk.inj hsame
        obtain rfl := hids.ids.eq hrecording hsource hid
        refine ⟨kept, ?_, by simp [heirOf, hlookup], hversion, fun _ => hgroup, fun hoff => ?_⟩
        · refine Table.mem_delete.mpr ⟨hkept, ?_⟩
          simp only [List.mem_map, decide_eq_false_iff_not, not_exists, not_and]
          exact fun other hother hsame => hdisjoint _ hpair other hother hsame.symm
        · rw [hoff] at hon
          cases hon
  · exact ⟨kept, (Table.mem_delete.mp hkept).1, rfl, rfl, .inl rfl⟩

theorem RecordingsKeyed.handOverAll {pairs : List (String × String)} (hkeyed : RecordingsKeyed db)
    (hdisjoint : ∀ first ∈ pairs, ∀ second ∈ pairs, first.2 ≠ second.1) :
    RecordingsKeyed (Curation.handOverAll db pairs) := by
  rw [handOverAll_eq hdisjoint]
  refine ⟨hkeyed.ids.delete, fun first hfirst second hsecond => ?_⟩
  exact hkeyed.slots first (Table.mem_delete.mp hfirst).1 second (Table.mem_delete.mp hsecond).1

/-! ## Clashes with the target -/

/-- No source has a recording of a version that the target has. -/
def Unshared (target : String) (sources : List String) (db : Database) : Prop :=
  ∀ source ∈ db.recordings, onWorks sources source.workId → ∀ kept ∈ db.recordings,
    kept.workId = some target → kept.versionType ≠ source.versionType

theorem mem_recordingClashes {pair : String × String} :
    pair ∈ db.recordingClashes target sources ↔
      ∃ source ∈ db.recordings, onWorks sources source.workId ∧ ∃ kept ∈ db.recordings,
        kept.workId = some target ∧ kept.versionType = source.versionType ∧
          pair = (source.id, kept.id) := by
  simp only [Database.recordingClashes, List.mem_flatMap, List.mem_filter, List.mem_map,
    decide_eq_true_eq, and_assoc, eq_comm (a := pair)]

theorem not_onWorks_target (htarget : target ∉ sources) :
    onWorks sources (some target) = false := by
  simpa [onWorks] using htarget

theorem onWorks_group : onWorks (target :: sources) (some target) := by
  simp [onWorks]

theorem recordingClashes_disjoint (htarget : target ∉ sources) (hkeyed : RecordingsKeyed db) :
    ∀ first ∈ db.recordingClashes target sources, ∀ second ∈ db.recordingClashes target sources,
      first.2 ≠ second.1 := by
  intro first hfirst second hsecond hsame
  obtain ⟨_, -, -, kept, hkept, hon, -, rfl⟩ := mem_recordingClashes.mp hfirst
  obtain ⟨source, hsource, hoff, _, -, -, -, rfl⟩ := mem_recordingClashes.mp hsecond
  obtain rfl := hkeyed.ids.eq hkept hsource hsame
  rw [hon, not_onWorks_target htarget] at hoff
  cases hoff

/-- What the first pass leaves. -/
theorem clashes_fold (htarget : target ∉ sources) (hkeyed : RecordingsKeyed db) :
    let clashed := handOverAll db (db.recordingClashes target sources)
    Folds target sources db clashed (heirOf (db.recordingClashes target sources)) ∧
      RecordingsKeyed clashed ∧ Unshared target sources clashed := by
  have hdisjoint := recordingClashes_disjoint htarget hkeyed
  refine ⟨Folds.handOverAll hkeyed hdisjoint fun pair hpair => ?_, hkeyed.handOverAll hdisjoint,
    ?_⟩
  · obtain ⟨source, hsource, hon, kept, hkept, htarget', hversion, rfl⟩ :=
      mem_recordingClashes.mp hpair
    exact ⟨source, hsource, kept, hkept, rfl, hversion, hon, htarget' ▸ onWorks_group⟩
  · rw [handOverAll_eq hdisjoint]
    intro source hsource hon kept hkept htarget' hversion
    obtain ⟨hsource, hstays⟩ := Table.mem_delete.mp hsource
    have hclash : (source.id, kept.id) ∈ db.recordingClashes target sources :=
      mem_recordingClashes.mpr
        ⟨source, hsource, hon, kept, (Table.mem_delete.mp hkept).1, htarget', hversion, rfl⟩
    exact of_decide_eq_false hstays (List.mem_map_of_mem hclash)

/-! ## One version of the sources -/

/-- The other recordings of a keeper's version, each with the keeper. -/
def dupesOf (db : Database) (sources : List String) (keeper : Recording) :
    List (String × String) :=
  (db.recordings.filter fun recording => onWorks sources recording.workId ∧
    recording.versionType = keeper.versionType ∧ recording.id ≠ keeper.id).map
      fun dupe => (dupe.id, keeper.id)

theorem mem_dupesOf {keeper : Recording} {pair : String × String} :
    pair ∈ dupesOf db sources keeper ↔ ∃ dupe ∈ db.recordings, onWorks sources dupe.workId ∧
      dupe.versionType = keeper.versionType ∧ dupe.id ≠ keeper.id ∧
        pair = (dupe.id, keeper.id) := by
  simp only [dupesOf, List.mem_map, List.mem_filter, decide_eq_true_eq, and_assoc,
    eq_comm (a := pair)]

theorem dupesOf_disjoint (keeper : Recording) :
    ∀ first ∈ dupesOf db sources keeper, ∀ second ∈ dupesOf db sources keeper,
      first.2 ≠ second.1 := by
  intro first hfirst second hsecond
  obtain ⟨_, -, -, -, -, rfl⟩ := mem_dupesOf.mp hfirst
  obtain ⟨_, -, -, -, hother, rfl⟩ := mem_dupesOf.mp hsecond
  exact hother.symm

/-- A recording moves to the target. -/
def moveRecording (db : Database) (target recordingId : String) : Database :=
  { db with
    recordings := Table.update db.recordings (fun recording => recording.id = recordingId)
      fun recording => { recording with workId := some target } }

theorem mem_moveRecording {recordingId : String} {kept : Recording} :
    kept ∈ (moveRecording db target recordingId).recordings ↔
      (∃ moved ∈ db.recordings, moved.id = recordingId ∧
        kept = { moved with workId := some target }) ∨
        kept ∈ db.recordings ∧ kept.id ≠ recordingId := by
  simp only [moveRecording, Table.mem_update, decide_eq_true_eq, decide_eq_false_iff_not,
    eq_comm (b := kept), ne_eq]

theorem Folds.moveRecording {keeper : Recording} (hkeyed : RecordingsKeyed db)
    (hkeeper : keeper ∈ db.recordings) (hon : onWorks sources keeper.workId) :
    Folds target sources db (Curation.moveRecording db target keeper.id) id where
  files := by rw [relink_id, List.map_id]; rfl
  heirs recording hrecording := by
    by_cases hid : recording.id = keeper.id
    · obtain rfl := hkeyed.ids.eq hrecording hkeeper hid
      refine ⟨{ recording with workId := some target },
        mem_moveRecording.mpr (.inl ⟨recording, hrecording, rfl, rfl⟩), rfl, rfl,
        fun _ => onWorks_group, fun hoff => ?_⟩
      rw [hon] at hoff
      cases hoff
    · exact ⟨recording, mem_moveRecording.mpr (.inr ⟨hrecording, hid⟩), rfl, rfl, id, fun _ => rfl⟩
  origins kept hkept := by
    rcases mem_moveRecording.mp hkept with ⟨moved, hmoved, hid, rfl⟩ | ⟨hstored, -⟩
    · obtain rfl := hkeyed.ids.eq hmoved hkeeper hid
      exact ⟨moved, hmoved, rfl, rfl, .inr ⟨hon, rfl⟩⟩
    · exact ⟨kept, hstored, rfl, rfl, .inl rfl⟩

theorem RecordingsKeyed.moveRecording {keeper : Recording} (hkeyed : RecordingsKeyed db)
    (hkeeper : keeper ∈ db.recordings) (hfree : ∀ kept ∈ db.recordings,
      kept.workId = some target → kept.versionType ≠ keeper.versionType) :
    RecordingsKeyed (Curation.moveRecording db target keeper.id) where
  ids := hkeyed.ids.update fun _ => rfl
  slots first hfirst second hsecond hsome hwork hversion := by
    rcases mem_moveRecording.mp hfirst with ⟨moved, hmoved, hid, rfl⟩ | ⟨hfirst, -⟩
    · obtain rfl := hkeyed.ids.eq hmoved hkeeper hid
      rcases mem_moveRecording.mp hsecond with ⟨other, hother, hsame, rfl⟩ | ⟨hstored, -⟩
      · rw [hkeyed.ids.eq hother hmoved hsame]
      · exact absurd hversion.symm (hfree second hstored hwork.symm)
    · rcases mem_moveRecording.mp hsecond with ⟨other, hother, hsame, rfl⟩ | ⟨hstored, -⟩
      · rw [hkeyed.ids.eq hother hkeeper hsame] at hversion
        exact absurd hversion (hfree first hfirst hwork)
      · exact hkeyed.slots first hfirst second hstored hsome hwork hversion

theorem keepRecording_eq (keeper : Recording) :
    db.keepRecording target sources keeper =
      moveRecording (handOverAll db (dupesOf db sources keeper)) target keeper.id := by
  simp only [Database.keepRecording, moveRecording, handOverAll, dupesOf, List.foldl_map]

/-- What is still to be done for some keepers: they are there, one for each version that the
sources have, and the target has none of these versions. -/
structure Pending (target : String) (sources : List String) (keepers : List Recording)
    (db : Database) : Prop where
  keyed : RecordingsKeyed db
  unshared : Unshared target sources db
  stored : ∀ keeper ∈ keepers, keeper ∈ db.recordings ∧ onWorks sources keeper.workId
  listed : ∀ source ∈ db.recordings, onWorks sources source.workId →
    ∃ keeper ∈ keepers, keeper.versionType = source.versionType
  apart : keepers.Pairwise fun first second => first.versionType ≠ second.versionType

/-- Once its version's others are gone, a keeper is the sources' only recording of it. -/
theorem gathered_only {keeper source : Recording} {rest : List Recording}
    (hpending : Pending target sources (keeper :: rest) db)
    (hsource : source ∈ (handOverAll db (dupesOf db sources keeper)).recordings)
    (hon : onWorks sources source.workId) (hversion : source.versionType = keeper.versionType) :
    source = keeper := by
  rw [handOverAll_eq (dupesOf_disjoint keeper)] at hsource
  obtain ⟨hsource, hstays⟩ := Table.mem_delete.mp hsource
  by_cases hid : source.id = keeper.id
  · exact hpending.keyed.ids.eq hsource (hpending.stored keeper List.mem_cons_self).1 hid
  · have hdupe : (source.id, keeper.id) ∈ dupesOf db sources keeper :=
      mem_dupesOf.mpr ⟨source, hsource, hon, hversion, hid, rfl⟩
    exact absurd (List.mem_map_of_mem hdupe) (of_decide_eq_false hstays)

theorem mem_gathered {keeper other : Recording} (hother : other ∈ db.recordings)
    (hstays : other.id = keeper.id ∨ other.versionType ≠ keeper.versionType)
    (hkeyed : RecordingsKeyed db) :
    other ∈ (handOverAll db (dupesOf db sources keeper)).recordings := by
  rw [handOverAll_eq (dupesOf_disjoint keeper)]
  refine Table.mem_delete.mpr ⟨hother, decide_eq_false fun hgone => ?_⟩
  obtain ⟨pair, hpair, hid⟩ := List.mem_map.mp hgone
  obtain ⟨dupe, hdupe, -, hversion, hne, rfl⟩ := mem_dupesOf.mp hpair
  obtain rfl := hkeyed.ids.eq hdupe hother hid
  rcases hstays with hsame | hdiffers
  · exact hne hsame
  · exact hdiffers hversion

theorem mem_of_mem_gathered {keeper other : Recording}
    (hother : other ∈ (handOverAll db (dupesOf db sources keeper)).recordings) :
    other ∈ db.recordings := by
  rw [handOverAll_eq (dupesOf_disjoint keeper)] at hother
  exact (Table.mem_delete.mp hother).1

/-- The target has no recording of a keeper's version when the keeper moves. -/
theorem gathered_free {keeper : Recording} {rest : List Recording}
    (hpending : Pending target sources (keeper :: rest) db) :
    ∀ kept ∈ (handOverAll db (dupesOf db sources keeper)).recordings,
      kept.workId = some target → kept.versionType ≠ keeper.versionType := by
  intro kept hkept htarget
  obtain ⟨hkeeper, hon⟩ := hpending.stored keeper List.mem_cons_self
  exact hpending.unshared keeper hkeeper hon kept (mem_of_mem_gathered hkept) htarget

/-- After a keeper has moved, the sources' recordings are those of the other versions. -/
theorem mem_moved_of_onWorks (htarget : target ∉ sources) {keeper source : Recording}
    {rest : List Recording} (hpending : Pending target sources (keeper :: rest) db)
    (hsource : source ∈ (db.keepRecording target sources keeper).recordings)
    (hon : onWorks sources source.workId) :
    source ∈ db.recordings ∧ source.versionType ≠ keeper.versionType := by
  rw [keepRecording_eq] at hsource
  rcases mem_moveRecording.mp hsource with ⟨moved, -, -, rfl⟩ | ⟨hgathered, hid⟩
  · rw [not_onWorks_target htarget] at hon
    cases hon
  · refine ⟨mem_of_mem_gathered hgathered, fun hversion => hid ?_⟩
    rw [gathered_only hpending hgathered hon hversion]

/-- A keeper takes its version to the target; the other keepers are still to be done. -/
theorem Pending.step (htarget : target ∉ sources) {keeper : Recording} {rest : List Recording}
    (hpending : Pending target sources (keeper :: rest) db) :
    Pending target sources rest (db.keepRecording target sources keeper) := by
  obtain ⟨hkeeper, hon⟩ := hpending.stored keeper List.mem_cons_self
  obtain ⟨hother, hapart⟩ := List.pairwise_cons.mp hpending.apart
  refine {
    keyed := ?_
    unshared := fun source hsource hsourceOn kept hkept hkeptOn => ?_
    stored := fun other hmem => ?_
    listed := fun source hsource hsourceOn => ?_
    apart := hapart }
  · rw [keepRecording_eq]
    exact (hpending.keyed.handOverAll (dupesOf_disjoint keeper)).moveRecording
      (mem_gathered hkeeper (.inl rfl) hpending.keyed) (gathered_free hpending)
  · obtain ⟨hstored, hversion⟩ := mem_moved_of_onWorks htarget hpending hsource hsourceOn
    rw [keepRecording_eq] at hkept
    rcases mem_moveRecording.mp hkept with ⟨moved, hmoved, hid, rfl⟩ | ⟨hkept, -⟩
    · obtain rfl := hpending.keyed.ids.eq (mem_of_mem_gathered hmoved) hkeeper hid
      exact hversion.symm
    · exact hpending.unshared source hstored hsourceOn kept (mem_of_mem_gathered hkept) hkeptOn
  · obtain ⟨hstored, hotherOn⟩ := hpending.stored other (List.mem_cons_of_mem _ hmem)
    have hversion : other.versionType ≠ keeper.versionType := (hother other hmem).symm
    refine ⟨?_, hotherOn⟩
    rw [keepRecording_eq]
    refine mem_moveRecording.mpr (.inr ⟨mem_gathered hstored (.inr hversion) hpending.keyed,
      fun hid => hversion ?_⟩)
    rw [hpending.keyed.ids.eq hstored hkeeper hid]
  · obtain ⟨hstored, hversion⟩ := mem_moved_of_onWorks htarget hpending hsource hsourceOn
    obtain ⟨found, hfound, hsame⟩ := hpending.listed source hstored hsourceOn
    rcases List.mem_cons.mp hfound with rfl | hfound
    · exact absurd hsame.symm hversion
    · exact ⟨found, hfound, hsame⟩

theorem Pending.folds_step (htarget : target ∉ sources) {keeper : Recording}
    {rest : List Recording} (hpending : Pending target sources (keeper :: rest) db) :
    Folds target sources db (db.keepRecording target sources keeper)
      (heirOf (dupesOf db sources keeper)) := by
  obtain ⟨hkeeper, hon⟩ := hpending.stored keeper List.mem_cons_self
  have hdisjoint := @dupesOf_disjoint sources db keeper
  have hgroup : onWorks (target :: sources) keeper.workId := by
    obtain ⟨source, hsource, hwork⟩ := onWorks_iff.mp hon
    exact onWorks_iff.mpr ⟨source, List.mem_cons_of_mem _ hsource, hwork⟩
  have hgathered : Folds target sources db (handOverAll db (dupesOf db sources keeper))
      (heirOf (dupesOf db sources keeper)) := by
    refine Folds.handOverAll hpending.keyed hdisjoint fun pair hpair => ?_
    obtain ⟨dupe, hdupe, hdupeOn, hversion, -, rfl⟩ := mem_dupesOf.mp hpair
    exact ⟨dupe, hdupe, keeper, hkeeper, rfl, hversion.symm, hdupeOn, hgroup⟩
  rw [keepRecording_eq]
  exact hgathered.trans htarget (Folds.moveRecording (hpending.keyed.handOverAll hdisjoint)
    (mem_gathered hkeeper (.inl rfl) hpending.keyed) hon)

/-- The second pass ends with nothing of the sources. -/
theorem Pending.run (htarget : target ∉ sources) {keepers : List Recording}
    (hpending : Pending target sources keepers db) :
    ∃ heir, Folds target sources db
        (keepers.foldl (fun db keeper => db.keepRecording target sources keeper) db) heir ∧
      Pending target sources []
        (keepers.foldl (fun db keeper => db.keepRecording target sources keeper) db) := by
  induction keepers generalizing db with
  | nil =>
      refine ⟨id, ⟨?_, fun recording hrecording => ?_, fun kept hkept => ?_⟩, hpending⟩
      · rw [relink_id, List.map_id]
        rfl
      · exact ⟨recording, hrecording, rfl, rfl, id, fun _ => rfl⟩
      · exact ⟨kept, hkept, rfl, rfl, .inl rfl⟩
  | cons keeper rest ih =>
      obtain ⟨heir, hfolds, hdone⟩ := ih (hpending.step htarget)
      exact ⟨_, (hpending.folds_step htarget).trans htarget hfolds, hdone⟩

/-! ## The merge of recordings -/

theorem exists_keeper {source : Recording} (hsource : source ∈ db.recordings)
    (hon : onWorks sources source.workId) :
    ∃ keeper ∈ db.recordingKeepers sources, keeper.versionType = source.versionType := by
  let own := db.recordings.filter fun recording =>
    onWorks sources recording.workId && recording.versionType = source.versionType
  have hmem : source ∈ own := List.mem_filter.mpr ⟨hsource, by simp [hon]⟩
  cases hfirst : own.argmin Recording.id with
  | none => simp [List.argmin_eq_none.mp hfirst] at hmem
  | some keeper =>
      obtain ⟨hkeeper, hown⟩ := List.mem_filter.mp (List.argmin_mem hfirst)
      simp only [Bool.and_eq_true, decide_eq_true_eq] at hown
      refine ⟨keeper, ?_, hown.2⟩
      refine List.mem_filter.mpr ⟨List.mem_filter.mpr ⟨hkeeper, hown.1⟩, ?_⟩
      simp only [List.all_eq_true, decide_eq_true_eq]
      intro other hother
      obtain ⟨hother, hotherOn⟩ := List.mem_filter.mp hother
      by_cases hversion : other.versionType = keeper.versionType
      · refine .inr (List.le_of_mem_argmin ?_ hfirst)
        exact List.mem_filter.mpr ⟨hother, by simp [hotherOn, hversion, hown.2]⟩
      · exact .inl hversion

theorem Pending.keepers (hkeyed : RecordingsKeyed db) (hunshared : Unshared target sources db) :
    Pending target sources (db.recordingKeepers sources) db where
  keyed := hkeyed
  unshared := hunshared
  stored keeper hkeeper := List.mem_filter.mp (List.mem_filter.mp hkeeper).1
  listed source hsource hon := exists_keeper hsource hon
  apart := by
    have hnodup : db.recordings.Nodup := hkeyed.ids.of_map
    refine ((hnodup.filter _).filter _).pairwise_of_forall_ne fun first hfirst second hsecond hne
      hversion => hne ?_
    obtain ⟨hfirst, hleast⟩ := List.mem_filter.mp hfirst
    obtain ⟨hsecond, hleast'⟩ := List.mem_filter.mp hsecond
    simp only [List.all_eq_true, decide_eq_true_eq] at hleast hleast'
    have hle : first.id ≤ second.id :=
      (hleast second hsecond).resolve_left (not_not.mpr hversion.symm)
    have hge : second.id ≤ first.id :=
      (hleast' first hfirst).resolve_left (not_not.mpr hversion)
    exact hkeyed.ids.eq (List.mem_filter.mp hfirst).1 (List.mem_filter.mp hsecond).1
      (le_antisymm hle hge)

/-- What is left of the recordings of a group: the target's, one of each version. -/
theorem mergeRecordings_spec (htarget : target ∉ sources) (hkeyed : RecordingsKeyed db) :
    ∃ heir, Folds target sources db (db.mergeRecordings target sources) heir ∧
      RecordingsKeyed (db.mergeRecordings target sources) ∧
      ∀ recording ∈ (db.mergeRecordings target sources).recordings,
        onWorks sources recording.workId = false := by
  obtain ⟨hclashes, hkeyed', hunshared⟩ := clashes_fold htarget hkeyed
  obtain ⟨heir, hfolds, hdone⟩ := (Pending.keepers hkeyed' hunshared).run htarget
  refine ⟨_, hclashes.trans htarget hfolds, hdone.keyed, fun recording hrecording => ?_⟩
  refine Bool.eq_false_iff.mpr fun hon => ?_
  obtain ⟨keeper, hnone, -⟩ := hdone.listed recording hrecording hon
  cases hnone

end RetroStation.Curation
