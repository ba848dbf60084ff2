import RetroStation.Cues.Values
import RetroStation.Library.Fingerprints

/-! # Whose audio a stored fingerprint is of

A row is measured when its fingerprint is that of the content its size and modification
time stand for. Every statement keeps the rows measured, whatever is written to the disk
between a read and a write, if only what is stored was read from the file that was looked
at: the backfill looks a second time, the scan does not.
-/

namespace RetroStation.Library

open Transition

variable {Content : Type} {host : Host Content} {state next : Indexing}

/-- The row's fingerprint is of the content its size and modification time stand for. -/
def Measured (host : Host Content) (row : LibraryFile) : Prop :=
  ∀ stat audioHash, row.statMatches stat → row.audioHash = some audioHash →
    computeAudioHash host row.filePath (host.contents stat) = some audioHash

/-- Every row that passes the stat check stores the fingerprint of the file at its path. -/
def FingerprintsHold (host : Host Content) (state : Indexing) : Prop :=
  ∀ row ∈ state.files, row.fileStatus = .present → ∀ stat audioHash,
    state.disk row.filePath = some stat → row.statMatches stat →
    row.audioHash = some audioHash →
    computeAudioHash host row.filePath (host.contents stat) = some audioHash

/-- The row passes the stat check: its size and modification time are those of the file at its
path. -/
structure PassesStat (state : Indexing) (row : LibraryFile) (stat : DiskStat) : Prop where
  stored : row ∈ state.files
  present : row.fileStatus = .present
  there : state.disk row.filePath = some stat
  matches_ : row.statMatches stat

/-- The cues that are served for a row: those stored under its fingerprint. -/
def cuesFor (cues : List Cues.CueAnalysis) (row : LibraryFile) : Option Cues.CueAnalysis :=
  row.audioHash.bind fun audioHash => cues.find? fun cue => cue.audioHash = audioHash

/-- Cues that were stored under the fingerprint of a row whose file was analysed earlier, and are
served for a row now, are of one audio, if both rows passed the stat check. -/
def ServesOwnAudio (host : Host Content) (earlier state : Indexing) : Prop :=
  ∀ cues row stat cue analysed analysedStat, PassesStat state row stat →
    cuesFor cues row = some cue → PassesStat earlier analysed analysedStat →
    analysed.audioHash = some cue.audioHash →
    computeAudioHash host row.filePath (host.contents stat) =
      computeAudioHash host analysed.filePath (host.contents analysedStat)

/-- The fingerprint may be of other audio than the file that was looked at first. -/
def Hashing.spoilt (host : Host Content) (reading : Hashing) : Bool :=
  reading.torn ||
    computeAudioHash host reading.path (host.contents reading.opened) ≠
      computeAudioHash host reading.path (host.contents reading.stat)

/-- A scan's reading is not spoilt, a backfill's not one whose second look finds the file as
it was, and a row follows its file to a name that is fingerprinted the same way. -/
def undisturbed (host : Host Content) (state : Indexing) : IndexAction → Bool
  | .hashes worker _ =>
    match state.jobs worker with
    | .hashing reading _ => !reading.spoilt host
    | _ => true
  | .confirms worker =>
    match state.jobs worker with
    | .measured reading row _ =>
      state.disk row.filePath ≠ some reading.stat || !reading.spoilt host
    | _ => true
  | .adopts worker =>
    match state.jobs worker with
    | .read file =>
      (movedFrom state.files (names host state) (diskAnswer state) file).all
        fun origin => hashKind host origin.filePath = hashKind host file.filePath
    | _ => true
  | _ => true

/-- What is true of every step of an undisturbed run. -/
def Undisturbed (host : Host Content) (state : Indexing) (action : IndexAction) : Prop :=
  undisturbed host state action = true

instance (host : Host Content) (state : Indexing) (action : IndexAction) :
    Decidable (Undisturbed host state action) :=
  inferInstanceAs (Decidable (undisturbed host state action = true))

/-! ## Rows -/

section Rows

variable {row excluded : LibraryFile} {stat : DiskStat}

theorem statMatches_iff : row.statMatches stat = true ↔
    row.fileSize = some stat.size ∧ row.fileMtimeNs = some stat.mtimeNs := by
  simp [LibraryFile.statMatches]

/-- Rows of one stat match the same files. -/
theorem statMatches_of_sameStat (hsame : row.sameStat excluded = true)
    (hmatches : excluded.statMatches stat = true) : row.statMatches stat = true := by
  simp only [LibraryFile.sameStat, decide_eq_true_eq] at hsame
  rw [statMatches_iff] at hmatches ⊢
  exact ⟨hsame.2.1.trans hmatches.1, hsame.2.2.2.trans hmatches.2⟩

/-- Reading a file over its row leaves it measured. -/
theorem Measured.upserted (hrow : Measured host row) (hexcluded : Measured host excluded)
    (hpath : row.filePath = excluded.filePath) : Measured host (upserted excluded row) := by
  intro stat audioHash hmatches hhash
  have hstat : excluded.statMatches stat = true := hmatches
  simp only [Library.upserted] at hhash ⊢
  split at hhash
  · rw [hpath]
    exact hexcluded stat audioHash hstat hhash
  · split at hhash
    next hsame => exact hrow stat audioHash (statMatches_of_sameStat hsame hstat) hhash
    · cases hhash

/-- A row is measured under every name that is fingerprinted the same way. -/
theorem Measured.renamed {path : String} {status : FileStatus} {since : Option Int}
    (hrow : Measured host row) (hkind : hashKind host path = hashKind host row.filePath) :
    Measured host { row with filePath := path, fileStatus := status, missingSince := since } := by
  intro stat audioHash hmatches hhash
  have hhashed := hrow stat audioHash hmatches hhash
  unfold computeAudioHash at hhashed ⊢
  rw [hkind]
  exact hhashed

theorem Measured.withHash {audioHash : String} (hmatches : row.statMatches stat = true)
    (hhashed : computeAudioHash host row.filePath (host.contents stat) = some audioHash) :
    Measured host { row with audioHash := some audioHash } := by
  intro other stored hother hstored
  obtain rfl := Option.some.inj hstored
  have hsame : other = stat := by
    obtain ⟨hsize, hmtime⟩ := statMatches_iff.mp hmatches
    obtain ⟨hsize', hmtime'⟩ := statMatches_iff.mp hother
    obtain ⟨size, mtime⟩ := other
    obtain ⟨size', mtime'⟩ := stat
    simp only [hsize, hmtime, Option.some.injEq] at hsize' hmtime'
    rw [hsize', hmtime']
  rw [hsame]
  exact hhashed

end Rows

/-! ## Workers -/

/-- What a worker holds: rows there were, and what it read of a file. -/
def JobOk (host : Host Content) (versions : List LibraryFile) : Job → Prop
  | .idle | .statted _ _ => True
  | .tagged stat file => file.statMatches stat
  | .hashing reading file => reading.path = file.filePath ∧ file.statMatches reading.stat
  | .read file => Measured host file
  | .restoring existing => ∃ row ∈ versions, existing = { row with fileStatus := .present }
  | .checked row _ => row ∈ versions
  | .measuring reading row => row ∈ versions ∧ reading.path = row.filePath
  | .measured reading row audioHash => row ∈ versions ∧ reading.path = row.filePath ∧
      (reading.spoilt host = false →
        computeAudioHash host reading.path (host.contents reading.stat) = some audioHash)
  | .confirmed row before audioHash => row ∈ versions ∧
      computeAudioHash host row.filePath (host.contents before) = some audioHash

theorem JobOk.mono {versions more : List LibraryFile} (hmore : versions ⊆ more) {job : Job}
    (hjob : JobOk host versions job) : JobOk host more job := by
  cases job with
  | idle | statted | tagged | hashing | read => exact hjob
  | restoring existing =>
      obtain ⟨row, hrow, heq⟩ := hjob
      exact ⟨row, hmore hrow, heq⟩
  | checked row before => exact hmore hjob
  | measuring | measured | confirmed => exact ⟨hmore hjob.1, hjob.2⟩

theorem JobOk.tear {versions : List LibraryFile} (path : String) {job : Job}
    (hjob : JobOk host versions job) : JobOk host versions (job.tear path) := by
  cases job <;> exact hjob

/-- An unspoilt reading gives the fingerprint of the file that was looked at first. -/
theorem Hashing.gives_of_not_spoilt {reading : Hashing} {audioHash : Option String}
    (hgives : reading.gives host audioHash = true) (hspoilt : reading.spoilt host = false) :
    computeAudioHash host reading.path (host.contents reading.stat) = audioHash := by
  simp only [spoilt, Bool.or_eq_false_iff, ne_eq, decide_eq_false_iff_not, not_not] at hspoilt
  simp only [gives, Bool.or_eq_true, decide_eq_true_eq, hspoilt.1, Bool.false_eq_true,
    false_or] at hgives
  exact hspoilt.2.symm.trans hgives.symm

/-! ## The library -/

structure Sound (host : Host Content) (state : Indexing) : Prop where
  files : state.files ⊆ state.versions
  measured : ∀ row ∈ state.versions, Measured host row
  /-- The names of a row are all fingerprinted in one way. -/
  kinds : ∃ kind : Uuid → HashKind, ∀ row ∈ state.versions,
    hashKind host row.filePath = kind row.id
  jobs : ∀ worker, JobOk host state.versions (state.jobs worker)

namespace Sound

variable {worker : Nat} {job : Job} {files : List LibraryFile} {file : LibraryFile}

theorem kind_eq (hsound : Sound host state) {first second : LibraryFile}
    (hfirst : first ∈ state.versions) (hsecond : second ∈ state.versions)
    (hid : first.id = second.id) :
    hashKind host first.filePath = hashKind host second.filePath := by
  obtain ⟨kind, hkind⟩ := hsound.kinds
  rw [hkind first hfirst, hkind second hsecond, hid]

theorem assign (hsound : Sound host state) (hjob : JobOk host state.versions job) :
    Sound host (state.assign worker job) where
  files := hsound.files
  measured := hsound.measured
  kinds := hsound.kinds
  jobs other := by
    by_cases hother : other = worker
    · subst hother
      simpa [Indexing.assign] using hjob
    · simpa [Indexing.assign, hother] using hsound.jobs other

theorem idle (hsound : Sound host state) (worker : Nat) :
    Sound host (state.assign worker .idle) := hsound.assign trivial

theorem write (hsound : Sound host state) (path : String) (stat : Option DiskStat) :
    Sound host (state.write path stat) :=
  ⟨hsound.files, hsound.measured, hsound.kinds, fun worker => (hsound.jobs worker).tear path⟩

/-- A statement that leaves measured rows, each a version of a row there was. -/
theorem store (hsound : Sound host state)
    (hrows : ∀ row ∈ files, Measured host row ∧ ∃ old ∈ state.versions, old.id = row.id ∧
      hashKind host old.filePath = hashKind host row.filePath) :
    Sound host (state.store files) where
  files := List.subset_append_right _ _
  measured row hrow := (List.mem_append.mp hrow).elim (hsound.measured row) fun hnew =>
    (hrows row hnew).1
  kinds := by
    obtain ⟨kind, hkind⟩ := hsound.kinds
    refine ⟨kind, fun row hrow => ?_⟩
    rcases List.mem_append.mp hrow with hold | hnew
    · exact hkind row hold
    · obtain ⟨-, old, hold, hid, hsame⟩ := hrows row hnew
      rw [← hsame, hkind old hold, hid]
  jobs worker := (hsound.jobs worker).mono (List.subset_append_left _ _)

/-- A statement that only drops rows. -/
theorem store_subset (hsound : Sound host state) (hsubset : files ⊆ state.versions) :
    Sound host (state.store files) :=
  hsound.store fun row hrow =>
    ⟨hsound.measured row (hsubset hrow), row, hsubset hrow, rfl, rfl⟩

/-- A row with an id of its own is inserted. -/
theorem insert (hsound : Sound host state) (hfile : Measured host file)
    (hid : file.id ∉ state.versions.map LibraryFile.id) :
    Sound host (state.store (state.files ++ [file])) where
  files := List.subset_append_right _ _
  measured row hrow := by
    simp only [Indexing.store, List.mem_append, List.mem_singleton] at hrow
    rcases hrow with hold | hold | rfl
    · exact hsound.measured row hold
    · exact hsound.measured row (hsound.files hold)
    · exact hfile
  kinds := by
    obtain ⟨kind, hkind⟩ := hsound.kinds
    refine ⟨Function.update kind file.id (hashKind host file.filePath), fun row hrow => ?_⟩
    have hother (hold : row ∈ state.versions) : hashKind host row.filePath =
        Function.update kind file.id (hashKind host file.filePath) row.id := by
      rw [Function.update_of_ne, hkind row hold]
      rintro heq
      exact hid (heq ▸ List.mem_map_of_mem hold)
    simp only [Indexing.store, List.mem_append, List.mem_singleton] at hrow
    rcases hrow with hold | hold | rfl
    · exact hother hold
    · exact hother (hsound.files hold)
    · rw [Function.update_self]
  jobs worker := (hsound.jobs worker).mono (List.subset_append_left _ _)

/-- An update that leaves the rows it changes measured, under names of the same kind. -/
theorem update (hsound : Sound host state) {p : LibraryFile → Bool}
    {change : LibraryFile → LibraryFile}
    (hchange : ∀ row ∈ state.files, p row = true → Measured host (change row) ∧
      (change row).id = row.id ∧
      hashKind host (change row).filePath = hashKind host row.filePath) :
    Sound host (state.store (Table.update state.files p change)) := by
  refine hsound.store (Table.forall_mem_update (fun row hrow => ?_) fun row hrow hp => ?_)
  · exact ⟨hsound.measured row (hsound.files hrow), row, hsound.files hrow, rfl, rfl⟩
  · obtain ⟨hmeasured, hid, hkind⟩ := hchange row hrow hp
    exact ⟨hmeasured, row, hsound.files hrow, hid.symm, hkind.symm⟩

theorem markMissing (hsound : Sound host state) (now : Int) (path : String) :
    Sound host (state.store (markMissing state.files now path)) :=
  hsound.update fun row hrow _ =>
    ⟨(hsound.measured row (hsound.files hrow)).renamed rfl, rfl, rfl⟩

/-- The row of a moved file follows it to a name that is fingerprinted the same way. -/
theorem adoptMovedRow (hsound : Sound host state)
    (hkind : ∀ origin,
      movedFrom state.files (names host state) (diskAnswer state) file = some origin →
      hashKind host origin.filePath = hashKind host file.filePath)
    (hnext : adoptMovedRow host state file = some next) : Sound host next := by
  unfold Library.adoptMovedRow at hnext
  split at hnext
  · obtain rfl := Option.some.inj hnext
    exact hsound
  next origin horigin =>
    split at hnext
    · cases hnext
    · obtain rfl := Option.some.inj hnext
      refine hsound.update fun row hrow hid => ?_
      have hsame : hashKind host file.filePath = hashKind host row.filePath :=
        (hkind origin horigin).symm.trans (hsound.kind_eq (hsound.files (movedFrom_mem horigin))
          (hsound.files hrow) (of_decide_eq_true hid).symm)
      exact ⟨(hsound.measured row (hsound.files hrow)).renamed hsame, rfl, hsame⟩

/-- A file is written over its row, or inserted by the rule for new ids. -/
theorem writeRow {fresh : Bool} (hsound : Sound host state) (hfile : Measured host file)
    (hinsert : fresh = true →
      Sound host (state.store
        (state.files ++ [inserted file])))
    (hnext : writeRow state file fresh = some next) : Sound host next := by
  unfold Library.writeRow at hnext
  split at hnext
  next hallowed =>
    obtain rfl := Option.some.inj hnext
    unfold upsert
    split
    · refine hsound.update fun row hrow hpath => ?_
      exact ⟨(hsound.measured row (hsound.files hrow)).upserted hfile (of_decide_eq_true hpath),
        rfl, rfl⟩
    next hnew => exact hinsert (hallowed.resolve_left hnew)
  · cases hnext

theorem setAudioHash (hsound : Sound host state) {row : LibraryFile} {before : DiskStat}
    {audioHash : String} (hrow : row ∈ state.versions)
    (hhashed : computeAudioHash host row.filePath (host.contents before) = some audioHash) :
    Sound host (state.store (setAudioHash state.files row.id audioHash before)) := by
  refine hsound.update fun stored hstored hmatched => ?_
  simp only [decide_eq_true_eq] at hmatched
  obtain ⟨hid, -, hmatches⟩ := hmatched
  have hkind := hsound.kind_eq (hsound.files hstored) hrow hid
  refine ⟨Measured.withHash hmatches ?_, rfl, rfl⟩
  unfold computeAudioHash at hhashed ⊢
  rw [hkind]
  exact hhashed

end Sound

/-! ## One step -/

theorem readTags_sound {worker : Nat} {id : Uuid} {path : String} {stat now : DiskStat}
    (hsound : Sound host state) : Sound host (readTags host state worker id path stat now) := by
  have hstat (file : LibraryFile) : (withDiskStat id path stat file).statMatches stat := by
    simp [withDiskStat, LibraryFile.statMatches]
  unfold readTags
  split
  · exact hsound.idle worker
  next file hfile =>
    dsimp only
    split
    · exact hsound.assign (hstat file)
    · exact hsound.assign fun _ _ _ hnone => by cases hnone

theorem upserts_sound {worker : Nat} {output : Unit} (hsound : Sound host state)
    (hstep : indexStep host state (.upserts worker) = some (next, output)) : Sound host next := by
  have hjob := hsound.jobs worker
  simp only [indexStep] at hstep
  split at hstep
  next file hread =>
    rw [hread] at hjob
    obtain ⟨written, hwritten, heq⟩ := Option.map_eq_some_iff.mp hstep
    obtain ⟨rfl, -⟩ := Prod.mk.inj heq
    refine Sound.idle (hsound.writeRow hjob (fun hfresh => ?_) hwritten) worker
    exact hsound.insert (hjob.renamed rfl) (of_decide_eq_true hfresh)
  next existing hrestoring =>
    rw [hrestoring] at hjob
    obtain ⟨row, hrow, rfl⟩ := hjob
    have hmeasured : Measured host { row with fileStatus := .present } :=
      (hsound.measured row hrow).renamed rfl
    obtain ⟨written, hwritten, heq⟩ := Option.map_eq_some_iff.mp hstep
    obtain ⟨rfl, -⟩ := Prod.mk.inj heq
    refine Sound.idle (hsound.writeRow hmeasured (fun _ => hsound.store ?_) hwritten) worker
    intro other hother
    rcases List.mem_append.mp hother with hold | hnew
    · exact ⟨hsound.measured other (hsound.files hold), other, hsound.files hold, rfl, rfl⟩
    · obtain rfl := List.mem_singleton.mp hnew
      exact ⟨(hsound.measured row hrow).renamed rfl, row, hrow, rfl, rfl⟩
  · cases hstep

theorem hashes_sound {worker : Nat} {audioHash : Option String} {output : Unit}
    (hsound : Sound host state) (hmet : Undisturbed host state (.hashes worker audioHash))
    (hstep : indexStep host state (.hashes worker audioHash) = some (next, output)) :
    Sound host next := by
  have hjob := hsound.jobs worker
  simp only [indexStep] at hstep
  split at hstep
  next reading file hhashing =>
    rw [hhashing] at hjob
    obtain ⟨hpath, hstat⟩ := hjob
    split at hstep
    next hgives =>
      obtain ⟨rfl, -⟩ := Prod.mk.inj (Option.some.inj hstep)
      rw [Undisturbed, undisturbed, hhashing] at hmet
      have hhashed := reading.gives_of_not_spoilt hgives (by simpa using hmet)
      refine hsound.assign fun stat stored hmatches hstored => ?_
      rw [hpath, show audioHash = some stored from hstored] at hhashed
      exact @Measured.withHash _ host file reading.stat stored hstat hhashed stat
        stored hmatches rfl
    · cases hstep
  next reading row hmeasuring =>
    rw [hmeasuring] at hjob
    obtain ⟨hrow, hpath⟩ := hjob
    split at hstep
    next hgives =>
      split at hstep
      · obtain ⟨rfl, -⟩ := Prod.mk.inj (Option.some.inj hstep)
        exact hsound.assign ⟨hrow, hpath, reading.gives_of_not_spoilt hgives⟩
      · obtain ⟨rfl, -⟩ := Prod.mk.inj (Option.some.inj hstep)
        exact hsound.idle worker
    · cases hstep
  · cases hstep

theorem step_sound {action : IndexAction} {output : Unit} (hsound : Sound host state)
    (hmet : Undisturbed host state action)
    (hstep : (indexMachine host).step state action = some (next, output)) : Sound host next := by
  change indexStep host state action = some (next, output) at hstep
  -- Only the steps that store a row or a hash need the condition: the others move a worker on.
  cases action with
  | upserts worker => exact upserts_sound hsound hstep
  | hashes worker audioHash => exact hashes_sound hsound hmet hstep
  | writes path file =>
      obtain ⟨rfl, -⟩ := Prod.mk.inj (Option.some.inj hstep)
      exact hsound.write path file
  | moves source target =>
      simp only [indexStep] at hstep
      split at hstep
      · cases hstep
      · obtain ⟨rfl, -⟩ := Prod.mk.inj (Option.some.inj hstep)
        exact (hsound.write _ _).write _ _
  | stats worker path =>
      simp only [indexStep] at hstep
      split at hstep
      · obtain ⟨rfl, -⟩ := Prod.mk.inj (Option.some.inj hstep)
        exact hsound.assign trivial
      · cases hstep
  | readsTags worker id =>
      simp only [indexStep] at hstep
      split at hstep
      · obtain ⟨now, -, heq⟩ := Option.map_eq_some_iff.mp hstep
        obtain ⟨rfl, -⟩ := Prod.mk.inj heq
        exact readTags_sound hsound
      · cases hstep
  | opens worker =>
      have hjob := hsound.jobs worker
      simp only [indexStep] at hstep
      split at hstep
      next stat file htagged =>
        rw [htagged] at hjob
        obtain ⟨now, -, heq⟩ := Option.map_eq_some_iff.mp hstep
        obtain ⟨rfl, -⟩ := Prod.mk.inj heq
        exact hsound.assign ⟨rfl, hjob⟩
      next row before hchecked =>
        rw [hchecked] at hjob
        obtain ⟨now, -, heq⟩ := Option.map_eq_some_iff.mp hstep
        obtain ⟨rfl, -⟩ := Prod.mk.inj heq
        exact hsound.assign ⟨hjob, rfl⟩
      · cases hstep
  | adopts worker =>
      simp only [indexStep] at hstep
      split at hstep
      next file hread =>
        obtain ⟨adopted, hadopted, heq⟩ := Option.map_eq_some_iff.mp hstep
        obtain ⟨rfl, -⟩ := Prod.mk.inj heq
        rw [Undisturbed, undisturbed, hread] at hmet
        dsimp only at hmet
        refine hsound.adoptMovedRow (fun origin horigin => ?_) hadopted
        rw [horigin] at hmet
        exact of_decide_eq_true hmet
      · cases hstep
  | restores worker row =>
      simp only [indexStep] at hstep
      split at hstep
      · split at hstep
        next hrestores =>
          obtain ⟨rfl, -⟩ := Prod.mk.inj (Option.some.inj hstep)
          exact hsound.assign ⟨row, hrestores.1, rfl⟩
        · cases hstep
      · cases hstep
  | checks worker row =>
      simp only [indexStep] at hstep
      split at hstep
      · split at hstep
        next hchecks =>
          obtain ⟨rfl, -⟩ := Prod.mk.inj (Option.some.inj hstep)
          exact hsound.assign hchecks.1
        · cases hstep
      · cases hstep
  -- Equal stats before and after the reading mean the hash is of this file, unless it was spoilt.
  | confirms worker =>
      have hjob := hsound.jobs worker
      simp only [indexStep] at hstep
      split at hstep
      next reading row audioHash hmeasured =>
        rw [hmeasured] at hjob
        obtain ⟨hrow, hpath, hhashed⟩ := hjob
        split at hstep
        next hsame =>
          obtain ⟨rfl, -⟩ := Prod.mk.inj (Option.some.inj hstep)
          rw [Undisturbed, undisturbed, hmeasured] at hmet
          have hspoilt : reading.spoilt host = false := by simpa [hsame] using hmet
          exact hsound.assign ⟨hrow, hpath ▸ hhashed hspoilt⟩
        · obtain ⟨rfl, -⟩ := Prod.mk.inj (Option.some.inj hstep)
          exact hsound.idle worker
      · cases hstep
  | setsAudioHash worker =>
      have hjob := hsound.jobs worker
      simp only [indexStep] at hstep
      split at hstep
      next row before audioHash hconfirmed =>
        rw [hconfirmed] at hjob
        obtain ⟨rfl, -⟩ := Prod.mk.inj (Option.some.inj hstep)
        exact Sound.idle (hsound.setAudioHash hjob.1 hjob.2) worker
      · cases hstep
  | abandons worker =>
      obtain ⟨rfl, -⟩ := Prod.mk.inj (Option.some.inj hstep)
      exact hsound.idle worker
  | marksMissing now path =>
      obtain ⟨rfl, -⟩ := Prod.mk.inj (Option.some.inj hstep)
      exact hsound.markMissing now path
  | deletes id =>
      obtain ⟨rfl, -⟩ := Prod.mk.inj (Option.some.inj hstep)
      exact hsound.store_subset fun row hrow => hsound.files (Table.delete_subset hrow)
  -- The row comes back as it was, and it was already sound.
  | rollsBack row =>
      simp only [indexStep] at hstep
      split at hstep
      next hrow =>
        obtain ⟨rfl, -⟩ := Prod.mk.inj (Option.some.inj hstep)
        refine hsound.store_subset fun other hother => ?_
        rcases List.mem_append.mp hother with hold | hback
        · exact hsound.files (Table.delete_subset hold)
        · obtain rfl := List.mem_singleton.mp hback
          exact hrow
      · cases hstep

/-! ## Whole runs -/

theorem start_sound (disk : String → Option DiskStat) : Sound host { disk } where
  files := List.Subset.refl _
  measured _ hrow := absurd hrow List.not_mem_nil
  kinds := ⟨fun _ => .other, fun _ hrow => absurd hrow List.not_mem_nil⟩
  jobs _ := trivial

theorem Sound.fingerprintsHold (hsound : Sound host state) : FingerprintsHold host state :=
  fun row hrow _ stat audioHash _ hmatches hhash =>
    hsound.measured row (hsound.files hrow) stat audioHash hmatches hhash

theorem run_sound {disk : String → Option DiskStat} {trace : List (IndexAction × Unit)}
    (hrun : (indexMachine host).Run { disk } trace state)
    (hmeets : (indexMachine host).Meets (Undisturbed host) { disk } trace) : Sound host state :=
  hmeets.invariant (fun _ _ _ _ hsound hmet hstep => step_sound hsound hmet hstep)
    (start_sound disk) hrun

theorem FingerprintsHold.servesOwnAudio {earlier : Indexing}
    (hearlier : FingerprintsHold host earlier)
    (hnow : FingerprintsHold host state) : ServesOwnAudio host earlier state := by
  intro cues row stat cue analysed analysedStat hrow hserved hanalysed hhash
  obtain ⟨audioHash, hstored, hfound⟩ := Option.bind_eq_some_iff.mp hserved
  have hkey : cue.audioHash = audioHash := by simpa using List.find?_some hfound
  rw [hnow row hrow.stored hrow.present stat audioHash hrow.there hrow.matches_ hstored,
    hearlier analysed hanalysed.stored hanalysed.present analysedStat cue.audioHash hanalysed.there
      hanalysed.matches_ hhash, hkey]

/-- However writes, scans, moves, restores and backfills interleave, a row that passes the
stat check stores the fingerprint of its file, if no reading that counts was spoilt; so the
cues it is served are of its audio, whenever they were stored. -/
theorem fingerprints_hold {disk : String → Option DiskStat} {trace : List (IndexAction × Unit)}
    (hrun : (indexMachine host).Run { disk } trace state)
    (hmeets : (indexMachine host).Meets (Undisturbed host) { disk } trace) :
    FingerprintsHold host state ∧
      ∀ before after earlier, trace = before ++ after →
        (indexMachine host).Run { disk } before earlier → ServesOwnAudio host earlier state := by
  have hnow := (run_sound hrun hmeets).fingerprintsHold
  refine ⟨hnow, ?_⟩
  rintro before after earlier rfl hbefore
  exact (run_sound hbefore hmeets.left).fingerprintsHold.servesOwnAudio hnow

/-- Every file is a FLAC that stores the MD5 of its audio, here its size. -/
def flacHost : Host Int where
  contents := DiskStat.size
  suffix := fun _ => ".flac"
  extract := fun path _ => some { id := 0, filePath := path }
  storesMd5 := fun _ => true
  flacHash := fun content => some (if content = 1 then "a" else "b")
  mp3Hash := fun _ => none
  lower := id
  fileName := id
  isSameFile := fun _ _ _ => false

def song : DiskStat := ⟨1, 1⟩

def otherSong : DiskStat := ⟨2, 2⟩

def oneSong (path : String) : Option DiskStat := if path = "a.flac" then some song else none

def scanned : List IndexAction :=
  [.stats 0 "a.flac", .readsTags 0 7, .opens 0, .hashes 0 (some "a"), .adopts 0, .upserts 0]

/-- The file is scanned again after it is rewritten, and once more after that is undone. -/
def rewrittenAndBack : List IndexAction :=
  [.writes "a.flac" (some otherSong), .stats 0 "a.flac", .readsTags 0 8, .opens 0,
    .hashes 0 (some "b"), .upserts 0, .writes "a.flac" (some song), .stats 0 "a.flac",
    .readsTags 0 9, .opens 0, .hashes 0 (some "a"), .upserts 0]

def paired : LibraryFile :=
  { id := 7, filePath := "a.flac", fileSize := some 1, fileMtimeNs := some 1,
    audioHash := some "a" }

theorem fingerprints_hold_rewritten :
    ∃ before after earlier state, (indexMachine flacHost).Run { disk := oneSong } before earlier ∧
      (indexMachine flacHost).Run { disk := oneSong } (before ++ after) state ∧
      PassesStat earlier paired song ∧ PassesStat state paired song ∧
      FingerprintsHold flacHost state ∧ ServesOwnAudio flacHost earlier state := by
  have hended : ((((indexMachine flacHost).guarded (Undisturbed flacHost)).exec
      { disk := oneSong } scanned).bind fun first =>
        (((indexMachine flacHost).guarded (Undisturbed flacHost)).exec first.2 rewrittenAndBack).map
          fun last => (first.2.files, first.2.disk "a.flac", last.2.files, last.2.disk "a.flac")) =
      some ([paired], some song, [paired], some song) := by decide +kernel
  obtain ⟨⟨before, earlier⟩, hfirst, hrest⟩ := Option.bind_eq_some_iff.mp hended
  obtain ⟨⟨after, state⟩, hlast, heq⟩ := Option.map_eq_some_iff.mp hrest
  obtain ⟨hearlier, hthen, hfiles, hdisk⟩ := by simpa only [Prod.mk.injEq] using heq
  have hpasses {indexing : Indexing} (hrows : indexing.files = [paired])
      (hthere : indexing.disk "a.flac" = some song) : PassesStat indexing paired song :=
    ⟨hrows ▸ List.mem_singleton_self _, rfl, hthere, rfl⟩
  have hbefore := Machine.run_of_exec hfirst
  obtain ⟨hrun, hmeets⟩ := (hbefore.trans (Machine.run_of_exec hlast)).of_guarded
  have hholds := fingerprints_hold hrun hmeets
  exact ⟨before, after, earlier, state, hbefore.of_guarded.1, hrun, hpasses hearlier hthen,
    hpasses hfiles hdisk, hholds.1, hholds.2 before after earlier rfl hbefore.of_guarded.1⟩

/-- The file is rewritten between its stat and the reading of its fingerprint, and the
write is undone later. -/
def undone : List IndexAction :=
  [.stats 0 "a.flac", .writes "a.flac" (some otherSong), .readsTags 0 7, .opens 0,
    .hashes 0 (some "b"), .adopts 0, .upserts 0, .writes "a.flac" (some song)]

def mispaired : LibraryFile :=
  { id := 7, filePath := "a.flac", fileSize := some 1, fileMtimeNs := some 1,
    audioHash := some "b" }

/-- The row passes the stat check with the fingerprint of the audio that was undone. -/
theorem undoneWrite_keepsFingerprint :
    ¬∀ (disk : String → Option DiskStat) (trace : List (IndexAction × Unit)) (state : Indexing),
      (indexMachine flacHost).Run { disk } trace state → FingerprintsHold flacHost state := by
  intro hall
  have hended : ((indexMachine flacHost).exec { disk := oneSong } undone).map
      (fun ended => (ended.2.files, ended.2.disk "a.flac")) = some ([mispaired], some song) := by
    decide +kernel
  obtain ⟨⟨trace, state⟩, hexec, heq⟩ := Option.map_eq_some_iff.mp hended
  obtain ⟨hfiles, hdisk⟩ := Prod.mk.inj heq
  have hrow : mispaired ∈ state.files := hfiles ▸ List.mem_singleton_self _
  have hholds := hall oneSong trace state (Machine.run_of_exec hexec) mispaired hrow rfl song "b"
    hdisk rfl rfl
  exact absurd hholds (by decide)

end RetroStation.Library
