import Mathlib.Data.List.Perm.Basic
import RetroStation.Transition.Pool

/-! # The store of station liners

An upload is staged, probed and moved to a file named by its liner, and only then is the
liner's row added; a delete removes the row first. Both end with a sweep of the station's
folder, which goes by the age of a file and one reading of the rows. Whatever the order of
their steps, a stored row's file exists, and what is deleted belongs to no row
(`stored_atomically`); a sweep that raises is all that makes a stored liner's upload fail.
-/

namespace RetroStation.Streaming.LinerStore

open Transition

inductive ClipFormat
  | flac
  | mp3
  | wav
  deriving DecidableEq

/-- A file of a station's folder: `<liner_id>.<format>`, or the bytes an upload staged. -/
inductive Entry
  | liner (stationId linerId : Nat) (format : ClipFormat)
  | staged (stationId upload : Nat)
  deriving DecidableEq

namespace Entry

def stationId : Entry → Nat
  | .liner stationId _ _ => stationId
  | .staged stationId _ => stationId

/-- The request that made the file. -/
def owner : Entry → Nat
  | .liner _ linerId _ => linerId
  | .staged _ upload => upload

def isLiner : Entry → Bool
  | .liner _ _ _ => true
  | .staged _ _ => false

end Entry

structure Row where
  linerId : Nat
  stationId : Nat
  format : ClipFormat
  audioHash : String

def Row.file (row : Row) : Entry := .liner row.stationId row.linerId row.format

/-- What a request uploads: its format and its hash are its content's. -/
structure Upload where
  stationId : Nat
  format : ClipFormat
  audioHash : String

/-- The row of an upload. A request names its liner by its own number, which no other has. -/
def Upload.row (upload : Upload) (id : Nat) : Row :=
  ⟨id, upload.stationId, upload.format, upload.audioHash⟩

/-- Whether a request has its file in a folder and may still commit its row. -/
inductive Progress
  | absent
  | uploading
  | ended
  deriving DecidableEq

/-- The folders, the committed rows, the rows inserted but not committed, how far each
upload is, and the files whose deletion was refused. -/
structure Storage where
  files : List Entry
  rows : List Row
  inserted : List Row
  progress : Nat → Progress
  refused : List Entry

namespace Storage

def put (store : Storage) (entry : Entry) : Storage :=
  { store with files := if entry ∈ store.files then store.files else entry :: store.files }

def discard (store : Storage) (entry : Entry) : Storage :=
  { store with files := store.files.filter (· ≠ entry) }

/-- A deletion that fails is logged, and the file left behind. -/
def refuse (store : Storage) (entry : Entry) : Storage :=
  { store with refused := entry :: store.refused }

def setProgress (store : Storage) (id : Nat) (progress : Progress) : Storage :=
  { store with progress := Function.update store.progress id progress }

/-- The end of the transaction that inserted the rows of `id`, without a commit. -/
def rollback (store : Storage) (id : Nat) : Storage :=
  { store with inserted := store.inserted.filter (·.linerId ≠ id) }

end Storage

/-- What a step meets: it succeeds, it fails, it is done and its answer is an error, or it
fails in a way the sweep does not expect. A listing answers with the station's entries, in
the order the folder gives them. -/
inductive Choice
  | succeeds
  | fails
  | late
  | raises
  | listed (entries : List Entry)

inductive Request
  | add (upload : Upload)
  | delete (stationId linerId : Nat)
  | sweep (stationId : Nat)

/-- Where a request is. `added` says, from its sweep on, that it has committed a row. -/
inductive Phase
  | requiring (upload : Upload)
  | staging (upload : Upload)
  | probing (upload : Upload)
  | moving (upload : Upload)
  | tidying (upload : Upload) (installed : Bool)
  | hashing (upload : Upload)
  | finding (upload : Upload)
  | inserting (upload : Upload)
  | committing (upload : Upload)
  | discarding (upload : Upload) (duplicate : Bool)
  | owning (stationId linerId : Nat)
  | deleting (row : Row)
  | clearing (row : Row)
  | unlinking (row : Row)
  | listing (stationId : Nat) (added : Bool)
  | aging (stationId : Nat) (added : Bool) (entries old : List Entry)
  | reading (stationId : Nat) (added : Bool) (old : List Entry)
  | removing (added : Bool) (entries : List Entry)
  | finished (added success : Bool)

def stalePartials (old : List Entry) : List Entry := old.filter (!·.isLiner)

/-- `_orphans`: the old liner files that no row of the station names. -/
def orphans (store : Storage) (stationId : Nat) (old : List Entry) : List Entry :=
  old.filter fun entry =>
    entry.isLiner && !(store.rows.any fun row => row.stationId == stationId && row.file == entry)

/-- The row the table's key would refuse, or wait for, beside this one. -/
def taken (store : Storage) (upload : Upload) : Bool :=
  (store.rows ++ store.inserted).any fun row =>
    row.stationId == upload.stationId && row.audioHash == upload.audioHash

/-- The steps of `add_liner`, as far as its sweep. -/
def addTurn (id : Nat) (store : Storage) : Phase → Choice → Option (Storage × Phase)
  | .requiring upload, .succeeds => some (store, .staging upload)
  | .requiring _, .fails => some (store, .finished false false)
  | .staging upload, .succeeds => some (store.put (.staged upload.stationId id), .probing upload)
  | .staging upload, .late => some (store.put (.staged upload.stationId id), .tidying upload false)
  | .staging upload, .fails => some (store, .tidying upload false)
  | .probing upload, .succeeds => some (store, .moving upload)
  | .probing upload, .fails => some (store, .tidying upload false)
  | .moving upload, .succeeds =>
    if .staged upload.stationId id ∈ store.files then
      some (((store.discard (.staged upload.stationId id)).put (upload.row id).file).setProgress id
        .uploading, .tidying upload true)
    else none
  | .moving upload, .fails => some (store, .tidying upload false)
  | .tidying upload true, .succeeds =>
    some (store.discard (.staged upload.stationId id), .hashing upload)
  | .tidying upload true, .fails =>
    some (store.refuse (.staged upload.stationId id), .hashing upload)
  | .tidying upload false, .succeeds =>
    some (store.discard (.staged upload.stationId id), .finished false false)
  | .tidying upload false, .fails =>
    some (store.refuse (.staged upload.stationId id), .finished false false)
  | .hashing upload, .succeeds => some (store, .finding upload)
  | .hashing upload, .fails => some (store.setProgress id .ended, .discarding upload false)
  | .finding upload, .succeeds =>
    if store.rows.any fun row =>
        row.stationId == upload.stationId && row.audioHash == upload.audioHash then
      some (store.setProgress id .ended, .discarding upload true)
    else some (store, .inserting upload)
  | .finding upload, .fails => some (store.setProgress id .ended, .discarding upload false)
  | .inserting upload, .succeeds =>
    if taken store upload then none
    else some ({ store with inserted := upload.row id :: store.inserted }, .committing upload)
  | .inserting upload, .fails => some (store.setProgress id .ended, .discarding upload false)
  | .committing upload, .succeeds =>
    some (({ store.rollback id with rows := upload.row id :: store.rows }).setProgress id .ended,
      .listing upload.stationId true)
  | .committing upload, .fails =>
    some ((store.rollback id).setProgress id .ended, .discarding upload false)
  | .discarding upload true, .succeeds =>
    some (store.discard (upload.row id).file, .listing upload.stationId false)
  | .discarding upload true, .fails =>
    some (store.refuse (upload.row id).file, .listing upload.stationId false)
  | .discarding upload false, .succeeds =>
    some (store.discard (upload.row id).file, .finished false false)
  | .discarding upload false, .fails =>
    some (store.refuse (upload.row id).file, .finished false false)
  | _, _ => none

/-- The steps of `delete_liner`, as far as its sweep. -/
def deleteTurn (store : Storage) : Phase → Choice → Option (Storage × Phase)
  | .owning stationId linerId, .succeeds =>
    match store.rows.find? fun row => row.linerId == linerId && row.stationId == stationId with
    | none => some (store, .finished false false)
    | some row => some (store, .deleting row)
  | .owning _ _, .fails => some (store, .finished false false)
  | .deleting row, .succeeds => some (store, .clearing row)
  | .deleting _, .fails => some (store, .finished false false)
  | .clearing row, .succeeds =>
    some ({ store with rows := store.rows.filter (·.linerId ≠ row.linerId) }, .unlinking row)
  | .clearing _, .fails => some (store, .finished false false)
  | .unlinking row, .succeeds => some (store.discard row.file, .listing row.stationId false)
  | .unlinking row, .fails => some (store.refuse row.file, .listing row.stationId false)
  | _, _ => none

/-- The file is older than `PARTIAL_MAX_AGE`, which an upload's is not before its row is
committed. -/
def mayBeOld (store : Storage) : Entry → Bool
  | .liner _ linerId _ => store.progress linerId ≠ .uploading
  | .staged _ _ => true

/-- The steps of `sweep_station_liners`. -/
def sweepTurn (store : Storage) : Phase → Choice → Option (Storage × Phase)
  -- a folder that is missing or cannot be listed has no entries
  | .listing stationId added, .fails => some (store, .aging stationId added [] [])
  | .listing _ added, .raises => some (store, .finished added false)
  | .listing stationId added, .listed entries =>
    if entries.Perm (store.files.filter (·.stationId = stationId)) then
      some (store, .aging stationId added entries [])
    else none
  | .aging stationId added [] old, .succeeds => some (store, .reading stationId added old)
  | .aging stationId added (entry :: rest) old, .succeeds =>
    if mayBeOld store entry then some (store, .aging stationId added rest (old ++ [entry]))
    else none
  | .aging stationId added (_ :: rest) old, .fails => some (store, .aging stationId added rest old)
  -- the rows are read only when there is an old liner file
  | .reading stationId added old, .succeeds =>
    some (store, .removing added (stalePartials old ++ orphans store stationId old))
  | .reading _ added old, .fails =>
    if old.any Entry.isLiner then some (store, .removing added (stalePartials old)) else none
  | .reading _ added old, .raises =>
    if old.any Entry.isLiner then some (store, .finished added false) else none
  | .removing added [], .succeeds => some (store, .finished added true)
  | .removing added (entry :: rest), .succeeds => some (store.discard entry, .removing added rest)
  | .removing added (entry :: rest), .fails => some (store.refuse entry, .removing added rest)
  | _, _ => none

def turn (id : Nat) (store : Storage) (here : Phase) (choice : Choice) :
    Option (Storage × Phase) :=
  (addTurn id store here choice).or
    ((deleteTurn store here choice).or (sweepTurn store here choice))

def linerStore : Party Storage Phase Request Choice where
  enter
    | .add upload => .requiring upload
    | .delete stationId linerId => .owning stationId linerId
    | .sweep stationId => .listing stationId false
  turn := turn

/-! ## What holds at every step -/

/-- Every row's file is there; a row's upload has ended, a file's has begun. -/
structure Law (store : Storage) : Prop where
  stored : ∀ row ∈ store.rows, row.file ∈ store.files
  rows : ∀ row ∈ store.rows, store.progress row.linerId = .ended
  files : ∀ entry ∈ store.files, entry.isLiner → store.progress entry.owner ≠ .absent

/-- No row names the file, and none ever will. -/
def Free (store : Storage) (entry : Entry) : Prop :=
  (entry.isLiner → store.progress entry.owner = .ended) ∧ ∀ row ∈ store.rows, row.file ≠ entry

def Rowless (store : Storage) (id : Nat) : Prop := ∀ row ∈ store.rows, row.linerId ≠ id

/-- What the request made is deleted, unless that was refused, or is one of these files. -/
def Made (store : Storage) (id : Nat) (entries : List Entry) : Prop :=
  ∀ entry ∈ store.files, entry.owner = id → entry ∈ entries ∨ entry ∈ store.refused

/-- The request has its file, and its row still to come. -/
structure Uploading (store : Storage) (id : Nat) (upload : Upload) : Prop where
  progress : store.progress id = .uploading
  file : (upload.row id).file ∈ store.files

/-- The request's upload is over: unless it added a row, it has left nothing. -/
structure Over (store : Storage) (id : Nat) (added : Bool) : Prop where
  progress : store.progress id ≠ .uploading
  rowless : added = false → Rowless store id
  made : added = false → Made store id []

/-- Files of the station that a request has begun to upload. -/
def Listed (store : Storage) (stationId : Nat) (entries : List Entry) : Prop :=
  ∀ entry ∈ entries, entry.stationId = stationId ∧
    (entry.isLiner → store.progress entry.owner ≠ .absent)

/-- Files of the station whose upload is over. -/
def Aged (store : Storage) (stationId : Nat) (old : List Entry) : Prop :=
  ∀ entry ∈ old, entry.stationId = stationId ∧
    (entry.isLiner → store.progress entry.owner = .ended)

/-- What a request relies on where it is. -/
def Own (store : Storage) (id : Nat) : Option Phase → Prop
  | none | some (.requiring _) | some (.owning _ _) =>
    store.progress id = .absent ∧ Made store id []
  | some (.staging upload) | some (.probing upload) | some (.moving upload)
  | some (.tidying upload false) =>
    store.progress id = .absent ∧ Made store id [.staged upload.stationId id]
  | some (.tidying upload true) =>
    Uploading store id upload ∧ Made store id [.staged upload.stationId id, (upload.row id).file]
  | some (.hashing upload) | some (.finding upload) | some (.inserting upload)
  | some (.committing upload) => Uploading store id upload ∧ Made store id [(upload.row id).file]
  | some (.discarding upload _) =>
    store.progress id = .ended ∧ Rowless store id ∧ Made store id [(upload.row id).file]
  | some (.deleting row) | some (.clearing row) =>
    (store.progress id = .absent ∧ Made store id []) ∧ store.progress row.linerId = .ended
  | some (.unlinking row) =>
    (store.progress id = .absent ∧ Made store id []) ∧ Free store row.file
  | some (.listing _ added) | some (.finished added _) => Over store id added
  | some (.aging stationId added entries old) =>
    Over store id added ∧ Listed store stationId entries ∧ Aged store stationId old
  | some (.reading stationId added old) => Over store id added ∧ Aged store stationId old
  | some (.removing added entries) => Over store id added ∧ ∀ entry ∈ entries, Free store entry

/-- What a step of `id` does to what the others see. -/
structure Effect (store next : Storage) (id : Nat) : Prop where
  fresh : ∀ entry ∈ next.files, entry ∈ store.files ∨ entry.owner = id ∧
    (entry.isLiner → next.progress id ≠ .absent)
  kept : ∀ entry ∈ store.files, entry ∈ next.files ∨ (∀ row ∈ next.rows, row.file ≠ entry) ∧
    (entry.owner = id ∨ (entry.isLiner → store.progress entry.owner = .ended))
  refused : store.refused ⊆ next.refused
  others : ∀ other, other ≠ id → next.progress other = store.progress other
  begun : store.progress id ≠ .absent → next.progress id ≠ .absent
  ended : store.progress id = .ended → next.progress id = .ended
  rows : ∀ row ∈ next.rows, row ∈ store.rows ∨ row.linerId = id ∧ store.progress id ≠ .ended ∧
    next.progress id = .ended ∧ row.file ∈ next.files

section

variable {id : Nat} {store next : Storage} {here there : Phase} {choice : Choice}

@[simp] theorem mem_put {entry other : Entry} :
    other ∈ (store.put entry).files ↔ other = entry ∨ other ∈ store.files := by
  simp only [Storage.put]
  split
  next hmem =>
    refine ⟨Or.inr, ?_⟩
    rintro (rfl | hother)
    · exact hmem
    · exact hother
  · exact List.mem_cons

@[simp] theorem mem_discard {entry other : Entry} :
    other ∈ (store.discard entry).files ↔ other ∈ store.files ∧ other ≠ entry := by
  simp [Storage.discard]

theorem effect_refl : Effect store store id where
  fresh _ hmem := .inl hmem
  kept _ hmem := .inl hmem
  refused := fun _ hmem => hmem
  others _ _ := rfl
  begun := fun h => h
  ended := fun h => h
  rows _ hmem := .inl hmem

theorem effect_insert {row : Row} :
    Effect store { store with inserted := row :: store.inserted } id where
  fresh _ hmem := .inl hmem
  kept _ hmem := .inl hmem
  refused := fun _ hmem => hmem
  others _ _ := rfl
  begun := fun h => h
  ended := fun h => h
  rows _ hmem := .inl hmem

theorem effect_put {entry : Entry} (howner : entry.owner = id) (hstaged : entry.isLiner = false) :
    Effect store (store.put entry) id where
  fresh other hmem := by
    rcases mem_put.mp hmem with rfl | hmem
    · exact .inr ⟨howner, by simp [hstaged]⟩
    · exact .inl hmem
  kept other hmem := .inl (mem_put.mpr (.inr hmem))
  refused := fun _ hmem => hmem
  others _ _ := rfl
  begun := fun h => h
  ended := fun h => h
  rows _ hmem := .inl hmem

theorem effect_discard {entry : Entry} (hunnamed : ∀ row ∈ store.rows, row.file ≠ entry)
    (hmine : entry.owner = id ∨ (entry.isLiner → store.progress entry.owner = .ended)) :
    Effect store (store.discard entry) id where
  fresh other hmem := .inl (mem_discard.mp hmem).1
  kept other hmem := by
    by_cases hsame : other = entry
    · subst hsame
      exact .inr ⟨hunnamed, hmine⟩
    · exact .inl (mem_discard.mpr ⟨hmem, hsame⟩)
  refused := fun _ hmem => hmem
  others _ _ := rfl
  begun := fun h => h
  ended := fun h => h
  rows _ hmem := .inl hmem

theorem effect_refuse {entry : Entry} : Effect store (store.refuse entry) id where
  fresh _ hmem := .inl hmem
  kept _ hmem := .inl hmem
  refused := List.subset_cons_self _ _
  others _ _ := rfl
  begun := fun h => h
  ended := fun h => h
  rows _ hmem := .inl hmem

theorem effect_end (hfiles : next.files = store.files) (hrefused : next.refused = store.refused)
    (hprogress : next.progress = Function.update store.progress id .ended)
    (hrows : ∀ row ∈ next.rows, row ∈ store.rows ∨ row.linerId = id ∧ store.progress id ≠ .ended ∧
      row.file ∈ store.files) : Effect store next id where
  fresh _ hmem := .inl (hfiles ▸ hmem)
  kept _ hmem := .inl (hfiles ▸ hmem)
  refused := hrefused ▸ fun _ hmem => hmem
  others other hother := by rw [hprogress, Function.update_of_ne hother]
  begun _ := by rw [hprogress, Function.update_self]; nofun
  ended _ := by rw [hprogress, Function.update_self]
  rows row hmem := by
    rcases hrows row hmem with hold | ⟨hid, hopen, hfile⟩
    · exact .inl hold
    · exact .inr ⟨hid, hopen, by rw [hprogress, Function.update_self], hfiles ▸ hfile⟩

theorem effect_move {upload : Upload} (habsent : store.progress id = .absent) :
    Effect store (((store.discard (.staged upload.stationId id)).put
      (upload.row id).file).setProgress
      id .uploading) id where
  fresh entry hmem := by
    rcases mem_put.mp hmem with rfl | hmem
    · exact .inr ⟨rfl, fun _ => by simp [Storage.setProgress]⟩
    · exact .inl (mem_discard.mp hmem).1
  kept entry hmem := by
    by_cases hsame : entry = .staged upload.stationId id
    · subst hsame
      exact .inr ⟨fun row _ => nofun, .inl rfl⟩
    · exact .inl (mem_put.mpr (.inr (mem_discard.mpr ⟨hmem, hsame⟩)))
  refused := fun _ hmem => hmem
  others other hother := Function.update_of_ne hother _ _
  begun hbegun := absurd habsent hbegun
  ended hended := by rw [habsent] at hended; cases hended
  rows _ hmem := .inl hmem

/-- A row goes; nothing else does. -/
theorem effect_clear {linerId : Nat} :
    Effect store { store with rows := store.rows.filter (·.linerId ≠ linerId) } id where
  fresh _ hmem := .inl hmem
  kept _ hmem := .inl hmem
  refused := fun _ hmem => hmem
  others _ _ := rfl
  begun := fun h => h
  ended := fun h => h
  rows _ hmem := .inl (List.mem_of_mem_filter hmem)

/-! ### What the steps keep -/

theorem Law.of_effect (hlaw : Law store) (heffect : Effect store next id) : Law next where
  stored row hrow := by
    rcases heffect.rows row hrow with hold | ⟨-, -, -, hfile⟩
    · rcases heffect.kept row.file (hlaw.stored row hold) with hfile | ⟨hunnamed, -⟩
      · exact hfile
      · exact absurd rfl (hunnamed row hrow)
    · exact hfile
  rows row hrow := by
    rcases heffect.rows row hrow with hold | ⟨rfl, -, hended, -⟩
    · by_cases hid : row.linerId = id
      · subst hid
        exact heffect.ended (hlaw.rows row hold)
      · exact (heffect.others _ hid).trans (hlaw.rows row hold)
    · exact hended
  files entry hentry hliner := by
    rcases heffect.fresh entry hentry with hold | ⟨rfl, hbegun⟩
    · by_cases hid : entry.owner = id
      · subst hid
        exact heffect.begun (hlaw.files entry hold hliner)
      · rw [heffect.others _ hid]
        exact hlaw.files entry hold hliner
    · exact hbegun hliner

/-- A row is there only once its upload has ended. -/
theorem Law.rowless (hlaw : Law store) (hopen : store.progress id ≠ .ended) : Rowless store id := by
  rintro row hrow rfl
  exact hopen (hlaw.rows row hrow)

namespace Effect

variable {other : Nat} {entry : Entry} {added : Bool}

theorem free (heffect : Effect store next id) (hfree : Free store entry) : Free next entry := by
  refine ⟨fun hliner => ?_, fun row hrow hsame => ?_⟩
  · by_cases hid : entry.owner = id
    · subst hid
      exact heffect.ended (hfree.1 hliner)
    · exact (heffect.others _ hid).trans (hfree.1 hliner)
  · rcases heffect.rows row hrow with hold | ⟨rfl, hopen, -, -⟩
    · exact hfree.2 row hold hsame
    · subst hsame
      exact hopen (hfree.1 rfl)

theorem rowless (heffect : Effect store next id) (hother : other ≠ id)
    (hrowless : Rowless store other) : Rowless next other := by
  rintro row hrow hid
  rcases heffect.rows row hrow with hold | ⟨rfl, -, -, -⟩
  · exact hrowless row hold hid
  · exact hother hid.symm

theorem made (heffect : Effect store next id) {entries : List Entry} (hother : other ≠ id)
    (hmade : Made store other entries) : Made next other entries := by
  rintro entry hentry rfl
  rcases heffect.fresh entry hentry with hold | ⟨rfl, -⟩
  · exact (hmade entry hold rfl).imp_right fun hmem => heffect.refused hmem
  · exact absurd rfl hother

theorem uploading (heffect : Effect store next id) {upload : Upload} (hother : other ≠ id)
    (huploading : Uploading store other upload) : Uploading next other upload := by
  refine ⟨(heffect.others _ hother).trans huploading.progress, ?_⟩
  rcases heffect.kept _ huploading.file with hfile | ⟨-, hid | hended⟩
  · exact hfile
  · exact absurd hid hother
  · have hended : store.progress other = .ended := hended rfl
    rw [huploading.progress] at hended
    cases hended

theorem isOver (heffect : Effect store next id) (hother : other ≠ id)
    (hover : Over store other added) : Over next other added where
  progress := by rw [heffect.others _ hother]; exact hover.progress
  rowless hadded := heffect.rowless hother (hover.rowless hadded)
  made hadded := heffect.made hother (hover.made hadded)

theorem ended_of (heffect : Effect store next id) {linerId : Nat}
    (hended : store.progress linerId = .ended) : next.progress linerId = .ended := by
  by_cases hid : linerId = id
  · subst hid
    exact heffect.ended hended
  · exact (heffect.others _ hid).trans hended

theorem begun_of (heffect : Effect store next id) {linerId : Nat}
    (hbegun : store.progress linerId ≠ .absent) : next.progress linerId ≠ .absent := by
  by_cases hid : linerId = id
  · subst hid
    exact heffect.begun hbegun
  · rw [heffect.others _ hid]
    exact hbegun

theorem listed (heffect : Effect store next id) {stationId : Nat} {entries : List Entry}
    (hlisted : Listed store stationId entries) : Listed next stationId entries :=
  fun entry hentry => (hlisted entry hentry).imp_right fun hbegun hliner =>
    heffect.begun_of (hbegun hliner)

theorem aged (heffect : Effect store next id) {stationId : Nat} {old : List Entry}
    (haged : Aged store stationId old) : Aged next stationId old :=
  fun entry hentry => (haged entry hentry).imp_right fun hended hliner =>
    heffect.ended_of (hended hliner)

/-- A step leaves the other requests what they rely on. -/
theorem own (heffect : Effect store next id) (hother : other ≠ id) {elsewhere : Option Phase}
    (hown : Own store other elsewhere) : Own next other elsewhere := by
  have hsame := heffect.others _ hother
  revert hown
  fun_cases Own store other elsewhere
  all_goals
    intro hown
    simp only [Own, hsame]
  case case1 | case2 upload | case3 stationId linerId =>
    exact ⟨hown.1, heffect.made hother hown.2⟩
  case case4 upload | case5 upload | case6 upload | case7 upload =>
    exact ⟨hown.1, heffect.made hother hown.2⟩
  case case8 upload => exact ⟨heffect.uploading hother hown.1, heffect.made hother hown.2⟩
  case case9 upload | case10 upload | case11 upload | case12 upload =>
    exact ⟨heffect.uploading hother hown.1, heffect.made hother hown.2⟩
  case case13 upload duplicate =>
    exact ⟨hown.1, heffect.rowless hother hown.2.1, heffect.made hother hown.2.2⟩
  case case14 row | case15 row =>
    exact ⟨⟨hown.1.1, heffect.made hother hown.1.2⟩, heffect.ended_of hown.2⟩
  case case16 row => exact ⟨⟨hown.1.1, heffect.made hother hown.1.2⟩, heffect.free hown.2⟩
  case case17 stationId added | case18 added success => exact heffect.isOver hother hown
  case case19 stationId added entries old =>
    exact ⟨heffect.isOver hother hown.1, heffect.listed hown.2.1, heffect.aged hown.2.2⟩
  case case20 stationId added old =>
    exact ⟨heffect.isOver hother hown.1, heffect.aged hown.2⟩
  case case21 added entries =>
    exact ⟨heffect.isOver hother hown.1, fun entry hentry => heffect.free (hown.2 entry hentry)⟩

end Effect

theorem isOver_of_absent (hlaw : Law store)
    (habsent : store.progress id = .absent ∧ Made store id []) : Over store id false where
  progress := by rw [habsent.1]; nofun
  rowless _ := hlaw.rowless (by rw [habsent.1]; nofun)
  made _ := habsent.2

theorem made_put {entry : Entry} {entries : List Entry} (hmem : entry ∈ entries)
    (hmade : Made store id entries) : Made (store.put entry) id entries := by
  intro other hentry hid
  rcases mem_put.mp hentry with rfl | hold
  · exact .inl hmem
  · exact hmade other hold hid

theorem made_discard {entry : Entry} {entries : List Entry}
    (hmade : Made store id (entry :: entries)) : Made (store.discard entry) id entries := by
  intro other hentry hid
  obtain ⟨hold, hne⟩ := mem_discard.mp hentry
  exact (hmade other hold hid).imp_left fun hmem => (List.mem_cons.mp hmem).resolve_left hne

theorem made_refuse {entry : Entry} {entries : List Entry}
    (hmade : Made store id (entry :: entries)) : Made (store.refuse entry) id entries := by
  intro other hentry hid
  rcases hmade other hentry hid with hmem | hmem
  · rcases List.mem_cons.mp hmem with rfl | hmem
    · exact .inr List.mem_cons_self
    · exact .inl hmem
  · exact .inr (List.mem_cons_of_mem _ hmem)

theorem made_mono {entries others : List Entry} (hmade : Made store id entries)
    (hsub : entries ⊆ others) : Made store id others :=
  fun entry hentry hid => (hmade entry hentry hid).imp_left fun hmem => hsub hmem

/-- An upload that fails before its commit, or finds its audio stored, has no row. -/
theorem uploading_ends {upload : Upload} {duplicate : Bool} (hlaw : Law store)
    (hown : Uploading store id upload ∧ Made store id [(upload.row id).file])
    (hfiles : next.files = store.files) (hrows : next.rows = store.rows)
    (hrefused : next.refused = store.refused)
    (hprogress : next.progress = Function.update store.progress id .ended) :
    Effect store next id ∧ Own next id (some (.discarding upload duplicate)) := by
  have hrowless : Rowless store id := hlaw.rowless (by rw [hown.1.progress]; nofun)
  refine ⟨effect_end hfiles hrefused hprogress fun row hrow => .inl (hrows ▸ hrow), ?_, ?_, ?_⟩
  · rw [hprogress, Function.update_self]
  · exact fun row hrow => hrowless row (hrows ▸ hrow)
  · exact fun entry hentry hid => hrefused ▸ hown.2 entry (hfiles ▸ hentry) hid

theorem uploading_discard {upload : Upload} {entry : Entry} (hstaged : entry.isLiner = false)
    (huploading : Uploading store id upload) : Uploading (store.discard entry) id upload where
  progress := huploading.progress
  file := by
    refine mem_discard.mpr ⟨huploading.file, ?_⟩
    rintro rfl
    cases hstaged

/-- The clean-up of an upload that left a file behind, and no row. -/
theorem discarding_keeps {upload : Upload}
    (hown : store.progress id = .ended ∧ Rowless store id ∧ Made store id [(upload.row id).file])
    (hnext : next = store.discard (upload.row id).file ∨ next = store.refuse (upload.row id).file) :
    Effect store next id ∧ Over next id false := by
  obtain ⟨hended, hrowless, hmade⟩ := hown
  have hunnamed : ∀ row ∈ store.rows, row.file ≠ (upload.row id).file := by
    intro row hrow hsame
    exact hrowless row hrow (Entry.liner.inj hsame).2.1
  rcases hnext with rfl | rfl
  · refine ⟨effect_discard hunnamed (.inl rfl), ?_, fun _ => hrowless, fun _ => made_discard hmade⟩
    exact hended.trans_ne nofun
  · refine ⟨effect_refuse, ?_, fun _ => hrowless, fun _ => made_refuse hmade⟩
    exact hended.trans_ne nofun

/-- A step of an upload, up to its sweep. -/
theorem addTurn_keeps (hlaw : Law store) (hown : Own store id (some here))
    (hturn : addTurn id store here choice = some (next, there)) :
    Effect store next id ∧ Own next id (some there) := by
  revert hturn hown
  fun_cases addTurn id store here choice
  all_goals
    intro hown hturn
    cases hturn
  case case1.refl upload => exact ⟨effect_refl, hown.1, made_mono hown.2 (List.nil_subset _)⟩
  case case2.refl upload => exact ⟨effect_refl, isOver_of_absent hlaw hown⟩
  case case3.refl upload | case4.refl upload =>
    exact ⟨effect_put rfl rfl, hown.1, made_put (List.mem_singleton_self _) hown.2⟩
  case case5.refl upload | case6.refl upload | case7.refl upload | case10.refl upload =>
    exact ⟨effect_refl, hown⟩
  -- The rename: the staged name goes and the final one comes in one step.
  case case8.refl upload hstaged =>
    refine ⟨effect_move hown.1, ⟨by simp [Storage.setProgress], mem_put.mpr (.inl rfl)⟩, ?_⟩
    have hput : Made ((store.discard (.staged upload.stationId id)).put (upload.row id).file) id
        [(upload.row id).file] :=
      made_put (List.mem_singleton_self _) (made_mono (made_discard hown.2) (List.nil_subset _))
    exact made_mono hput (List.subset_cons_self _ _)
  case case11.refl upload =>
    refine ⟨effect_discard (fun row _ => nofun) (.inl rfl), ?_, made_discard hown.2⟩
    exact uploading_discard rfl hown.1
  case case12.refl upload =>
    exact ⟨effect_refuse, ⟨hown.1.progress, hown.1.file⟩, made_refuse hown.2⟩
  case case13.refl upload =>
    have heffect : Effect store (store.discard (.staged upload.stationId id)) id :=
      effect_discard (fun row _ => nofun) (.inl rfl)
    exact ⟨heffect, isOver_of_absent (hlaw.of_effect heffect) ⟨hown.1, made_discard hown.2⟩⟩
  case case14.refl upload =>
    have heffect : Effect store (store.refuse (.staged upload.stationId id)) id := effect_refuse
    exact ⟨heffect, isOver_of_absent (hlaw.of_effect heffect) ⟨hown.1, made_refuse hown.2⟩⟩
  case case15.refl upload | case18.refl upload => exact ⟨effect_refl, hown⟩
  case case16.refl upload | case17.refl upload | case19.refl upload | case22.refl upload
      | case24.refl upload =>
    exact uploading_ends hlaw hown rfl rfl rfl rfl
  -- The insert: from here the row is there, though not committed.
  case case21.refl upload hfree =>
    exact ⟨effect_insert, ⟨hown.1.progress, hown.1.file⟩, hown.2⟩
  -- The commit, the only step after which another sees the row.
  case case23.refl upload =>
    refine ⟨effect_end rfl rfl rfl fun row hrow => ?_, ?_, nofun, nofun⟩
    · rcases List.mem_cons.mp hrow with rfl | hold
      · exact .inr ⟨rfl, by rw [hown.1.progress]; nofun, hown.1.file⟩
      · exact .inl hold
    · simp [Storage.setProgress]
  case case25.refl upload | case27.refl upload => exact discarding_keeps hown (.inl rfl)
  case case26.refl upload | case28.refl upload => exact discarding_keeps hown (.inr rfl)

theorem Free.discard {entry other : Entry} (hfree : Free store entry) :
    Free (store.discard other) entry := hfree

theorem Free.effect {entry : Entry} (hfree : Free store entry) :
    Effect store (store.discard entry) id := effect_discard hfree.2 (.inr hfree.1)

/-- A step of a deletion, up to its sweep. -/
theorem deleteTurn_keeps (hlaw : Law store) (hown : Own store id (some here))
    (hturn : deleteTurn store here choice = some (next, there)) :
    Effect store next id ∧ Own next id (some there) := by
  revert hturn hown
  fun_cases deleteTurn store here choice
  all_goals
    intro hown hturn
    cases hturn
  case case1.refl stationId linerId hfound => exact ⟨effect_refl, isOver_of_absent hlaw hown⟩
  case case2.refl stationId linerId row hfound =>
    exact ⟨effect_refl, hown, hlaw.rows row (List.mem_of_find?_eq_some hfound)⟩
  case case3.refl stationId linerId => exact ⟨effect_refl, isOver_of_absent hlaw hown⟩
  case case4.refl row => exact ⟨effect_refl, hown⟩
  case case5.refl row | case7.refl row => exact ⟨effect_refl, isOver_of_absent hlaw hown.1⟩
  case case6.refl row =>
    refine ⟨effect_clear, hown.1, fun _ => hown.2, ?_⟩
    intro other hother hsame
    exact (of_decide_eq_true (List.mem_filter.mp hother).2) (Entry.liner.inj hsame).2.1
  case case8.refl row =>
    have heffect : Effect store (store.discard row.file) id := hown.2.effect
    refine ⟨heffect, isOver_of_absent (hlaw.of_effect heffect) ⟨hown.1.1, ?_⟩⟩
    exact made_discard (made_mono hown.1.2 (List.nil_subset _))
  case case9.refl row =>
    have heffect : Effect store (store.refuse row.file) id := effect_refuse
    refine ⟨heffect, isOver_of_absent (hlaw.of_effect heffect) ⟨hown.1.1, ?_⟩⟩
    exact made_refuse (made_mono hown.1.2 (List.nil_subset _))

/-- A file the sweep takes for an orphan belongs to no row, and none will come for it. -/
theorem free_orphans {stationId : Nat} {old : List Entry} (haged : Aged store stationId old) :
    ∀ entry ∈ orphans store stationId old, Free store entry := by
  intro entry hentry
  obtain ⟨hold, horphan⟩ := List.mem_filter.mp hentry
  obtain ⟨hstation, hended⟩ := haged entry hold
  refine ⟨hended, ?_⟩
  rintro row hrow rfl
  have hstation : row.stationId = stationId := hstation
  have hnamed : store.rows.any (fun other => other.stationId == stationId &&
      other.file == row.file) = true :=
    List.any_eq_true.mpr ⟨row, hrow, by simp [hstation]⟩
  simp [hnamed] at horphan

theorem free_stalePartials {old : List Entry} : ∀ entry ∈ stalePartials old, Free store entry := by
  intro entry hentry
  have hstaged := (List.mem_filter.mp hentry).2
  refine ⟨fun hliner => by simp [hliner] at hstaged, ?_⟩
  rintro row - rfl
  cases hstaged

/-- A liner's file is old only once its upload is over. -/
theorem ended_of_mayBeOld {entry : Entry} (hold : mayBeOld store entry)
    (hbegun : entry.isLiner → store.progress entry.owner ≠ .absent) :
    entry.isLiner → store.progress entry.owner = .ended := by
  intro hliner
  have hbegun := hbegun hliner
  cases entry with
  | staged stationId upload => cases hliner
  | liner stationId linerId format =>
      have hnot : store.progress linerId ≠ .uploading := of_decide_eq_true hold
      simp only [Entry.owner] at hbegun ⊢
      cases hprogress : store.progress linerId <;> simp_all

/-- A step of a sweep. -/
theorem sweepTurn_keeps (hlaw : Law store) (hown : Own store id (some here))
    (hturn : sweepTurn store here choice = some (next, there)) :
    Effect store next id ∧ Own next id (some there) := by
  revert hturn hown
  fun_cases sweepTurn store here choice
  all_goals
    intro hown hturn
    cases hturn
  case case1.refl stationId added => exact ⟨effect_refl, hown, nofun, nofun⟩
  case case2.refl stationId added => exact ⟨effect_refl, hown⟩
  case case3.refl stationId added entries hlisted =>
    refine ⟨effect_refl, hown, fun entry hentry => ?_, nofun⟩
    obtain ⟨hfile, hstation⟩ := List.mem_filter.mp (hlisted.mem_iff.mp hentry)
    exact ⟨of_decide_eq_true hstation, hlaw.files entry hfile⟩
  case case5.refl stationId added old => exact ⟨effect_refl, hown.1, hown.2.2⟩
  case case6.refl stationId added entry rest old hold =>
    obtain ⟨hover, hlisted, haged⟩ := hown
    refine ⟨effect_refl, hover, fun other hother => hlisted other (List.mem_cons_of_mem _ hother),
      fun other hother => ?_⟩
    rcases List.mem_append.mp hother with hother | hother
    · exact haged other hother
    obtain rfl := List.mem_singleton.mp hother
    obtain ⟨hstation, hbegun⟩ := hlisted other List.mem_cons_self
    exact ⟨hstation, ended_of_mayBeOld hold hbegun⟩
  case case8.refl stationId added entry rest old =>
    exact ⟨effect_refl, hown.1,
      fun other hother => hown.2.1 other (List.mem_cons_of_mem _ hother), hown.2.2⟩
  -- What will be deleted is what no row names, with the rows as they are now.
  case case9.refl stationId added old =>
    refine ⟨effect_refl, hown.1, fun entry hentry => ?_⟩
    rcases List.mem_append.mp hentry with hentry | hentry
    · exact free_stalePartials entry hentry
    · exact free_orphans hown.2 entry hentry
  case case10.refl stationId added old hliner =>
    exact ⟨effect_refl, hown.1, free_stalePartials⟩
  case case12.refl stationId added old hliner => exact ⟨effect_refl, hown.1⟩
  case case14.refl added => exact ⟨effect_refl, hown.1⟩
  case case15.refl added entry rest =>
    have hfree := hown.2 entry List.mem_cons_self
    refine ⟨hfree.effect, ⟨hown.1.progress, hown.1.rowless, fun hadded => ?_⟩,
      fun other hother => ?_⟩
    · exact made_discard (made_mono (hown.1.made hadded) (List.nil_subset _))
    · exact (hown.2 other (List.mem_cons_of_mem _ hother)).discard
  case case16.refl added entry rest =>
    refine ⟨effect_refuse, ⟨hown.1.progress, hown.1.rowless, fun hadded => ?_⟩,
      fun other hother => ?_⟩
    · exact made_refuse (made_mono (hown.1.made hadded) (List.nil_subset _))
    · exact hown.2 other (List.mem_cons_of_mem _ hother)

theorem turn_cases (hturn : turn id store here choice = some (next, there)) :
    addTurn id store here choice = some (next, there) ∨
      deleteTurn store here choice = some (next, there) ∨
      sweepTurn store here choice = some (next, there) := by
  rcases Option.or_eq_some_iff.mp hturn with hadd | ⟨-, hturn⟩
  · exact .inl hadd
  rcases Option.or_eq_some_iff.mp hturn with hdelete | ⟨-, hsweep⟩
  · exact .inr (.inl hdelete)
  · exact .inr (.inr hsweep)

theorem turn_keeps (hlaw : Law store) (hown : Own store id (some here))
    (hturn : turn id store here choice = some (next, there)) :
    Effect store next id ∧ Own next id (some there) := by
  rcases turn_cases hturn with hadd | hdelete | hsweep
  · exact addTurn_keeps hlaw hown hadd
  · exact deleteTurn_keeps hlaw hown hdelete
  · exact sweepTurn_keeps hlaw hown hsweep

/-- Once a request has added its row, only a sweep that raises makes it fail. -/
theorem turn_added_failed (hturn : turn id store here choice = some (next, .finished true false)) :
    choice = .raises := by
  rcases turn_cases hturn with hadd | hdelete | hsweep
  · revert hadd
    fun_cases addTurn id store here choice <;> nofun
  · revert hdelete
    fun_cases deleteTurn store here choice <;> nofun
  · revert hsweep
    fun_cases sweepTurn store here choice
    all_goals
      intro hsweep
      first | rfl | cases hsweep

theorem turn_raises (hturn : turn id store here .raises = some (next, there)) :
    next = store ∧ ∃ added, there = .finished added false := by
  rcases turn_cases hturn with hadd | hdelete | hsweep
  · cases here <;> simp [addTurn] at hadd
  · cases here <;> simp [deleteTurn] at hdelete
  · cases here with
    | listing stationId added =>
        cases hsweep
        exact ⟨rfl, added, rfl⟩
    | reading stationId added old =>
        simp only [sweepTurn] at hsweep
        split at hsweep
        · cases hsweep
          exact ⟨rfl, added, rfl⟩
        · cases hsweep
    | _ => simp [sweepTurn] at hsweep

end

/-! ## Runs -/

def empty : Pool Storage Phase := ⟨⟨[], [], [], fun _ => .absent, []⟩, fun _ => none⟩

theorem holds_empty : Party.Holds Law Own empty :=
  ⟨⟨nofun, nofun, nofun⟩, fun _ => ⟨rfl, nofun⟩⟩

theorem holds_step : linerStore.machine.Preserves (Party.Holds Law Own) := by
  apply Party.preserves_holds
  · intro pool id request hholds hnone
    have hown : Own pool.shared id none := hnone ▸ hholds.own id
    cases request with
    | add upload => exact hown
    | delete stationId linerId => exact hown
    | sweep stationId => exact isOver_of_absent hholds.shared hown
  · intro pool id choice here state there hholds hhere hturn
    obtain ⟨heffect, hown⟩ := turn_keeps hholds.shared (hhere ▸ hholds.own id) hturn
    exact ⟨hholds.shared.of_effect heffect, hown⟩
  · intro pool id choice here state there other hholds hhere hturn hother
    obtain ⟨heffect, -⟩ := turn_keeps hholds.shared (hhere ▸ hholds.own id) hturn
    exact heffect.own hother (hholds.own other)

/-- A request that has failed left no row. -/
def FailedRowless (pool : Pool Storage Phase) : Prop :=
  ∀ id added, pool.locals id = some (.finished added false) → Rowless pool.shared id

/-- A sweep raises only when its own request has no row. -/
def Quiet (pool : Pool Storage Phase) : PoolAction Request Choice → Prop
  | .turn id .raises => Rowless pool.shared id
  | _ => True

/-- A failed request's row can only come from a sweep that raised after the commit. -/
theorem failedRowless_step {pool next : Pool Storage Phase} {action : PoolAction Request Choice}
    {output : Unit} (hholds : Party.Holds Law Own pool) (hgood : FailedRowless pool)
    (hstep : linerStore.machine.step pool action = some (next, output)) :
    FailedRowless next ↔ Quiet pool action := by
  have hnext := holds_step hholds hstep
  cases action with
  | start id request =>
      obtain ⟨hnone, rfl⟩ := Party.step_start hstep
      refine ⟨fun _ => trivial, fun _ other added hother => ?_⟩
      by_cases hsame : other = id
      · subst hsame
        dsimp only at hother
        rw [Function.update_self] at hother
        cases request <;> cases hother
      · dsimp only at hother
        rw [Function.update_of_ne hsame] at hother
        exact hgood other added hother
  | turn id choice =>
      obtain ⟨here, store, there, hhere, hturn, rfl⟩ := Party.step_turn hstep
      obtain ⟨heffect, hown⟩ := turn_keeps hholds.shared (hhere ▸ hholds.own id) hturn
      -- of the other requests nothing changes
      have hothers : FailedRowless ⟨store, Function.update pool.locals id (some there)⟩ ↔
          ∀ added, there = .finished added false → Rowless store id := by
        constructor
        · rintro hall added rfl
          exact hall id added (Function.update_self ..)
        · intro hmine other added hother
          by_cases hsame : other = id
          · subst hsame
            dsimp only at hother
            rw [Function.update_self] at hother
            exact hmine added (Option.some.inj hother)
          · dsimp only at hother
            rw [Function.update_of_ne hsame] at hother
            exact heffect.rowless hsame (hgood other added hother)
      rw [hothers]
      by_cases hraises : choice = .raises
      · subst hraises
        obtain ⟨rfl, added, rfl⟩ := turn_raises hturn
        exact ⟨fun hmine => hmine added rfl, fun hquiet _ _ => hquiet⟩
      · refine ⟨fun _ => ?_, ?_⟩
        · cases choice with
          | raises => exact absurd rfl hraises
          | _ => trivial
        · rintro - added rfl
          cases added with
          | false => exact hown.rowless rfl
          | true => exact absurd (turn_added_failed hturn) hraises

/-- The sweep has still to come to the file. -/
def Ahead (entry : Entry) : Phase → Prop
  | .listing stationId _ => entry.stationId = stationId
  | .aging stationId _ entries old =>
    entry.stationId = stationId ∧ (entry ∈ entries ∨ entry ∈ old)
  | .reading stationId _ old => entry.stationId = stationId ∧ entry ∈ old
  | .removing _ entries => entry ∈ entries
  | _ => False

/-- The sweep can list the folder and read the rows, and at the file itself nothing fails:
it is old, and can be deleted. -/
def Thorough (sweeper : Nat) (entry : Entry) (pool : Pool Storage Phase) :
    PoolAction Request Choice → Prop
  | .start _ _ => True
  | .turn id choice => id = sweeper → ∀ here, pool.locals id = some here →
    match here with
    | .aging _ _ (first :: _) _ | .removing _ (first :: _) => first = entry → choice = .succeeds
    | _ => choice ≠ .fails ∧ choice ≠ .raises

/-- A sweep ahead of the file comes nearer to it, or deletes it. -/
theorem turn_ahead {pool : Pool Storage Phase} {sweeper : Nat} {entry : Entry} {here there : Phase}
    {choice : Choice} {next : Storage} (hfree : Free pool.shared entry)
    (hfile : entry ∈ pool.shared.files) (hhere : pool.locals sweeper = some here)
    (hahead : Ahead entry here) (hthorough : Thorough sweeper entry pool (.turn sweeper choice))
    (hturn : turn sweeper pool.shared here choice = some (next, there)) :
    entry ∉ next.files ∨ Ahead entry there := by
  replace hthorough := hthorough rfl here hhere
  clear hhere
  rcases turn_cases hturn with hadd | hdelete | hsweep
  · cases here <;> first | cases hadd | cases hahead
  · cases here <;> first | cases hdelete | cases hahead
  revert hsweep hthorough hahead
  fun_cases sweepTurn pool.shared here choice
  all_goals
    intro hahead hthorough hsweep
    cases hsweep
  case case1.refl stationId added => exact absurd rfl hthorough.1
  case case2.refl stationId added => exact absurd rfl hthorough.2
  case case3.refl stationId added entries hlisted =>
    refine .inr ⟨hahead, .inl (hlisted.mem_iff.mpr (List.mem_filter.mpr ⟨hfile, ?_⟩))⟩
    exact decide_eq_true hahead
  case case5.refl stationId added old =>
    exact .inr ⟨hahead.1, hahead.2.resolve_left List.not_mem_nil⟩
  -- The entry on turn is old enough: it is kept as a candidate.
  case case6.refl stationId added first rest old hold =>
    refine .inr ⟨hahead.1, ?_⟩
    rcases hahead.2 with hmem | hmem
    · rcases List.mem_cons.mp hmem with rfl | hmem
      · exact .inr (List.mem_append_right _ (List.mem_singleton_self _))
      · exact .inl hmem
    · exact .inr (List.mem_append_left _ hmem)
  case case8.refl stationId added first rest old =>
    refine .inr ⟨hahead.1, hahead.2.imp_left fun hmem => ?_⟩
    refine (List.mem_cons.mp hmem).resolve_left fun hsame => ?_
    cases hthorough hsame.symm
  -- No row names the entry, so among the candidates it is an orphan or a stale partial.
  case case9.refl stationId added old =>
    refine .inr (List.mem_append.mpr ?_)
    cases hliner : entry.isLiner with
    | false => exact .inl (List.mem_filter.mpr ⟨hahead.2, by simp [hliner]⟩)
    | true =>
        refine .inr (List.mem_filter.mpr ⟨hahead.2, ?_⟩)
        simp only [hliner, Bool.true_and, Bool.not_eq_true', List.any_eq_false, Bool.and_eq_true,
          beq_iff_eq, not_and]
        exact fun row hrow _ => hfree.2 row hrow
  case case10.refl stationId added old hliner => exact absurd rfl hthorough.1
  case case12.refl stationId added old hliner => exact absurd rfl hthorough.2
  case case14.refl added => cases hahead
  case case15.refl added first rest =>
    rcases List.mem_cons.mp hahead with rfl | hmem
    · exact .inl fun hleft => (mem_discard.mp hleft).2 rfl
    · exact .inr hmem
  case case16.refl added first rest =>
    refine .inr ((List.mem_cons.mp hahead).resolve_left fun hsame => ?_)
    cases hthorough hsame.symm

/-- What one request left is gone, or free and still ahead of the sweep. -/
structure Leaving (sweeper : Nat) (entry : Entry) (pool : Pool Storage Phase) : Prop where
  holds : Party.Holds Law Own pool
  ended : ∃ added success, pool.locals entry.owner = some (.finished added success)
  ahead : entry ∉ pool.shared.files ∨ Free pool.shared entry ∧
    ∃ here, pool.locals sweeper = some here ∧ Ahead entry here

theorem turn_finished {id : Nat} {store : Storage} {added success : Bool} {choice : Choice}
    {result : Storage × Phase} :
    turn id store (.finished added success) choice ≠ some result := by
  cases choice <;> nofun

theorem leaving_step {sweeper : Nat} {entry : Entry} {pool next : Pool Storage Phase}
    {action : PoolAction Request Choice} {output : Unit} (hleaving : Leaving sweeper entry pool)
    (hthorough : Thorough sweeper entry pool action)
    (hstep : linerStore.machine.step pool action = some (next, output)) :
    Leaving sweeper entry next := by
  obtain ⟨hholds, ⟨added, success, hended⟩, hahead⟩ := hleaving
  have hnext := holds_step hholds hstep
  cases action with
  | start id request =>
      obtain ⟨hnone, rfl⟩ := Party.step_start hstep
      have hid : entry.owner ≠ id := by
        rintro rfl
        rw [hended] at hnone
        cases hnone
      refine ⟨hnext, ⟨added, success, (Function.update_of_ne hid _ _).trans hended⟩, ?_⟩
      refine hahead.imp_right fun ⟨hfree, here, hhere, hahead⟩ => ⟨hfree, here, ?_, hahead⟩
      refine (Function.update_of_ne ?_ _ _).trans hhere
      rintro rfl
      rw [hhere] at hnone
      cases hnone
  -- The request that made the file has ended, so none but the sweep touches it.
  | turn id choice =>
      obtain ⟨here, store, there, hhere, hturn, rfl⟩ := Party.step_turn hstep
      have hid : entry.owner ≠ id := by
        rintro rfl
        obtain rfl := Option.some.inj (hended.symm.trans hhere)
        exact @turn_finished entry.owner pool.shared added success choice _ hturn
      obtain ⟨heffect, -⟩ := turn_keeps hholds.shared (hhere ▸ hholds.own id) hturn
      refine ⟨hnext, ⟨added, success, (Function.update_of_ne hid _ _).trans hended⟩, ?_⟩
      have hgone : entry ∉ pool.shared.files → entry ∉ store.files := by
        intro hgone hback
        rcases heffect.fresh entry hback with hold | ⟨howner, -⟩
        · exact hgone hold
        · exact hid howner
      rcases hahead with hout | ⟨hfree, elsewhere, helsewhere, hahead⟩
      · exact .inl (hgone hout)
      by_cases hfile : entry ∈ pool.shared.files
      · by_cases hsweeper : id = sweeper
        · subst hsweeper
          obtain rfl := Option.some.inj (helsewhere.symm.trans hhere)
          refine (turn_ahead hfree hfile hhere hahead hthorough hturn).imp_right fun hthere => ?_
          exact ⟨heffect.free hfree, there, Function.update_self .., hthere⟩
        · refine .inr ⟨heffect.free hfree, elsewhere, ?_, hahead⟩
          exact (Function.update_of_ne (Ne.symm hsweeper) _ _).trans helsewhere
      · exact .inl (hgone hfile)

/-- A later sweep deletes what a failed request without a row left behind. -/
theorem later_sweep {sweeper : Nat} {entry : Entry} {start pool : Pool Storage Phase}
    {trace : List (PoolAction Request Choice × Unit)} {added flag : Bool}
    (hholds : Party.Holds Law Own start)
    (hfailed : start.locals entry.owner = some (.finished added false))
    (hrowless : Rowless start.shared entry.owner)
    (hlisting : start.locals sweeper = some (.listing entry.stationId flag))
    (hrun : linerStore.machine.Run start trace pool)
    (hthorough : linerStore.machine.Meets (Thorough sweeper entry) start trace)
    (hdone : pool.locals sweeper = some (.finished flag true)) : entry ∉ pool.shared.files := by
  have hover : Over start.shared entry.owner added := by
    have hown := hholds.own entry.owner
    rwa [hfailed] at hown
  have hstart : Leaving sweeper entry start := by
    refine ⟨hholds, ⟨added, false, hfailed⟩, ?_⟩
    by_cases hfile : entry ∈ start.shared.files
    · refine .inr ⟨⟨fun hliner => ?_, ?_⟩, _, hlisting, rfl⟩
      · have hbegun := hholds.shared.files entry hfile hliner
        have hopen := hover.progress
        cases hprogress : start.shared.progress entry.owner <;> simp_all
      · rintro row hrow rfl
        exact hrowless row hrow rfl
    · exact .inl hfile
  have hleaving := hthorough.invariant (fun _ _ _ _ => leaving_step) hstart hrun
  rcases hleaving.ahead with hout | ⟨-, here, hhere, hahead⟩
  · exact hout
  · obtain rfl := Option.some.inj (hdone.symm.trans hhere)
    cases hahead

/-- The liner store over every order of its requests' steps. In every state reached a stored
row's file exists, what a sweep is about to delete belongs to no row, a request that failed
before its row was added has left no row and no file but those whose deletion was refused,
and a later sweep deletes what a failed request left. Failed requests leave no row as long as,
and only as long as, no sweep raises while the row of its own upload is stored. -/
theorem stored_atomically {trace : List (PoolAction Request Choice × Unit)}
    {pool : Pool Storage Phase} (hrun : linerStore.machine.Run empty trace pool) :
    (∀ row ∈ pool.shared.rows, row.file ∈ pool.shared.files) ∧
      (∀ id added entry rest, pool.locals id = some (.removing added (entry :: rest)) →
        ∀ row ∈ pool.shared.rows, row.file ≠ entry) ∧
      (∀ id, pool.locals id = some (.finished false false) →
        Rowless pool.shared id ∧ Made pool.shared id []) ∧
      (∀ sweeper entry added flag later after,
        pool.locals entry.owner = some (.finished added false) →
        Rowless pool.shared entry.owner →
        pool.locals sweeper = some (.listing entry.stationId flag) →
        linerStore.machine.Run pool later after →
        linerStore.machine.Meets (Thorough sweeper entry) pool later →
        after.locals sweeper = some (.finished flag true) → entry ∉ after.shared.files) ∧
      (linerStore.machine.Meets Quiet empty trace ↔ ∀ before after reached,
        trace = before ++ after → linerStore.machine.Run empty before reached →
        FailedRowless reached) := by
  have hholds := hrun.invariant holds_step holds_empty
  refine ⟨hholds.shared.stored, fun id added entry rest hhere => ?_, fun id hhere => ?_, ?_, ?_⟩
  · have hown := hholds.own id
    rw [hhere] at hown
    exact (hown.2 entry List.mem_cons_self).2
  · have hover : Over pool.shared id false := by
      have hown := hholds.own id
      rwa [hhere] at hown
    exact ⟨hover.rowless rfl, hover.made rfl⟩
  · intro sweeper entry added flag later after hfailed hrowless hlisting
    exact later_sweep hholds hfailed hrowless hlisting
  · exact Machine.Meets.iff_invariant holds_step (fun _ _ _ _ => failedRowless_step) holds_empty
      nofun hrun

/-! ## Two uploads -/

/-- The turns of a request that meets these answers. -/
def turns (id : Nat) (choices : List Choice) : List (PoolAction Request Choice) :=
  choices.map (.turn id ·)

/-- A liner is stored and its file grows old; the sweep of a second upload, whose row is
committed, then reads the rows, and that read raises or succeeds. -/
def secondUpload (read : Choice) : List (PoolAction Request Choice) :=
  .start 1 (.add ⟨7, .mp3, "a"⟩) :: turns 1 (List.replicate 9 .succeeds ++
      [.listed [.liner 7 1 .mp3], .fails, .succeeds, .succeeds, .succeeds]) ++
    .start 2 (.add ⟨7, .flac, "b"⟩) :: turns 2 (List.replicate 9 .succeeds ++
      [.listed [.liner 7 2 .flac, .liner 7 1 .mp3], .fails, .succeeds, .succeeds, read])

theorem stored_atomically_twoUploads :
    ∃ trace pool, linerStore.machine.Run empty trace pool ∧
      pool.shared.rows = [⟨2, 7, .flac, "b"⟩, ⟨1, 7, .mp3, "a"⟩] ∧
      ∀ row ∈ pool.shared.rows, row.file ∈ pool.shared.files := by
  obtain ⟨trace, pool, hexec, hrows⟩ : ∃ trace pool,
      linerStore.machine.exec empty (secondUpload .succeeds) = some (trace, pool) ∧
      pool.shared.rows = [⟨2, 7, .flac, "b"⟩, ⟨1, 7, .mp3, "a"⟩] := ⟨_, _, rfl, rfl⟩
  have hrun := Machine.run_of_exec hexec
  exact ⟨trace, pool, hrun, hrows, (stored_atomically hrun).1⟩

theorem failed_upload_stored :
    ∃ trace pool, linerStore.machine.Run empty trace pool ∧
      pool.locals 2 = some (.finished true false) ∧ ¬ Rowless pool.shared 2 := by
  obtain ⟨trace, pool, hexec, hfailed, hrows⟩ : ∃ trace pool,
      linerStore.machine.exec empty (secondUpload .raises) = some (trace, pool) ∧
      pool.locals 2 = some (.finished true false) ∧
      pool.shared.rows = [⟨2, 7, .flac, "b"⟩, ⟨1, 7, .mp3, "a"⟩] := ⟨_, _, rfl, rfl, rfl⟩
  refine ⟨trace, pool, Machine.run_of_exec hexec, hfailed, fun hrowless => ?_⟩
  exact hrowless ⟨2, 7, .flac, "b"⟩ (hrows ▸ List.mem_cons_self) rfl

end RetroStation.Streaming.LinerStore
