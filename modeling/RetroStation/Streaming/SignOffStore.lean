import Mathlib.Data.List.Perm.Basic
import RetroStation.Transition.Pool

/-! # The sign-off clip store

A save installs its clip under a name made of its content, writes the setting, discards the
clip the setting named before it and sweeps the folder; a removal clears the setting and
does the rest. Requests share the folder and the setting's row, and each goes by its own
reading of the setting. As long as no request removes a clip that another save has
installed and needs, the stored setting's clip is in the folder (`stored_exists`).
-/

namespace RetroStation.Streaming.SignOffStore

open Transition

/-- A file of the sign-off folder: a clip under its content name, or the bytes an upload staged. -/
inductive Entry
  | clip (fileName : String)
  | staged (upload : Nat)
  deriving DecidableEq

/-- The setting's row, and what it names unless its value is not a sign-off. -/
abbrev Setting := Option (Option String)

/-- The folder, and the row as it was last committed: by whom, and who holds it now. -/
structure Storage where
  folder : List Entry
  setting : Setting
  writer : Option Nat
  holder : Option Nat

/-- `_previous_file_name`. -/
def previousFileName (setting : Setting) : Option String := setting.join

/-- What a request sets the row to: a save its clip, a removal nothing. -/
def settingOf (own : Option String) : Setting := own.map some

namespace Storage

def install (store : Storage) (entry : Entry) : Storage :=
  { store with folder := if entry ∈ store.folder then store.folder else entry :: store.folder }

def discard (store : Storage) (entry : Entry) : Storage :=
  { store with folder := store.folder.filter (· ≠ entry) }

@[simp] theorem mem_install {store : Storage} {entry other : Entry} :
    other ∈ (store.install entry).folder ↔ other = entry ∨ other ∈ store.folder := by
  simp only [install]
  split
  next hmem =>
    refine ⟨Or.inr, ?_⟩
    rintro (rfl | hother)
    · exact hmem
    · exact hother
  · exact List.mem_cons

@[simp] theorem mem_discard {store : Storage} {entry other : Entry} :
    other ∈ (store.discard entry).folder ↔ other ∈ store.folder ∧ other ≠ entry := by
  simp [discard]

end Storage

/-- What a step meets: it succeeds, it fails, or it is done and its answer is an error. A
listing answers with the entries in the order the folder gives them. -/
inductive Choice
  | succeeds
  | fails
  | late
  | listed (entries : List Entry)

/-- A save carries the name its content gives its clip. -/
inductive Request
  | save (fileName : String)
  | remove

/-- Where a request is. `own` is the clip a save stores, and nothing for a removal. -/
inductive Phase
  | staging (fileName : String)
  | probing (fileName : String)
  | checking (fileName : String)
  | moving (fileName : String)
  | tidying (fileName : String) (installed : Bool)
  | reading (own : Option String)
  | storing (own previous : Option String)
  | committing (own previous : Option String) (wrote : Bool)
  | discarding (own previous : Option String)
  | sweeping (own previous : Option String)
  | removing (own : Option String) (entries : List Entry)
  | finished (own : Option String) (success : Bool)

/-- What the sweep leaves alone. -/
def kept (own previous : Option String) (entry : Entry) : Bool :=
  own.any (entry = .clip ·) || previous.any (entry = .clip ·)

/-- One step of `save_sign_off` or `remove_sign_off`. -/
def turn (id : Nat) (store : Storage) : Phase → Choice → Option (Storage × Phase)
  | .staging fileName, .succeeds => some (store.install (.staged id), .probing fileName)
  | .staging fileName, .late => some (store.install (.staged id), .tidying fileName false)
  | .staging fileName, .fails => some (store, .tidying fileName false)
  | .probing fileName, .succeeds => some (store, .checking fileName)
  | .probing fileName, .fails => some (store, .tidying fileName false)
  -- the same content already stored is kept
  | .checking fileName, .succeeds =>
    if .clip fileName ∈ store.folder then some (store, .tidying fileName true)
    else some (store, .moving fileName)
  | .checking fileName, .fails => some (store, .tidying fileName false)
  | .moving fileName, .succeeds =>
    if .staged id ∈ store.folder then
      some ((store.discard (.staged id)).install (.clip fileName), .tidying fileName true)
    else none
  | .moving fileName, .fails => some (store, .tidying fileName false)
  | .tidying fileName true, .succeeds =>
    some (store.discard (.staged id), .reading (some fileName))
  | .tidying fileName true, .fails => some (store, .reading (some fileName))
  | .tidying fileName false, .succeeds =>
    some (store.discard (.staged id), .finished (some fileName) false)
  | .tidying fileName false, .fails => some (store, .finished (some fileName) false)
  | .reading own, .succeeds => some (store, .storing own (previousFileName store.setting))
  | .reading own, .fails => some (store, .finished own false)
  | .storing own previous, .succeeds =>
    -- a delete that finds no row writes nothing; any other write waits for the row
    if own = none ∧ store.setting = none then some (store, .committing own previous false)
    else if store.holder.isSome then none
    else some ({ store with holder := some id }, .committing own previous true)
  | .storing own _, .fails => some (store, .finished own false)
  | .committing own previous true, .succeeds =>
    some ({ store with setting := settingOf own, writer := some id, holder := none },
      .discarding own previous)
  | .committing own _ true, .late =>
    some ({ store with setting := settingOf own, writer := some id, holder := none },
      .finished own false)
  | .committing own _ true, .fails => some ({ store with holder := none }, .finished own false)
  | .committing own previous false, .succeeds => some (store, .discarding own previous)
  | .committing own _ false, .fails => some (store, .finished own false)
  | .discarding own none, .succeeds => some (store, .sweeping own none)
  | .discarding own (some previous), .succeeds =>
    if own = some previous then some (store, .sweeping own (some previous))
    else some (store.discard (.clip previous), .sweeping own (some previous))
  | .discarding own previous, .fails => some (store, .sweeping own previous)
  -- a folder that is missing or cannot be listed is left
  | .sweeping own _, .fails => some (store, .finished own true)
  | .sweeping own previous, .listed entries =>
    if entries.Perm (store.folder.filter (!kept own previous ·)) then
      some (store, .removing own entries)
    else none
  | .removing own [], .succeeds => some (store, .finished own true)
  | .removing own (entry :: rest), .succeeds => some (store.discard entry, .removing own rest)
  | .removing own (_ :: rest), .fails => some (store, .removing own rest)
  | _, _ => none

def signOffStore : Party Storage Phase Request Choice where
  enter
    | .save fileName => .staging fileName
    | .remove => .reading none
  turn := turn

/-- The clip a step deletes: the one its request read as the previous, or one it sweeps. -/
def deletes : Phase → Choice → Option String
  | .discarding own (some previous), .succeeds => if own = some previous then none else previous
  | .removing _ (.clip fileName :: _), .succeeds => some fileName
  | _, _ => none

/-- The clip a save has found or put in the folder, and has not committed yet. -/
def inFlight : Phase → Option String
  | .tidying fileName true => some fileName
  | .reading own | .storing own _ | .committing own _ _ => own
  | _ => none

/-- No other save needs the clip: none has it in flight, and none wrote the setting that
names it now. -/
def Unneeded (pool : Pool Storage Phase) (id : Nat) (fileName : String) : Prop :=
  (∀ other here, other ≠ id → pool.locals other = some here → inFlight here ≠ some fileName) ∧
    (previousFileName pool.shared.setting = some fileName → pool.shared.writer = some id)

/-- A request deletes a clip only when no other save needs it. -/
def Careful (pool : Pool Storage Phase) : PoolAction Request Choice → Prop
  | .start _ _ => True
  | .turn id choice => ∀ here fileName, pool.locals id = some here →
    deletes here choice = some fileName → Unneeded pool id fileName

/-- What a request that has made its commit set the row to. -/
def claimed : Phase → Option (Option String)
  | .discarding own _ | .sweeping own _ | .removing own _ | .finished own _ => some own
  | _ => none

@[simp] theorem previousFileName_settingOf (own : Option String) :
    previousFileName (settingOf own) = own := by
  cases own <;> rfl

/-- The clip the setting names is in the folder. -/
def Stored (store : Storage) : Prop :=
  ∀ fileName, previousFileName store.setting = some fileName → .clip fileName ∈ store.folder

/-- A clip in flight is in the folder, the row is as its last writer set it, and a request
does not sweep its own clip. -/
structure Own (store : Storage) (id : Nat) (here : Option Phase) : Prop where
  inFlight : ∀ fileName, here.bind inFlight = some fileName → .clip fileName ∈ store.folder
  setting : store.writer = some id →
    ∃ own, here.bind claimed = some own ∧ store.setting = settingOf own
  removing : ∀ fileName entries, here = some (.removing (some fileName) entries) →
    .clip fileName ∉ entries

section

variable {id : Nat} {store next : Storage} {here there : Phase} {choice : Choice}
  {fileName : String}

/-- A step leaves every clip in the folder but the one it deletes. -/
theorem turn_folder (hturn : turn id store here choice = some (next, there))
    (hkept : deletes here choice ≠ some fileName) (hmem : .clip fileName ∈ store.folder) :
    .clip fileName ∈ next.folder := by
  revert hturn hkept
  fun_cases turn id store here choice
  all_goals
    rintro ⟨⟩ hkept
  all_goals try simp [hmem]
  next own previous hother =>
    rintro rfl
    simp [deletes, hother] at hkept
  next entry rest =>
    rintro rfl
    exact hkept rfl

/-- A step leaves the row, or commits what its request sets it to. -/
theorem turn_setting (hturn : turn id store here choice = some (next, there)) :
    (next.setting = store.setting ∧ next.writer = store.writer) ∨
      ∃ own, inFlight here = own ∧ claimed there = some own ∧ next.setting = settingOf own ∧
        next.writer = some id := by
  revert hturn
  fun_cases turn id store here choice
  all_goals
    rintro ⟨⟩
  all_goals first
    | exact Or.inl ⟨rfl, rfl⟩
    | exact Or.inr ⟨_, rfl, rfl, rfl, rfl⟩

/-- A save needs its clip from the step that finds or puts it there. -/
theorem turn_inFlight (hturn : turn id store here choice = some (next, there))
    (hthere : inFlight there = some fileName) :
    inFlight here = some fileName ∨ .clip fileName ∈ next.folder := by
  revert hturn hthere
  fun_cases turn id store here choice
  all_goals
    rintro ⟨⟩ hthere
  all_goals simp_all [inFlight]

/-- A request that has made its commit stays so. -/
theorem turn_claimed {own : Option String}
    (hturn : turn id store here choice = some (next, there)) (hhere : claimed here = some own) :
    claimed there = some own := by
  revert hturn hhere
  fun_cases turn id store here choice
  all_goals
    rintro ⟨⟩ hhere
  all_goals simp_all [claimed]

/-- What a request sweeps: what its own readings left out of the entries, or some of it. -/
theorem turn_removing {own : Option String} {entries : List Entry}
    (hturn : turn id store here choice = some (next, there))
    (hthere : there = .removing own entries) :
    (∃ previous, ∀ entry ∈ entries, kept own previous entry = false) ∨
      ∃ before, here = .removing own before ∧ entries ⊆ before := by
  revert hturn hthere
  fun_cases turn id store here choice
  all_goals
    rintro ⟨⟩ hthere
  all_goals cases hthere
  next previous hlisted =>
    refine .inl ⟨previous, fun entry hentry => ?_⟩
    have hkept := (List.mem_filter.mp (hlisted.mem_iff.mp hentry)).2
    simpa using hkept
  all_goals exact .inr ⟨_, rfl, List.subset_cons_self _ _⟩

/-- A request does not delete its own clip. -/
theorem deletes_ne_own (hown : Own store id (some here))
    (hdeletes : deletes here choice = some fileName) :
    ∃ own, claimed here = some own ∧ own ≠ some fileName := by
  revert hdeletes
  fun_cases deletes here choice
  next => nofun
  next own previous hother =>
    rintro ⟨⟩
    exact ⟨own, rfl, hother⟩
  next own fileName rest =>
    rintro ⟨⟩
    refine ⟨own, rfl, ?_⟩
    rintro rfl
    exact hown.removing _ _ rfl List.mem_cons_self
  next => nofun

/-- The clip the setting names is safe from a careful request. -/
theorem deletes_ne_named {pool : Pool Storage Phase}
    (hown : Own pool.shared id (some here)) (hhere : pool.locals id = some here)
    (hcareful : Careful pool (.turn id choice))
    (hnamed : previousFileName pool.shared.setting = some fileName) :
    deletes here choice ≠ some fileName := by
  intro hdeletes
  obtain ⟨own, hclaimed, hne⟩ := deletes_ne_own hown hdeletes
  have hwriter := (hcareful here fileName hhere hdeletes).2 hnamed
  obtain ⟨own', hclaimed', hsetting⟩ := hown.setting hwriter
  obtain rfl := Option.some.inj (hclaimed.symm.trans hclaimed')
  rw [hsetting, previousFileName_settingOf] at hnamed
  exact hne hnamed

/-- The step of a careful request keeps the stored clip, and its own part of the law. -/
theorem own_turn {pool : Pool Storage Phase} (hholds : Party.Holds Stored Own pool)
    (hcareful : Careful pool (.turn id choice)) (hhere : pool.locals id = some here)
    (hturn : turn id pool.shared here choice = some (next, there)) :
    Stored next ∧ Own next id (some there) := by
  have hown : Own pool.shared id (some here) := hhere ▸ hholds.own id
  have hinFlight : ∀ fileName, inFlight here = some fileName → .clip fileName ∈ next.folder := by
    intro fileName hfile
    refine turn_folder hturn (fun hdeletes => ?_) (hown.inFlight fileName hfile)
    obtain ⟨own, hclaimed, -⟩ := deletes_ne_own hown hdeletes
    cases here <;> simp_all [inFlight, claimed]
  refine ⟨fun fileName hnamed => ?_, ⟨fun fileName hthere => ?_, fun hwriter => ?_, ?_⟩⟩
  · rcases turn_setting hturn with ⟨hsetting, -⟩ | ⟨own, hcommits, -, hsetting, -⟩
    · rw [hsetting] at hnamed
      exact turn_folder hturn (deletes_ne_named hown hhere hcareful hnamed)
        (hholds.shared fileName hnamed)
    · rw [hsetting, previousFileName_settingOf] at hnamed
      exact hinFlight fileName (hcommits.trans hnamed)
  · exact (turn_inFlight hturn hthere).elim (hinFlight fileName) fun hmem => hmem
  · rcases turn_setting hturn with ⟨hsetting, hsame⟩ | ⟨own, -, hclaimed, hsetting, -⟩
    · obtain ⟨own, hclaimed, hset⟩ := hown.setting (hsame ▸ hwriter)
      exact ⟨own, turn_claimed hturn hclaimed, hsetting.trans hset⟩
    · exact ⟨own, hclaimed, hsetting⟩
  · rintro fileName entries hthere hmem
    rcases turn_removing hturn (Option.some.inj hthere) with ⟨previous, hout⟩ | ⟨before, rfl, hsub⟩
    · have hkept := hout _ hmem
      simp [kept] at hkept
    · exact hown.removing fileName before rfl (hsub hmem)

/-- The step of a careful request leaves the others what they need. -/
theorem own_other {pool : Pool Storage Phase} {other : Nat}
    (hholds : Party.Holds Stored Own pool) (hcareful : Careful pool (.turn id choice))
    (hhere : pool.locals id = some here)
    (hturn : turn id pool.shared here choice = some (next, there)) (hother : other ≠ id) :
    Own next other (pool.locals other) := by
  have hown := hholds.own other
  refine ⟨fun fileName helsewhere => ?_, fun hwriter => ?_, hown.removing⟩
  · refine turn_folder hturn (fun hdeletes => ?_) (hown.inFlight fileName helsewhere)
    obtain ⟨elsewhere, hlocal, hfile⟩ := Option.bind_eq_some_iff.mp helsewhere
    exact (hcareful here fileName hhere hdeletes).1 other elsewhere hother hlocal hfile
  · rcases turn_setting hturn with ⟨hsetting, hsame⟩ | ⟨own, -, -, -, hwrote⟩
    · rw [hsetting]
      exact hown.setting (hsame ▸ hwriter)
    · exact absurd (Option.some.inj (hwriter.symm.trans hwrote)) hother

end

/-- The store when no request has come yet. -/
def atRest (store : Storage) : Pool Storage Phase := ⟨store, fun _ => none⟩

theorem holds_step {pool next : Pool Storage Phase} {action : PoolAction Request Choice}
    {output : Unit} (hholds : Party.Holds Stored Own pool) (hcareful : Careful pool action)
    (hstep : signOffStore.machine.step pool action = some (next, output)) :
    Party.Holds Stored Own next := by
  refine Party.holds_step (fun pool id request hholds _ hnone => ?_)
    (fun pool id choice here state there => own_turn)
    (fun pool id choice here state there other => own_other) hholds hcareful hstep
  have hown := hnone ▸ hholds.own id
  refine ⟨?_, fun hwriter => ?_, ?_⟩
  · cases request <;> simp [signOffStore, inFlight]
  · obtain ⟨own, hclaimed, -⟩ := hown.setting hwriter
    cases hclaimed
  · cases request <;> simp [signOffStore]

/-- While no request deletes a clip that another save needs, the clip the setting names is in
the folder after every step, and so is the clip of every save that has reported success and
whose setting is still the stored one. -/
theorem stored_exists {store : Storage} {trace : List (PoolAction Request Choice × Unit)}
    {pool : Pool Storage Phase} (hstored : Stored store) (hwriter : store.writer = none)
    (hrun : signOffStore.machine.Run (atRest store) trace pool)
    (hcareful : signOffStore.machine.Meets Careful (atRest store) trace) :
    Stored pool.shared ∧ ∀ id fileName, pool.locals id = some (.finished (some fileName) true) →
      pool.shared.setting = settingOf (some fileName) → .clip fileName ∈ pool.shared.folder := by
  have hstart : Party.Holds Stored Own (atRest store) :=
    ⟨hstored, fun id => ⟨by simp [atRest], by simp [atRest, hwriter], by simp [atRest]⟩⟩
  -- The setting names a file of the folder after every step that deletes with care.
  have hholds := hcareful.invariant (fun _ _ _ _ => holds_step) hstart hrun
  refine ⟨hholds.shared, fun id fileName _ hsetting => hholds.shared fileName ?_⟩
  rw [hsetting, previousFileName_settingOf]

/-- The turns of a request that meets these answers. -/
def turns (id : Nat) (choices : List Choice) : List (PoolAction Request Choice) :=
  choices.map (.turn id ·)

theorem id_of_mem_turns {id : Nat} {choices : List Choice}
    {action : PoolAction Request Choice} (hmem : action ∈ turns id choices) : action.id = id := by
  obtain ⟨choice, -, rfl⟩ := List.mem_map.mp hmem
  rfl

/-- Two saves that both replace the clip they read: the first commits before the second and
cannot list the folder, the second sweeps the first one's clip. -/
def replacedRun (first second : String) : List (PoolAction Request Choice) :=
  .start 1 (.save first) :: .start 2 (.save second) ::
    (turns 1 (List.replicate 5 .succeeds) ++ turns 2 (List.replicate 6 .succeeds) ++
      turns 1 (List.replicate 3 .succeeds) ++ turns 2 (List.replicate 2 .succeeds) ++
      turns 1 [.succeeds, .fails] ++
      turns 2 [.succeeds, .listed [.clip first], .succeeds, .succeeds])

theorem careful_of_deletes {pool : Pool Storage Phase} {id : Nat} {here : Phase} {choice : Choice}
    (hhere : pool.locals id = some here) (hkeeps : deletes here choice = none) :
    Careful pool (.turn id choice) := by
  intro here' fileName hhere' hdeletes
  rw [hhere] at hhere'
  obtain rfl := Option.some.inj hhere'
  rw [hkeeps] at hdeletes
  cases hdeletes

theorem careful_of_unneeded {pool : Pool Storage Phase} {id : Nat} {here : Phase} {choice : Choice}
    {fileName : String} (hhere : pool.locals id = some here)
    (hdeletes : deletes here choice = some fileName) (hunneeded : Unneeded pool id fileName) :
    Careful pool (.turn id choice) := by
  intro here' other hhere' hother
  rw [hhere] at hhere'
  obtain rfl := Option.some.inj hhere'
  obtain rfl := Option.some.inj (hdeletes.symm.trans hother)
  exact hunneeded

/-- Where only one other request has begun, the clip is needed by that one or not at all. -/
theorem unneeded_of_pair (id other : Nat) {pool : Pool Storage Phase} {here : Phase}
    {fileName : String} (hother : pool.locals other = some here)
    (hflight : inFlight here ≠ some fileName)
    (hidle : ∀ third, third ≠ id → third ≠ other → pool.locals third = none)
    (hnamed : previousFileName pool.shared.setting ≠ some fileName) :
    Unneeded pool id fileName := by
  refine ⟨fun third there hthird hthere => ?_, fun hsame => absurd hsame hnamed⟩
  by_cases hsame : third = other
  · rw [hsame, hother] at hthere
    obtain rfl := Option.some.inj hthere
    exact hflight
  · rw [hidle third hthird hsame] at hthere
    cases hthere

theorem stored_exists_replaced :
    let start := atRest ⟨[.clip "a.mp3"], settingOf (some "a.mp3"), none, none⟩
    ∃ trace pool, signOffStore.machine.Run start trace pool ∧
      pool.locals 1 = some (.finished (some "b.mp3") true) ∧
      pool.locals 2 = some (.finished (some "c.mp3") true) ∧
      pool.shared.folder = [.clip "c.mp3"] ∧ Stored pool.shared := by
  intro start
  obtain ⟨pool, hexec, hfirst, hsecond, hfolder⟩ : ∃ pool,
      signOffStore.machine.exec start (replacedRun "b.mp3" "c.mp3") =
        some ((replacedRun "b.mp3" "c.mp3").map (·, ()), pool) ∧
      pool.locals 1 = some (.finished (some "b.mp3") true) ∧
      pool.locals 2 = some (.finished (some "c.mp3") true) ∧
      pool.shared.folder = [.clip "c.mp3"] := ⟨_, rfl, rfl, rfl, rfl⟩
  refine ⟨_, pool, Machine.run_of_exec hexec, hfirst, hsecond, hfolder,
    (stored_exists (fun fileName hnamed => ?_) rfl (Machine.run_of_exec hexec) ?_).1⟩
  · obtain rfl := Option.some.inj hnamed
    exact List.mem_singleton_self _
  · refine .cons trivial rfl (.cons trivial rfl ?_)
    -- up to the second commit nothing is deleted
    iterate 16 refine .cons (careful_of_deletes rfl rfl) rfl ?_
    refine .cons (careful_of_unneeded rfl rfl
      (unneeded_of_pair 1 2 rfl ?_ (fun third hone htwo => ?_)
      ?_)) rfl ?_
    · decide
    · simp only [Function.update_of_ne hone, Function.update_of_ne htwo, atRest]
    · decide
    refine .cons (careful_of_deletes rfl rfl) rfl ?_
    refine .cons (careful_of_unneeded rfl rfl
      (unneeded_of_pair 2 1 rfl ?_ (fun third htwo hone => ?_)
      ?_)) rfl ?_
    · decide
    · simp only [Function.update_of_ne hone, Function.update_of_ne htwo, atRest]
    · decide
    refine .cons (careful_of_deletes rfl rfl) rfl ?_
    refine .cons (careful_of_unneeded rfl rfl
      (unneeded_of_pair 2 1 rfl ?_ (fun third htwo hone => ?_)
      ?_)) rfl ?_
    · decide
    · simp only [Function.update_of_ne hone, Function.update_of_ne htwo, atRest]
    · decide
    exact .cons (careful_of_deletes rfl rfl) rfl .nil

/-- Two saves: the first installs its clip, the second runs to its end and sweeps it, and the
first goes on to store the setting. -/
def sweptRun (first second : String) : List (PoolAction Request Choice) :=
  .start 1 (.save first) :: .start 2 (.save second) ::
    (turns 1 (List.replicate 5 .succeeds) ++
      turns 2 (List.replicate 9 .succeeds ++ [.listed [.clip first], .succeeds, .succeeds]) ++
      turns 1 (List.replicate 4 .succeeds ++ [.listed [], .succeeds]))

theorem stored_clip_swept :
    ∃ trace pool, signOffStore.machine.Run (atRest ⟨[], none, none, none⟩) trace pool ∧
      (∀ id here, pool.locals id = some here → ∃ own success, here = .finished own success) ∧
      pool.locals 1 = some (.finished (some "aaaaaaaaaaaaaaaa.mp3") true) ∧
      pool.shared.setting = settingOf (some "aaaaaaaaaaaaaaaa.mp3") ∧
      .clip "aaaaaaaaaaaaaaaa.mp3" ∉ pool.shared.folder := by
  obtain ⟨trace, pool, hexec, hshared, hfirst, hsecond⟩ : ∃ trace pool,
      signOffStore.machine.exec (atRest ⟨[], none, none, none⟩)
        (sweptRun "aaaaaaaaaaaaaaaa.mp3" "bbbbbbbbbbbbbbbb.mp3") = some (trace, pool) ∧
      pool.shared = ⟨[], settingOf (some "aaaaaaaaaaaaaaaa.mp3"), some 1, none⟩ ∧
      pool.locals 1 = some (.finished (some "aaaaaaaaaaaaaaaa.mp3") true) ∧
      pool.locals 2 = some (.finished (some "bbbbbbbbbbbbbbbb.mp3") true) :=
    ⟨_, _, rfl, rfl, rfl, rfl⟩
  refine ⟨trace, pool, Machine.run_of_exec hexec, fun id here hhere => ?_, hfirst, ?_, ?_⟩
  · by_cases hone : id = 1
    · subst hone
      exact ⟨_, _, Option.some.inj (hhere.symm.trans hfirst)⟩
    by_cases htwo : id = 2
    · subst htwo
      exact ⟨_, _, Option.some.inj (hhere.symm.trans hsecond)⟩
    -- no other request has begun
    have hidle := @Party.exec_locals _ _ _ _ _ _ _ _ _ id hexec (by
      intro action haction
      simp only [sweptRun, List.mem_cons, List.mem_append] at haction
      rcases haction with rfl | rfl | (hmem | hmem) | hmem
      · exact Ne.symm hone
      · exact Ne.symm htwo
      · exact id_of_mem_turns hmem ▸ Ne.symm hone
      · exact id_of_mem_turns hmem ▸ Ne.symm htwo
      · exact id_of_mem_turns hmem ▸ Ne.symm hone)
    rw [hhere] at hidle
    cases hidle
  · rw [hshared]
  · simp [hshared]

end RetroStation.Streaming.SignOffStore
