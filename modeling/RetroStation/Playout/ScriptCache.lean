import Mathlib.Algebra.GroupWithZero.Nat
import RetroStation.Dict.Basic
import RetroStation.Transition.Run

/-! # The session script and its cache

The session script with every file it includes, each read once in the order the
includes name them. Reading takes one file at a time, so an edit can land in
between; over a disk that stays as it is, every reading ends.
-/

namespace RetroStation.Playout

/-- The files on disk, by resolved path. -/
abbrev Disk := Dict String (List Char)

/-- Files read, in order. -/
abbrev ScriptText := List (String × List Char)

def isBlank (char : Char) : Bool := char = ' ' || char = '\t'

/-- The name an include at the start of `text` gives, with the length of the match. -/
def includeHere (text : List Char) : Option (List Char × Nat) :=
  let keyword := "%include".toList
  let indented := text.dropWhile isBlank
  if keyword.isPrefixOf indented then
    let blanks := (indented.drop keyword.length).takeWhile isBlank
    let quoted := (indented.drop keyword.length).drop blanks.length
    let name := (quoted.drop 1).takeWhile (· ≠ '"')
    if blanks ≠ [] ∧ quoted.head? = some '"' ∧ name ≠ [] ∧
        (quoted.drop (1 + name.length)).head? = some '"' then
      some (name, text.length - (quoted.length - (name.length + 2)))
    else none
  else none

/-- The names the includes of `text` give, in order; `skip` characters still belong
to the last one. An include starts a line. -/
def includeNames (skip : Nat) (lineStart : Bool) : List Char → List (List Char)
  | [] => []
  | char :: rest =>
    match skip with
    | skip + 1 => includeNames skip (char = '\n') rest
    | 0 =>
      match if lineStart then includeHere (char :: rest) else none with
      | some (name, length) => name :: includeNames (length - 1) (char = '\n') rest
      | none => includeNames 0 (char = '\n') rest

/-- How an include's name is found from the file it stands in, and what a hash of
a script's files is. -/
structure ScriptHost (Digest : Type) where
  resolve : String → List Char → String
  digest : ScriptText → Digest

/-- A script being read: the files still to read, and those read. -/
structure Reading where
  pending : List String
  seen : List String
  text : ScriptText
  deriving DecidableEq, Repr

variable {Digest : Type}

namespace ScriptHost

variable (host : ScriptHost Digest)

/-- The files that `text` at `path` includes. -/
def included (path : String) (text : List Char) : List String :=
  (includeNames 0 true text).map (host.resolve path)

/-- Read the next file; `none` when it cannot be read. -/
def readNext (disk : Disk) (reading : Reading) : Option Reading :=
  match reading.pending with
  | [] => some reading
  | current :: pending =>
    if current ∈ reading.seen then some { reading with pending := pending }
    else
      (disk.get? current).map fun text =>
        ⟨host.included current text ++ pending, current :: reading.seen,
          reading.text ++ [(current, text)]⟩

/-- How many files are left to read, with every include there could still be. -/
def readingWork (disk : Disk) (reading : Reading) : Nat :=
  reading.pending.length +
    ((disk.entries.filter fun file => file.1 ∉ reading.seen).map fun file =>
      (host.included file.1 file.2).length).sum

/-- Read on for at most `fuel` files. -/
def readOn (disk : Disk) : Nat → Reading → Option ScriptText
  | 0, reading => some reading.text
  | fuel + 1, reading => (host.readNext disk reading).bind (readOn disk fuel)

/-- The text a reading ends with on a disk that stays as it is. -/
def readOut (disk : Disk) (reading : Reading) : Option ScriptText :=
  host.readOn disk (host.readingWork disk reading) reading

/-- A reading of `script` from its start. -/
def opened (script : String) : Reading := ⟨[script], [], []⟩

/-- The text of `script` on disk; `none` when one of its files cannot be read. -/
def scriptText (disk : Disk) (script : String) : Option ScriptText :=
  host.readOut disk (opened script)

/-- A hash of `script` and every file it includes. -/
def scriptFingerprint (disk : Disk) (script : String) : Option Digest :=
  (host.scriptText disk script).map host.digest

end ScriptHost

variable {host : ScriptHost Digest} {disk : Disk} {reading next : Reading}

/-! ## Reading to the end -/

/-- Seeing a file for the first time takes its includes out of the sum. -/
theorem sum_filter_not_seen {files : List (String × List Char)} {size : String × List Char → Nat}
    {seen : List String} {path : String} {text : List Char}
    (hnodup : (files.map Prod.fst).Nodup) (hfile : (path, text) ∈ files) (hnew : path ∉ seen) :
    ((files.filter fun file => file.1 ∉ seen).map size).sum =
      size (path, text) + ((files.filter fun file => file.1 ∉ path :: seen).map size).sum := by
  induction files with
  | nil => simp at hfile
  | cons head rest ih =>
      obtain ⟨hhead, hrest⟩ := List.nodup_cons.mp hnodup
      rcases List.mem_cons.mp hfile with rfl | hfile
      · have hothers : rest.filter (fun file => file.1 ∉ path :: seen) =
            rest.filter fun file => file.1 ∉ seen := by
          refine List.filter_congr fun file hmem => ?_
          have hne : file.1 ≠ path := fun heq =>
            hhead (List.mem_map.mpr ⟨file, hmem, heq⟩)
          simp [hne]
        simp only [List.filter_cons, hnew, not_false_eq_true, decide_true, if_true,
          List.mem_cons_self, not_true_eq_false, decide_false, Bool.false_eq_true, if_false,
          hothers, List.map_cons, List.sum_cons]
      · have hne : head.1 ≠ path := fun heq =>
          hhead (List.mem_map.mpr ⟨(path, text), hfile, heq.symm⟩)
        have hih := ih hrest hfile
        by_cases hseen : head.1 ∈ seen
        · simpa [List.filter_cons, hseen, hne] using hih
        · simp only [List.filter_cons, hseen, List.mem_cons, hne, or_false, not_false_eq_true,
            decide_true, if_true, List.map_cons, List.sum_cons] at hih ⊢
          omega

/-- Every file read leaves one less to read. -/
theorem readNext_work (hpending : reading.pending ≠ [])
    (hnext : host.readNext disk reading = some next) :
    host.readingWork disk next + 1 = host.readingWork disk reading := by
  unfold ScriptHost.readNext at hnext
  unfold ScriptHost.readingWork
  split at hnext
  next hnone => exact absurd hnone hpending
  next current pending hcons =>
    rw [hcons]
    split at hnext
    · cases hnext
      simp only [List.length_cons]
      omega
    next hnew =>
      obtain ⟨text, htext, rfl⟩ := Option.map_eq_some_iff.mp hnext
      have hfile := Dict.get?_eq_some_iff.mp htext
      rw [sum_filter_not_seen disk.nodup hfile hnew]
      simp only [List.length_append, List.length_cons]
      omega

theorem readOut_of_nil (hpending : reading.pending = []) :
    host.readOut disk reading = some reading.text := by
  have hnext : host.readNext disk reading = some reading := by simp [ScriptHost.readNext, hpending]
  unfold ScriptHost.readOut
  generalize host.readingWork disk reading = fuel
  induction fuel with
  | zero => rfl
  | succ fuel ih =>
      rw [ScriptHost.readOn, hnext]
      exact ih

/-- A reading and what it is after its next file end with the same text. -/
theorem readOut_next (hpending : reading.pending ≠ []) :
    host.readOut disk reading = (host.readNext disk reading).bind (host.readOut disk) := by
  obtain ⟨less, hwork⟩ : ∃ less, host.readingWork disk reading = less + 1 := by
    obtain ⟨head, rest, hcons⟩ := List.exists_cons_of_ne_nil hpending
    exact ⟨_, by rw [ScriptHost.readingWork, hcons, List.length_cons, Nat.add_right_comm]⟩
  rw [ScriptHost.readOut, hwork, ScriptHost.readOn]
  cases hnext : host.readNext disk reading with
  | none => rfl
  | some next =>
      have hless := readNext_work hpending hnext
      obtain rfl : less = host.readingWork disk next := by omega
      rfl

end RetroStation.Playout

/-! ## The script cache

Starts wait for Liquidsoap's cache to hold the session script, sharing one build.
A start reads the script's fingerprint file by file; a build goes by the fingerprint
it was started for, and reads the script itself later on.
-/

namespace RetroStation.Playout

open Transition

/-- Why a build failed: Liquidsoap refused the script, it took too long, it could not
be run, or something else broke. -/
inductive BuildFailure
  | rejected | overran | couldNotRun | broke
  deriving DecidableEq, Repr

inductive BuildOutcome
  | accepted
  | failed (why : BuildFailure)
  deriving DecidableEq, Repr

def BuildOutcome.failure : BuildOutcome → Option BuildFailure
  | .accepted => none
  | .failed why => some why

/-- One build: what it goes by, the script it has read (`some none` with a file
missing), how it ended, whether its callback has run and how often it told of a failure. -/
structure Build (Digest : Type) where
  fingerprint : Digest
  read : Option (Option ScriptText) := none
  outcome : Option BuildOutcome := none
  settled : Bool := false
  told : Nat := 0

/-- One start in `ensure_warm`. -/
inductive Start
  | reading (reading : Reading)
  | waiting (text : ScriptText) (build : Nat)
  | ended

/-- What a start is told in the end. -/
inductive StartEnd
  | returned (text : ScriptText)
  | refused (text : ScriptText) (why : BuildFailure)
  | unreadable
  | cancelled
  deriving DecidableEq, Repr

/-- The cache with the disk, every build there was and every start. -/
structure CacheState (Digest : Type) where
  disk : Disk
  warmFor : Option Digest := none
  builds : List (Build Digest) := []
  starts : List Start := []

inductive CacheAction
  | edit (disk : Disk)
  | ensureWarm
  | readFile (start : Nat)
  | look (start : Nat)
  | wake (start : Nat)
  | cancel (start : Nat)
  | buildReads
  | buildEnds (outcome : BuildOutcome)
  | settle (build : Nat)

variable {Digest : Type}

namespace Build

def isRunning (build : Build Digest) : Bool := build.outcome.isNone

/-- Liquidsoap refused this build's script. -/
def isRejected (build : Build Digest) : Bool := build.outcome = some (.failed .rejected)

/-- The done callback: a failure is told. -/
def settle (build : Build Digest) : Build Digest :=
  { build with
    settled := true
    told := match build.outcome.bind BuildOutcome.failure with
      | some _ => build.told + 1
      | none => build.told }

end Build

section

variable [DecidableEq Digest]

/-- The build in progress, this script's rejected build, or a new build of it. -/
def current (builds : List (Build Digest)) (fingerprint : Digest) : List (Build Digest) × Nat :=
  match builds.getLast? with
  | some build =>
    if build.isRunning || (build.fingerprint = fingerprint && build.isRejected) then
      (builds, builds.length - 1)
    else (builds ++ [{ fingerprint := fingerprint }], builds.length)
  | none => (builds ++ [{ fingerprint := fingerprint }], builds.length)

end

namespace CacheState

/-- The last build, while it runs. -/
def running (state : CacheState Digest) : Option (Build Digest) :=
  state.builds.getLast?.filter Build.isRunning

def setStart (state : CacheState Digest) (id : Nat) (start : Start) : CacheState Digest :=
  { state with starts := state.starts.set id start }

def setBuild (state : CacheState Digest) (id : Nat) (build : Build Digest) : CacheState Digest :=
  { state with builds := state.builds.set id build }

/-- The last build, changed. -/
def setRunning (state : CacheState Digest) (build : Build Digest) : CacheState Digest :=
  state.setBuild (state.builds.length - 1) build

/-- The last build ends; an accepted one is what the cache goes by from now on. -/
def endBuild (state : CacheState Digest) (build : Build Digest) (outcome : BuildOutcome) :
    CacheState Digest where
  disk := state.disk
  warmFor := if outcome = .accepted then some build.fingerprint else state.warmFor
  builds := state.builds.set (state.builds.length - 1) { build with outcome := some outcome }
  starts := state.starts

end CacheState

section

variable [DecidableEq Digest] (host : ScriptHost Digest) (script : String)

/-- A start that has read the script: done when the cache was built for it, else
it waits for a build. -/
def lookAt (state : CacheState Digest) (id : Nat) (text : ScriptText) :
    CacheState Digest × Option StartEnd :=
  if state.warmFor = some (host.digest text) then
    (state.setStart id .ended, some (.returned text))
  else
    let (builds, build) := current state.builds (host.digest text)
    ({ state with builds := builds }.setStart id (.waiting text build), none)

/-- A start whose build has ended: refused when its own build failed, else it looks
at the script again. -/
def wakeFrom (state : CacheState Digest) (id : Nat) (text : ScriptText) (build : Build Digest)
    (outcome : BuildOutcome) : CacheState Digest × Option StartEnd :=
  match if build.fingerprint = host.digest text then outcome.failure else none with
  | some why => (state.setStart id .ended, some (.refused text why))
  | none => (state.setStart id (.reading (ScriptHost.opened script)), none)

/-- Liquidsoap accepts or refuses a script it has read. -/
def canEnd (build : Build Digest) : BuildOutcome → Bool
  | .accepted => build.read.any Option.isSome
  | .failed .rejected => build.read.isSome
  | .failed _ => true

def cacheStep (state : CacheState Digest) :
    CacheAction → Option (CacheState Digest × Option StartEnd)
  | .edit disk => some ({ state with disk := disk }, none)
  | .ensureWarm =>
    some ({ state with starts := state.starts ++ [.reading (ScriptHost.opened script)] }, none)
  | .readFile id =>
    match state.starts[id]? with
    | some (.reading reading) =>
      if reading.pending = [] then none
      else
        match host.readNext state.disk reading with
        | some next => some (state.setStart id (.reading next), none)
        | none => some (state.setStart id .ended, some .unreadable)
    | _ => none
  | .look id =>
    match state.starts[id]? with
    | some (.reading reading) =>
      if reading.pending = [] then some (lookAt host state id reading.text) else none
    | _ => none
  | .wake id =>
    match state.starts[id]? with
    | some (.waiting text build) =>
      state.builds[build]?.bind fun build =>
        build.outcome.map fun outcome => wakeFrom host script state id text build outcome
    | _ => none
  | .cancel id =>
    match state.starts[id]? with
    | some (.reading _) | some (.waiting _ _) =>
      some (state.setStart id .ended, some .cancelled)
    | _ => none
  | .buildReads =>
    state.running.bind fun build =>
      if build.read.isSome then none
      else
        some (state.setRunning { build with read := some (host.scriptText state.disk script) },
          none)
  | .buildEnds outcome =>
    state.running.bind fun build =>
      if canEnd build outcome then some (state.endBuild build outcome, none) else none
  | .settle id =>
    state.builds[id]?.bind fun build =>
      if build.isRunning || build.settled then none
      else some (state.setBuild id build.settle, none)

def cacheMachine : Machine (CacheState Digest) CacheAction (Option StartEnd) where
  step := cacheStep host script

end

end RetroStation.Playout
