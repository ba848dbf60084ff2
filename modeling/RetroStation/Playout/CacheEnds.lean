import RetroStation.Playout.CacheRuns

/-! # Every start ends

Once the script on disk stays as it is, a start can be sent round again only by
what is stale: a fingerprint read before, or a build that goes by one. Each of these
is used up, so a start takes a bounded number of turns, however many others there are.
-/

namespace RetroStation.Playout

open Transition

variable {Digest : Type} [DecidableEq Digest]

section

variable (host : ScriptHost Digest) (script : String)

/-- A start that is reading another script than the one on disk. -/
def isStaleReading (disk : Disk) : Start → Bool
  | .reading reading =>
    (host.readOut disk reading).map host.digest ≠ host.scriptFingerprint disk script
  | _ => false

/-- A build that goes by another script than the one on disk. -/
def isStaleBuild (disk : Disk) (build : Build Digest) : Bool :=
  build.isRunning && some build.fingerprint ≠ host.scriptFingerprint disk script

/-- Everything left from before the script was as it is. -/
def stale (state : CacheState Digest) : Nat :=
  state.starts.countP (isStaleReading host script state.disk) +
    state.builds.countP (isStaleBuild host script state.disk)

/-- One round, unless the cache goes by the script on disk. -/
def coldRounds (state : CacheState Digest) : Nat :=
  if state.warmFor.isSome ∧ state.warmFor = host.scriptFingerprint state.disk script then 0 else 1

/-- How often a start can still be sent round: by what is stale, twice each, and
by a cold cache. -/
def roundsLeft (state : CacheState Digest) : Nat :=
  2 * stale host script state + coldRounds host script state

/-- The turns one round takes at most. -/
def roundTurns (disk : Disk) : Nat := host.readingWork disk (ScriptHost.opened script) + 2

/-- The turns left to a start that waits for `build`, with `rounds` left. -/
def waitTurns (disk : Disk) (rounds : Nat) (text : ScriptText) (build : Build Digest) : Nat :=
  if build.isRunning then
    if some build.fingerprint = host.scriptFingerprint disk script ∧
        build.fingerprint ≠ host.digest text then
      (rounds + 1) * roundTurns host script disk
    else rounds * roundTurns host script disk
  else if build.fingerprint = host.digest text ∧ build.outcome ≠ some .accepted then 1
  else (rounds + 1) * roundTurns host script disk

/-- The turns left to a start. -/
def turnsLeft (state : CacheState Digest) : Start → Nat
  | .reading reading =>
    roundsLeft host script state * roundTurns host script state.disk +
      host.readingWork state.disk reading + 1
  | .waiting text place =>
    match state.builds[place]? with
    | some build => waitTurns host script state.disk (roundsLeft host script state) text build
    | none => 0
  | .ended => 0

end

/-- A turn of the start `id`. -/
def isTurnOf (id : Nat) : CacheAction → Bool
  | .readFile start | .look start | .wake start => start = id
  | _ => false

def isEdit : CacheAction → Bool
  | .edit _ => true
  | _ => false

variable {host : ScriptHost Digest} {script : String}
variable {state next : CacheState Digest} {action : CacheAction} {reply : Option StartEnd}

/-! ## What is stale -/

theorem countP_set_add {α : Type} {values : List α} {p : α → Bool} {id : Nat} {old new : α}
    (hold : values[id]? = some old) :
    (values.set id new).countP p + (if p old then 1 else 0) =
      values.countP p + if p new then 1 else 0 := by
  obtain ⟨hin, rfl⟩ := List.getElem?_eq_some_iff.mp hold
  have hpos : p values[id] = true → 0 < values.countP p := fun hp =>
    List.countP_pos_iff.mpr ⟨_, List.getElem_mem hin, hp⟩
  rw [List.countP_set hin]
  split
  next hp =>
    have := hpos hp
    omega
  · omega

theorem isStaleReading_opened (disk : Disk) :
    isStaleReading host script disk (.reading (ScriptHost.opened script)) = false := by
  simp [isStaleReading, ScriptHost.scriptFingerprint, ScriptHost.scriptText]

theorem isStaleReading_of_nil {disk : Disk} {reading : Reading} (hpending : reading.pending = []) :
    isStaleReading host script disk (.reading reading) =
      decide (some (host.digest reading.text) ≠ host.scriptFingerprint disk script) := by
  simp [isStaleReading, readOut_of_nil hpending]

theorem isStaleReading_next {disk : Disk} {reading further : Reading}
    (hpending : reading.pending ≠ []) (hread : host.readNext disk reading = some further) :
    isStaleReading host script disk (.reading further) =
      isStaleReading host script disk (.reading reading) := by
  simp only [isStaleReading, readOut_next hpending, hread, Option.bind_some]

theorem stale_setStart {id : Nat} {old new : Start} (hold : state.starts[id]? = some old) :
    stale host script (state.setStart id new) +
        (if isStaleReading host script state.disk old then 1 else 0) =
      stale host script state + if isStaleReading host script state.disk new then 1 else 0 := by
  have hcount := @countP_set_add _ _ (isStaleReading host script state.disk) _ _ new hold
  simp only [stale, CacheState.setStart] at hcount ⊢
  omega

theorem stale_setBuild {id : Nat} {old new : Build Digest}
    (hold : state.builds[id]? = some old) :
    stale host script (state.setBuild id new) +
        (if isStaleBuild host script state.disk old then 1 else 0) =
      stale host script state + if isStaleBuild host script state.disk new then 1 else 0 := by
  have hcount := @countP_set_add _ _ (isStaleBuild host script state.disk) _ _ new hold
  simp only [stale, CacheState.setBuild] at hcount ⊢
  omega

/-- A start that begins to wait is stale no more; the build it may begin is stale
if it was. -/
theorem stale_waits {id place : Nat} {reading : Reading} {builds : List (Build Digest)}
    (hstart : state.starts[id]? = some (.reading reading)) (hpending : reading.pending = [])
    (hcurrent : current state.builds (host.digest reading.text) = (builds, place)) :
    stale host script ({ state with builds := builds }.setStart id (.waiting reading.text place)) ≤
        stale host script state ∧
      (builds = state.builds →
        some (host.digest reading.text) ≠ host.scriptFingerprint state.disk script →
        stale host script ({ state with builds := builds }.setStart id
          (.waiting reading.text place)) + 1 ≤ stale host script state) := by
  have hset : stale host script
        ({ state with builds := builds }.setStart id (.waiting reading.text place)) +
      (if isStaleReading host script state.disk (.reading reading) then 1 else 0) =
      stale host script { state with builds := builds } + 0 :=
    @stale_setStart _ _ host script { state with builds := builds } id _
      (.waiting reading.text place) hstart
  rw [isStaleReading_of_nil hpending] at hset
  simp only [decide_eq_true_eq] at hset
  rcases @current_spec _ _ state (host.digest reading.text) with ⟨-, -, -, -, heq⟩ | ⟨-, heq⟩
  · obtain ⟨rfl, -⟩ := Prod.mk.inj (hcurrent.symm.trans heq)
    change _ = stale host script state + 0 at hset
    refine ⟨by omega, fun _ hother => ?_⟩
    rw [if_pos hother] at hset
    omega
  · obtain ⟨rfl, -⟩ := Prod.mk.inj (hcurrent.symm.trans heq)
    have hnew : stale host script { state with
        builds := state.builds ++ [{ fingerprint := host.digest reading.text }] } =
        stale host script state + if some (host.digest reading.text) ≠
          host.scriptFingerprint state.disk script then 1 else 0 := by
      simp only [stale, List.countP_append, List.countP_singleton, isStaleBuild, Build.isRunning,
        Option.isNone_none, Bool.true_and, decide_eq_true_eq]
      omega
    rw [hnew] at hset
    refine ⟨by omega, fun hsame => ?_⟩
    simp at hsame

/-- A build that ends is stale no more. -/
theorem stale_endBuild {build : Build Digest} {outcome : BuildOutcome}
    (hlast : state.running = some build) :
    stale host script (state.endBuild build outcome) +
      (if some build.fingerprint = host.scriptFingerprint state.disk script then 0 else 1) =
      stale host script state := by
  obtain ⟨hplace, hrunning⟩ := running_eq_some hlast
  have hset := @stale_setBuild _ _ host script _ _ _ { build with outcome := some outcome } hplace
  have hold : isStaleBuild host script state.disk build =
      decide (some build.fingerprint ≠ host.scriptFingerprint state.disk script) := by
    simp [isStaleBuild, hrunning]
  have hnew : isStaleBuild host script state.disk { build with outcome := some outcome } =
      false := by simp [isStaleBuild, Build.isRunning]
  rw [hold, hnew] at hset
  change stale host script (state.endBuild build outcome) + _ = _ at hset
  by_cases hcurrent : some build.fingerprint = host.scriptFingerprint state.disk script
  · simpa [hcurrent] using hset
  · simpa [hcurrent] using hset

/-! ## The rounds left -/

theorem coldRounds_le_one : coldRounds host script state ≤ 1 := by
  unfold coldRounds
  split <;> omega

theorem roundsLeft_le (hstale : stale host script next ≤ stale host script state)
    (hdisk : next.disk = state.disk) (hwarm : next.warmFor = state.warmFor) :
    roundsLeft host script next ≤ roundsLeft host script state := by
  unfold roundsLeft coldRounds
  rw [hdisk, hwarm]
  omega

theorem cacheStep_disk (hstep : CacheStep host script state action next reply)
    (hedit : isEdit action = false) : next.disk = state.disk := by
  cases hstep with
  | edits => cases hedit
  | _ => rfl

/-- Ending a build takes a round from every start: a stale one is gone, and one that
goes by the script on disk makes the cache go by it, or else has failed. -/
theorem roundsLeft_endBuild (hok : BuildsOk state) {build : Build Digest}
    {outcome : BuildOutcome} (hlast : state.running = some build) :
    roundsLeft host script (state.endBuild build outcome) ≤ roundsLeft host script state ∧
      1 ≤ roundsLeft host script state ∧
      (some build.fingerprint = host.scriptFingerprint state.disk script → outcome ≠ .accepted ∨
        roundsLeft host script (state.endBuild build outcome) + 1 ≤
          roundsLeft host script state) ∧
      (some build.fingerprint ≠ host.scriptFingerprint state.disk script →
        roundsLeft host script (state.endBuild build outcome) + 1 ≤
          roundsLeft host script state) := by
  have hstale := @stale_endBuild _ _ host script state build outcome hlast
  obtain ⟨hplace, hrunning⟩ := running_eq_some hlast
  have hcold := hok.cold build (List.mem_of_getElem? hplace) hrunning
  have hnext := @coldRounds_le_one _ _ host script (state.endBuild build outcome)
  unfold roundsLeft
  by_cases hcurrent : some build.fingerprint = host.scriptFingerprint state.disk script
  · have hnow : coldRounds host script state = 1 :=
      if_neg fun hwarm => hcold (hwarm.2.trans hcurrent.symm)
    rw [if_pos hcurrent, Nat.add_zero] at hstale
    refine ⟨by omega, by omega, fun _ => ?_, fun hother => absurd hcurrent hother⟩
    by_cases haccepted : outcome = .accepted
    · have hwarm : (state.endBuild build outcome).warmFor = some build.fingerprint := by
        simp [CacheState.endBuild, haccepted]
      have hthen : coldRounds host script (state.endBuild build outcome) = 0 :=
        if_pos ⟨by simp [hwarm], hwarm.trans hcurrent⟩
      exact .inr (by omega)
    · exact .inl haccepted
  · rw [if_neg hcurrent] at hstale
    exact ⟨by omega, by omega, fun hsame => absurd hsame hcurrent, fun _ => by omega⟩

/-- Over an unchanged script no step leaves more rounds. -/
theorem roundsLeft_step (hok : BuildsOk state)
    (hstep : CacheStep host script state action next reply) (hedit : isEdit action = false) :
    roundsLeft host script next ≤ roundsLeft host script state := by
  have hset : ∀ (id : Nat) (old new : Start), state.starts[id]? = some old →
      (isStaleReading host script state.disk new = true →
        isStaleReading host script state.disk old = true) →
      roundsLeft host script (state.setStart id new) ≤ roundsLeft host script state := by
    intro id old new hold hfresh
    have hstale := @stale_setStart _ _ host script state id old new hold
    refine roundsLeft_le ?_ rfl rfl
    split at hstale <;> split at hstale
    · omega
    · omega
    next hold' hnew => exact absurd (hfresh hnew) hold'
    · omega
  cases hstep with
  | edits => cases hedit
  | begins =>
      refine roundsLeft_le ?_ rfl rfl
      simp [stale, List.countP_append, isStaleReading_opened]
  | reads hstart hpending hread =>
      exact hset _ _ _ hstart fun hstale => (isStaleReading_next hpending hread).symm.trans hstale
  | unreadable hstart => exact hset _ _ _ hstart (by simp [isStaleReading])
  | returns hstart => exact hset _ _ _ hstart (by simp [isStaleReading])
  | waits hstart hpending _ hcurrent =>
      exact roundsLeft_le (stale_waits hstart hpending hcurrent).1 rfl rfl
  | refused hstart => exact hset _ _ _ hstart (by simp [isStaleReading])
  | looksAgain hstart => exact hset _ _ _ hstart (by simp [isStaleReading_opened])
  | cancelled hstart => exact hset _ _ _ hstart (by simp [isStaleReading])
  | @buildReads build hlast hunread =>
      obtain ⟨hplace, hrunning⟩ := running_eq_some hlast
      have hstale := @stale_setBuild _ _ host script _ _ _
        { build with read := some (host.scriptText state.disk script) } hplace
      refine roundsLeft_le (Nat.le_of_eq ?_) rfl rfl
      exact Nat.add_right_cancel hstale
  | buildEnds hlast => exact (roundsLeft_endBuild hok hlast).1
  | @settles id build hbuild hdone hunsettled =>
      have hstale := @stale_setBuild _ _ host script _ _ _ build.settle hbuild
      refine roundsLeft_le (Nat.le_of_eq ?_) rfl rfl
      exact Nat.add_right_cancel hstale

/-! ## The turns left -/

omit [DecidableEq Digest] in
theorem two_le_roundTurns (disk : Disk) : 2 ≤ roundTurns host script disk :=
  Nat.le_add_left 2 _

theorem waitTurns_mono {disk : Disk} {fewer rounds : Nat} (hle : fewer ≤ rounds)
    (text : ScriptText) (build : Build Digest) :
    waitTurns host script disk fewer text build ≤ waitTurns host script disk rounds text build := by
  have hturns := Nat.mul_le_mul_right (roundTurns host script disk) hle
  have hmore := Nat.mul_le_mul_right (roundTurns host script disk) (Nat.add_le_add_right hle 1)
  unfold waitTurns
  split
  · split
    · exact hmore
    · exact hturns
  · split
    · exact Nat.le_refl 1
    · exact hmore

theorem waitTurns_congr {disk : Disk} {rounds : Nat} {text : ScriptText} {kept build : Build Digest}
    (hfingerprint : kept.fingerprint = build.fingerprint)
    (houtcome : kept.outcome = build.outcome) :
    waitTurns host script disk rounds text kept = waitTurns host script disk rounds text build := by
  obtain ⟨_, _, _, _, _⟩ := kept
  obtain ⟨_, _, _, _, _⟩ := build
  dsimp only at hfingerprint houtcome
  subst hfingerprint houtcome
  rfl

/-- Every waiting start waits for a build there is. -/
def WaitsOk (state : CacheState Digest) : Prop :=
  ∀ (id : Nat) (text : ScriptText) (place : Nat),
    state.starts[id]? = some (.waiting text place) → place < state.builds.length

/-- A start that takes no turn has no more turns left, as long as its build does not end. -/
theorem turnsLeft_le {start : Start}
    (hrounds : roundsLeft host script next ≤ roundsLeft host script state)
    (hdisk : next.disk = state.disk)
    (hvalid : ∀ text place, start = .waiting text place → place < state.builds.length)
    (hbuilds : ∀ (place : Nat) (build : Build Digest), state.builds[place]? = some build →
      ∃ kept : Build Digest, next.builds[place]? = some kept ∧
        kept.fingerprint = build.fingerprint ∧
        kept.outcome = build.outcome) :
    turnsLeft host script next start ≤ turnsLeft host script state start := by
  cases start with
  | ended => exact Nat.le_refl 0
  | reading reading =>
      have hturns := Nat.mul_le_mul_right (roundTurns host script state.disk) hrounds
      simp only [turnsLeft, hdisk]
      omega
  | waiting text place =>
      have hin := hvalid text place rfl
      obtain ⟨kept, hkept, hfingerprint, houtcome⟩ :=
        hbuilds place _ (List.getElem?_eq_getElem hin)
      simp only [turnsLeft, hkept, List.getElem?_eq_getElem hin, hdisk]
      rw [waitTurns_congr hfingerprint houtcome]
      exact waitTurns_mono hrounds text _

/-- A start whose build ends has a round less, or fails with it. -/
theorem waitTurns_ends {disk : Disk} {fewer rounds : Nat} {text : ScriptText}
    {build : Build Digest} {outcome : BuildOutcome} (hrunning : build.isRunning)
    (hless : fewer ≤ rounds) (hone : 1 ≤ rounds)
    (hcurrent : some build.fingerprint = host.scriptFingerprint disk script →
      outcome ≠ .accepted ∨ fewer + 1 ≤ rounds)
    (hstale : some build.fingerprint ≠ host.scriptFingerprint disk script →
      fewer + 1 ≤ rounds) :
    waitTurns host script disk fewer text { build with outcome := some outcome } ≤
      waitTurns host script disk rounds text build := by
  have htwo := @two_le_roundTurns _ host script disk
  have hround : fewer + 1 ≤ rounds →
      (fewer + 1) * roundTurns host script disk ≤ rounds * roundTurns host script disk :=
    fun hle => Nat.mul_le_mul_right _ hle
  have hfirst := Nat.mul_le_mul_right (roundTurns host script disk) hone
  have hmore := Nat.mul_le_mul_right (roundTurns host script disk) (Nat.add_le_add_right hless 1)
  have hsucc : (rounds + 1) * roundTurns host script disk =
      rounds * roundTurns host script disk + roundTurns host script disk := Nat.succ_mul _ _
  unfold waitTurns
  rw [if_pos hrunning, if_neg (by simp [Build.isRunning])]
  dsimp only
  by_cases hown : build.fingerprint = host.digest text ∧ some outcome ≠ some .accepted
  · rw [if_pos hown]
    split <;> omega
  · rw [if_neg hown]
    split
    · exact hmore
    next hother =>
      by_cases hcur : some build.fingerprint = host.scriptFingerprint disk script
      · rcases hcurrent hcur with hfailed | hle
        · have hsame : build.fingerprint = host.digest text := by
            by_contra hne
            exact hother ⟨hcur, hne⟩
          exact absurd ⟨hsame, by simpa using hfailed⟩ hown
        · exact hround hle
      · exact hround (hstale hcur)

theorem turnsLeft_endBuild (hok : BuildsOk state) {build : Build Digest} {outcome : BuildOutcome}
    (hlast : state.running = some build) (start : Start) :
    turnsLeft host script (state.endBuild build outcome) start ≤
      turnsLeft host script state start := by
  obtain ⟨hless, hone, hcurrent, hstale⟩ :=
    @roundsLeft_endBuild _ _ host script _ hok _ outcome hlast
  obtain ⟨hplace, hrunning⟩ := running_eq_some hlast
  cases start with
  | ended => exact Nat.le_refl 0
  | reading reading =>
      have hturns := Nat.mul_le_mul_right (roundTurns host script state.disk) hless
      simp only [turnsLeft]
      change _ * roundTurns host script state.disk + host.readingWork state.disk reading + 1 ≤ _
      omega
  | waiting text place =>
      simp only [turnsLeft]
      by_cases hlastPlace : state.builds.length - 1 = place
      · subst hlastPlace
        have hin := (List.getElem?_eq_some_iff.mp hplace).1
        have hends : (state.endBuild build outcome).builds[state.builds.length - 1]? =
            some { build with outcome := some outcome } := List.getElem?_set_self hin
        rw [hends, hplace]
        exact waitTurns_ends hrunning hless hone hcurrent hstale
      · have hkept : (state.endBuild build outcome).builds[place]? = state.builds[place]? :=
          List.getElem?_set_ne hlastPlace
        rw [hkept]
        cases state.builds[place]? with
        | none => exact Nat.le_refl 0
        | some other => exact waitTurns_mono hless text other

/-- The builds a step leaves a start to wait for, when it ends none. -/
theorem builds_step (hstep : CacheStep host script state action next reply)
    (hends : ∀ outcome, action ≠ .buildEnds outcome) (place : Nat) (build : Build Digest)
    (hbuild : state.builds[place]? = some build) :
    ∃ kept, next.builds[place]? = some kept ∧ kept.fingerprint = build.fingerprint ∧
      kept.outcome = build.outcome := by
  have hset : ∀ (id : Nat) (old new : Build Digest), state.builds[id]? = some old →
      new.fingerprint = old.fingerprint → new.outcome = old.outcome →
      ∃ kept, (state.builds.set id new)[place]? = some kept ∧
        kept.fingerprint = build.fingerprint ∧ kept.outcome = build.outcome := by
    intro id old new hold hfingerprint houtcome
    by_cases hid : id = place
    · subst hid
      obtain rfl := Option.some.inj (hold.symm.trans hbuild)
      exact ⟨new, List.getElem?_set_self (List.getElem?_eq_some_iff.mp hold).1, hfingerprint,
        houtcome⟩
    · exact ⟨build, by rw [List.getElem?_set_ne hid, hbuild], rfl, rfl⟩
  cases hstep with
  | buildReads hlast hunread => exact hset _ _ _ (running_eq_some hlast).1 rfl rfl
  | buildEnds => exact absurd rfl (hends _)
  | settles hold => exact hset _ _ _ hold rfl rfl
  | @waits id waited reading builds hstart hpending hcold hcurrent =>
      rcases @current_spec _ _ state (host.digest reading.text) with ⟨-, -, -, -, heq⟩ | ⟨-, heq⟩
      · obtain ⟨rfl, -⟩ := Prod.mk.inj (hcurrent.symm.trans heq)
        exact ⟨build, hbuild, rfl, rfl⟩
      · obtain ⟨rfl, -⟩ := Prod.mk.inj (hcurrent.symm.trans heq)
        have hin := (List.getElem?_eq_some_iff.mp hbuild).1
        exact ⟨build, (List.getElem?_append_left hin).trans hbuild, rfl, rfl⟩
  | _ => exact ⟨build, hbuild, rfl, rfl⟩

/-- A start that begins to wait has a turn less left. -/
theorem turnsLeft_waits {id place : Nat} {reading : Reading} {builds : List (Build Digest)}
    (hstart : state.starts[id]? = some (.reading reading)) (hpending : reading.pending = [])
    (hcold : state.warmFor ≠ some (host.digest reading.text))
    (hcurrent : current state.builds (host.digest reading.text) = (builds, place)) :
    turnsLeft host script ({ state with builds := builds }.setStart id
      (.waiting reading.text place))
        (.waiting reading.text place) + 1 ≤
      turnsLeft host script state (.reading reading) := by
  obtain ⟨hstale, hstaleOwn⟩ := @stale_waits _ _ host script _ _ _ _ _ hstart hpending hcurrent
  have hrounds := roundsLeft_le hstale rfl rfl
  have hbuilds : ({ state with builds := builds }.setStart id
    (.waiting reading.text place) : CacheState Digest).builds = builds := rfl
  have hdisk : ({ state with builds := builds }.setStart id
    (.waiting reading.text place) : CacheState Digest).disk = state.disk := rfl
  generalize { state with builds := builds }.setStart id (.waiting reading.text place) = next at *
  have hturns := Nat.mul_le_mul_right (roundTurns host script state.disk) hrounds
  have htwo := @two_le_roundTurns _ host script state.disk
  have hnextCold := @coldRounds_le_one _ _ host script next
  simp only [turnsLeft, hbuilds, hdisk]
  rcases @current_spec _ _ state (host.digest reading.text) with
    ⟨build, hbuild, -, hwaits, heq⟩ | ⟨-, heq⟩
  · obtain ⟨rfl, rfl⟩ := Prod.mk.inj (hcurrent.symm.trans heq)
    have hown : some (host.digest reading.text) ≠ host.scriptFingerprint state.disk script →
        roundsLeft host script next + 1 ≤ roundsLeft host script state := by
      intro hother
      have hless := hstaleOwn rfl hother
      unfold roundsLeft
      omega
    have hsome : 1 ≤ roundsLeft host script state := by
      by_cases hcur : some (host.digest reading.text) = host.scriptFingerprint state.disk script
      · have hnow : coldRounds host script state = 1 :=
          if_neg fun hwarm => hcold (hwarm.2.trans hcur.symm)
        unfold roundsLeft
        omega
      · exact Nat.le_trans (Nat.le_add_left 1 _) (hown hcur)
    have hfirst := Nat.mul_le_mul_right (roundTurns host script state.disk) hsome
    rw [hbuild]
    dsimp only
    unfold waitTurns
    rcases hwaits with hrunning | ⟨hsame, hrejected⟩
    · rw [if_pos hrunning]
      split
      next hother =>
        have hless := Nat.mul_le_mul_right (roundTurns host script state.disk)
          (hown fun heq => hother.2 (Option.some.inj (hother.1.trans heq.symm)))
        omega
      · omega
    · have hfailed : build.outcome = some (.failed .rejected) := by
        simpa [Build.isRejected] using hrejected
      rw [if_neg (by simp [Build.isRunning, hfailed]), if_pos ⟨hsame, by simp [hfailed]⟩]
      omega
  · obtain ⟨rfl, rfl⟩ := Prod.mk.inj (hcurrent.symm.trans heq)
    rw [List.getElem?_append_right (Nat.le_refl _), Nat.sub_self, List.getElem?_cons_zero]
    dsimp only
    unfold waitTurns
    rw [if_pos (by rfl), if_neg (by simp)]
    omega

/-- A turn of a start leaves it fewer, and no step of another leaves it more. -/
theorem turnsLeft_step (hok : BuildsOk state) (hwaits : WaitsOk state)
    (hstep : cacheStep host script state action = some (next, reply))
    (hedit : isEdit action = false) {id : Nat} {start : Start}
    (hstart : state.starts[id]? = some start) :
    ∃ later, next.starts[id]? = some later ∧
      turnsLeft host script next later + (if isTurnOf id action then 1 else 0) ≤
        turnsLeft host script state start := by
  have hcases := cacheStep_cases hstep
  have hin := (List.getElem?_eq_some_iff.mp hstart).1
  have hrounds := roundsLeft_step hok hcases hedit
  have hdisk := cacheStep_disk hcases hedit
  have hturns := Nat.mul_le_mul_right (roundTurns host script state.disk) hrounds
  have htwo := @two_le_roundTurns _ host script state.disk
  -- A start the step is not about has what it had.
  have hothers : (∀ outcome, action ≠ .buildEnds outcome) → next.starts[id]? = some start →
      isTurnOf id action = false → ∃ later, next.starts[id]? = some later ∧
        turnsLeft host script next later + (if isTurnOf id action then 1 else 0) ≤
          turnsLeft host script state start := by
    intro hends hkept hturn
    refine ⟨start, hkept, ?_⟩
    rw [hturn]
    exact turnsLeft_le hrounds hdisk (fun text place heq => hwaits id text place (heq ▸ hstart))
      (builds_step hcases hends)
  have hset : ∀ {other : Nat} {new : Start} {state : CacheState Digest}, other ≠ id →
      state.starts[id]? = some start → (state.setStart other new).starts[id]? = some start :=
    fun hne hkept => (List.getElem?_set_ne hne).trans hkept
  -- In each case either the turn is this start's own, or `hothers` applies.
  cases hcases with
  | edits => cases hedit
  | begins =>
      exact hothers (by simp) ((List.getElem?_append_left hin).trans hstart) rfl
  | @reads other reading further hreading hpending hread =>
      by_cases hid : other = id
      · subst hid
        obtain rfl := Option.some.inj (hstart.symm.trans hreading)
        refine ⟨.reading further, List.getElem?_set_self hin, ?_⟩
        have hwork := readNext_work hpending hread
        simp only [turnsLeft, isTurnOf, decide_true, if_true]
        change roundsLeft host script (state.setStart other (.reading further)) *
          roundTurns host script state.disk + host.readingWork state.disk further + 1 + 1 ≤ _
        omega
      · exact hothers (by simp) (hset hid hstart) (by simpa [isTurnOf] using hid)
  | @unreadable other reading hreading hpending hread =>
      by_cases hid : other = id
      · subst hid
        obtain rfl := Option.some.inj (hstart.symm.trans hreading)
        refine ⟨.ended, List.getElem?_set_self hin, ?_⟩
        simp only [turnsLeft, isTurnOf, decide_true, if_true]
        omega
      · exact hothers (by simp) (hset hid hstart) (by simpa [isTurnOf] using hid)
  | @returns other reading hreading hpending hwarm =>
      by_cases hid : other = id
      · subst hid
        obtain rfl := Option.some.inj (hstart.symm.trans hreading)
        refine ⟨.ended, List.getElem?_set_self hin, ?_⟩
        simp only [turnsLeft, isTurnOf, decide_true, if_true]
        omega
      · exact hothers (by simp) (hset hid hstart) (by simpa [isTurnOf] using hid)
  | @waits other place reading builds hreading hpending hcold hcurrent =>
      by_cases hid : other = id
      · subst hid
        obtain rfl := Option.some.inj (hstart.symm.trans hreading)
        refine ⟨.waiting reading.text place, List.getElem?_set_self hin, ?_⟩
        have hwaiting := @turnsLeft_waits _ _ host script _ _ _ _ _ hreading hpending hcold hcurrent
        simp only [isTurnOf, decide_true, if_true]
        omega
      · exact hothers (by simp) (hset hid hstart) (by simpa [isTurnOf] using hid)
  | @refused other place text build why hwaiting hbuild houtcome hsame =>
      by_cases hid : other = id
      · subst hid
        obtain rfl := Option.some.inj (hstart.symm.trans hwaiting)
        refine ⟨.ended, List.getElem?_set_self hin, ?_⟩
        simp [turnsLeft, isTurnOf, hbuild, waitTurns, Build.isRunning, houtcome, hsame]
      · exact hothers (by simp) (hset hid hstart) (by simpa [isTurnOf] using hid)
  -- The build was of another script: the start reads afresh, which its last round pays for.
  | @looksAgain other place text build outcome hwaiting hbuild houtcome hother =>
      by_cases hid : other = id
      · subst hid
        obtain rfl := Option.some.inj (hstart.symm.trans hwaiting)
        refine ⟨.reading (ScriptHost.opened script), List.getElem?_set_self hin, ?_⟩
        have hnotOwn : ¬ (build.fingerprint = host.digest text ∧
            build.outcome ≠ some .accepted) := fun hown =>
          hown.2 (houtcome.trans (congrArg some (hother hown.1)))
        have hsucc : (roundsLeft host script state + 1) * roundTurns host script state.disk =
            roundsLeft host script state * roundTurns host script state.disk +
              roundTurns host script state.disk := Nat.succ_mul _ _
        simp only [turnsLeft, isTurnOf, decide_true, if_true, hbuild, waitTurns, Build.isRunning,
          houtcome, Option.isNone_some, Bool.false_eq_true, if_false]
        rw [← houtcome, if_neg hnotOwn, hsucc]
        change roundsLeft host script (state.setStart other _) *
          roundTurns host script state.disk +
            host.readingWork state.disk (ScriptHost.opened script) + 1 + 1 ≤ _
        have hround : roundTurns host script state.disk =
            host.readingWork state.disk (ScriptHost.opened script) + 2 := rfl
        omega
      · exact hothers (by simp) (hset hid hstart) (by simpa [isTurnOf] using hid)
  | @cancelled other going hgoing hnotOver =>
      by_cases hid : other = id
      · subst hid
        exact ⟨.ended, List.getElem?_set_self hin, Nat.zero_le _⟩
      · exact hothers (by simp) (hset hid hstart) rfl
  | buildReads => exact hothers (by simp) hstart rfl
  | buildEnds hlast => exact ⟨start, hstart, turnsLeft_endBuild hok hlast start⟩
  | settles => exact hothers (by simp) hstart rfl

/-! ## Every run -/

theorem waitsOk_step (hwaits : WaitsOk state)
    (hstep : cacheStep host script state action = some (next, reply)) : WaitsOk next := by
  have hset : ∀ {id : Nat} {new : Start} {state : CacheState Digest}, WaitsOk state →
      (∀ text place, new = .waiting text place → place < state.builds.length) →
      WaitsOk (state.setStart id new) := by
    intro id new state hwaits hnew other text place hother
    by_cases hid : id = other
    · subst hid
      have hin := (List.getElem?_eq_some_iff.mp hother).1
      rw [CacheState.setStart, List.length_set] at hin
      exact hnew text place (Option.some.inj ((List.getElem?_set_self hin).symm.trans hother))
    · exact hwaits other text place ((List.getElem?_set_ne hid).symm.trans hother)
  -- A start waits for a build that is there, and builds are only ever added.
  cases cacheStep_cases hstep with
  | edits => exact hwaits
  | begins =>
      intro id text place hstart
      rcases Nat.lt_or_ge id state.starts.length with hin | hout
      · exact hwaits id text place ((List.getElem?_append_left hin).symm.trans hstart)
      · have hlast := (List.getElem?_append_right hout).symm.trans hstart
        cases List.mem_singleton.mp (List.mem_of_getElem? hlast)
  | reads => exact hset hwaits (by simp)
  | unreadable => exact hset hwaits (by simp)
  | returns => exact hset hwaits (by simp)
  | refused => exact hset hwaits (by simp)
  | looksAgain => exact hset hwaits (by simp)
  | cancelled => exact hset hwaits (by simp)
  | @waits id place reading builds hstart hpending hcold hcurrent =>
      have hvalid : state.builds.length ≤ builds.length ∧ place < builds.length := by
        rcases @current_spec _ _ state (host.digest reading.text) with
          ⟨build, hbuild, -, -, heq⟩ | ⟨-, heq⟩
        · obtain ⟨rfl, rfl⟩ := Prod.mk.inj (hcurrent.symm.trans heq)
          exact ⟨Nat.le_refl _, (List.getElem?_eq_some_iff.mp hbuild).1⟩
        · obtain ⟨rfl, rfl⟩ := Prod.mk.inj (hcurrent.symm.trans heq)
          simp
      refine @hset id _ { state with builds := builds } (fun other text waited hother => ?_) ?_
      · exact Nat.lt_of_lt_of_le (hwaits other text waited hother) hvalid.1
      · rintro text waited heq
        cases heq
        exact hvalid.2
  | buildReads =>
      intro id text place hstart
      rw [CacheState.setRunning, CacheState.setBuild, List.length_set]
      exact hwaits id text place hstart
  | buildEnds =>
      intro id text place hstart
      rw [CacheState.endBuild, List.length_set]
      exact hwaits id text place hstart
  | settles =>
      intro id text place hstart
      rw [CacheState.setBuild, List.length_set]
      exact hwaits id text place hstart

/-- A start stays among the starts. -/
theorem starts_step (hstep : CacheStep host script state action next reply) :
    state.starts.length ≤ next.starts.length := by
  cases hstep with
  | edits => exact Nat.le_refl _
  | begins => simp
  | buildReads => exact Nat.le_refl _
  | buildEnds => exact Nat.le_refl _
  | settles => exact Nat.le_refl _
  | _ => exact Nat.le_of_eq (List.length_set ..).symm

/-- Once there are no more edits, a start takes a bounded number of turns. -/
theorem turns_bounded (hok : BuildsOk state) (hwaits : WaitsOk state) {id : Nat} {start : Start}
    (hstart : state.starts[id]? = some start) {final : CacheState Digest}
    {trace : List (CacheAction × Option StartEnd)}
    (hrun : (cacheMachine host script).Run state trace final)
    (hedits : ∀ entry ∈ trace, isEdit entry.1 = false) :
    trace.countP (fun entry => isTurnOf id entry.1) ≤ turnsLeft host script state start := by
  let store (state : CacheState Digest) : Nat :=
    ((state.starts[id]?).map (turnsLeft host script state)).getD 0
  have hkeep : (cacheMachine host script).Preserves fun state =>
      BuildsOk state ∧ WaitsOk state ∧ id < state.starts.length :=
    fun _ _ _ _ hall hstep => ⟨buildsOk_step hall.1 hstep, waitsOk_step hall.2.1 hstep,
      Nat.lt_of_lt_of_le hall.2.2 (starts_step (cacheStep_cases hstep))⟩
  have hall := @Machine.Run.turns_le _ _ _ (cacheMachine host script) state final trace _ store
    (isTurnOf id) (fun action => !isEdit action) hkeep
    (by
      intro state next action reply hall hallowed hstep
      have hnow := List.getElem?_eq_getElem hall.2.2
      obtain ⟨later, hlater, hturns⟩ :=
        turnsLeft_step hall.1 hall.2.1 hstep (by simpa using hallowed) hnow
      simpa only [store, hnow, hlater, Option.map_some, Option.getD_some] using hturns)
    ⟨hok, hwaits, (List.getElem?_eq_some_iff.mp hstart).1⟩ (by simpa using hedits) hrun
  have hstore : store state = turnsLeft host script state start := by simp [store, hstart]
  omega

/-- A start that has not ended can take a turn, or waits for the build that runs. -/
theorem canGoOn (hok : BuildsOk state) (hwaits : WaitsOk state) {id : Nat} {start : Start}
    (hstart : state.starts[id]? = some start) (hgoing : start ≠ .ended) :
    (∃ action, isTurnOf id action ∧ (cacheStep host script state action).isSome) ∨
      ∃ text place build, start = .waiting text place ∧ state.builds[place]? = some build ∧
        state.running = some build := by
  cases start with
  | ended => exact absurd rfl hgoing
  | reading reading =>
      refine .inl ?_
      by_cases hpending : reading.pending = []
      · exact ⟨.look id, by simp [isTurnOf], by simp [cacheStep, hstart, hpending]⟩
      · refine ⟨.readFile id, by simp [isTurnOf], ?_⟩
        simp only [cacheStep, hstart, hpending, if_false]
        cases host.readNext state.disk reading <;> rfl
  | waiting text place =>
      have hin := hwaits id text place hstart
      cases houtcome : state.builds[place].outcome with
      | none =>
          have hlast := hok.onlyLast place _ (List.getElem?_eq_getElem hin) (by
            simp [Build.isRunning, houtcome])
          refine .inr ⟨text, place, state.builds[place], rfl, List.getElem?_eq_getElem hin, ?_⟩
          rw [CacheState.running, List.getLast?_eq_getElem?, ← hlast, Nat.add_sub_cancel,
            List.getElem?_eq_getElem hin]
          simp [Build.isRunning, houtcome]
      | some outcome =>
          refine .inl ⟨.wake id, by simp [isTurnOf], ?_⟩
          simp [cacheStep, hstart, List.getElem?_eq_getElem hin, houtcome]

/-- The callback of a build that has ended can run, until it has. -/
theorem settles_or {id : Nat} {build : Build Digest} (hbuild : state.builds[id]? = some build) :
    build.isRunning ∨ build.settled ∨ (cacheStep host script state (.settle id)).isSome := by
  by_cases hdone : build.isRunning ∨ build.settled
  · exact hdone.elim .inl (fun hsettled => .inr (.inl hsettled))
  · simp only [not_or, Bool.not_eq_true] at hdone
    exact .inr (.inr (by simp [cacheStep, hbuild, hdone]))

/-- Starts, edits and builds in any order. If every build reads the text it goes by, a
start returns only with its text built last, and is refused only a text that was refused.
Whatever builds read, one runs at a time, tells of its failure once and outlives every
cancelled start; and once the edits stop, every start can go on and ends. -/
theorem ensureWarm_warm (hdigest : Function.Injective host.digest) {disk : Disk}
    {trace : List (CacheAction × Option StartEnd)}
    (hrun : (cacheMachine host script).Run (.initial disk) trace state) :
    ((cacheMachine host script).Meets (ReadsItsText host script) (.initial disk) trace →
      (∀ action next text,
        cacheStep host script state action = some (next, some (.returned text)) →
        ∃ build, LastAccepted state.builds build ∧ build.read = some (some text)) ∧
      ∀ action next text,
        cacheStep host script state action = some (next, some (.refused text .rejected)) →
        ∃ build ∈ state.builds, build.outcome = some (.failed .rejected) ∧
          build.read = some (some text)) ∧
    (∀ (id other : Nat) (first second : Build Digest), state.builds[id]? = some first →
      state.builds[other]? = some second → first.isRunning → second.isRunning → id = other) ∧
    (∀ (id : Nat) (build : Build Digest), state.builds[id]? = some build →
      (build.told =
        if build.settled ∧ (build.outcome.bind BuildOutcome.failure).isSome then 1 else 0) ∧
      (build.isRunning ∨ build.settled ∨ (cacheStep host script state (.settle id)).isSome)) ∧
    (∀ id next reply, cacheStep host script state (.cancel id) = some (next, reply) →
      next.builds = state.builds) ∧
    ∀ (id : Nat) (start : Start), state.starts[id]? = some start →
      (start ≠ .ended →
        (∃ action, isTurnOf id action ∧ (cacheStep host script state action).isSome) ∨
        ∃ text place build, start = .waiting text place ∧ state.builds[place]? = some build ∧
          state.running = some build) ∧
      ∃ bound, ∀ more final, (cacheMachine host script).Run state more final →
        (∀ entry ∈ more, isEdit entry.1 = false) →
        more.countP (fun entry => isTurnOf id entry.1) ≤ bound := by
  have hok := buildsOk_run hrun
  have hwaits : WaitsOk state :=
    hrun.invariant (fun _ _ _ _ hwaits hstep => waitsOk_step hwaits hstep)
      (by simp [WaitsOk, CacheState.initial])
  refine ⟨fun hmeets => ?_, ?_, fun id build hbuild =>
    ⟨(hok.each build (List.mem_of_getElem? hbuild)).told, settles_or hbuild⟩,
    fun id next reply hstep => (cacheStep_cancel hstep).1, fun id start hstart => ?_⟩
  · have hlabelled := labelled_run hrun hmeets
    -- A build is labelled by the text it read; equal digests are of equal texts.
    have hreads : ∀ (build : Build Digest) (text read : ScriptText), build ∈ state.builds →
        build.fingerprint = host.digest text → build.read = some (some read) → read = text := by
      intro build text read hbuild hsame hread
      have hlabel := hlabelled build hbuild _ hread
      rw [Option.map_some, hsame] at hlabel
      exact hdigest (Option.some.inj hlabel)
    constructor
    · intro action next text hstep
      obtain ⟨build, hlast, hsame⟩ := hok.warm _ (cacheStep_returned hstep)
      have hbuild : build ∈ state.builds := List.mem_of_getElem? hlast.2.choose_spec.1
      obtain ⟨read, hread⟩ := (hok.each build hbuild).accepted hlast.1
      obtain rfl := hreads build text read hbuild hsame hread
      exact ⟨build, hlast, hread⟩
    · intro action next text hstep
      obtain ⟨build, hbuild, hsame, houtcome⟩ := cacheStep_refused hstep
      obtain ⟨read, hread⟩ := Option.isSome_iff_exists.mp
        ((hok.each build hbuild).rejected houtcome)
      have hlabel := hlabelled build hbuild _ hread
      cases read with
      | none => cases hlabel
      | some read =>
          obtain rfl := hreads build text read hbuild hsame hread
          exact ⟨build, hbuild, houtcome, hread⟩
  · intro id other first second hfirst hsecond hfirstRuns hsecondRuns
    have hid := hok.onlyLast id first hfirst hfirstRuns
    have hother := hok.onlyLast other second hsecond hsecondRuns
    omega
  · exact ⟨canGoOn hok hwaits hstart,
      turnsLeft host script state start, fun more final hmore hedits =>
      turns_bounded hok hwaits hstart hmore hedits⟩

/-- Scripts that are their own fingerprint. -/
def plainHost : ScriptHost ScriptText := ⟨fun _ name => String.ofList name, id⟩

/-- The session script with `text` in it. -/
def scriptOn (text : List Char) : Disk := Dict.empty.set "session.liq" text

/-- A start whose build reads an edit that is undone while it runs. -/
def undoneEdit (outcome : BuildOutcome) : List CacheAction :=
  [.ensureWarm, .readFile 0, .look 0, .edit (scriptOn ['y']), .buildReads, .buildEnds outcome,
    .edit (scriptOn ['x'])]

/-- A start returns although the cache was last built for the edit, and a later start is
refused although no build has read its script. -/
theorem undoneEdit_misleads :
    (∃ trace state next, (cacheMachine plainHost "session.liq").Run (.initial (scriptOn ['x']))
        trace state ∧
      cacheStep plainHost "session.liq" state (.look 0) =
        some (next, some (.returned [("session.liq", ['x'])])) ∧
      ¬ ∃ build, LastAccepted state.builds build ∧
        build.read = some (some [("session.liq", ['x'])])) ∧
    ∃ trace state next, (cacheMachine plainHost "session.liq").Run (.initial (scriptOn ['x']))
        trace state ∧
      cacheStep plainHost "session.liq" state (.wake 1) =
        some (next, some (.refused [("session.liq", ['x'])] .rejected)) ∧
      ¬ ∃ build ∈ state.builds, build.outcome = some (.failed .rejected) ∧
        build.read = some (some [("session.liq", ['x'])]) := by
  constructor
  · refine ⟨_, _, _, Machine.run_of_exec (rfl : (cacheMachine plainHost "session.liq").exec
      (.initial (scriptOn ['x'])) (undoneEdit .accepted ++ [.wake 0, .readFile 0]) = some (_, _)),
      rfl, ?_⟩
    rintro ⟨build, ⟨-, id, hbuild, -⟩, hread⟩
    obtain rfl := List.mem_singleton.mp (List.mem_of_getElem? hbuild)
    exact absurd hread (by decide)
  · refine ⟨_, _, _, Machine.run_of_exec (rfl : (cacheMachine plainHost "session.liq").exec
      (.initial (scriptOn ['x'])) (undoneEdit (.failed .rejected) ++
        [.wake 0, .ensureWarm, .readFile 1, .look 1]) = some (_, _)), rfl, ?_⟩
    rintro ⟨build, hbuild, -, hread⟩
    obtain rfl := List.mem_singleton.mp hbuild
    exact absurd hread (by decide)

/-- Two starts of one build, and an edit while it runs: the first start is cancelled, and the
second waits for a build of the edit. -/
def editedBetween : List CacheAction :=
  [.ensureWarm, .readFile 0, .look 0, .ensureWarm, .readFile 1, .look 1, .buildReads,
    .edit (scriptOn ['y']), .buildEnds .accepted, .settle 0, .wake 0, .wake 1, .readFile 0,
    .look 0, .cancel 0, .readFile 1, .look 1, .buildReads, .buildEnds .accepted, .wake 1,
    .readFile 1]

theorem ensureWarm_warm_edited : ∃ trace state next,
    (cacheMachine plainHost "session.liq").Run (.initial (scriptOn ['x'])) trace state ∧
      state.builds.length = 2 ∧
      cacheStep plainHost "session.liq" state (.look 1) =
        some (next, some (.returned [("session.liq", ['y'])])) ∧
      ∃ build, LastAccepted state.builds build ∧
        build.read = some (some [("session.liq", ['y'])]) := by
  have hrun := Machine.run_of_exec (rfl : (cacheMachine plainHost "session.liq").exec
    (.initial (scriptOn ['x'])) editedBetween = some (_, _))
  refine ⟨_, _, _, hrun, rfl, rfl, ?_⟩
  refine ((ensureWarm_warm Function.injective_id hrun).1 ?_).1 (.look 1) _ _ rfl
  -- each build reads while the disk holds its text
  have hreads {state : CacheState ScriptText} {build : Build ScriptText}
      (hlast : state.running = some build)
      (hsame : plainHost.scriptFingerprint state.disk "session.liq" = some build.fingerprint) :
      ReadsItsText plainHost "session.liq" state .buildReads := by
    rintro - other hother
    obtain rfl := Option.some.inj (hlast.symm.trans hother)
    exact hsame
  iterate 6 refine .cons (by simp [ReadsItsText]) rfl ?_
  refine .cons (hreads rfl rfl) rfl ?_
  iterate 10 refine .cons (by simp [ReadsItsText]) rfl ?_
  refine .cons (hreads rfl rfl) rfl ?_
  iterate 3 refine .cons (by simp [ReadsItsText]) rfl ?_
  exact .nil

end RetroStation.Playout
