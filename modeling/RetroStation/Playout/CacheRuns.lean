import RetroStation.Playout.ScriptCache

/-! # What the builds of a script cache hold

Whatever the order of starts, edits and builds: at most one build runs, each tells
of its failure once, and the cache goes by the build accepted last. If every build
reads the very text it goes by, a start that returns has its text in the cache, and
one that is refused fingerprinted a text Liquidsoap refused.
-/

namespace RetroStation.Playout

open Transition

variable {Digest : Type} [DecidableEq Digest] {host : ScriptHost Digest} {script : String}
variable {state next : CacheState Digest} {action : CacheAction} {reply : Option StartEnd}

/-! ## What a step does -/

/-- Everything a step can do, with what it needs. -/
inductive CacheStep (host : ScriptHost Digest) (script : String) (state : CacheState Digest) :
    CacheAction → CacheState Digest → Option StartEnd → Prop
  | edits (disk : Disk) : CacheStep host script state (.edit disk) { state with disk := disk } none
  | begins : CacheStep host script state .ensureWarm
      { state with starts := state.starts ++ [.reading (ScriptHost.opened script)] } none
  | reads {id : Nat} {reading further : Reading}
      (hstart : state.starts[id]? = some (.reading reading)) (hpending : reading.pending ≠ [])
      (hread : host.readNext state.disk reading = some further) :
      CacheStep host script state (.readFile id) (state.setStart id (.reading further)) none
  | unreadable {id : Nat} {reading : Reading}
      (hstart : state.starts[id]? = some (.reading reading)) (hpending : reading.pending ≠ [])
      (hread : host.readNext state.disk reading = none) :
      CacheStep host script state (.readFile id) (state.setStart id .ended) (some .unreadable)
  | returns {id : Nat} {reading : Reading}
      (hstart : state.starts[id]? = some (.reading reading)) (hpending : reading.pending = [])
      (hwarm : state.warmFor = some (host.digest reading.text)) :
      CacheStep host script state (.look id) (state.setStart id .ended)
        (some (.returned reading.text))
  | waits {id build : Nat} {reading : Reading} {builds : List (Build Digest)}
      (hstart : state.starts[id]? = some (.reading reading)) (hpending : reading.pending = [])
      (hcold : state.warmFor ≠ some (host.digest reading.text))
      (hcurrent : current state.builds (host.digest reading.text) = (builds, build)) :
      CacheStep host script state (.look id)
        ({ state with builds := builds }.setStart id (.waiting reading.text build)) none
  | refused {id place : Nat} {text : ScriptText} {build : Build Digest} {why : BuildFailure}
      (hstart : state.starts[id]? = some (.waiting text place))
      (hbuild : state.builds[place]? = some build)
      (houtcome : build.outcome = some (.failed why))
      (hsame : build.fingerprint = host.digest text) :
      CacheStep host script state (.wake id) (state.setStart id .ended) (some (.refused text why))
  | looksAgain {id place : Nat} {text : ScriptText} {build : Build Digest}
      {outcome : BuildOutcome} (hstart : state.starts[id]? = some (.waiting text place))
      (hbuild : state.builds[place]? = some build) (houtcome : build.outcome = some outcome)
      (hother : build.fingerprint = host.digest text → outcome = .accepted) :
      CacheStep host script state (.wake id)
        (state.setStart id (.reading (ScriptHost.opened script))) none
  | cancelled {id : Nat} {start : Start} (hstart : state.starts[id]? = some start)
      (hgoing : start ≠ .ended) :
      CacheStep host script state (.cancel id) (state.setStart id .ended) (some .cancelled)
  | buildReads {build : Build Digest} (hlast : state.running = some build)
      (hunread : build.read = none) :
      CacheStep host script state .buildReads
        (state.setRunning { build with read := some (host.scriptText state.disk script) }) none
  | buildEnds {build : Build Digest} {outcome : BuildOutcome} (hlast : state.running = some build)
      (hcan : canEnd build outcome) :
      CacheStep host script state (.buildEnds outcome) (state.endBuild build outcome) none
  | settles {id : Nat} {build : Build Digest} (hbuild : state.builds[id]? = some build)
      (hdone : build.isRunning = false) (hunsettled : build.settled = false) :
      CacheStep host script state (.settle id) (state.setBuild id build.settle) none

theorem lookAt_cases {id : Nat} {reading : Reading}
    (hstart : state.starts[id]? = some (.reading reading)) (hpending : reading.pending = [])
    (hlook : lookAt host state id reading.text = (next, reply)) :
    CacheStep host script state (.look id) next reply := by
  unfold lookAt at hlook
  split at hlook
  next hwarm =>
    obtain ⟨rfl, rfl⟩ := Prod.mk.inj hlook
    exact .returns hstart hpending hwarm
  next hcold =>
    obtain ⟨rfl, rfl⟩ := Prod.mk.inj hlook
    exact .waits hstart hpending hcold rfl

theorem wakeFrom_cases {id place : Nat} {text : ScriptText} {build : Build Digest}
    {outcome : BuildOutcome} (hstart : state.starts[id]? = some (.waiting text place))
    (hbuild : state.builds[place]? = some build) (houtcome : build.outcome = some outcome)
    (hwake : wakeFrom host script state id text build outcome = (next, reply)) :
    CacheStep host script state (.wake id) next reply := by
  unfold wakeFrom at hwake
  split at hwake
  next why hwhy =>
    obtain ⟨rfl, rfl⟩ := Prod.mk.inj hwake
    split at hwhy
    next hsame =>
      cases outcome with
      | accepted => cases hwhy
      | failed _ =>
          cases hwhy
          exact .refused hstart hbuild houtcome hsame
    · cases hwhy
  next hnone =>
    obtain ⟨rfl, rfl⟩ := Prod.mk.inj hwake
    refine .looksAgain hstart hbuild houtcome fun hsame => ?_
    rw [if_pos hsame] at hnone
    cases outcome with
    | accepted => rfl
    | failed _ => cases hnone

theorem cacheStep_cases (hstep : cacheStep host script state action = some (next, reply)) :
    CacheStep host script state action next reply := by
  cases action with
  | edit disk =>
      cases hstep
      exact .edits disk
  | ensureWarm =>
      cases hstep
      exact .begins
  | readFile id =>
      simp only [cacheStep] at hstep
      split at hstep
      next reading hstart =>
        split at hstep
        · cases hstep
        next hpending =>
          split at hstep
          next further hread =>
            cases hstep
            exact .reads hstart hpending hread
          next hread =>
            cases hstep
            exact .unreadable hstart hpending hread
      · cases hstep
  | look id =>
      simp only [cacheStep] at hstep
      split at hstep
      next reading hstart =>
        split at hstep
        next hpending => exact lookAt_cases hstart hpending (Option.some.inj hstep)
        · cases hstep
      · cases hstep
  | wake id =>
      simp only [cacheStep] at hstep
      split at hstep
      next text place hstart =>
        obtain ⟨build, hbuild, hstep⟩ := Option.bind_eq_some_iff.mp hstep
        obtain ⟨outcome, houtcome, hwake⟩ := Option.map_eq_some_iff.mp hstep
        exact wakeFrom_cases hstart hbuild houtcome hwake
      · cases hstep
  | cancel id =>
      simp only [cacheStep] at hstep
      split at hstep
      next hstart =>
        cases hstep
        exact .cancelled hstart (by simp)
      next hstart =>
        cases hstep
        exact .cancelled hstart (by simp)
      · cases hstep
  | buildReads =>
      obtain ⟨build, hlast, hstep⟩ := Option.bind_eq_some_iff.mp hstep
      split at hstep
      · cases hstep
      next hunread =>
        cases hstep
        exact .buildReads hlast (by simpa using hunread)
  | buildEnds outcome =>
      obtain ⟨build, hlast, hstep⟩ := Option.bind_eq_some_iff.mp hstep
      split at hstep
      next hcan =>
        cases hstep
        exact .buildEnds hlast hcan
      · cases hstep
  | settle id =>
      obtain ⟨build, hbuild, hstep⟩ := Option.bind_eq_some_iff.mp hstep
      split at hstep
      · cases hstep
      next hunsettled =>
        cases hstep
        simp only [Bool.or_eq_true, not_or, Bool.not_eq_true] at hunsettled
        exact .settles hbuild hunsettled.1 hunsettled.2

/-! ## What a step does to the builds -/

/-- A build reads the script, ends, or has its end told; `warm` is what the cache
goes by afterwards. -/
inductive BuildChange (host : ScriptHost Digest) (script : String) (state : CacheState Digest)
    (action : CacheAction) (old : Build Digest) : Build Digest → Option Digest → Prop
  | reads (hreads : action = .buildReads) (hlast : state.running = some old)
      (hrunning : old.isRunning) :
      BuildChange host script state action old
        { old with read := some (host.scriptText state.disk script) } state.warmFor
  | ends {outcome : BuildOutcome} (hrunning : old.isRunning) (hcan : canEnd old outcome) :
      BuildChange host script state action old { old with outcome := some outcome }
        (if outcome = .accepted then some old.fingerprint else state.warmFor)
  | settles (hdone : old.isRunning = false) (hunsettled : old.settled = false) :
      BuildChange host script state action old old.settle state.warmFor

/-- What one step can do to the builds. -/
inductive BuildsMove (host : ScriptHost Digest) (script : String) (state : CacheState Digest)
    (action : CacheAction) : List (Build Digest) → Option Digest → Prop
  | same : BuildsMove host script state action state.builds state.warmFor
  | starts {fingerprint : Digest} (hidle : state.running = none)
      (hcold : state.warmFor ≠ some fingerprint) :
      BuildsMove host script state action (state.builds ++ [{ fingerprint := fingerprint }])
        state.warmFor
  | changes {id : Nat} {old new : Build Digest} {warm : Option Digest}
      (hold : state.builds[id]? = some old)
      (hchange : BuildChange host script state action old new warm) :
      BuildsMove host script state action (state.builds.set id new) warm

omit [DecidableEq Digest] in
theorem running_eq_some {build : Build Digest} (hrunning : state.running = some build) :
    state.builds[state.builds.length - 1]? = some build ∧ build.isRunning := by
  obtain ⟨hlast, hbuild⟩ := Option.filter_eq_some_iff.mp hrunning
  exact ⟨List.getLast?_eq_getElem? ▸ hlast, hbuild⟩

/-- Which build a start waits for. -/
theorem current_spec (fingerprint : Digest) :
    (∃ build, state.builds[state.builds.length - 1]? = some build ∧ state.builds ≠ [] ∧
      (build.isRunning ∨ build.fingerprint = fingerprint ∧ build.isRejected) ∧
      current state.builds fingerprint = (state.builds, state.builds.length - 1)) ∨
    state.running = none ∧ current state.builds fingerprint =
      (state.builds ++ [{ fingerprint := fingerprint }], state.builds.length) := by
  unfold current CacheState.running
  cases hlast : state.builds.getLast? with
  | none => exact .inr ⟨rfl, rfl⟩
  | some build =>
      dsimp only
      split
      next hwaits =>
        refine .inl ⟨build, List.getLast?_eq_getElem? ▸ hlast, ?_, by simpa using hwaits, rfl⟩
        rintro hnil
        simp [hnil] at hlast
      next hidle =>
        refine .inr ⟨?_, rfl⟩
        simp only [Bool.or_eq_true, not_or, Bool.not_eq_true] at hidle
        simp [Option.filter, hidle.1]

/-- Every step moves the builds in one of the ways listed. -/
theorem cacheStep_builds (hstep : cacheStep host script state action = some (next, reply)) :
    BuildsMove host script state action next.builds next.warmFor := by
  cases cacheStep_cases hstep with
  | @waits id build reading builds hstart hpending hcold hcurrent =>
      rcases @current_spec _ _ state (host.digest reading.text) with
        ⟨-, -, -, -, heq⟩ | ⟨hidle, heq⟩
      · obtain ⟨rfl, -⟩ := Prod.mk.inj (hcurrent.symm.trans heq)
        exact .same
      · obtain ⟨rfl, -⟩ := Prod.mk.inj (hcurrent.symm.trans heq)
        exact .starts hidle hcold
  | buildReads hlast hunread =>
      obtain ⟨hplace, hrunning⟩ := running_eq_some hlast
      exact .changes hplace (.reads rfl hlast hrunning)
  | buildEnds hlast hcan =>
      obtain ⟨hplace, hrunning⟩ := running_eq_some hlast
      exact .changes hplace (.ends hrunning hcan)
  | settles hbuild hdone hunsettled => exact .changes hbuild (.settles hdone hunsettled)
  | _ => exact .same

/-! ## What holds of the builds -/

/-- What holds of one build whatever happens: its failure is told once, by its
callback; Liquidsoap accepts or refuses only a script it has read. -/
structure BuildOk (build : Build Digest) : Prop where
  told : build.told =
    if build.settled ∧ (build.outcome.bind BuildOutcome.failure).isSome then 1 else 0
  settled : build.settled → build.isRunning = false
  accepted : build.outcome = some .accepted → ∃ text, build.read = some (some text)
  rejected : build.outcome = some (.failed .rejected) → build.read.isSome

/-- The build accepted last. -/
def LastAccepted (builds : List (Build Digest)) (build : Build Digest) : Prop :=
  build.outcome = some .accepted ∧ ∃ id : Nat, builds[id]? = some build ∧
    ∀ (later : Nat) (other : Build Digest), builds[later]? = some other → id < later →
      other.outcome ≠ some .accepted

/-- What holds of the builds in every state a cache comes to. -/
structure BuildsOk (state : CacheState Digest) : Prop where
  each : ∀ build ∈ state.builds, BuildOk build
  onlyLast : ∀ id build, state.builds[id]? = some build → build.isRunning →
    id + 1 = state.builds.length
  warm : ∀ fingerprint, state.warmFor = some fingerprint →
    ∃ build, LastAccepted state.builds build ∧ build.fingerprint = fingerprint
  cold : ∀ build ∈ state.builds, build.isRunning → state.warmFor ≠ some build.fingerprint

omit [DecidableEq Digest] in
theorem buildOk_new (fingerprint : Digest) :
    BuildOk ({ fingerprint := fingerprint } : Build Digest) := by
  constructor <;> simp

omit [DecidableEq Digest] in
theorem BuildChange.buildOk {old new : Build Digest} {warm : Option Digest}
    (hchange : BuildChange host script state action old new warm) (hold : BuildOk old) :
    BuildOk new := by
  cases hchange with
  | reads _ _ hrunning =>
      have hnone : old.outcome = none := Option.isNone_iff_eq_none.mp hrunning
      exact ⟨hold.told, hold.settled, by simp [hnone], by simp⟩
  | @ends outcome hrunning hcan =>
      have hunsettled : old.settled = false := by
        by_contra hsettled
        rw [hold.settled (by simpa using hsettled)] at hrunning
        cases hrunning
      have htold := hold.told
      refine ⟨?_, by simp [hunsettled], ?_, ?_⟩
      · simpa [hunsettled] using htold
      · intro haccepted
        obtain rfl := Option.some.inj haccepted
        obtain ⟨read, hread, hsome⟩ := (Option.any_eq_true _ _).mp hcan
        obtain ⟨text, rfl⟩ := Option.isSome_iff_exists.mp hsome
        exact ⟨text, hread⟩
      · intro hrejected
        obtain rfl := Option.some.inj hrejected
        exact hcan
  | settles hdone hunsettled =>
      have htold := hold.told
      refine ⟨?_, fun _ => hdone, hold.accepted, hold.rejected⟩
      simp only [hunsettled, Bool.false_eq_true, false_and, if_false] at htold
      unfold Build.settle
      dsimp only
      cases hfailure : old.outcome.bind BuildOutcome.failure with
      | none => simpa using htold
      | some why => simpa using htold

omit [DecidableEq Digest] in
theorem BuildChange.keeps {old new : Build Digest} {warm : Option Digest}
    (hchange : BuildChange host script state action old new warm) :
    new.fingerprint = old.fingerprint ∧ (new.isRunning → old.isRunning) := by
  cases hchange with
  | reads => exact ⟨rfl, fun hrunning => hrunning⟩
  | ends hrunning => exact ⟨rfl, fun _ => hrunning⟩
  | settles => exact ⟨rfl, fun hrunning => hrunning⟩

omit [DecidableEq Digest] in
/-- The build accepted last stays so when another is changed, or more is learnt of it. -/
theorem LastAccepted.set {builds : List (Build Digest)} {id : Nat} {old new build : Build Digest}
    (hlast : LastAccepted builds build) (hold : builds[id]? = some old)
    (houtcome : new.outcome = some .accepted ↔ old.outcome = some .accepted)
    (hsame : new.fingerprint = old.fingerprint) :
    ∃ kept, LastAccepted (builds.set id new) kept ∧ kept.fingerprint = build.fingerprint := by
  obtain ⟨haccepted, place, hplace, hlater⟩ := hlast
  have hothers : ∀ (later : Nat) (other : Build Digest), (builds.set id new)[later]? = some other →
      place < later → other.outcome ≠ some .accepted := by
    intro later other hother hlt
    by_cases hid : id = later
    · subst hid
      have hin := (List.getElem?_eq_some_iff.mp hold).1
      rw [List.getElem?_set_self hin] at hother
      obtain rfl := Option.some.inj hother
      exact fun hnew => hlater id old hold hlt (houtcome.mp hnew)
    · rw [List.getElem?_set_ne hid] at hother
      exact hlater later other hother hlt
  by_cases hid : id = place
  · subst hid
    obtain rfl := Option.some.inj (hold.symm.trans hplace)
    have hin := (List.getElem?_eq_some_iff.mp hold).1
    exact ⟨new, ⟨houtcome.mpr haccepted, id, List.getElem?_set_self hin, hothers⟩, hsame⟩
  · exact ⟨build, ⟨haccepted, place, by rw [List.getElem?_set_ne hid, hplace], hothers⟩, rfl⟩

omit [DecidableEq Digest] in
theorem LastAccepted.append {builds : List (Build Digest)} {build new : Build Digest}
    (hlast : LastAccepted builds build) (hnew : new.outcome ≠ some .accepted) :
    LastAccepted (builds ++ [new]) build := by
  obtain ⟨haccepted, place, hplace, hlater⟩ := hlast
  refine ⟨haccepted, place, List.getElem?_append_left
    (List.getElem?_eq_some_iff.mp hplace).1 ▸ hplace, fun later other hother hlt => ?_⟩
  rcases Nat.lt_or_ge later builds.length with hin | hout
  · rw [List.getElem?_append_left hin] at hother
    exact hlater later other hother hlt
  · obtain rfl : other = new := by
      rw [List.getElem?_append_right hout] at hother
      exact List.mem_singleton.mp (List.mem_of_getElem? hother)
    exact hnew

/-- Every step keeps what holds of the builds. -/
theorem buildsOk_step (hok : BuildsOk state)
    (hstep : cacheStep host script state action = some (next, reply)) : BuildsOk next := by
  have hmove := cacheStep_builds hstep
  generalize hbuilds : next.builds = builds at hmove
  generalize hwarm : next.warmFor = warm at hmove
  cases hmove with
  | same =>
      constructor
      case each => exact fun build hbuild => hok.each build (hbuilds ▸ hbuild)
      case onlyLast =>
        exact fun id build hbuild => hbuilds ▸ hok.onlyLast id build (hbuilds ▸ hbuild)
      case warm =>
        rw [hbuilds, hwarm]
        exact hok.warm
      case cold => exact fun build hbuild => hwarm ▸ hok.cold build (hbuilds ▸ hbuild)
  -- A build starts only while none runs, so every earlier one is over.
  | @starts fingerprint hidle hcold =>
      have hquiet : ∀ build ∈ state.builds, build.isRunning = false := by
        intro build hbuild
        by_contra hrunning
        rw [Bool.not_eq_false] at hrunning
        obtain ⟨id, hid⟩ := List.getElem?_of_mem hbuild
        have hlast := hok.onlyLast id build hid hrunning
        rw [CacheState.running, List.getLast?_eq_getElem?, ← hlast, Nat.add_sub_cancel, hid,
          Option.filter_some, if_pos hrunning] at hidle
        cases hidle
      constructor
      case each =>
        intro build hbuild
        rw [hbuilds] at hbuild
        rcases List.mem_append.mp hbuild with hbuild | hbuild
        · exact hok.each build hbuild
        · obtain rfl := List.mem_singleton.mp hbuild
          exact buildOk_new fingerprint
      case onlyLast =>
        intro id build hbuild hrunning
        rw [hbuilds] at hbuild ⊢
        rcases Nat.lt_or_ge id state.builds.length with hin | hout
        · rw [List.getElem?_append_left hin] at hbuild
          rw [hquiet build (List.mem_of_getElem? hbuild)] at hrunning
          cases hrunning
        · have hin := (List.getElem?_eq_some_iff.mp hbuild).1
          rw [List.length_append, List.length_singleton] at hin ⊢
          omega
      case warm =>
        intro warmFor hwarmFor
        rw [hwarm] at hwarmFor
        obtain ⟨build, hlast, hsame⟩ := hok.warm warmFor hwarmFor
        exact ⟨build, hbuilds ▸ hlast.append (by simp), hsame⟩
      case cold =>
        intro build hbuild hrunning
        rw [hbuilds] at hbuild
        rw [hwarm]
        rcases List.mem_append.mp hbuild with hbuild | hbuild
        · rw [hquiet build hbuild] at hrunning
          cases hrunning
        · obtain rfl := List.mem_singleton.mp hbuild
          exact hcold
  -- One build changes: it keeps its fingerprint, and never runs again once it is over.
  | @changes id old new _ hold hchange =>
      have hin := (List.getElem?_eq_some_iff.mp hold).1
      obtain ⟨hsame, hruns⟩ := hchange.keeps
      constructor
      case each =>
        intro build hbuild
        rw [hbuilds] at hbuild
        rcases List.mem_or_eq_of_mem_set hbuild with hbuild | rfl
        · exact hok.each build hbuild
        · exact hchange.buildOk (hok.each old (List.mem_of_getElem? hold))
      case onlyLast =>
        intro other build hbuild hrunning
        rw [hbuilds] at hbuild ⊢
        rw [List.length_set]
        by_cases hid : id = other
        · subst hid
          rw [List.getElem?_set_self hin] at hbuild
          obtain rfl := Option.some.inj hbuild
          exact hok.onlyLast id old hold (hruns hrunning)
        · rw [List.getElem?_set_ne hid] at hbuild
          exact hok.onlyLast other build hbuild hrunning
      case warm =>
        intro warmFor hwarmFor
        rw [hwarm] at hwarmFor
        rw [hbuilds]
        have hkept : state.warmFor = some warmFor →
            (new.outcome = some .accepted ↔ old.outcome = some .accepted) →
            ∃ build, LastAccepted (state.builds.set id new) build ∧
              build.fingerprint = warmFor := by
          intro hstill houtcome
          obtain ⟨build, hlast, rfl⟩ := hok.warm warmFor hstill
          exact hlast.set hold houtcome hsame
        cases hchange with
        | reads => exact hkept hwarmFor Iff.rfl
        | settles => exact hkept hwarmFor Iff.rfl
        | @ends outcome hrunning hcan =>
            split at hwarmFor
            next haccepted =>
              -- Only the last build runs, so none was accepted after it.
              obtain rfl := Option.some.inj hwarmFor
              refine ⟨_, ⟨congrArg some haccepted, id, List.getElem?_set_self hin, ?_⟩, rfl⟩
              intro later other hother hlt
              have hlast := hok.onlyLast id old hold hrunning
              have hlater := (List.getElem?_eq_some_iff.mp hother).1
              rw [List.length_set] at hlater
              omega
            next hfailed =>
              have hnone : old.outcome = none := Option.isNone_iff_eq_none.mp hrunning
              exact hkept hwarmFor (by simp [hnone, hfailed])
      case cold =>
        intro build hbuild hrunning
        rw [hbuilds] at hbuild
        rw [hwarm]
        obtain ⟨place, hplace⟩ := List.getElem?_of_mem hbuild
        have hplaceOld : ∃ before, state.builds[place]? = some before ∧ before.isRunning ∧
            build.fingerprint = before.fingerprint ∧ (id = place → build = new) := by
          by_cases hid : id = place
          · subst hid
            rw [List.getElem?_set_self hin] at hplace
            obtain rfl := Option.some.inj hplace
            exact ⟨old, hold, hruns hrunning, hsame, fun _ => rfl⟩
          · rw [List.getElem?_set_ne hid] at hplace
            exact ⟨build, hplace, hrunning, rfl, fun heq => absurd heq hid⟩
        obtain ⟨before, hbefore, hbeforeRuns, hfingerprint, hnew⟩ := hplaceOld
        have hcold := hok.cold before (List.mem_of_getElem? hbefore) hbeforeRuns
        rw [hfingerprint]
        cases hchange with
        | reads => exact hcold
        | settles => exact hcold
        | @ends outcome holdRuns hcan =>
            have hlast := hok.onlyLast id old hold holdRuns
            have hplaceLast := hok.onlyLast place before hbefore hbeforeRuns
            rw [hnew (by omega)] at hrunning
            cases hrunning

/-- The cache as it is made, for a script on `disk`. -/
def CacheState.initial (disk : Disk) : CacheState Digest := { disk := disk }

omit [DecidableEq Digest] in
theorem buildsOk_initial (disk : Disk) : BuildsOk (.initial disk : CacheState Digest) := by
  constructor <;> simp [CacheState.initial]

theorem buildsOk_run {disk : Disk} {trace : List (CacheAction × Option StartEnd)}
    (hrun : (cacheMachine host script).Run (.initial disk) trace state) : BuildsOk state :=
  hrun.invariant (fun _ _ _ _ hok hstep => buildsOk_step hok hstep) (buildsOk_initial disk)

/-! ## Builds that read what they go by -/

/-- A build reads the script while the disk holds the text it goes by. -/
def ReadsItsText (host : ScriptHost Digest) (script : String) (state : CacheState Digest)
    (action : CacheAction) : Prop :=
  action = .buildReads → ∀ build, state.running = some build →
    host.scriptFingerprint state.disk script = some build.fingerprint

/-- Every script read has the fingerprint its build goes by. -/
def Labelled (host : ScriptHost Digest) (state : CacheState Digest) : Prop :=
  ∀ build ∈ state.builds, ∀ read, build.read = some read →
    read.map host.digest = some build.fingerprint

/-- A script is read by a step of the build, and by no other. -/
theorem labelled_step (hlabelled : Labelled host state)
    (hreads : ReadsItsText host script state action)
    (hstep : cacheStep host script state action = some (next, reply)) : Labelled host next := by
  have hmove := cacheStep_builds hstep
  unfold Labelled
  generalize next.builds = builds at hmove
  generalize next.warmFor = warm at hmove
  cases hmove with
  | same => exact hlabelled
  | starts =>
      intro build hbuild read hread
      rcases List.mem_append.mp hbuild with hbuild | hbuild
      · exact hlabelled build hbuild read hread
      · obtain rfl := List.mem_singleton.mp hbuild
        cases hread
  | @changes id old new _ hold hchange =>
      intro build hbuild read hread
      rcases List.mem_or_eq_of_mem_set hbuild with hbuild | rfl
      · exact hlabelled build hbuild read hread
      · have holdLabelled := hlabelled old (List.mem_of_getElem? hold) read
        cases hchange with
        | reads hbuildReads hlast _ =>
            obtain rfl := Option.some.inj hread
            exact hreads hbuildReads old hlast
        | ends => exact holdLabelled hread
        | settles => exact holdLabelled hread

theorem labelled_run {disk : Disk} {trace : List (CacheAction × Option StartEnd)}
    (hrun : (cacheMachine host script).Run (.initial disk) trace state)
    (hmeets : (cacheMachine host script).Meets (ReadsItsText host script) (.initial disk) trace) :
    Labelled host state :=
  hmeets.invariant (fun _ _ _ _ hlabelled hmet hstep => labelled_step hlabelled hmet hstep)
    (by simp [Labelled, CacheState.initial]) hrun

/-! ## What a start is told -/

/-- A start returns only when the cache goes by the text it has read. -/
theorem cacheStep_returned {text : ScriptText}
    (hstep : cacheStep host script state action = some (next, some (.returned text))) :
    state.warmFor = some (host.digest text) := by
  cases cacheStep_cases hstep with
  | returns hstart hpending hwarm => exact hwarm

/-- A start is refused only over a build that goes by the text it has read. -/
theorem cacheStep_refused {text : ScriptText} {why : BuildFailure}
    (hstep : cacheStep host script state action = some (next, some (.refused text why))) :
    ∃ build ∈ state.builds, build.fingerprint = host.digest text ∧
      build.outcome = some (.failed why) := by
  cases cacheStep_cases hstep with
  | refused hstart hbuild houtcome hsame =>
      exact ⟨_, List.mem_of_getElem? hbuild, hsame, houtcome⟩

/-- A start that is cancelled leaves every build as it is. -/
theorem cacheStep_cancel {id : Nat}
    (hstep : cacheStep host script state (.cancel id) = some (next, reply)) :
    next.builds = state.builds ∧ next.warmFor = state.warmFor := by
  cases cacheStep_cases hstep with
  | cancelled => exact ⟨rfl, rfl⟩

end RetroStation.Playout
