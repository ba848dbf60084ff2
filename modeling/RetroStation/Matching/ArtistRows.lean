import RetroStation.Matching.ArtistMoves

/-! # An artist's row is its latest choice

A matched artist has one row, of the target chosen last, and any other artist has none:

* `artist_rows_agree_iff` — from artists that nothing was decided of a run keeps this
  exactly as long as a user links an artist to another target, or rejects it, only when
  it has no row of an earlier choice.

Neither the link nor the rejection removes such a row.
-/

namespace RetroStation.Matching

open Library Database

/-- The choices that a run made, in order. -/
def choicesOf (trace : List (DecisionAction × List ArtistChoice)) : List ArtistChoice :=
  trace.flatMap Prod.snd

/-- A matched artist has the row of its latest choice, and another has none. -/
structure ArtistRowsAgree (choices : List ArtistChoice) (db : Database) : Prop where
  matched : ∀ artist ∈ db.artists, artist.matchStatus ∈ MATCHED →
    ∃ row target, db.artistRows artist.id = [row] ∧ row.targetId = some target ∧
      choiceOf choices artist.id = some (some target)
  unmatched : ∀ artist ∈ db.artists, artist.matchStatus ∉ MATCHED → db.artistRows artist.id = []

/-- An artist that a user links has no row of another target, and one that a user
rejects has none. -/
def ChosenOnce (db : Database) : DecisionAction → Prop
  | .resolveArtistMatched artistId target =>
    ∀ row ∈ db.artistRows artistId, row.targetId = some target
  | .resolveArtistRejected artistId => db.artistRows artistId = []
  | _ => True

/-! ## One artist -/

/-- One target if the artist is matched, and none otherwise. -/
def OneTarget (view : ArtistView) : Prop :=
  (view.1 ∈ MATCHED → ∃ target, view.2 = [some target]) ∧ (view.1 ∉ MATCHED → view.2 = [])

/-- What a user asks leaves one target: a link of the one there is, or a rejection of none. -/
def AskedOnce (targets : List (Option String)) : Option ArtistRequest → Prop
  | some (.link target) => ∀ other ∈ targets, other = some target
  | some .reject => targets = []
  | _ => True

variable {asked : Option ArtistRequest} {choice earlier : Option (Option String)}
  {view later : ArtistView} {targets : List (Option String)}

theorem withTarget_eq_singleton {target : String} (hone : targets.length ≤ 1) :
    (∃ other, withTarget targets target = [some other]) ↔
      ∀ other ∈ targets, other = some target := by
  unfold withTarget
  rcases targets with _ | ⟨first, _ | ⟨second, rest⟩⟩
  · simp
  · by_cases hfirst : some target = first
    · simp [← hfirst]
    · simp [hfirst, Ne.symm hfirst]
  · simp at hone

theorem OneTarget.open_eq_nil {status : MatchStatus} (hone : OneTarget (status, targets))
    (hopen : status = .pending ∨ status ∈ ARTIST_UNDECIDED_STATUSES) : targets = [] := by
  refine hone.2 ?_
  rcases hopen with rfl | hopen
  · simp [MATCHED]
  · simp only [ARTIST_UNDECIDED_STATUSES, List.mem_cons, List.not_mem_nil, or_false] at hopen
    rcases hopen with rfl | rfl <;> simp [MATCHED]

theorem OneTarget.length_le_one (hone : OneTarget view) : view.2.length ≤ 1 := by
  by_cases hmatched : view.1 ∈ MATCHED
  · obtain ⟨target, htarget⟩ := hone.1 hmatched
    simp [htarget]
  · simp [hone.2 hmatched]

/-- A move keeps one target exactly if what a user asks adds none and leaves none. -/
theorem ArtistMove.oneTarget_iff (hmove : ArtistMove asked view later choice)
    (hone : OneTarget view) : OneTarget later ↔ AskedOnce view.2 asked := by
  cases hmove with
  | kept => exact iff_of_true hone trivial
  | rewound hopen =>
      obtain rfl := hone.open_eq_nil (.inr hopen)
      exact iff_of_true ⟨fun hmatched => absurd hmatched (by simp [MATCHED]), fun _ => rfl⟩ trivial
  | found hopen =>
      obtain rfl := hone.open_eq_nil hopen
      exact iff_of_true ⟨fun _ => ⟨_, rfl⟩, fun hother => hother.elim (by simp [MATCHED])⟩ trivial
  | reviewed hopen =>
      obtain rfl := hone.open_eq_nil hopen
      exact iff_of_true ⟨fun hmatched => absurd hmatched (by simp [MATCHED]), fun _ => rfl⟩ trivial
  | @linked status targets target =>
      have hmatched : MatchStatus.manualMatched ∈ MATCHED := by decide
      have hsingle := @withTarget_eq_singleton targets target hone.length_le_one
      refine Iff.trans ?_ hsingle
      exact ⟨fun hlater => hlater.1 hmatched, fun htarget =>
        ⟨fun _ => htarget, fun hother => absurd hmatched hother⟩⟩
  | @rejected status targets =>
      have hunmatched : MatchStatus.manualRejected ∉ MATCHED := by decide
      exact ⟨fun hlater => hlater.2 hunmatched, fun hnone =>
        ⟨fun hmatched => absurd hmatched hunmatched, fun _ => hnone⟩⟩
  | unmatched =>
      exact iff_of_true ⟨fun hmatched => absurd hmatched (by simp [MATCHED]), fun _ => rfl⟩ trivial

/-- A matched artist's target is its latest choice. -/
def Latest (view : ArtistView) (choice : Option (Option String)) : Prop :=
  view.1 ∈ MATCHED → ∃ target, view.2 = [some target] ∧ choice = some (some target)

theorem ArtistMove.latest (hmove : ArtistMove asked view later choice)
    (hlatest : Latest view earlier)
    (hone : OneTarget view) (hlater : OneTarget later) : Latest later (choice.or earlier) := by
  intro hmatched
  cases hmove with
  | kept => exact hlatest hmatched
  | rewound => exact absurd hmatched (by simp [MATCHED])
  | found hopen =>
      obtain rfl := hone.open_eq_nil hopen
      exact ⟨_, rfl, rfl⟩
  | reviewed => exact absurd hmatched (by simp [MATCHED])
  | @linked status targets target =>
      obtain ⟨other, hother⟩ := hlater.1 hmatched
      have hthere : some target ∈ withTarget targets target := by
        unfold withTarget
        split
        next hmem => exact hmem
        next => simp
      obtain rfl : target = other := by
        simpa [show withTarget targets target = _ from hother] using hthere
      exact ⟨target, hother, rfl⟩
  | rejected => exact absurd hmatched (by simp [MATCHED])
  | unmatched => exact absurd hmatched (by simp [MATCHED])

/-! ## Every artist -/

variable {db next : Database} {artistId : Uuid}

/-- What holds of artists whatever users choose. -/
structure ArtistsOk (db : Database) : Prop where
  keys : KeysOk db
  unknown : ∀ artistId, db.getArtist artistId = none → rowTargets db artistId = []

def AllOneTarget (db : Database) : Prop :=
  ∀ artistId artist, db.getArtist artistId = some artist →
    OneTarget (artist.matchStatus, rowTargets db artistId)

theorem decision_artistsOk : decisionMachine.Preserves ArtistsOk := by
  intro db next action choices hok hstep
  refine ⟨decision_keysOk hok.keys hstep, fun artistId hnone => ?_⟩
  cases hartist : db.getArtist artistId with
  | none =>
      rw [(decision_unknown hok.keys hstep hartist).1]
      exact hok.unknown artistId hartist
  | some artist =>
      obtain ⟨later, hlater, -⟩ := decision_artistMove hok.keys hstep hartist
      rw [hnone] at hlater
      cases hlater

/-- An artist after a step was there before it, or is new and pending. -/
theorem decision_artistBefore {action : DecisionAction} {choices : List ArtistChoice}
    {later : BroadcastArtist} (hok : ArtistsOk db)
    (hstep : decisionMachine.step db action = some (next, choices))
    (hlater : next.getArtist artistId = some later) :
    (∃ artist, db.getArtist artistId = some artist ∧
      ArtistMove (askedOf artistId action) (artist.matchStatus, rowTargets db artistId)
        (later.matchStatus, rowTargets next artistId) (choiceOf choices artistId)) ∨
    db.getArtist artistId = none ∧ later.matchStatus = .pending ∧
      rowTargets next artistId = [] := by
  cases hartist : db.getArtist artistId with
  | none =>
      obtain ⟨hrows, hpending⟩ := decision_unknown hok.keys hstep hartist
      exact .inr ⟨rfl, hpending later hlater, hrows.trans (hok.unknown artistId hartist)⟩
  | some artist =>
      obtain ⟨_, hlater', hmove⟩ := decision_artistMove hok.keys hstep hartist
      obtain rfl := Option.some.inj (hlater.symm.trans hlater')
      exact .inl ⟨artist, rfl, hmove⟩

theorem chosenOnce_iff {action : DecisionAction} {choices : List ArtistChoice}
    (hstep : decisionMachine.step db action = some (next, choices)) :
    ChosenOnce db action ↔ ∀ artistId artist, db.getArtist artistId = some artist →
      AskedOnce (rowTargets db artistId) (askedOf artistId action) := by
  have hthis : ∀ otherId request, (∃ artist, db.getArtist otherId = some artist) →
      (AskedOnce (rowTargets db otherId) (some request) ↔
        ∀ artistId artist, db.getArtist artistId = some artist →
          AskedOnce (rowTargets db artistId)
            (if artistId = otherId then some request else none)) := by
    rintro otherId request ⟨artist, hartist⟩
    constructor
    · intro hasked artistId _ _
      split
      next hsame => exact hsame ▸ hasked
      next => trivial
    · intro hall
      have hasked := hall otherId artist hartist
      rwa [if_pos rfl] at hasked
  cases action with
  | resolveArtistMatched otherId target =>
      obtain ⟨resolved, hresolve, -⟩ := Option.map_eq_some_iff.mp hstep
      unfold resolveArtistMatched at hresolve
      split at hresolve
      · cases hresolve
      · obtain ⟨artist, hartist, -⟩ := Option.map_eq_some_iff.mp hresolve
        refine Iff.trans ?_ (hthis otherId (.link target) ⟨artist, hartist⟩)
        simp [ChosenOnce, AskedOnce, rowTargets]
  | resolveArtistRejected otherId =>
      obtain ⟨resolved, hresolve, -⟩ := Option.map_eq_some_iff.mp hstep
      obtain ⟨artist, hartist, -⟩ := Option.map_eq_some_iff.mp hresolve
      refine Iff.trans ?_ (hthis otherId .reject ⟨artist, hartist⟩)
      exact List.map_eq_nil_iff.symm
  | unmatchArtist otherId =>
      refine iff_of_true trivial fun artistId _ _ => ?_
      show AskedOnce _ (if artistId = otherId then some ArtistRequest.unmatch else none)
      split <;> trivial
  | _ => exact iff_of_true trivial fun _ _ _ => trivial

theorem decision_oneTarget_iff {action : DecisionAction} {choices : List ArtistChoice}
    (hok : ArtistsOk db) (hone : AllOneTarget db)
    (hstep : decisionMachine.step db action = some (next, choices)) :
    AllOneTarget next ↔ ChosenOnce db action := by
  rw [chosenOnce_iff hstep]
  constructor
  · intro hnext artistId artist hartist
    obtain ⟨later, hlater, hmove⟩ := decision_artistMove hok.keys hstep hartist
    exact (hmove.oneTarget_iff (hone artistId artist hartist)).mp (hnext artistId later hlater)
  · intro hasked artistId later hlater
    rcases decision_artistBefore hok hstep hlater with ⟨artist, hartist, hmove⟩ |
      ⟨-, hpending, hrows⟩
    · exact (hmove.oneTarget_iff (hone artistId artist hartist)).mpr
        (hasked artistId artist hartist)
    · rw [hpending, hrows]
      exact ⟨fun hmatched => absurd hmatched (by simp [MATCHED]), fun _ => rfl⟩

/-! ## Every run -/

theorem choiceOf_append (first second : List ArtistChoice) :
    choiceOf (first ++ second) artistId =
      (choiceOf second artistId).or (choiceOf first artistId) := by
  unfold choiceOf
  rw [List.filter_append, List.getLast?_append]
  cases (second.filter fun choice => choice.1 = artistId).getLast? <;> rfl

def AllLatest (choices : List ArtistChoice) (db : Database) : Prop :=
  ∀ artistId artist, db.getArtist artistId = some artist →
    Latest (artist.matchStatus, rowTargets db artistId) (choiceOf choices artistId)

variable {start state : Database} {trace : List (DecisionAction × List ArtistChoice)}

theorem latest_of_meets (hok : ArtistsOk start) (hone : AllOneTarget start)
    (hlatest : AllLatest [] start) (hrun : decisionMachine.Run start trace state)
    (hmeets : decisionMachine.Meets ChosenOnce start trace) :
    AllOneTarget state ∧ AllLatest (choicesOf trace) state := by
  induction hrun with
  | nil => exact ⟨hone, hlatest⟩
  | @snoc trace state next action choices hrun hstep ih =>
      obtain ⟨hone, hlatest⟩ := ih hmeets.left
      have hstate := hrun.invariant decision_artistsOk hok
      have hnext := (decision_oneTarget_iff hstate hone hstep).mpr (hmeets.last hrun)
      refine ⟨hnext, fun artistId later hlater => ?_⟩
      rw [show choicesOf (trace ++ [(action, choices)]) = choicesOf trace ++ choices by
        simp [choicesOf], choiceOf_append]
      rcases decision_artistBefore hstate hstep hlater with ⟨artist, hartist, hmove⟩ |
        ⟨-, hpending, -⟩
      · exact hmove.latest (hlatest artistId artist hartist) (hone artistId artist hartist)
          (hnext artistId later hlater)
      · rw [hpending]
        exact fun hmatched => absurd hmatched (by simp [MATCHED])

theorem artistRowsAgree_iff {choices : List ArtistChoice} (hkeys : KeysOk db) :
    ArtistRowsAgree choices db ↔ AllOneTarget db ∧ AllLatest choices db := by
  have hrow : ∀ artistId target, rowTargets db artistId = [some target] ↔
      ∃ row, db.artistRows artistId = [row] ∧ row.targetId = some target := by
    intro artistId target
    rw [rowTargets, List.map_eq_singleton_iff]
  have hnil : ∀ artistId, rowTargets db artistId = [] ↔ db.artistRows artistId = [] :=
    fun _ => List.map_eq_nil_iff
  constructor
  · intro hagree
    constructor
    · intro artistId artist hartist
      obtain ⟨hmem, rfl⟩ := getArtist_eq_some hartist
      refine ⟨fun hmatched => ?_, fun hother => (hnil _).mpr (hagree.unmatched artist hmem hother)⟩
      obtain ⟨row, target, hrows, htarget, -⟩ := hagree.matched artist hmem hmatched
      exact ⟨target, (hrow _ _).mpr ⟨row, hrows, htarget⟩⟩
    · intro artistId artist hartist hmatched
      obtain ⟨hmem, rfl⟩ := getArtist_eq_some hartist
      obtain ⟨row, target, hrows, htarget, hchoice⟩ := hagree.matched artist hmem hmatched
      exact ⟨target, (hrow _ _).mpr ⟨row, hrows, htarget⟩, hchoice⟩
  · rintro ⟨hone, hlatest⟩
    refine ⟨fun artist hmem hmatched => ?_, fun artist hmem hother => ?_⟩
    · obtain ⟨target, hrows, hchoice⟩ := hlatest artist.id artist
        (getArtist_of_mem hkeys.artists hmem) hmatched
      obtain ⟨row, hrows, htarget⟩ := (hrow _ _).mp hrows
      exact ⟨row, target, hrows, htarget, hchoice⟩
    · exact (hnil _).mp ((hone artist.id artist (getArtist_of_mem hkeys.artists hmem)).2 hother)

/-- Artists of which nothing is decided. -/
structure Undecided (db : Database) : Prop where
  keys : KeysOk db
  bare : db.matchRows = []
  pending : ∀ artist ∈ db.artists, artist.matchStatus = .pending

theorem Undecided.rowTargets (hstart : Undecided start) (artistId : Uuid) :
    rowTargets start artistId = [] := by
  rw [Matching.rowTargets, artistRows, hstart.bare]
  rfl

/-- Each matched artist has the one row of its latest choice, and no other artist has
one, throughout a run exactly as long as each artist that a user links has no row of
another target, and each that a user rejects has none. -/
theorem artist_rows_agree_iff (hstart : Undecided start)
    (hrun : decisionMachine.Run start trace state) :
    decisionMachine.Meets ChosenOnce start trace ↔
      ∀ before after reached, trace = before ++ after →
        decisionMachine.Run start before reached → ArtistRowsAgree (choicesOf before) reached := by
  have hok : ArtistsOk start := ⟨hstart.keys, fun artistId _ => hstart.rowTargets artistId⟩
  have hunmatched : ∀ artistId artist, start.getArtist artistId = some artist →
      artist.matchStatus ∉ MATCHED := by
    intro artistId artist hartist
    rw [hstart.pending artist (getArtist_eq_some hartist).1]
    decide
  have hone : AllOneTarget start := fun artistId artist hartist =>
    ⟨fun hmatched => absurd hmatched (hunmatched artistId artist hartist),
      fun _ => hstart.rowTargets artistId⟩
  have hlatest : AllLatest [] start := fun artistId artist hartist hmatched =>
    absurd hmatched (hunmatched artistId artist hartist)
  -- Forward along the whole run; back through the rows alone, which one bad step breaks.
  constructor
  · rintro hmeets before after reached rfl hreached
    exact (artistRowsAgree_iff (hreached.invariant decision_artistsOk hok).keys).mpr
      (latest_of_meets hok hone hlatest hreached hmeets.left)
  · intro hagree
    refine (@Transition.Machine.Meets.iff_invariant _ _ _ decisionMachine ChosenOnce
      start state trace
      ArtistsOk AllOneTarget decision_artistsOk
      (fun _ _ _ _ hok hone => decision_oneTarget_iff hok hone) hok hone hrun).mpr ?_
    intro before after reached htrace hreached
    exact ((artistRowsAgree_iff (hreached.invariant decision_artistsOk hok).keys).mp
      (hagree before after reached htrace hreached)).1

/-- One artist, undecided. -/
def lonelyArtist : Database where
  artists := [abba]

theorem lonelyArtist_undecided : Undecided lonelyArtist where
  keys := ⟨by decide, by decide, by decide⟩
  bare := rfl
  pending := by decide

/-- A user who links an artist again leaves the row of the first link. -/
theorem relinked_artist_keeps_row :
    ∃ trace state, decisionMachine.Run lonelyArtist trace state ∧
      ¬ ArtistRowsAgree (choicesOf trace) state := by
  obtain ⟨first, hfirst, second, hsecond, hmatched, hrows⟩ : ∃ first,
      decisionMachine.step lonelyArtist (.resolveArtistMatched 1 "mb-abba") =
        some (first, [(1, some "mb-abba")]) ∧ ∃ second,
      decisionMachine.step first (.resolveArtistMatched 1 "mb-abba-teens") =
        some (second, [(1, some "mb-abba-teens")]) ∧
      (∃ artist ∈ second.artists, artist.id = 1 ∧ artist.matchStatus ∈ MATCHED) ∧
      (second.artistRows 1).length = 2 := ⟨_, rfl, _, rfl, by decide, by decide⟩
  refine ⟨_, second, (Transition.Machine.Run.single hfirst).snoc hsecond, fun hagree => ?_⟩
  obtain ⟨artist, hmem, hid, hstatus⟩ := hmatched
  obtain ⟨row, target, hone, -⟩ := hagree.matched artist hmem hstatus
  rw [hid] at hone
  simp [hone] at hrows

/-- An artist is linked, unlinked, and linked to another target, whose row it has. -/
theorem artist_rows_agree_iff_relinked :
    ∃ trace state, decisionMachine.Run lonelyArtist trace state ∧
      ArtistRowsAgree (choicesOf trace) state ∧
      (state.artistRows 1).map Match.targetId = [some "mb-abba-teens"] := by
  obtain ⟨linked, hlinked, parted, hparted, relinked, hrelinked, hbare, hrows⟩ : ∃ linked,
      decisionMachine.step lonelyArtist (.resolveArtistMatched 1 "mb-abba") =
        some (linked, [(1, some "mb-abba")]) ∧ ∃ parted,
      decisionMachine.step linked (.unmatchArtist 1) = some (parted, [(1, none)]) ∧ ∃ relinked,
      decisionMachine.step parted (.resolveArtistMatched 1 "mb-abba-teens") =
        some (relinked, [(1, some "mb-abba-teens")]) ∧ parted.artistRows 1 = [] ∧
      (relinked.artistRows 1).map Match.targetId = [some "mb-abba-teens"] :=
    ⟨_, rfl, _, rfl, _, rfl, rfl, rfl⟩
  have hrun := ((Transition.Machine.Run.single hlinked).snoc hparted).snoc hrelinked
  refine ⟨_, relinked, hrun, ?_, hrows⟩
  refine (artist_rows_agree_iff lonelyArtist_undecided hrun).mp ?_ _ [] relinked (by simp) hrun
  refine .cons (fun row hrow => ?_) hlinked (.cons trivial hparted
    (.cons (fun row hrow => ?_) hrelinked .nil))
  · cases hrow
  · rw [hbare] at hrow
    cases hrow

end RetroStation.Matching
