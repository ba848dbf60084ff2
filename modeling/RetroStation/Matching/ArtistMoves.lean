import RetroStation.Matching.DecisionMoves

/-! # What decisions do to one artist

An artist's status and the targets of its rows move together. A decision about songs
leaves both alone.
-/

namespace RetroStation

open Library Matching

namespace Database

variable {db : Database} {artistId : Uuid}

theorem getArtist_updateArtists {which : BroadcastArtist → Bool}
    {change : BroadcastArtist → BroadcastArtist} (hid : ∀ artist, (change artist).id = artist.id) :
    (db.updateArtists which change).getArtist artistId =
      (db.getArtist artistId).map fun artist => if which artist then change artist else artist :=
  Table.find?_update hid artistId

theorem getArtist_eq_some {artist : BroadcastArtist}
    (hartist : db.getArtist artistId = some artist) :
    artist ∈ db.artists ∧ artist.id = artistId := Table.find?_key hartist

theorem getArtist_of_mem (hunique : Table.UniqueBy BroadcastArtist.id db.artists)
    {artist : BroadcastArtist} (hartist : artist ∈ db.artists) :
    db.getArtist artist.id = some artist := hunique.find? hartist

theorem artistRows_deleteForIdentity (deletedId : Uuid) :
    (db.deleteForIdentity deletedId).artistRows artistId = db.artistRows artistId := by
  refine Table.filter_delete_of_disjoint fun row hrow => ?_
  simp only [decide_eq_true_eq] at hrow
  simp [hrow]

theorem artistRows_deleteForIdentities (ids : List Uuid) :
    (db.deleteForIdentities ids).artistRows artistId = db.artistRows artistId := by
  refine Table.filter_delete_of_disjoint fun row hrow => ?_
  simp only [decide_eq_true_eq] at hrow
  simp [Match.ofSongs, hrow]

theorem artistRows_createMatch (row : Match) :
    (db.createMatch row).artistRows artistId = db.artistRows artistId ++
      if row.subject = .artist artistId then [{ row with workId := truthy row.workId }]
        else [] := by
  unfold artistRows createMatch
  rw [List.filter_append, List.filter_singleton]
  simp

theorem artistRows_deleteForArtist (deletedId : Uuid) :
    (db.deleteForArtist deletedId).artistRows artistId =
      if artistId = deletedId then [] else db.artistRows artistId := by
  unfold artistRows deleteForArtist
  split
  next hsame =>
    subst hsame
    exact Table.filter_delete_of_imp fun _ hrow => hrow
  next hother =>
    refine Table.filter_delete_of_disjoint fun row hrow => ?_
    simp only [decide_eq_true_eq] at hrow
    simpa [hrow] using hother

end Database

namespace Matching

open Database

/-- The targets of an artist's rows. -/
def rowTargets (db : Database) (artistId : Uuid) : List (Option String) :=
  (db.artistRows artistId).map Match.targetId

/-- The last choice made for the artist. -/
def choiceOf (choices : List ArtistChoice) (artistId : Uuid) : Option (Option String) :=
  ((choices.filter fun choice => choice.1 = artistId).getLast?).map Prod.snd

/-- An artist's status with the targets of its rows. -/
abbrev ArtistView := MatchStatus × List (Option String)

/-- A target that is stored once. -/
def withTarget (targets : List (Option String)) (target : String) : List (Option String) :=
  if some target ∈ targets then targets else targets ++ [some target]

/-- What a user asks of an artist. -/
inductive ArtistRequest
  | link (target : String)
  | reject
  | unmatch
  deriving DecidableEq, Repr

def askedOf (artistId : Uuid) : DecisionAction → Option ArtistRequest
  | .resolveArtistMatched otherId target => if artistId = otherId then some (.link target) else none
  | .resolveArtistRejected otherId => if artistId = otherId then some .reject else none
  | .unmatchArtist otherId => if artistId = otherId then some .unmatch else none
  | _ => none

/-- A move of one artist: what a user asked of it, and the choice made for it. -/
inductive ArtistMove :
    Option ArtistRequest → ArtistView → ArtistView → Option (Option String) → Prop
  | kept {view : ArtistView} : ArtistMove none view view none
  | rewound {status : MatchStatus} {targets : List (Option String)}
      (hopen : status ∈ ARTIST_UNDECIDED_STATUSES) :
      ArtistMove none (status, targets) (.pending, targets) none
  | found {status : MatchStatus} {targets : List (Option String)} {target : String}
      (hopen : status = .pending ∨ status ∈ ARTIST_UNDECIDED_STATUSES) :
      ArtistMove none (status, targets) (.autoMatched, targets ++ [some target])
        (some (some target))
  | reviewed {status : MatchStatus} {targets : List (Option String)}
      (hopen : status = .pending ∨ status ∈ ARTIST_UNDECIDED_STATUSES) :
      ArtistMove none (status, targets) (.needsReview, targets) (some none)
  | linked {status : MatchStatus} {targets : List (Option String)} {target : String} :
      ArtistMove (some (.link target)) (status, targets)
        (.manualMatched, withTarget targets target) (some (some target))
  | rejected {status : MatchStatus} {targets : List (Option String)} :
      ArtistMove (some .reject) (status, targets) (.manualRejected, targets) (some none)
  | unmatched {status : MatchStatus} {targets : List (Option String)} :
      ArtistMove (some .unmatch) (status, targets) (.needsReview, []) (some none)

variable {db middle next : Database} {artistId : Uuid}

/-! ## Decisions about songs -/

/-- The same artists with the same rows. -/
structure ArtistsKept (db next : Database) : Prop where
  artists : next.artists = db.artists
  rows : ∀ artistId, next.artistRows artistId = db.artistRows artistId

namespace ArtistsKept

theorem refl (db : Database) : ArtistsKept db db := ⟨rfl, fun _ => rfl⟩

theorem trans (hfirst : ArtistsKept db middle) (hsecond : ArtistsKept middle next) :
    ArtistsKept db next :=
  ⟨hsecond.artists.trans hfirst.artists, fun artistId =>
    (hsecond.rows artistId).trans (hfirst.rows artistId)⟩

theorem foldl {Item : Type} {step : Database → Item → Database}
    (hstep : ∀ db item, ArtistsKept db (step db item)) (items : List Item) (db : Database) :
    ArtistsKept db (items.foldl step db) := by
  induction items generalizing db with
  | nil => exact refl db
  | cons item rest ih => exact (hstep db item).trans (ih _)

theorem decidePending {broadcastArtistId : Uuid} {decision : SongDecision} :
    ArtistsKept db (db.decidePendingByArtist broadcastArtistId decision) :=
  ⟨rfl, fun _ => artistRows_deleteForIdentities _⟩

theorem persist {identity : BroadcastTrackIdentity} {result : IdentityMatchResult} :
    ArtistsKept db (persist db identity result).2 := by
  have hdeleted : ∀ current : Database,
      ArtistsKept current (current.deleteForIdentity identity.id) :=
    fun current => ⟨rfl, fun _ => artistRows_deleteForIdentity identity.id⟩
  have hupdated : ArtistsKept db (db.updateMatchStatusIfPending identity.id result.decision).2 :=
    ⟨rfl, fun _ => rfl⟩
  unfold Matching.persist
  split
  next unchanged hnone => rwa [hnone] at hupdated
  next written hsome =>
    rw [hsome] at hupdated
    dsimp only
    split
    next row hrow =>
      refine (hupdated.trans (hdeleted written)).trans ⟨rfl, fun artistId => ?_⟩
      have hsubject : row.subject = .identity identity.id :=
        (@mem_shownRows identity result { row with workId := truthy row.workId }
          (by simp [shownRows, hrow])).1
      simp [artistRows_createMatch, hsubject]
    next => exact hupdated.trans (hdeleted written)

/-- A move of an artist is one to whatever keeps the artists after it. -/
theorem carry {view : ArtistView} {asked : Option ArtistRequest} {choice : Option (Option String)}
    (hkept : ArtistsKept middle next)
    (hmoved : ∃ later, middle.getArtist artistId = some later ∧
      ArtistMove asked view (later.matchStatus, rowTargets middle artistId) choice) :
    ∃ later, next.getArtist artistId = some later ∧
      ArtistMove asked view (later.matchStatus, rowTargets next artistId) choice := by
  obtain ⟨later, hlater, hmove⟩ := hmoved
  refine ⟨later, by rwa [getArtist, hkept.artists], ?_⟩
  rwa [rowTargets, hkept.rows]

theorem move (hkept : ArtistsKept db next) {artist : BroadcastArtist}
    (hartist : db.getArtist artistId = some artist) :
    ∃ later, next.getArtist artistId = some later ∧
      ArtistMove none (artist.matchStatus, rowTargets db artistId)
        (later.matchStatus, rowTargets next artistId) none :=
  hkept.carry ⟨artist, hartist, .kept⟩

end ArtistsKept

theorem matchIdentities_kept {config : EngineConfig} {playlistId : Uuid} {works : List String}
    (hartists : Table.UniqueBy BroadcastArtist.id db.artists)
    (hrun : matchIdentitiesForPlaylist config db playlistId = some (works, next)) :
    ArtistsKept db next :=
  @matchIdentities_invariant config db playlistId (fun current => ArtistsKept db current) _ _
    hartists
    hrun (.refl db) fun _ _ _ hcurrent _ _ => hcurrent.trans .persist

theorem resolveIdentityMatched_kept {identityId libraryFileId : Uuid}
    (hresolve : resolveIdentityMatched db identityId libraryFileId = some next) :
    ArtistsKept db next := by
  obtain ⟨song, -, hresolve⟩ := Option.bind_eq_some_iff.mp hresolve
  obtain ⟨file, -, rfl⟩ := Option.map_eq_some_iff.mp hresolve
  refine ⟨rfl, fun artistId => ?_⟩
  rw [artistRows_createMatch, artistRows_deleteForIdentity]
  simp [changeSongs, artistRows]

theorem recordSongRejection_kept {identityId : Uuid} {libraryFileIds : List Uuid} :
    ArtistsKept db (recordSongRejection db identityId libraryFileIds) :=
  ⟨rfl, fun _ => artistRows_deleteForIdentity identityId⟩

theorem rejectSongSuggestion_kept {identityId : Uuid} {shownFileId : Option Uuid}
    (hreject : rejectSongSuggestion db identityId shownFileId = some next) :
      ArtistsKept db next := by
  obtain ⟨song, -, hreject⟩ := Option.bind_eq_some_iff.mp hreject
  split at hreject
  · exact Option.some.inj hreject ▸ recordSongRejection_kept
  · split at hreject
    · obtain ⟨shown, -, rfl⟩ := Option.map_eq_some_iff.mp hreject
      exact recordSongRejection_kept
    · cases hreject

theorem unmatchSong_kept {identityId : Uuid} (hunmatch : unmatchSong db identityId = some next) :
    ArtistsKept db next := by
  obtain ⟨song, -, hunmatch⟩ := Option.bind_eq_some_iff.mp hunmatch
  split at hunmatch
  · exact Option.some.inj hunmatch ▸ recordSongRejection_kept
  · cases hunmatch

theorem ingest_getArtist {ingestion : Ingestion} {artist : BroadcastArtist}
    (hingest : ingest db ingestion = some next) (hartist : db.getArtist artistId = some artist) :
    next.getArtist artistId = some artist := by
  unfold ingest at hingest
  split at hingest
  · obtain rfl := Option.some.inj hingest
    exact (List.find?_append ..).trans
      (by rw [show db.artists.find? _ = some artist from hartist]; rfl)
  · cases hingest

theorem ingest_rowTargets {ingestion : Ingestion} (hingest : ingest db ingestion = some next) :
    rowTargets next artistId = rowTargets db artistId := by
  unfold ingest at hingest
  split at hingest
  · exact Option.some.inj hingest ▸ rfl
  · cases hingest

/-! ## Runs over artists -/

theorem choiceOf_eq_none {choices : List ArtistChoice}
    (hnone : ∀ choice ∈ choices, choice.1 ≠ artistId) : choiceOf choices artistId = none := by
  rw [choiceOf, List.filter_eq_nil_iff.mpr fun choice hmem => by simpa using hnone choice hmem]
  rfl

theorem choiceOf_cons {choice : ArtistChoice} {choices : List ArtistChoice}
    (hnone : ∀ choice ∈ choices, choice.1 ≠ artistId) (hid : choice.1 = artistId) :
    choiceOf (choice :: choices) artistId = some choice.2 := by
  rw [choiceOf, List.filter_cons_of_pos (by simpa using hid),
    List.filter_eq_nil_iff.mpr fun choice hmem => by simpa using hnone choice hmem]
  rfl

theorem choiceOf_cons_other {choice : ArtistChoice} {choices : List ArtistChoice}
    (hid : choice.1 ≠ artistId) : choiceOf (choice :: choices) artistId =
      choiceOf choices artistId := by
  rw [choiceOf, List.filter_cons_of_neg (by simpa using hid)]
  rfl

theorem updateArtistStatusIfPending_other {otherId : Uuid} {decision : ArtistDecision}
    (hother : artistId ≠ otherId) :
    (db.updateArtistStatusIfPending otherId decision).2.getArtist artistId =
      db.getArtist artistId := by
  refine (@getArtist_updateArtists db artistId _ decision.write fun _ => rfl).trans ?_
  cases hartist : db.getArtist artistId with
  | none => rfl
  | some artist =>
      rw [Option.map_some, if_neg]
      rw [decide_eq_true_eq, (getArtist_eq_some hartist).2]
      exact fun hboth => hother hboth.1

theorem createArtistRow_eq {targetId : String} {score : Rat} {tier : MatchTier}
    (hcreate : db.createArtistRow artistId targetId score tier = some next) :
    next.artists = db.artists ∧ ∀ otherId, rowTargets next otherId =
      if otherId = artistId then rowTargets db artistId ++ [some targetId]
      else rowTargets db otherId := by
  unfold createArtistRow at hcreate
  split at hcreate
  · cases hcreate
  · obtain rfl := Option.some.inj hcreate
    refine ⟨rfl, fun otherId => ?_⟩
    unfold rowTargets
    rw [artistRows_createMatch]
    by_cases hsame : otherId = artistId
    · simp [hsame]
    · simp [hsame, Ne.symm hsame]

theorem persistArtistResult_other {otherId : Uuid} {result : ArtistMatchResult} {written : Bool}
    (hother : artistId ≠ otherId)
    (hpersist : persistArtistResult db otherId result = some (written, next)) :
    next.getArtist artistId = db.getArtist artistId ∧
      rowTargets next artistId = rowTargets db artistId := by
  have hsame := @updateArtistStatusIfPending_other db artistId otherId result.decision hother
  unfold persistArtistResult at hpersist
  split at hpersist
  next unchanged hupdate =>
    obtain ⟨-, rfl⟩ := Prod.mk.inj (Option.some.inj hpersist)
    rw [hupdate] at hsame
    obtain ⟨-, rfl⟩ := Prod.mk.inj hupdate
    exact ⟨hsame, rfl⟩
  next updated hupdate =>
    rw [hupdate] at hsame
    obtain ⟨-, rfl⟩ := Prod.mk.inj hupdate
    split at hpersist
    · obtain ⟨-, rfl⟩ := Prod.mk.inj (Option.some.inj hpersist)
      exact ⟨hsame, rfl⟩
    · obtain ⟨created, hcreated, heq⟩ := Option.map_eq_some_iff.mp hpersist
      obtain ⟨-, rfl⟩ := Prod.mk.inj heq
      obtain ⟨hartists, hrows⟩ := createArtistRow_eq hcreated
      rw [getArtist, hartists, hrows, if_neg hother]
      exact ⟨hsame, rfl⟩

/-- A result is written where its artist is pending, with a row if it is a match. -/
theorem persistArtistResult_this {result : ArtistMatchResult} {written : Bool}
    {artist : BroadcastArtist} (hunique : Table.UniqueBy BroadcastArtist.id db.artists)
    (hartist : db.getArtist artistId = some artist)
    (hpersist : persistArtistResult db artistId result = some (written, next)) :
    ∃ later, next.getArtist artistId = some later ∧
      ArtistMove none (artist.matchStatus, rowTargets db artistId)
        (later.matchStatus, rowTargets next artistId)
        (if written then
          some (if result.status = .autoMatched then some result.targetId else none)
        else none) := by
  obtain ⟨hmem, hid⟩ := getArtist_eq_some hartist
  have hupdated := (@getArtist_updateArtists db artistId (fun artist => artist.id = artistId ∧
    artist.matchStatus = .pending) result.decision.write fun _ => rfl).trans (congrArg _ hartist)
  unfold persistArtistResult at hpersist
  split at hpersist
  next unchanged hupdate =>
    obtain ⟨rfl, rfl⟩ := Prod.mk.inj (Option.some.inj hpersist)
    obtain ⟨hany, rfl⟩ := Prod.mk.inj hupdate
    have hdecided : artist.matchStatus ≠ .pending := fun hpending =>
      List.any_eq_false.mp hany artist hmem (by simp [hid, hpending])
    rw [Option.map_some, if_neg (by simp [hdecided])] at hupdated
    exact ⟨artist, hupdated, .kept⟩
  next updated hupdate =>
    obtain ⟨hany, rfl⟩ := Prod.mk.inj hupdate
    obtain ⟨other, hother, hpending⟩ := List.any_eq_true.mp hany
    simp only [decide_eq_true_eq] at hpending
    obtain rfl := hunique.eq hother hmem (hpending.1.trans hid.symm)
    rw [Option.map_some, if_pos (by simpa using hpending)] at hupdated
    split at hpersist
    next hreview =>
      obtain ⟨rfl, rfl⟩ := Prod.mk.inj (Option.some.inj hpersist)
      refine ⟨_, hupdated, ?_⟩
      rw [if_pos rfl, if_neg hreview]
      rw [show (result.decision.write other).matchStatus = .needsReview from
        result.decided.resolve_left hreview]
      exact .reviewed (.inl hpending.2)
    next hmatched =>
      obtain ⟨created, hcreated, heq⟩ := Option.map_eq_some_iff.mp hpersist
      obtain ⟨rfl, rfl⟩ := Prod.mk.inj heq
      obtain ⟨hartists, hrows⟩ := createArtistRow_eq hcreated
      have hmatched := not_not.mp hmatched
      refine ⟨_, (by rw [getArtist, hartists]; exact hupdated), ?_⟩
      rw [hrows, if_pos rfl, if_pos rfl, if_pos hmatched]
      rw [show (result.decision.write other).matchStatus = .autoMatched from hmatched]
      exact .found (.inl hpending.2)

theorem persistArtistResults_other {results : BroadcastArtist → ArtistMatchResult}
    {artists written : List BroadcastArtist} (hother : ∀ artist ∈ artists, artist.id ≠ artistId)
    (hpersist : persistArtistResults results db artists = some (written, next)) :
    next.getArtist artistId = db.getArtist artistId ∧
      rowTargets next artistId = rowTargets db artistId ∧
      ∀ artist ∈ written, artist.id ≠ artistId := by
  induction artists generalizing db written with
  | nil =>
      obtain ⟨rfl, rfl⟩ := Prod.mk.inj (Option.some.inj hpersist)
      exact ⟨rfl, rfl, by simp⟩
  | cons artist rest ih =>
      rw [List.forall_mem_cons] at hother
      obtain ⟨⟨wrote, middle⟩, hfirst, hpersist⟩ := Option.bind_eq_some_iff.mp hpersist
      obtain ⟨⟨others, last⟩, hrest, heq⟩ := Option.map_eq_some_iff.mp hpersist
      obtain ⟨rfl, rfl⟩ := Prod.mk.inj heq
      obtain ⟨hartist, hrows⟩ := persistArtistResult_other hother.1.symm hfirst
      obtain ⟨hartist', hrows', hwritten⟩ := ih hother.2 hrest
      refine ⟨hartist'.trans hartist, hrows'.trans hrows, ?_⟩
      cases wrote with
      | true => exact List.forall_mem_cons.mpr ⟨hother.1, hwritten⟩
      | false => exact hwritten

theorem persistArtistResults_move {results : BroadcastArtist → ArtistMatchResult}
    {artists written : List BroadcastArtist} {artist : BroadcastArtist}
    (hunique : Table.UniqueBy BroadcastArtist.id db.artists)
    (hids : (artists.map BroadcastArtist.id).Nodup)
    (hartist : db.getArtist artistId = some artist)
    (hpersist : persistArtistResults results db artists = some (written, next)) :
    ∃ later, next.getArtist artistId = some later ∧
      ArtistMove none (artist.matchStatus, rowTargets db artistId)
        (later.matchStatus, rowTargets next artistId)
        (choiceOf (written.map (artistChoice results)) artistId) := by
  induction artists generalizing db written with
  | nil =>
      obtain ⟨rfl, rfl⟩ := Prod.mk.inj (Option.some.inj hpersist)
      exact ⟨artist, hartist, .kept⟩
  | cons first rest ih =>
      rw [List.map_cons, List.nodup_cons] at hids
      obtain ⟨⟨wrote, middle⟩, hfirst, hpersist⟩ := Option.bind_eq_some_iff.mp hpersist
      obtain ⟨⟨others, last⟩, hrest, heq⟩ := Option.map_eq_some_iff.mp hpersist
      obtain ⟨rfl, rfl⟩ := Prod.mk.inj heq
      by_cases hid : first.id = artistId
      · subst hid
        obtain ⟨later, hlater, hmove⟩ := persistArtistResult_this hunique hartist hfirst
        obtain ⟨hkept, hrows, hothers⟩ :=
          @persistArtistResults_other _ _ first.id results rest others
          (fun other hmem hsame => hids.1 (hsame ▸ List.mem_map_of_mem hmem)) hrest
        refine ⟨later, hkept.trans hlater, ?_⟩
        have hnone : ∀ choice ∈ others.map (artistChoice results), choice.1 ≠ first.id := by
          rintro choice hchoice
          obtain ⟨other, hother, rfl⟩ := List.mem_map.mp hchoice
          exact hothers other hother
        rw [hrows]
        cases wrote with
        | true => rwa [if_pos rfl, List.map_cons, choiceOf_cons hnone rfl]
        | false => rwa [if_neg Bool.false_ne_true, choiceOf_eq_none hnone]
      · obtain ⟨hkept, hrows⟩ := persistArtistResult_other (Ne.symm hid) hfirst
        have hmiddle : Table.UniqueBy BroadcastArtist.id middle.artists := by
          rw [Table.UniqueBy, (persistArtistResult_moves hfirst).artistIds]
          exact hunique
        obtain ⟨later, hlater, hmove⟩ := ih hmiddle hids.2 (hkept.trans hartist) hrest
        refine ⟨later, hlater, ?_⟩
        rw [hrows] at hmove
        cases wrote with
        | true => rwa [if_pos rfl, List.map_cons, choiceOf_cons_other hid]
        | false => rwa [if_neg Bool.false_ne_true]

/-- What moves a pending artist moves one that goes back to pending first. -/
theorem ArtistMove.of_pending {status : MatchStatus} {targets : List (Option String)}
    {view : ArtistView} {choice : Option (Option String)}
    (hopen : status ∈ ARTIST_UNDECIDED_STATUSES)
    (hmove : ArtistMove none (.pending, targets) view choice) :
    ArtistMove none (status, targets) view choice := by
  cases hmove with
  | kept => exact .rewound hopen
  | rewound hpending => exact absurd hpending (by decide)
  | found => exact .found (.inr hopen)
  | reviewed => exact .reviewed (.inr hopen)

/-- Artists of some undecided statuses go back to pending. -/
theorem updateArtists_pending {which : BroadcastArtist → Bool} {artist : BroadcastArtist}
    (hopen : ∀ artist, which artist = true → artist.matchStatus ∈ ARTIST_UNDECIDED_STATUSES)
    (hartist : db.getArtist artistId = some artist) :
    ∃ later, (db.updateArtists which (ArtistDecision.write { status := .pending })).getArtist
      artistId =
        some later ∧
      (later.matchStatus = artist.matchStatus ∨
        later.matchStatus = .pending ∧ artist.matchStatus ∈ ARTIST_UNDECIDED_STATUSES) := by
  refine ⟨_, (@getArtist_updateArtists db artistId which
    (ArtistDecision.write { status := .pending }) fun _ => rfl).trans (congrArg _ hartist), ?_⟩
  dsimp only
  split
  next hwhich => exact .inr ⟨rfl, hopen artist hwhich⟩
  next => exact .inl rfl

theorem artistMatchingTask_move {results : BroadcastArtist → ArtistMatchResult}
    {playlistId : Uuid} {written : List BroadcastArtist} {artist : BroadcastArtist}
    (hunique : Table.UniqueBy BroadcastArtist.id db.artists)
    (hartist : db.getArtist artistId = some artist)
    (htask : artistMatchingTask results db playlistId = some (written, next)) :
    ∃ later, next.getArtist artistId = some later ∧
      ArtistMove none (artist.matchStatus, rowTargets db artistId)
        (later.matchStatus, rowTargets next artistId)
        (choiceOf (written.map (artistChoice results)) artistId) := by
  unfold artistMatchingTask matchArtistsForPlaylist at htask
  generalize hdeferred : List.map BroadcastArtist.id _ = deferred at htask
  obtain ⟨⟨written, persisted⟩, hpersist, heq⟩ := Option.map_eq_some_iff.mp htask
  obtain ⟨rfl, rfl⟩ := Prod.mk.inj heq
  have hopen : ∀ artist : BroadcastArtist, decide (artist.id ∈ deferred ∧
      artist.matchStatus = .needsReview ∧ artist.reasonCode = some .deferredRetry) = true →
      artist.matchStatus ∈ ARTIST_UNDECIDED_STATUSES := by
    intro artist hwhich
    rw [(of_decide_eq_true hwhich).2.1]
    decide
  obtain ⟨there, hthere, hstatus⟩ := updateArtists_pending hopen hartist
  have hreset : ArtistsKept (db.resetDeferredByIds deferred)
      ((db.resetDeferredByIds deferred).resetDeferredByArtistIds deferred) := ⟨rfl, fun _ => rfl⟩
  have hids : Table.UniqueBy BroadcastArtist.id
      ((db.resetDeferredByIds deferred).resetDeferredByArtistIds deferred).artists :=
    hunique.update fun _ => rfl
  obtain ⟨later, hlater, hmove⟩ := persistArtistResults_move hids
    (hids.sublist ((List.filter_sublist.trans List.filter_sublist).map _)) hthere hpersist
  have hcascaded : ArtistsKept persisted
      (cascadeDeferred results (cascadeAutoRejected persisted playlistId) written) :=
    (ArtistsKept.foldl (fun _ _ => .decidePending) _ _).trans
      (.foldl (fun _ _ => .decidePending) _ _)
  refine hcascaded.carry ⟨later, hlater, ?_⟩
  rcases hstatus with hsame | ⟨hpending, hwas⟩
  · exact hsame ▸ hmove
  · exact (hpending ▸ hmove).of_pending hwas

/-! ## Users and re-checks -/

theorem rewindWave_move {names : Option (List String)} {artist : BroadcastArtist}
    (hartist : db.getArtist artistId = some artist) :
    ∃ later, (rewindWave db names).getArtist artistId = some later ∧
      ArtistMove none (artist.matchStatus, rowTargets db artistId)
        (later.matchStatus, rowTargets (rewindWave db names) artistId) none := by
  have hopen : ∀ artist : BroadcastArtist, decide (artist.matchStatus ∈ ARTIST_UNDECIDED_STATUSES ∧
      names.all fun wanted => artist.normalizedName ∈ wanted) = true →
      artist.matchStatus ∈ ARTIST_UNDECIDED_STATUSES := fun _ hwhich => (of_decide_eq_true hwhich).1
  obtain ⟨later, hlater, hstatus⟩ := updateArtists_pending hopen hartist
  refine ⟨later, hlater, ?_⟩
  rcases hstatus with hsame | ⟨hpending, hwas⟩
  · rw [hsame]
    exact .kept
  · rw [hpending]
    exact .rewound hwas

theorem rowTargets_upsertArtistRow {targetId : String} {otherId : Uuid} :
    rowTargets (db.upsertArtistRow artistId targetId) otherId =
      if otherId = artistId then withTarget (rowTargets db artistId) targetId
      else rowTargets db otherId := by
  have hany : db.matchRows.any (targets artistId targetId) = true ↔
      some targetId ∈ rowTargets db artistId := by
    simp [rowTargets, artistRows, targets, and_assoc]
  unfold upsertArtistRow
  split
  next hthere =>
    have hsame : (if otherId = artistId then withTarget (rowTargets db artistId) targetId
        else rowTargets db otherId) = rowTargets db otherId := by
      split
      next hid => rw [withTarget, if_pos (hany.mp hthere), hid]
      next => rfl
    rw [hsame]
    unfold rowTargets artistRows
    dsimp only
    rw [Table.filter_update]
    · exact Table.map_update_key fun _ => rfl
    · exact fun _ _ => rfl
  next hnone =>
    have hnew : some targetId ∉ rowTargets db artistId := fun hmem => hnone (hany.mpr hmem)
    rw [withTarget, if_neg hnew]
    unfold rowTargets
    rw [artistRows_createMatch]
    by_cases hsame : otherId = artistId
    · simp [hsame]
    · simp [hsame, Ne.symm hsame]

/-- The choice that an action of a user makes. -/
theorem choiceOf_single {otherId : Uuid} {target : Option String} :
    choiceOf [(otherId, target)] artistId = if artistId = otherId then some target else none := by
  split
  next hsame => exact choiceOf_cons (by simp) hsame.symm
  next hother => exact choiceOf_eq_none (by simpa using Ne.symm hother)

/-- An update of one artist. -/
theorem updateArtists_one {otherId : Uuid} {change : BroadcastArtist → BroadcastArtist}
    {artist : BroadcastArtist} (hid : ∀ artist, (change artist).id = artist.id)
    (hartist : db.getArtist artistId = some artist) :
    (db.updateArtists (fun artist => artist.id = otherId) change).getArtist artistId =
      some (if artistId = otherId then change artist else artist) := by
  rw [getArtist_updateArtists hid, hartist, Option.map_some]
  simp only [(getArtist_eq_some hartist).2, decide_eq_true_eq]

theorem resolveArtistMatched_move {otherId : Uuid} {target : String} {artist : BroadcastArtist}
    (hartist : db.getArtist artistId = some artist)
    (hresolve : resolveArtistMatched db otherId target = some next) :
    ∃ later, next.getArtist artistId = some later ∧
      ArtistMove (askedOf artistId (.resolveArtistMatched otherId target))
        (artist.matchStatus, rowTargets db artistId)
        (later.matchStatus, rowTargets next artistId)
        (choiceOf [(otherId, some target)] artistId) := by
  unfold resolveArtistMatched at hresolve
  split at hresolve
  · cases hresolve
  · obtain ⟨_, -, rfl⟩ := Option.map_eq_some_iff.mp hresolve
    dsimp only
    generalize hdecided : (db.updateArtists (fun artist => artist.id = otherId) fun artist =>
      { artist with matchStatus := .manualMatched }) = decided
    have hlater := @updateArtists_one db artistId otherId
      (fun artist => { artist with matchStatus := .manualMatched }) artist (fun _ => rfl) hartist
    rw [hdecided] at hlater
    have hrows : rowTargets decided = rowTargets db := by rw [← hdecided]; rfl
    refine @ArtistsKept.carry (decided.upsertArtistRow otherId target) _ artistId _ _ _
      ⟨rfl, fun _ => artistRows_deleteForIdentities _⟩ ⟨_, by
        rw [getArtist, (@upsertArtistRow_others decided otherId target).1]
        exact hlater, ?_⟩
    rw [rowTargets_upsertArtistRow, hrows, choiceOf_single, askedOf]
    split
    next hsame =>
      subst hsame
      exact .linked
    next => exact .kept

theorem resolveArtistRejected_move {otherId : Uuid} {artist : BroadcastArtist}
    (hartist : db.getArtist artistId = some artist)
    (hresolve : resolveArtistRejected db otherId = some next) :
    ∃ later, next.getArtist artistId = some later ∧
      ArtistMove (askedOf artistId (.resolveArtistRejected otherId))
        (artist.matchStatus, rowTargets db artistId)
        (later.matchStatus, rowTargets next artistId) (choiceOf [(otherId, none)] artistId) := by
  obtain ⟨_, -, rfl⟩ := Option.map_eq_some_iff.mp hresolve
  have hlater := @updateArtists_one db artistId otherId
    (fun artist => { artist with matchStatus := .manualRejected }) artist (fun _ => rfl) hartist
  refine ArtistsKept.carry ⟨rfl, fun _ => rfl⟩ ⟨_, hlater, ?_⟩
  rw [choiceOf_single, askedOf]
  split
  · exact .rejected
  · exact .kept

theorem unmatchArtist_move {otherId : Uuid} {artist : BroadcastArtist}
    (hunique : Table.UniqueBy BroadcastArtist.id db.artists)
    (hartist : db.getArtist artistId = some artist)
    (hunmatch : unmatchArtist db otherId = some next) :
    ∃ later, next.getArtist artistId = some later ∧
      ArtistMove (askedOf artistId (.unmatchArtist otherId))
        (artist.matchStatus, rowTargets db artistId)
        (later.matchStatus, rowTargets next artistId) (choiceOf [(otherId, none)] artistId) := by
  unfold unmatchArtist at hunmatch
  dsimp only at hunmatch
  split at hunmatch
  next hany =>
    obtain rfl := Option.some.inj hunmatch
    obtain ⟨other, hother, hwhich⟩ := List.any_eq_true.mp hany
    obtain ⟨hid, hstatus⟩ := of_decide_eq_true hwhich
    have hlater := (@getArtist_updateArtists db artistId (fun artist => artist.id = otherId ∧
      artist.matchStatus ∈ UNMATCHABLE_STATUSES) (ArtistDecision.write
        { status := .needsReview, reasonCode := some .userUnmatched }) fun _ => rfl).trans
      (congrArg _ hartist)
    refine ⟨_, hlater, ?_⟩
    have hrows : ∀ (current : Database) ids, current.matchRows = db.matchRows →
        rowTargets ((current.deleteForIdentities ids).deleteForArtist otherId) artistId =
          if artistId = otherId then [] else rowTargets db artistId := by
      intro current ids hsame
      unfold rowTargets
      rw [artistRows_deleteForArtist, artistRows_deleteForIdentities, artistRows, hsame]
      split <;> rfl
    rw [hrows _ _ (by rfl), choiceOf_single, askedOf]
    dsimp only
    by_cases hsame : artistId = otherId
    · subst hsame
      obtain rfl := hunique.eq hother (getArtist_eq_some hartist).1
        (hid.trans (getArtist_eq_some hartist).2.symm)
      rw [if_pos rfl, if_pos rfl, if_pos hwhich, if_pos rfl]
      exact .unmatched
    · rw [if_neg hsame, if_neg hsame, if_neg hsame, if_neg]
      · exact .kept
      · intro hthis
        exact hsame ((getArtist_eq_some hartist).2.symm.trans (of_decide_eq_true hthis).1)
  · cases hunmatch

/-! ## Every action -/

/-- Each action moves each artist, and makes a choice for those that it decides. -/
theorem decision_artistMove {action : DecisionAction} {choices : List ArtistChoice}
    {artist : BroadcastArtist} (hkeys : KeysOk db)
    (hstep : decisionMachine.step db action = some (next, choices))
    (hartist : db.getArtist artistId = some artist) :
    ∃ later, next.getArtist artistId = some later ∧
      ArtistMove (askedOf artistId action) (artist.matchStatus, rowTargets db artistId)
        (later.matchStatus, rowTargets next artistId) (choiceOf choices artistId) := by
  cases action with
  | matchIdentities config playlistId =>
      obtain ⟨⟨works, last⟩, hrun, heq⟩ := Option.map_eq_some_iff.mp hstep
      obtain ⟨rfl, rfl⟩ := Prod.mk.inj heq
      exact (matchIdentities_kept hkeys.artists hrun).move hartist
  | matchArtists results playlistId =>
      obtain ⟨⟨written, last⟩, hrun, heq⟩ := Option.map_eq_some_iff.mp hstep
      obtain ⟨rfl, rfl⟩ := Prod.mk.inj heq
      exact artistMatchingTask_move hkeys.artists hartist hrun
  | recheck names =>
      obtain ⟨rfl, rfl⟩ := Prod.mk.inj (Option.some.inj hstep)
      exact rewindWave_move hartist
  | resolveArtistMatched otherId target =>
      obtain ⟨resolved, hresolve, heq⟩ := Option.map_eq_some_iff.mp hstep
      obtain ⟨rfl, rfl⟩ := Prod.mk.inj heq
      exact resolveArtistMatched_move hartist hresolve
  | resolveArtistRejected otherId =>
      obtain ⟨resolved, hresolve, heq⟩ := Option.map_eq_some_iff.mp hstep
      obtain ⟨rfl, rfl⟩ := Prod.mk.inj heq
      exact resolveArtistRejected_move hartist hresolve
  | unmatchArtist otherId =>
      obtain ⟨unmatched, hunmatch, heq⟩ := Option.map_eq_some_iff.mp hstep
      obtain ⟨rfl, rfl⟩ := Prod.mk.inj heq
      exact unmatchArtist_move hkeys.artists hartist hunmatch
  | resolveIdentityMatched identityId libraryFileId =>
      obtain ⟨resolved, hresolve, heq⟩ := Option.map_eq_some_iff.mp hstep
      obtain ⟨rfl, rfl⟩ := Prod.mk.inj heq
      exact (resolveIdentityMatched_kept hresolve).move hartist
  | rejectSongSuggestion identityId shownFileId =>
      obtain ⟨rejected, hreject, heq⟩ := Option.map_eq_some_iff.mp hstep
      obtain ⟨rfl, rfl⟩ := Prod.mk.inj heq
      exact (rejectSongSuggestion_kept hreject).move hartist
  | unmatchSong identityId =>
      obtain ⟨unmatched, hunmatch, heq⟩ := Option.map_eq_some_iff.mp hstep
      obtain ⟨rfl, rfl⟩ := Prod.mk.inj heq
      exact (unmatchSong_kept hunmatch).move hartist
  | ingest ingestion =>
      obtain ⟨ingested, hingest, heq⟩ := Option.map_eq_some_iff.mp hstep
      obtain ⟨rfl, rfl⟩ := Prod.mk.inj heq
      exact ⟨artist, ingest_getArtist hingest hartist, by
        rw [ingest_rowTargets hingest]
        exact .kept⟩
  | scan files =>
      obtain ⟨scanned, hscan, heq⟩ := Option.map_eq_some_iff.mp hstep
      obtain ⟨rfl, rfl⟩ := Prod.mk.inj heq
      unfold scanLibrary at hscan
      split at hscan
      · obtain rfl := Option.some.inj hscan
        exact ArtistsKept.move ⟨rfl, fun _ => rfl⟩ hartist
      · cases hscan
  | configure rules catalog =>
      obtain ⟨rfl, rfl⟩ := Prod.mk.inj (Option.some.inj hstep)
      exact ArtistsKept.move ⟨rfl, fun _ => rfl⟩ hartist

/-! ## Artists that are not there -/

theorem getArtist_eq_none :
    db.getArtist artistId = none ↔ ∀ artist ∈ db.artists, artist.id ≠ artistId := by
  simp [getArtist]

theorem ArtistsKept.unknown {targets : List (Option String)} (hkept : ArtistsKept db next)
    (hstill : db.getArtist artistId = none ∧ rowTargets db artistId = targets) :
    next.getArtist artistId = none ∧ rowTargets next artistId = targets := by
  rwa [getArtist, hkept.artists, rowTargets, hkept.rows]

theorem updateArtists_unknown {which : BroadcastArtist → Bool}
    {change : BroadcastArtist → BroadcastArtist} (hid : ∀ artist, (change artist).id = artist.id)
    (hnone : db.getArtist artistId = none) :
    (db.updateArtists which change).getArtist artistId = none := by
  rw [getArtist_updateArtists hid, hnone]
  rfl

theorem artistMatchingTask_unknown {results : BroadcastArtist → ArtistMatchResult}
    {playlistId : Uuid} {written : List BroadcastArtist} (hnone : db.getArtist artistId = none)
    (htask : artistMatchingTask results db playlistId = some (written, next)) :
    next.getArtist artistId = none ∧ rowTargets next artistId = rowTargets db artistId := by
  unfold artistMatchingTask matchArtistsForPlaylist at htask
  generalize List.map BroadcastArtist.id _ = deferred at htask
  obtain ⟨⟨written, persisted⟩, hpersist, heq⟩ := Option.map_eq_some_iff.mp htask
  obtain ⟨rfl, rfl⟩ := Prod.mk.inj heq
  have hreset : ((db.resetDeferredByIds deferred).resetDeferredByArtistIds deferred).getArtist
      artistId = none := @updateArtists_unknown db artistId _
    (ArtistDecision.write { status := .pending }) (fun _ => rfl) hnone
  obtain ⟨hartist, hrows, -⟩ := persistArtistResults_other (fun artist hmem =>
    getArtist_eq_none.mp hreset artist (List.mem_filter.mp (List.mem_filter.mp hmem).1).1) hpersist
  have hcascaded : ArtistsKept persisted
      (cascadeDeferred results (cascadeAutoRejected persisted playlistId) written) :=
    (ArtistsKept.foldl (fun _ _ => .decidePending) _ _).trans
      (.foldl (fun _ _ => .decidePending) _ _)
  exact hcascaded.unknown ⟨hartist.trans hreset, hrows⟩

/-- Rows of an artist that is not there stay as they are; a new artist is pending. -/
theorem decision_unknown {action : DecisionAction} {choices : List ArtistChoice}
    (hkeys : KeysOk db) (hstep : decisionMachine.step db action = some (next, choices))
    (hnone : db.getArtist artistId = none) :
    rowTargets next artistId = rowTargets db artistId ∧
      ∀ artist, next.getArtist artistId = some artist → artist.matchStatus = .pending := by
  have hgone : next.getArtist artistId = none ∧ rowTargets next artistId = rowTargets db artistId →
      rowTargets next artistId = rowTargets db artistId ∧
        ∀ artist, next.getArtist artistId = some artist → artist.matchStatus = .pending :=
    fun hstill => ⟨hstill.2, fun artist hartist => by simp [hstill.1] at hartist⟩
  -- An action on an artist that is there is about another artist.
  have hother : ∀ otherId artist, db.getArtist otherId = some artist → artistId ≠ otherId := by
    rintro otherId artist hartist rfl
    simp [hnone] at hartist
  cases action with
  | matchIdentities config playlistId =>
      obtain ⟨⟨works, last⟩, hrun, heq⟩ := Option.map_eq_some_iff.mp hstep
      obtain ⟨rfl, rfl⟩ := Prod.mk.inj heq
      exact hgone ((matchIdentities_kept hkeys.artists hrun).unknown ⟨hnone, rfl⟩)
  | matchArtists results playlistId =>
      obtain ⟨⟨written, last⟩, hrun, heq⟩ := Option.map_eq_some_iff.mp hstep
      obtain ⟨rfl, rfl⟩ := Prod.mk.inj heq
      exact hgone (artistMatchingTask_unknown hnone hrun)
  | recheck names =>
      obtain ⟨rfl, rfl⟩ := Prod.mk.inj (Option.some.inj hstep)
      exact hgone ⟨@updateArtists_unknown db artistId _
        (ArtistDecision.write { status := .pending })
        (fun _ => rfl) hnone, rfl⟩
  | resolveArtistMatched otherId target =>
      obtain ⟨resolved, hresolve, heq⟩ := Option.map_eq_some_iff.mp hstep
      obtain ⟨rfl, rfl⟩ := Prod.mk.inj heq
      unfold resolveArtistMatched at hresolve
      split at hresolve
      · cases hresolve
      · obtain ⟨artist, hartist, rfl⟩ := Option.map_eq_some_iff.mp hresolve
        refine hgone ?_
        dsimp only
        generalize hdecided : (db.updateArtists (fun artist => artist.id = otherId) fun artist =>
          { artist with matchStatus := .manualMatched }) = decided
        have hlater : decided.getArtist artistId = none := hdecided ▸ updateArtists_unknown
          (fun _ => rfl) hnone
        have hrows : rowTargets decided = rowTargets db := by rw [← hdecided]; rfl
        refine @ArtistsKept.unknown (decided.upsertArtistRow otherId target) _ artistId _
          ⟨rfl, fun _ => artistRows_deleteForIdentities _⟩ ⟨?_, ?_⟩
        · rwa [getArtist, (@upsertArtistRow_others decided otherId target).1]
        · rw [rowTargets_upsertArtistRow, if_neg (hother otherId artist hartist), hrows]
  | resolveArtistRejected otherId =>
      obtain ⟨resolved, hresolve, heq⟩ := Option.map_eq_some_iff.mp hstep
      obtain ⟨rfl, rfl⟩ := Prod.mk.inj heq
      obtain ⟨artist, -, rfl⟩ := Option.map_eq_some_iff.mp hresolve
      refine hgone ⟨?_, rfl⟩
      exact @updateArtists_unknown db artistId (fun artist => artist.id = otherId)
        (fun artist => { artist with matchStatus := .manualRejected }) (fun _ => rfl) hnone
  -- The rows that go are those of an artist that is there.
  | unmatchArtist otherId =>
      obtain ⟨unmatched, hunmatch, heq⟩ := Option.map_eq_some_iff.mp hstep
      obtain ⟨rfl, rfl⟩ := Prod.mk.inj heq
      unfold unmatchArtist at hunmatch
      dsimp only at hunmatch
      split at hunmatch
      next hany =>
        obtain rfl := Option.some.inj hunmatch
        obtain ⟨other, hmem, hwhich⟩ := List.any_eq_true.mp hany
        have hne : artistId ≠ otherId := hother otherId other
          ((of_decide_eq_true hwhich).1 ▸ getArtist_of_mem hkeys.artists hmem)
        refine hgone ⟨@updateArtists_unknown db artistId _ (ArtistDecision.write
          { status := .needsReview, reasonCode := some .userUnmatched }) (fun _ => rfl) hnone, ?_⟩
        unfold rowTargets
        rw [artistRows_deleteForArtist, if_neg hne, artistRows_deleteForIdentities]
        rfl
      · cases hunmatch
  | resolveIdentityMatched identityId libraryFileId =>
      obtain ⟨resolved, hresolve, heq⟩ := Option.map_eq_some_iff.mp hstep
      obtain ⟨rfl, rfl⟩ := Prod.mk.inj heq
      exact hgone ((resolveIdentityMatched_kept hresolve).unknown ⟨hnone, rfl⟩)
  | rejectSongSuggestion identityId shownFileId =>
      obtain ⟨rejected, hreject, heq⟩ := Option.map_eq_some_iff.mp hstep
      obtain ⟨rfl, rfl⟩ := Prod.mk.inj heq
      exact hgone ((rejectSongSuggestion_kept hreject).unknown ⟨hnone, rfl⟩)
  | unmatchSong identityId =>
      obtain ⟨unmatched, hunmatch, heq⟩ := Option.map_eq_some_iff.mp hstep
      obtain ⟨rfl, rfl⟩ := Prod.mk.inj heq
      exact hgone ((unmatchSong_kept hunmatch).unknown ⟨hnone, rfl⟩)
  -- Only an ingestion adds artists, and it adds them pending.
  | ingest ingestion =>
      obtain ⟨ingested, hingest, heq⟩ := Option.map_eq_some_iff.mp hstep
      obtain ⟨rfl, rfl⟩ := Prod.mk.inj heq
      refine ⟨ingest_rowTargets hingest, fun artist hartist => ?_⟩
      unfold ingest at hingest
      split at hingest
      · obtain rfl := Option.some.inj hingest
        have happend := (List.find?_append ..).symm.trans hartist
        rw [show db.artists.find? _ = none from hnone] at happend
        exact ingestion.artistsPending artist (List.mem_of_find?_eq_some happend)
      · cases hingest
  | scan files =>
      obtain ⟨scanned, hscan, heq⟩ := Option.map_eq_some_iff.mp hstep
      obtain ⟨rfl, rfl⟩ := Prod.mk.inj heq
      unfold scanLibrary at hscan
      split at hscan
      · obtain rfl := Option.some.inj hscan
        exact hgone ⟨hnone, rfl⟩
      · cases hscan
  | configure rules catalog =>
      obtain ⟨rfl, rfl⟩ := Prod.mk.inj (Option.some.inj hstep)
      exact hgone ⟨hnone, rfl⟩

end Matching

end RetroStation
