import Mathlib.Data.List.Dedup
import Mathlib.Data.List.Induction
import Mathlib.Data.List.Perm.Subperm
import RetroStation.Matching.ArtistLinking

/-! # Links and the files that carry them

An artist is linked by the MBIDs that most of its files are tagged with. A file carries an MBID
once, however often its tag names it.
-/

namespace RetroStation.Matching

open Library (truthy)

/-! ## How many files carry an MBID -/

def Carried (tagCounts : List (String × Nat)) (mbid : MusicBrainzId) : Prop :=
  ∃ tag ∈ tagCounts, mbid ∈ mbidsOf tag.1

/-- The files that carry an MBID: each counts once for its tag. -/
def fileCount (tagCounts : List (String × Nat)) (mbid : MusicBrainzId) : Nat :=
  (tagCounts.map fun tag => if mbid ∈ mbidsOf tag.1 then tag.2 else 0).sum

/-- The files that carry an MBID, counted as often as their tag names it. -/
def nameCount (tagCounts : List (String × Nat)) (mbid : MusicBrainzId) : Nat :=
  (tagCounts.map fun tag => tag.2 * (mbidsOf tag.1).count mbid).sum

/-- The tagged MBIDs, those that most files carry first. -/
def mbidsByFiles (tagCounts : List (String × Nat)) : List MusicBrainzId :=
  (tagCounts.flatMap fun tag => mbidsOf tag.1).dedup.insertionSort
    (RankedBefore (fileCount tagCounts))

/-- The three real MBIDs that most files carry. -/
def topReal (tagCounts : List (String × Nat)) : List MusicBrainzId :=
  (realMbids (mbidsByFiles tagCounts)).take MAX_TAG_MBIDS

/-- The MBIDs that are looked up. -/
def lookedUp (tagCounts : List (String × Nat)) : List MusicBrainzId :=
  (realMbids (tagMbids tagCounts)).take MAX_TAG_MBIDS

variable {tagCounts other : List (String × Nat)} {mbid : MusicBrainzId}

theorem get?_foldl_set (files : Nat) (mbids : List MusicBrainzId) (mbid : MusicBrainzId) :
    ∀ totals : Dict MusicBrainzId Nat, let after := mbids.foldl (fun totals mbid =>
        totals.set mbid ((totals.get? mbid).getD 0 + files)) totals
      (after.get? mbid).getD 0 = (totals.get? mbid).getD 0 + files * mbids.count mbid ∧
        (mbid ∈ after.keys ↔ mbid ∈ totals.keys ∨ mbid ∈ mbids) := by
  induction mbids with
  | nil => simp
  | cons first rest ih =>
      intro totals
      obtain ⟨hcount, hkeys⟩ := ih (totals.set first ((totals.get? first).getD 0 + files))
      dsimp only at hcount hkeys ⊢
      rw [List.foldl_cons, hcount, hkeys]
      by_cases hfirst : mbid = first
      · subst hfirst
        rw [Dict.get?_set_self, List.count_cons_self]
        refine ⟨?_, ?_⟩
        · simp only [Option.getD_some]
          ring
        · simp [Dict.mem_keys_iff]
      · rw [Dict.get?_set_of_ne hfirst, List.count_cons_of_ne (Ne.symm hfirst)]
        refine ⟨rfl, ?_⟩
        simp [Dict.mem_keys_iff, Dict.get?_set_of_ne hfirst, hfirst]

theorem get?_addTags (tagCounts : List (String × Nat)) (mbid : MusicBrainzId) :
    ∀ totals : Dict MusicBrainzId Nat,
      ((tagCounts.foldl addTag totals).get? mbid).getD 0 =
          (totals.get? mbid).getD 0 + nameCount tagCounts mbid ∧
        (mbid ∈ (tagCounts.foldl addTag totals).keys ↔
          mbid ∈ totals.keys ∨ Carried tagCounts mbid) := by
  induction tagCounts with
  | nil => simp [nameCount, Carried]
  | cons tag rest ih =>
      intro totals
      obtain ⟨hcount, hkeys⟩ := ih (addTag totals tag)
      obtain ⟨hfirst, hfirstKeys⟩ := get?_foldl_set tag.2 (mbidsOf tag.1) mbid totals
      rw [List.foldl_cons, hcount, hkeys, addTag, hfirst, hfirstKeys]
      simp [nameCount, Carried, Nat.add_assoc, or_assoc]

/-! ## Ranks -/

section

variable {count count' : MusicBrainzId → Nat}

theorem rankedBefore_total (first second : MusicBrainzId) :
    RankedBefore count first second ∨ RankedBefore count second first := by
  unfold RankedBefore
  rcases lt_trichotomy (count first) (count second) with hlt | heq | hgt
  · exact .inr (.inl hlt)
  · rcases String.le_total first.value second.value with hle | hle
    · exact .inl (.inr ⟨heq, hle⟩)
    · exact .inr (.inr ⟨heq.symm, hle⟩)
  · exact .inl (.inl hgt)

theorem RankedBefore.trans {first second third : MusicBrainzId}
    (hfirst : RankedBefore count first second) (hsecond : RankedBefore count second third) :
    RankedBefore count first third := by
  unfold RankedBefore at *
  rcases hfirst with hlt | ⟨heq, hle⟩ <;> rcases hsecond with hlt' | ⟨heq', hle'⟩
  · exact .inl (hlt'.trans hlt)
  · exact .inl (heq' ▸ hlt)
  · exact .inl (heq ▸ hlt')
  · exact .inr ⟨heq.trans heq', String.le_trans hle hle'⟩

instance : Std.Total (RankedBefore count) := ⟨rankedBefore_total⟩

instance : IsTrans MusicBrainzId (RankedBefore count) := ⟨fun _ _ _ => RankedBefore.trans⟩

/-- The ranks of some MBIDs depend on nothing but their counts. -/
theorem insertionSort_ranked {mbids mbids' : List MusicBrainzId} (hnodup : mbids.Nodup)
    (hnodup' : mbids'.Nodup) (hmem : ∀ mbid, mbid ∈ mbids ↔ mbid ∈ mbids')
    (hcount : ∀ mbid ∈ mbids, count mbid = count' mbid) :
    mbids.insertionSort (RankedBefore count) = mbids'.insertionSort (RankedBefore count') := by
  have hsorted := List.perm_insertionSort (RankedBefore count) mbids
  have hsorted' := List.perm_insertionSort (RankedBefore count') mbids'
  have hperm := (hsorted.trans ((List.perm_ext_iff_of_nodup hnodup hnodup').mpr hmem)).trans
    hsorted'.symm
  have hranked' : (mbids'.insertionSort (RankedBefore count')).Pairwise (RankedBefore count) := by
    refine (List.pairwise_insertionSort (RankedBefore count') mbids').imp_of_mem ?_
    intro first second hfirst hsecond hranks
    unfold RankedBefore at hranks ⊢
    rwa [hcount first ((hmem first).mpr (hsorted'.mem_iff.mp hfirst)),
      hcount second ((hmem second).mpr (hsorted'.mem_iff.mp hsecond))]
  refine List.Perm.eq_of_pairwise (fun first second _ _ hbefore hafter => ?_)
    (List.pairwise_insertionSort (RankedBefore count) mbids) hranked' hperm
  unfold RankedBefore at hbefore hafter
  refine MusicBrainzId.ext (String.le_antisymm ?_ ?_)
  · exact (hbefore.resolve_left (by omega)).2
  · exact (hafter.resolve_left (by omega)).2

end

theorem mem_dedup_carried : mbid ∈ (tagCounts.flatMap fun tag => mbidsOf tag.1).dedup ↔
    Carried tagCounts mbid := by
  rw [List.mem_dedup, List.mem_flatMap, Carried]

/-- The tagged MBIDs are ranked by how often tags name them. -/
theorem tagMbids_eq (tagCounts : List (String × Nat)) : tagMbids tagCounts =
    (tagCounts.flatMap fun tag => mbidsOf tag.1).dedup.insertionSort
      (RankedBefore (nameCount tagCounts)) := by
  refine insertionSort_ranked (Dict.nodup _) (List.nodup_dedup _) (fun mbid => ?_)
    fun mbid _ => ?_
  · rw [mem_dedup_carried]
    exact ((get?_addTags tagCounts mbid .empty).2).trans (or_iff_right List.not_mem_nil)
  · exact ((get?_addTags tagCounts mbid .empty).1).trans (Nat.zero_add _)

/-- Two lists of tag values by which each MBID is carried by as many files. -/
def SameFiles (tagCounts other : List (String × Nat)) : Prop :=
  ∀ mbid, (Carried tagCounts mbid ↔ Carried other mbid) ∧
    fileCount tagCounts mbid = fileCount other mbid

theorem mbidsByFiles_congr (hsame : SameFiles tagCounts other) :
    mbidsByFiles tagCounts = mbidsByFiles other := by
  refine insertionSort_ranked (List.nodup_dedup _) (List.nodup_dedup _) (fun mbid => ?_)
    fun mbid _ => (hsame mbid).2
  rw [mem_dedup_carried, mem_dedup_carried]
  exact (hsame mbid).1

/-- No tag value names an MBID twice. -/
def NamesOnce (tagCounts : List (String × Nat)) : Prop :=
  ∀ tag ∈ tagCounts, (mbidsOf tag.1).Nodup

theorem NamesOnce.tagMbids_eq (honce : NamesOnce tagCounts) :
    tagMbids tagCounts = mbidsByFiles tagCounts := by
  rw [Matching.tagMbids_eq, mbidsByFiles]
  refine insertionSort_ranked (List.nodup_dedup _) (List.nodup_dedup _) (fun _ => Iff.rfl)
    fun mbid _ => ?_
  rw [nameCount, fileCount]
  refine congrArg List.sum (List.map_congr_left fun tag htag => ?_)
  by_cases hmem : mbid ∈ mbidsOf tag.1
  · rw [if_pos hmem, List.count_eq_one_of_mem (honce tag htag) hmem, Nat.mul_one]
  · rw [if_neg hmem, List.count_eq_zero_of_not_mem hmem, Nat.mul_zero]

theorem mem_tagMbids : mbid ∈ tagMbids tagCounts ↔ Carried tagCounts mbid := by
  rw [tagMbids_eq, List.mem_insertionSort, mem_dedup_carried]

theorem mem_mbidsByFiles : mbid ∈ mbidsByFiles tagCounts ↔ Carried tagCounts mbid := by
  rw [mbidsByFiles, List.mem_insertionSort, mem_dedup_carried]

theorem nodup_tagMbids (tagCounts : List (String × Nat)) : (tagMbids tagCounts).Nodup := by
  rw [tagMbids_eq]
  exact (List.perm_insertionSort _ _).nodup_iff.mpr (List.nodup_dedup _)

theorem nodup_mbidsByFiles (tagCounts : List (String × Nat)) : (mbidsByFiles tagCounts).Nodup :=
  (List.perm_insertionSort _ _).nodup_iff.mpr (List.nodup_dedup _)

/-- As many MBIDs are looked up as there are among the top ones. -/
theorem length_lookedUp (tagCounts : List (String × Nat)) :
    (lookedUp tagCounts).length = (topReal tagCounts).length := by
  have hperm : (tagMbids tagCounts).Perm (mbidsByFiles tagCounts) :=
    (List.perm_ext_iff_of_nodup (nodup_tagMbids _) (nodup_mbidsByFiles _)).mpr fun mbid =>
      mem_tagMbids.trans mem_mbidsByFiles.symm
  rw [lookedUp, topReal, List.length_take, List.length_take, realMbids, realMbids,
    (hperm.filter _).length_eq]

/-! ## What the artists looked up lead to -/

section

variable {normalizeArtist : String → String} {musicBrainz : MusicBrainz} {normalizedName : String}
  {mbids mbids' : List MusicBrainzId} {candidate candidate' : ArtistLinkCandidate}

/-- An artist that some of the MBIDs resolve to and that has the artist's name. -/
def Finds (normalizeArtist : String → String) (musicBrainz : MusicBrainz) (normalizedName : String)
    (mbids : List MusicBrainzId) (candidate : ArtistLinkCandidate) : Prop :=
  ∃ mbid ∈ mbids, answerFor normalizeArtist musicBrainz normalizedName mbid = .named candidate

/-- The MBID is answered with a placeholder. -/
def ResolvesToPlaceholder (musicBrainz : MusicBrainz) (mbid : MusicBrainzId) : Prop :=
  ∃ data, musicBrainz.lookupArtist mbid = some data ∧
    (isPlaceholderName (data.name.getD "") = true ∨
      ∃ found, data.foundAs mbid = some found ∧ isSpecialPurpose found = true)

theorem answerFor_named (hanswer : answerFor normalizeArtist musicBrainz normalizedName mbid =
      .named candidate) :
    ∃ data, musicBrainz.lookupArtist mbid = some data ∧ data.foundAs mbid = some candidate.mbid ∧
      isSpecialPurpose candidate.mbid = false ∧ candidate.name = data.name.getD "" ∧
        isPlaceholderName candidate.name = false ∧ normalizeArtist candidate.name = normalizedName ∧
          candidate.sortName = (truthy data.sortName).getD candidate.name ∧
            candidate.disambiguation = truthy data.disambiguation := by
  unfold answerFor at hanswer
  split at hanswer
  · cases hanswer
  next data hdata =>
    dsimp only at hanswer
    split at hanswer
    · cases hanswer
    next hname =>
      split at hanswer
      · cases hanswer
      next found hfound =>
        split at hanswer
        · cases hanswer
        next hspecial =>
          split at hanswer
          · cases hanswer
          next hsame =>
            cases hanswer
            exact ⟨data, hdata, hfound, by simpa using hspecial, rfl, by simpa using hname,
              not_not.mp hsame, rfl, rfl⟩

theorem answerFor_placeholder : answerFor normalizeArtist musicBrainz normalizedName mbid =
    .placeholder ↔ ResolvesToPlaceholder musicBrainz mbid := by
  unfold answerFor ResolvesToPlaceholder
  cases hdata : musicBrainz.lookupArtist mbid with
  | none => simp
  | some data =>
    dsimp only
    by_cases hname : isPlaceholderName (data.name.getD "") = true
    · simp [hname]
    · cases hfound : data.foundAs mbid with
      | none => simp [hname, hfound]
      | some found =>
        by_cases hspecial : isSpecialPurpose found = true
        · simp [hname, hfound, hspecial]
        · by_cases hsame : normalizeArtist (data.name.getD "") = normalizedName <;>
            simp [hname, hfound, hspecial, hsame]

/-- MusicBrainz answers with one artist alike, so one artist is one candidate. -/
theorem candidate_eq (hfinds : Finds normalizeArtist musicBrainz normalizedName mbids candidate)
    (hfinds' : Finds normalizeArtist musicBrainz normalizedName mbids' candidate')
    (hmbid : candidate.mbid = candidate'.mbid) : candidate = candidate' := by
  obtain ⟨first, -, hanswer⟩ := hfinds
  obtain ⟨second, -, hanswer'⟩ := hfinds'
  obtain ⟨data, hdata, hfound, -, hname, -, -, hsort, hother⟩ := answerFor_named hanswer
  obtain ⟨data', hdata', hfound', -, hname', -, -, hsort', hother'⟩ := answerFor_named hanswer'
  obtain rfl := musicBrainz.one_artist hdata hdata' (hmbid ▸ hfound) hfound'
  cases candidate
  cases candidate'
  simp_all

theorem finds_append :
    Finds normalizeArtist musicBrainz normalizedName (mbids ++ [mbid]) candidate ↔
      Finds normalizeArtist musicBrainz normalizedName mbids candidate ∨
        answerFor normalizeArtist musicBrainz normalizedName mbid = .named candidate := by
  simp [Finds, or_and_right, exists_or]

/-- After some lookups the artists named are those that were found. -/
structure Named (normalizeArtist : String → String) (musicBrainz : MusicBrainz)
    (normalizedName : String) (mbids : List MusicBrainzId)
    (named : Dict MusicBrainzId ArtistLinkCandidate) : Prop where
  finds : ∀ key candidate, named.get? key = some candidate →
    candidate.mbid = key ∧ Finds normalizeArtist musicBrainz normalizedName mbids candidate
  found : ∀ candidate, Finds normalizeArtist musicBrainz normalizedName mbids candidate →
    candidate.mbid ∈ named.keys

namespace Named

variable {named : Dict MusicBrainzId ArtistLinkCandidate}

/-- A lookup that finds no new artist names none. -/
theorem keep (hnamed : Named normalizeArtist musicBrainz normalizedName mbids named)
    (hkeys : ∀ candidate,
      answerFor normalizeArtist musicBrainz normalizedName mbid = .named candidate →
        candidate.mbid ∈ named.keys) :
    Named normalizeArtist musicBrainz normalizedName (mbids ++ [mbid]) named := by
  refine ⟨fun key candidate hget => ?_, fun candidate hfinds => ?_⟩
  · obtain ⟨hkey, hfinds⟩ := hnamed.finds key candidate hget
    exact ⟨hkey, finds_append.mpr (.inl hfinds)⟩
  · rcases finds_append.mp hfinds with hold | hnew
    · exact hnamed.found candidate hold
    · exact hkeys candidate hnew

theorem add (hnamed : Named normalizeArtist musicBrainz normalizedName mbids named)
    (hanswer : answerFor normalizeArtist musicBrainz normalizedName mbid = .named candidate) :
    Named normalizeArtist musicBrainz normalizedName (mbids ++ [mbid])
      (named.set candidate.mbid candidate) := by
  refine ⟨fun key other hget => ?_, fun other hfinds => ?_⟩
  · by_cases hkey : key = candidate.mbid
    · subst hkey
      rw [Dict.get?_set_self] at hget
      cases hget
      exact ⟨rfl, finds_append.mpr (.inr hanswer)⟩
    · rw [Dict.get?_set_of_ne hkey] at hget
      obtain ⟨hsame, hfinds⟩ := hnamed.finds key other hget
      exact ⟨hsame, finds_append.mpr (.inl hfinds)⟩
  · rw [Dict.mem_keys_iff, Dict.get?_set]
    split
    · exact ⟨candidate, rfl⟩
    next hkey =>
      rw [← Dict.mem_keys_iff]
      rcases finds_append.mp hfinds with hold | hnew
      · exact hnamed.found other hold
      · rw [hanswer] at hnew
        cases hnew
        exact absurd rfl hkey

theorem mem_values (hnamed : Named normalizeArtist musicBrainz normalizedName mbids named)
    (candidate : ArtistLinkCandidate) : candidate ∈ named.values ↔
      Finds normalizeArtist musicBrainz normalizedName mbids candidate := by
  constructor
  · intro hmem
    obtain ⟨⟨key, held⟩, hentry, rfl⟩ := List.mem_map.mp hmem
    exact (hnamed.finds key held (Dict.get?_eq_some_iff.mpr hentry)).2
  · intro hfinds
    obtain ⟨held, hheld⟩ := Dict.mem_keys_iff.mp (hnamed.found candidate hfinds)
    obtain ⟨hkey, hfound⟩ := hnamed.finds _ held hheld
    rw [← candidate_eq hfound hfinds hkey]
    exact List.mem_map_of_mem (Dict.get?_eq_some_iff.mp hheld)

theorem nodup_mbids (hnamed : Named normalizeArtist musicBrainz normalizedName mbids named) :
    (named.values.map ArtistLinkCandidate.mbid).Nodup := by
  have hkeys : named.values.map ArtistLinkCandidate.mbid = named.keys := by
    rw [Dict.values, Dict.keys, List.map_map]
    exact List.map_congr_left fun entry hentry =>
      (hnamed.finds entry.1 entry.2 (Dict.get?_eq_some_iff.mpr hentry)).1
  rw [hkeys]
  exact named.nodup

end Named

def TagAnswer.isPlaceholder : TagAnswer → Bool
  | .placeholder => true
  | _ => false

theorem isPlaceholder_iff :
    (answerFor normalizeArtist musicBrainz normalizedName mbid).isPlaceholder = true ↔
      ResolvesToPlaceholder musicBrainz mbid := by
  rw [← @answerFor_placeholder mbid normalizeArtist musicBrainz normalizedName]
  cases answerFor normalizeArtist musicBrainz normalizedName mbid <;> simp [TagAnswer.isPlaceholder]

/-- What the lookups end with: the artists that were found, and how many placeholders. -/
theorem foldl_addAnswer (mbids : List MusicBrainzId) :
    let found := mbids.foldl (addAnswer normalizeArtist musicBrainz normalizedName) (.empty, 0)
    Named normalizeArtist musicBrainz normalizedName mbids found.1 ∧
      found.2 = mbids.countP fun mbid =>
        (answerFor normalizeArtist musicBrainz normalizedName mbid).isPlaceholder := by
  induction mbids using List.reverseRecOn with
  | nil =>
      refine ⟨⟨fun key candidate hget => (by cases hget), ?_⟩, rfl⟩
      rintro candidate ⟨mbid, hmbid, -⟩
      cases hmbid
  | append_singleton mbids mbid ih =>
      obtain ⟨hnamed, hcount⟩ := ih
      dsimp only at hnamed hcount ⊢
      rw [List.foldl_append, List.foldl_cons, List.foldl_nil, List.countP_append,
        List.countP_singleton, ← hcount, addAnswer]
      cases hanswer : answerFor normalizeArtist musicBrainz normalizedName mbid with
      | skipped =>
        refine ⟨hnamed.keep fun candidate hnew => ?_, rfl⟩
        rw [hanswer] at hnew
        cases hnew
      | placeholder =>
        refine ⟨hnamed.keep fun candidate hnew => ?_, rfl⟩
        rw [hanswer] at hnew
        cases hnew
      | named candidate =>
        refine ⟨?_, rfl⟩
        dsimp only
        split
        next hold =>
          refine hnamed.keep fun other hnew => ?_
          rw [hanswer] at hnew
          cases hnew
          exact Dict.mem_keys_iff.mpr (Option.isSome_iff_exists.mp hold)
        · exact hnamed.add hanswer

/-- What the decision says of the MBIDs looked up. -/
structure DecidedOn (normalizeArtist : String → String) (musicBrainz : MusicBrainz)
    (normalizedName : String) (mbids : List MusicBrainzId) (decision : LinkDecision) : Prop where
  linked : ∀ candidate, decision = .linked candidate ↔
    Finds normalizeArtist musicBrainz normalizedName mbids candidate ∧
      ∀ other, Finds normalizeArtist musicBrainz normalizedName mbids other → other = candidate
  ambiguous : decision = .ambiguous ↔ ∃ first second,
    Finds normalizeArtist musicBrainz normalizedName mbids first ∧
      Finds normalizeArtist musicBrainz normalizedName mbids second ∧ first.mbid ≠ second.mbid
  special : decision = .specialPurpose ↔ ∀ mbid ∈ mbids, ResolvesToPlaceholder musicBrainz mbid
  evident : decision ≠ .noEvidence

theorem decideLookedUp_spec (mbids : List MusicBrainzId) :
    DecidedOn normalizeArtist musicBrainz normalizedName mbids
      (decideLookedUp normalizeArtist musicBrainz normalizedName mbids) := by
  obtain ⟨hnamed, hcount⟩ := @foldl_addAnswer normalizeArtist musicBrainz normalizedName mbids
  unfold decideLookedUp
  generalize mbids.foldl (addAnswer normalizeArtist musicBrainz normalizedName) (.empty, 0) =
    found at hnamed hcount ⊢
  obtain ⟨named, placeholders⟩ := found
  dsimp only at hnamed hcount ⊢
  have hvalues := hnamed.mem_values
  have hkeys := hnamed.nodup_mbids
  have hall : placeholders = mbids.length ↔
      ∀ mbid ∈ mbids, ResolvesToPlaceholder musicBrainz mbid := by
    rw [hcount, List.countP_eq_length]
    exact forall₂_congr fun mbid _ => isPlaceholder_iff
  have hmixed : ∀ candidate,
      Finds normalizeArtist musicBrainz normalizedName mbids candidate →
        ¬ ∀ mbid ∈ mbids, ResolvesToPlaceholder musicBrainz mbid := by
    rintro candidate ⟨mbid, hmbid, hanswer⟩ hplaceholders
    rw [answerFor_placeholder.mpr (hplaceholders mbid hmbid)] at hanswer
    cases hanswer
  generalize named.values = values at hvalues hkeys ⊢
  -- No artist found, exactly one, or at least two with different ids.
  match values with
  | [] =>
    have hnone : ∀ candidate,
        ¬ Finds normalizeArtist musicBrainz normalizedName mbids candidate :=
      fun candidate hfinds => List.not_mem_nil ((hvalues candidate).mpr hfinds)
    dsimp only
    refine ⟨fun candidate => ?_, ?_, ?_, ?_⟩
    · exact iff_of_false (by split <;> exact nofun) fun hlinked => hnone candidate hlinked.1
    · refine iff_of_false (by split <;> exact nofun) ?_
      rintro ⟨first, second, hfirst, -⟩
      exact hnone first hfirst
    · rw [← hall]
      split
      next hcounted => exact iff_of_true rfl hcounted
      next hcounted => exact iff_of_false nofun hcounted
    · split <;> exact nofun
  | [only] =>
    have honly : ∀ candidate,
        Finds normalizeArtist musicBrainz normalizedName mbids candidate ↔ candidate = only :=
      fun candidate => (hvalues candidate).symm.trans List.mem_singleton
    dsimp only
    refine ⟨fun candidate => ?_, ?_, ?_, nofun⟩
    · constructor
      · intro hlinked
        cases hlinked
        exact ⟨(honly only).mpr rfl, fun other hother => (honly other).mp hother⟩
      · rintro ⟨hfinds, -⟩
        rw [(honly candidate).mp hfinds]
    · refine iff_of_false nofun ?_
      rintro ⟨first, second, hfirst, hsecond, hne⟩
      rw [(honly first).mp hfirst, (honly second).mp hsecond] at hne
      exact hne rfl
    · exact iff_of_false nofun (hmixed only ((honly only).mpr rfl))
  | first :: second :: rest =>
    have hfirst := (hvalues first).mp List.mem_cons_self
    have hsecond := (hvalues second).mp (List.mem_cons_of_mem _ List.mem_cons_self)
    have hne : first.mbid ≠ second.mbid := by
      rw [List.map_cons, List.map_cons, List.nodup_cons, List.mem_cons, not_or] at hkeys
      exact hkeys.1.1
    dsimp only
    refine ⟨fun candidate => ?_, ?_, ?_, nofun⟩
    · refine iff_of_false nofun ?_
      rintro ⟨-, hone⟩
      rw [hone first hfirst, hone second hsecond] at hne
      exact hne rfl
    · exact iff_of_true rfl ⟨first, second, hfirst, hsecond, hne⟩
    · exact iff_of_false nofun (hmixed first hfirst)

end

section

variable {normalizeArtist : String → String} {musicBrainz : MusicBrainz} {normalizedName : String}
  {mbids mbids' : List MusicBrainzId} {decision decision' : LinkDecision}

/-- What is decided depends on nothing but which MBIDs were looked up. -/
theorem DecidedOn.of_mem (hmem : ∀ mbid, mbid ∈ mbids ↔ mbid ∈ mbids')
    (hdecided : DecidedOn normalizeArtist musicBrainz normalizedName mbids decision) :
    DecidedOn normalizeArtist musicBrainz normalizedName mbids' decision := by
  have hfinds : Finds normalizeArtist musicBrainz normalizedName mbids =
      Finds normalizeArtist musicBrainz normalizedName mbids' := by
    ext candidate
    exact exists_congr fun mbid => and_congr_left' (hmem mbid)
  have hspecial : (∀ mbid ∈ mbids, ResolvesToPlaceholder musicBrainz mbid) ↔
      ∀ mbid ∈ mbids', ResolvesToPlaceholder musicBrainz mbid :=
    forall_congr' fun mbid => imp_congr_left (hmem mbid)
  refine ⟨fun candidate => ?_, ?_, ?_, hdecided.evident⟩
  · rw [hdecided.linked, hfinds]
  · rw [hdecided.ambiguous, hfinds]
  · rw [hdecided.special, hspecial]

/-- There is one decision on some MBIDs. -/
theorem DecidedOn.unique
    (hdecided : DecidedOn normalizeArtist musicBrainz normalizedName mbids decision)
    (hdecided' : DecidedOn normalizeArtist musicBrainz normalizedName mbids decision') :
    decision = decision' := by
  cases decision with
  | linked candidate => exact ((hdecided'.linked _).mpr ((hdecided.linked candidate).mp rfl)).symm
  | ambiguous => exact (hdecided'.ambiguous.mpr (hdecided.ambiguous.mp rfl)).symm
  | specialPurpose => exact (hdecided'.special.mpr (hdecided.special.mp rfl)).symm
  | noEvidence => exact absurd rfl hdecided.evident
  | tagMismatch =>
    cases decision' with
    | linked candidate => exact (hdecided.linked _).mpr ((hdecided'.linked candidate).mp rfl)
    | ambiguous => exact hdecided.ambiguous.mpr (hdecided'.ambiguous.mp rfl)
    | specialPurpose => exact hdecided.special.mpr (hdecided'.special.mp rfl)
    | noEvidence => exact absurd rfl hdecided'.evident
    | tagMismatch => rfl

end

/-! ## Links by the tags of the files -/

/-- The tagged MBIDs that a decision is made on: the placeholders, and the top real ones. -/
def considered (tagCounts : List (String × Nat)) : List MusicBrainzId :=
  (mbidsByFiles tagCounts).filter isSpecialPurpose ++ topReal tagCounts

/-- The artist is linked by what its files carry: to an artist of its name that one of the three
    real MBIDs with the most files resolves to, if there is one such artist and no other. -/
structure LinksByTags (normalizeArtist : String → String) (musicBrainz : MusicBrainz)
    (normalizedName : String) (tagCounts : List (String × Nat)) : Prop where
  linked : ∀ candidate,
    decideLink normalizeArtist musicBrainz normalizedName tagCounts = .linked candidate →
      ∃ mbid ∈ topReal tagCounts, ∃ data, musicBrainz.lookupArtist mbid = some data ∧
        data.foundAs mbid = some candidate.mbid ∧ isSpecialPurpose candidate.mbid = false ∧
          candidate.name = data.name.getD "" ∧ isPlaceholderName candidate.name = false ∧
            normalizeArtist candidate.name = normalizedName
  ambiguous : normalizedName ≠ "" → (∃ mbid, Carried tagCounts mbid) →
    (decideLink normalizeArtist musicBrainz normalizedName tagCounts = .ambiguous ↔
      ∃ first second,
        Finds normalizeArtist musicBrainz normalizedName (topReal tagCounts) first ∧
          Finds normalizeArtist musicBrainz normalizedName (topReal tagCounts) second ∧
            first.mbid ≠ second.mbid)
  special : normalizedName ≠ "" → (∃ mbid, Carried tagCounts mbid) →
    (decideLink normalizeArtist musicBrainz normalizedName tagCounts = .specialPurpose ↔
      ∀ mbid ∈ considered tagCounts,
        isSpecialPurpose mbid = true ∨ ResolvesToPlaceholder musicBrainz mbid)
  order : ∀ other, tagCounts.Perm other →
    decideLink normalizeArtist musicBrainz normalizedName other =
      decideLink normalizeArtist musicBrainz normalizedName tagCounts
  spelling : ∀ other, SameFiles tagCounts other → NamesOnce other →
    decideLink normalizeArtist musicBrainz normalizedName other =
      decideLink normalizeArtist musicBrainz normalizedName tagCounts

/-- The MBIDs that are looked up are the ones with the most files. -/
def RanksByFiles (tagCounts : List (String × Nat)) : Prop :=
  ∀ mbid, mbid ∈ lookedUp tagCounts ↔ mbid ∈ topReal tagCounts

section

variable {normalizeArtist : String → String} {musicBrainz : MusicBrainz} {normalizedName : String}

theorem NamesOnce.ranksByFiles (honce : NamesOnce tagCounts) : RanksByFiles tagCounts := by
  intro mbid
  rw [lookedUp, topReal, honce.tagMbids_eq]

theorem decideLink_eq (hname : normalizedName ≠ "") (htagged : ∃ mbid, Carried tagCounts mbid) :
    decideLink normalizeArtist musicBrainz normalizedName tagCounts =
      decideLookedUp normalizeArtist musicBrainz normalizedName (lookedUp tagCounts) := by
  obtain ⟨mbid, hmbid⟩ := htagged
  have hnone : ¬ (normalizedName = "" ∨ tagMbids tagCounts = []) := by
    rintro (hempty | hnil)
    · exact hname hempty
    · exact List.not_mem_nil (hnil ▸ mem_tagMbids.mpr hmbid)
  rw [decideLink, if_neg hnone]
  dsimp only
  split
  next hreal =>
    rw [lookedUp, hreal]
    rfl
  · rfl

theorem decideLink_none (hnone : ¬ (normalizedName ≠ "" ∧ ∃ mbid, Carried tagCounts mbid)) :
    decideLink normalizeArtist musicBrainz normalizedName tagCounts = .noEvidence := by
  rw [decideLink, if_pos]
  rw [not_and_or, not_not] at hnone
  refine hnone.imp_right fun huntagged => List.eq_nil_iff_forall_not_mem.mpr fun mbid hmem => ?_
  exact huntagged ⟨mbid, mem_tagMbids.mp hmem⟩

theorem decideLink_decided (hranks : RanksByFiles tagCounts) (hname : normalizedName ≠ "")
    (htagged : ∃ mbid, Carried tagCounts mbid) :
    DecidedOn normalizeArtist musicBrainz normalizedName (topReal tagCounts)
      (decideLink normalizeArtist musicBrainz normalizedName tagCounts) := by
  rw [decideLink_eq hname htagged]
  exact (decideLookedUp_spec _).of_mem hranks

theorem nameCount_perm (hperm : tagCounts.Perm other) (mbid : MusicBrainzId) :
    nameCount tagCounts mbid = nameCount other mbid := (hperm.map _).sum_nat

theorem tagMbids_perm (hperm : tagCounts.Perm other) : tagMbids other = tagMbids tagCounts := by
  rw [tagMbids_eq, tagMbids_eq]
  refine insertionSort_ranked (List.nodup_dedup _) (List.nodup_dedup _) (fun mbid => ?_)
    fun mbid _ => (nameCount_perm hperm mbid).symm
  rw [mem_dedup_carried, mem_dedup_carried]
  exact exists_congr fun tag => and_congr_left' hperm.mem_iff.symm

/-- Where the MBIDs that are looked up are the ones with the most files, links are as they
    should be. -/
theorem linksByTags_of_ranks (hranks : RanksByFiles tagCounts) :
    LinksByTags normalizeArtist musicBrainz normalizedName tagCounts := by
  refine ⟨fun candidate hlinked => ?_, fun hname htagged => ?_, fun hname htagged => ?_,
    fun other hperm => ?_, fun other hsame honce => ?_⟩
  · by_cases hevident : normalizedName ≠ "" ∧ ∃ mbid, Carried tagCounts mbid
    · obtain ⟨⟨mbid, hmbid, hanswer⟩, -⟩ :=
        ((decideLink_decided hranks hevident.1 hevident.2).linked candidate).mp hlinked
      obtain ⟨data, hdata, hfound, hspecial, hname, hplain, hsame, -⟩ := answerFor_named hanswer
      exact ⟨mbid, hmbid, data, hdata, hfound, hspecial, hname, hplain, hsame⟩
    · rw [decideLink_none hevident] at hlinked
      cases hlinked
  · exact (decideLink_decided hranks hname htagged).ambiguous
  · rw [(decideLink_decided hranks hname htagged).special, considered, List.forall_mem_append]
    constructor
    · refine fun hall => ⟨fun mbid hmbid => .inl (List.mem_filter.mp hmbid).2, ?_⟩
      exact fun mbid hmbid => .inr (hall mbid hmbid)
    · rintro ⟨-, hall⟩ mbid hmbid
      refine (hall mbid hmbid).resolve_left ?_
      have hreal := (List.mem_filter.mp (List.mem_of_mem_take hmbid)).2
      simpa using hreal
  · unfold decideLink
    rw [tagMbids_perm hperm]
  · by_cases hevident : normalizedName ≠ "" ∧ ∃ mbid, Carried tagCounts mbid
    · obtain ⟨hname, mbid, hmbid⟩ := hevident
      have hother := @decideLink_decided _ normalizeArtist musicBrainz _ honce.ranksByFiles hname
        ⟨mbid, (hsame mbid).1.mp hmbid⟩
      rw [topReal, ← mbidsByFiles_congr hsame, ← topReal] at hother
      exact hother.unique (decideLink_decided hranks hname ⟨mbid, hmbid⟩)
    · have hevident' : ¬ (normalizedName ≠ "" ∧ ∃ mbid, Carried other mbid) := by
        rintro ⟨hname, mbid, hmbid⟩
        exact hevident ⟨hname, mbid, (hsame mbid).1.mpr hmbid⟩
      rw [decideLink_none hevident, decideLink_none hevident']

/-! ## Exactly then -/

theorem ranksByFiles_of_subset (hsubset : ∀ mbid ∈ lookedUp tagCounts, mbid ∈ topReal tagCounts) :
    RanksByFiles tagCounts := by
  have hnodup : (lookedUp tagCounts).Nodup :=
    ((nodup_tagMbids tagCounts).filter _).sublist (List.take_sublist _ _)
  have hperm := (List.subperm_of_subset hnodup hsubset).perm_of_length_le
    (length_lookedUp tagCounts).ge
  exact fun mbid => hperm.mem_iff

theorem toLower_toLower (char : Char) : char.toLower.toLower = char.toLower := by
  unfold Char.toLower
  grind

/-- The MBIDs of tag values are in lower case. -/
theorem Carried.parse_eq (hcarried : Carried tagCounts mbid) :
    parseMbid (lowerMbid mbid.value) = some mbid := by
  obtain ⟨tag, -, hmem⟩ := hcarried
  obtain ⟨part, -, hparse⟩ := List.mem_filterMap.mp hmem
  have hlower : lowerMbid (lowerMbid (Text.stripText part)) = lowerMbid (Text.stripText part) := by
    rw [lowerMbid, lowerMbid, String.toList_ofList, List.map_map]
    exact congrArg String.ofList (List.map_congr_left fun char _ => toLower_toLower char)
  have hval : mbid.value = lowerMbid (Text.stripText part) := by
    unfold parseMbid at hparse
    split at hparse
    · exact (congrArg MusicBrainzId.value (Option.some.inj hparse)).symm
    · cases hparse
  rw [hval, hlower, hparse]

/-- A MusicBrainz that knows one artist only. -/
def onlyArtist (known : MusicBrainzId) (name : String) : MusicBrainz where
  lookupArtist mbid :=
    if mbid = known then some { id := some known.value, name := some name } else none
  one_artist hfirst hsecond _ _ := by
    split at hfirst
    · split at hsecond
      · exact Option.some.inj (hsecond.symm.trans hfirst)
      · cases hsecond
    · cases hfirst

theorem onlyArtist_lookup {known : MusicBrainzId} {name : String} {data : MbArtist}
    (hdata : (onlyArtist known name).lookupArtist mbid = some data) : mbid = known := by
  by_contra hne
  have hnone : (onlyArtist known name).lookupArtist mbid = none := if_neg hne
  rw [hnone] at hdata
  cases hdata

/-- An MBID that is looked up is linked to, if no other artist is known and the names agree. -/
theorem decideLink_onlyArtist {name : String} (hplain : isPlaceholderName name = false)
    (hname : normalizeArtist name ≠ "") (hmbid : mbid ∈ lookedUp tagCounts) :
    ∃ candidate, decideLink normalizeArtist (onlyArtist mbid name) (normalizeArtist name)
      tagCounts = .linked candidate := by
  have hmem := List.mem_filter.mp (List.mem_of_mem_take hmbid)
  have hcarried := mem_tagMbids.mp hmem.1
  have hspecial : isSpecialPurpose mbid = false := by simpa using hmem.2
  have hsome : mbid.value ≠ "" := by
    intro hempty
    have hvalid := mbid.wellFormed
    rw [hempty] at hvalid
    exact absurd hvalid (by decide)
  have hfound : MbArtist.foundAs { id := some mbid.value, name := some name } mbid = some mbid := by
    rw [MbArtist.foundAs, Library.truthy_eq_some.mpr ⟨rfl, hsome⟩]
    exact hcarried.parse_eq
  have hlookup : (onlyArtist mbid name).lookupArtist mbid =
      some { id := some mbid.value, name := some name } := if_pos rfl
  have hanswer : answerFor normalizeArtist (onlyArtist mbid name) (normalizeArtist name) mbid =
      .named ⟨mbid, name, name, none⟩ := by
    simp [answerFor, hlookup, hplain, hfound, hspecial, truthy]
  refine ⟨⟨mbid, name, name, none⟩, ?_⟩
  rw [decideLink_eq hname ⟨mbid, hcarried⟩, (decideLookedUp_spec _).linked]
  refine ⟨⟨mbid, hmbid, hanswer⟩, ?_⟩
  rintro other ⟨asked, -, hother⟩
  obtain ⟨data, hdata, -⟩ := answerFor_named hother
  rw [onlyArtist_lookup hdata, hanswer] at hother
  exact (TagAnswer.named.inj hother).symm

theorem ranksByFiles_of_links {name : String} (hplain : isPlaceholderName name = false)
    (hname : normalizeArtist name ≠ "")
    (hlinks : ∀ musicBrainz normalizedName,
      LinksByTags normalizeArtist musicBrainz normalizedName tagCounts) :
    RanksByFiles tagCounts := by
  refine ranksByFiles_of_subset fun mbid hmbid => ?_
  obtain ⟨candidate, hlinked⟩ := decideLink_onlyArtist hplain hname hmbid
  obtain ⟨top, htop, data, hdata, -⟩ := (hlinks _ _).linked candidate hlinked
  rwa [onlyArtist_lookup hdata] at htop

/-- Links are as they should be, whatever MusicBrainz answers, exactly where counting an MBID as
    often as tags name it leaves the three with the most files the same. -/
theorem linksByTags_iff
    (hplain : ∃ name, isPlaceholderName name = false ∧ normalizeArtist name ≠ "")
    (tagCounts : List (String × Nat)) :
    (∀ musicBrainz normalizedName,
      LinksByTags normalizeArtist musicBrainz normalizedName tagCounts) ↔
        RanksByFiles tagCounts := by
  obtain ⟨name, hplain, hname⟩ := hplain
  exact ⟨ranksByFiles_of_links hplain hname,
    fun hranks musicBrainz normalizedName => linksByTags_of_ranks hranks⟩

end

/-! ## An MBID that a tag names twice -/

/-- An MBID of one digit. -/
def mbidOf (digit : Char) : String :=
  String.ofList ("xxxxxxxx-xxxx-xxxx-xxxx-xxxxxxxxxxxx".toList.map fun char =>
    if char = 'x' then digit else char)

/-- Four MBIDs, of which the one with the fewest files is named twice by its tag. -/
def namedTwice : List (String × Nat) :=
  [(mbidOf '1', 10), (mbidOf '2', 9), (mbidOf '3', 8), (mbidOf '4' ++ "; " ++ mbidOf '4', 5)]

theorem linksByTags_namedTwice :
    ¬ ∀ musicBrainz normalizedName, LinksByTags id musicBrainz normalizedName namedTwice := by
  have hall : (lookedUp namedTwice).all (fun mbid => decide (mbid ∈ topReal namedTwice)) =
      false := by
    decide +kernel
  intro hlinks
  have hranks : RanksByFiles namedTwice := @ranksByFiles_of_links _ id "abba" (by decide)
    (by decide) hlinks
  rw [List.all_eq_true.mpr fun mbid hmbid => decide_eq_true ((hranks mbid).mp hmbid)] at hall
  cases hall

/-- Three tag values, one of which names two MBIDs. -/
def threeTags : List (String × Nat) :=
  [(mbidOf '1', 10), (mbidOf '2', 7), (mbidOf '1' ++ "; " ++ mbidOf '3', 4)]

def secondMbid : MusicBrainzId := ⟨mbidOf '2', by decide +kernel⟩

/-- The one artist that MusicBrainz knows is linked to, and its MBID has enough files. -/
theorem linksByTags_secondTag : ∃ candidate : ArtistLinkCandidate,
    decideLink id (onlyArtist secondMbid "abba") "abba" threeTags = .linked candidate ∧
      ∃ mbid ∈ topReal threeTags, ∃ data,
        (onlyArtist secondMbid "abba").lookupArtist mbid = some data ∧
          data.foundAs mbid = some candidate.mbid := by
  have honce : NamesOnce threeTags := by
    intro tag htag
    have hall : threeTags.all (fun tag => decide (mbidsOf tag.1).Nodup) = true := by decide +kernel
    exact of_decide_eq_true (List.all_eq_true.mp hall tag htag)
  have hlooked : secondMbid ∈ lookedUp threeTags := by decide +kernel
  have hlinks := (@linksByTags_iff id ⟨"abba", by decide, by decide⟩ _).mpr
    honce.ranksByFiles (onlyArtist secondMbid "abba") "abba"
  obtain ⟨candidate, hlinked⟩ :=
    @decideLink_onlyArtist threeTags _ id "abba" (by decide) (by decide) hlooked
  obtain ⟨mbid, hmbid, data, hdata, hfound, -⟩ := hlinks.linked candidate hlinked
  exact ⟨candidate, hlinked, mbid, hmbid, data, hdata, hfound⟩

end RetroStation.Matching
