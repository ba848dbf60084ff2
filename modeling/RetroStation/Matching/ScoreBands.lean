import RetroStation.Matching.Scoring

/-! # The bands of a song's score

The result of scoring some candidates is the same in whatever order they come. The best
score and its lead over the second best say which band the song is in.
-/

namespace RetroStation.Matching

open Library

namespace Scoring

variable {scoring : Scoring} {candidates others : List LibraryFile} {tier : MatchTier}
  {file second : LibraryFile} {result : IdentityMatchResult}

/-! ## The order of the candidates -/

theorem insertionSort_perm (hids : (candidates.map LibraryFile.id).Nodup)
    (hperm : others.Perm candidates) :
    others.insertionSort scoring.RanksBefore = candidates.insertionSort scoring.RanksBefore := by
  have hothers := List.perm_insertionSort scoring.RanksBefore others
  have hcandidates := List.perm_insertionSort scoring.RanksBefore candidates
  refine List.Perm.eq_of_pairwise (fun first later hfirst hlater hbefore hafter => ?_)
    (List.pairwise_insertionSort scoring.RanksBefore others)
    (List.pairwise_insertionSort scoring.RanksBefore candidates)
    ((hothers.trans hperm).trans hcandidates.symm)
  have hfirst := hperm.mem_iff.mp (hothers.mem_iff.mp hfirst)
  have hlater := hcandidates.mem_iff.mp hlater
  exact List.inj_on_of_nodup_map hids hfirst hlater (hbefore.antisymm hafter)

theorem best_perm (hids : (candidates.map LibraryFile.id).Nodup) (hperm : others.Perm candidates) :
    scoring.best others tier = scoring.best candidates tier := by
  unfold best
  rw [insertionSort_perm hids hperm]

/-! ## The second best -/

/-- The candidate that no other but the best is ranked before. -/
def Seconds (scoring : Scoring) (candidates : List LibraryFile) (file second : LibraryFile) :
    Prop :=
  (second ∈ candidates ∧ second.id ≠ file.id) ∧
    ∀ other ∈ candidates, other.id ≠ file.id → scoring.RanksBefore second other

/-- Whether the top score matches the song by its lead over the second best. -/
def InAutoBand (scoring : Scoring) (candidates : List LibraryFile) (file : LibraryFile) : Prop :=
  MB_AUTO_LINK_SCORE ≤ scoring.score file ∨
    ∃ second, scoring.Seconds candidates file second ∧ scoring.strong ≤ scoring.score file ∧
      MB_SCORE_GAP ≤ scoring.score file - scoring.score second

theorem exists_seconds {other : LibraryFile} (hids : (candidates.map LibraryFile.id).Nodup)
    (hother : other ∈ candidates) (hne : other.id ≠ file.id) :
    ∃ second, scoring.Seconds candidates file second := by
  have hmem : ∀ candidate : LibraryFile,
      candidate ∈ candidates.filter (fun candidate => candidate.id ≠ file.id) ↔
        candidate ∈ candidates ∧ candidate.id ≠ file.id := by simp
  obtain ⟨result, hresult⟩ := @best_isSome scoring _ .unclassified
    (List.ne_nil_of_mem ((hmem other).mpr ⟨hother, hne⟩))
  obtain ⟨second, hscored⟩ := scoredFrom_of_best
    (hids.sublist (List.filter_sublist.map LibraryFile.id)) hresult
  exact ⟨second, (hmem second).mp hscored.leads.1, fun candidate hcandidate hother =>
    hscored.leads.2 candidate ((hmem candidate).mpr ⟨hcandidate, hother⟩)⟩

theorem winsOutright_iff (hids : (candidates.map LibraryFile.id).Nodup) :
    scoring.WinsOutright candidates file ↔ scoring.InAutoBand candidates file := by
  refine or_congr_right ⟨?_, ?_⟩
  · rintro ⟨⟨other, hother, hne⟩, hstrong, hlead⟩
    obtain ⟨second, hsecond⟩ := @exists_seconds scoring _ _ _ hids hother hne
    have hgap := hlead second hsecond.1.1 hsecond.1.2
    exact ⟨second, hsecond, hstrong, by linarith⟩
  · rintro ⟨second, hsecond, hstrong, hgap⟩
    refine ⟨⟨second, hsecond.1⟩, hstrong, fun other hother hne => ?_⟩
    have hle := (hsecond.2 other hother hne).score_le
    linarith

/-! ## The reason -/

/-- A result is read off the ranked candidates. -/
theorem ranked_of_best (hbest : scoring.best candidates tier = some result) :
    ∃ file rest, candidates.insertionSort scoring.RanksBefore = file :: rest ∧
      result.libraryFileId = some file.id ∧
        (result.status, result.reasonCode, result.reasonDetail) =
        scoring.verdict (scoring.score file) (scoring.gap (scoring.score file) rest)
          (!rest.isEmpty) := by
  unfold best at hbest
  split at hbest
  · cases hbest
  next file rest hranked =>
    obtain rfl := Option.some.inj hbest
    exact ⟨file, rest, hranked, rfl, rfl⟩

/-- Only a real second candidate within the gap makes a result ambiguous. -/
theorem second_of_ambiguous (hids : (candidates.map LibraryFile.id).Nodup)
    (hbest : scoring.best candidates tier = some result)
    (hreason : result.reasonCode = some .ambiguousGap) :
    ∃ file second, file ∈ candidates ∧ second ∈ candidates ∧ second.id ≠ file.id ∧
      result.libraryFileId = some file.id ∧ scoring.score second ≤ scoring.score file ∧
        scoring.score file - scoring.score second < MB_SCORE_GAP := by
  obtain ⟨file, rest, hranked, hfile, hverdict⟩ := ranked_of_best hbest
  have hperm := List.perm_insertionSort scoring.RanksBefore candidates
  have hsorted := List.pairwise_insertionSort scoring.RanksBefore candidates
  rw [hranked] at hperm hsorted
  have hcode := congrArg (fun verdict => verdict.2.1) hverdict
  dsimp only at hcode
  rw [hreason] at hcode
  unfold verdict at hcode
  split at hcode
  · cases hcode
  next hauto =>
    split at hcode
    · cases hcode
    split at hcode
    next hclose =>
      cases rest with
      | nil => simp at hclose
      | cons second more =>
          have hnodup : ((file :: second :: more).map LibraryFile.id).Nodup :=
            (hperm.map _).nodup_iff.mpr hids
          refine ⟨file, second, hperm.mem_iff.mp (by simp), hperm.mem_iff.mp (by simp),
            fun hsame => ?_, hfile,
            ((List.pairwise_cons.mp hsorted).1 second (by simp)).score_le, ?_⟩
          · simp [hsame] at hnodup
          · simp only [autoMatches, not_or, not_and] at hauto
            exact lt_of_not_ge (hauto.2 hclose.1 hclose.2)
    · cases hcode

end Scoring

/-! ## The policy -/

/-- What the result of a song's candidates is. -/
structure Banded (scoring : Scoring) (candidates : List LibraryFile) (tier : MatchTier)
    (file : LibraryFile) (result : IdentityMatchResult) : Prop where
  leads : scoring.Leads candidates file
  fileId : result.libraryFileId = some file.id
  workId : result.workId = some ((truthy file.workId).getD "")
  score : result.confidenceScore = scoring.score file
  tier : result.tier = tier
  matched : result.status = .autoMatched ↔ scoring.InAutoBand candidates file
  rejected : result.status = .autoRejected ↔
    ¬scoring.InAutoBand candidates file ∧ scoring.score file < SONG_MIN_PRESENTATION_SCORE
  reviewed : result.status = .needsReview ↔
    ¬scoring.InAutoBand candidates file ∧ ¬scoring.score file < SONG_MIN_PRESENTATION_SCORE
  ambiguous : result.reasonCode = some .ambiguousGap →
    ∃ second, scoring.Seconds candidates file second ∧
      scoring.score file - scoring.score second < MB_SCORE_GAP

theorem banded_of_best {scoring : Scoring} {candidates : List LibraryFile} {tier : MatchTier}
    {result : IdentityMatchResult} (hids : (candidates.map LibraryFile.id).Nodup)
    (hbest : scoring.best candidates tier = some result) :
    ∃ file, Banded scoring candidates tier file result := by
  obtain ⟨file, hscored⟩ := Scoring.scoredFrom_of_best hids hbest
  have hauto := @Scoring.winsOutright_iff scoring candidates file hids
  have hmatched := hscored.matched.trans hauto
  have hrejected := hscored.rejected.trans (and_congr_left' (not_congr hauto))
  refine ⟨file, hscored.leads, hscored.fileId, hscored.workId, hscored.score, hscored.tier,
    hmatched, hrejected, ⟨fun hreview => ?_, fun ⟨hnot, hfloor⟩ => ?_⟩, fun hreason => ?_⟩
  · rw [hreview] at hmatched hrejected
    have hnot := mt hmatched.mpr (by simp)
    exact ⟨hnot, fun hlow => absurd (hrejected.mpr ⟨hnot, hlow⟩) (by simp)⟩
  · rcases hscored.decided with hstatus | hstatus | hstatus
    · exact absurd (hmatched.mp hstatus) hnot
    · exact absurd (hrejected.mp hstatus).2 hfloor
    · exact hstatus
  · obtain ⟨best, close, hbestMem, hclose, hne, hid, -, hgap⟩ :=
      Scoring.second_of_ambiguous hids hbest hreason
    obtain rfl : best = file := List.inj_on_of_nodup_map hids hbestMem hscored.leads.1
      (Option.some.inj (hid.symm.trans hscored.fileId))
    obtain ⟨second, hsecond⟩ := @Scoring.exists_seconds scoring _ _ _ hids hclose hne
    have hle := (hsecond.2 close hclose hne).score_le
    exact ⟨second, hsecond, by linarith⟩

/-- The result of a song's candidates does not depend on their order, its file is the
best-ranked one, and its status is the band its score and lead are in; a candidate more
matches no file whose score is not a strong match. -/
theorem song_scoring_policy (candidateScores : CandidateScores) (originalTitle : String)
    (candidates : List LibraryFile) (tier : MatchTier) (strongMatchThreshold : Rat)
    (titleScore : Option TitleScore) (hsome : candidates ≠ [])
    (hids : (candidates.map LibraryFile.id).Nodup)
    (hlink : strongMatchThreshold ≤ MB_AUTO_LINK_SCORE) :
    let scoring := songScoring candidateScores originalTitle strongMatchThreshold titleScore
    ∃ file result, scoreCandidates candidateScores originalTitle candidates tier
        strongMatchThreshold titleScore = some result ∧
      Banded scoring candidates tier file result ∧
      (∀ others : List LibraryFile, others.Perm candidates →
        scoreCandidates candidateScores originalTitle others tier strongMatchThreshold
          titleScore = some result) ∧
      ∀ (newcomer : LibraryFile) (more : List LibraryFile),
        (∀ candidate ∈ candidates, candidate.id ≠ newcomer.id) →
        more.Perm (newcomer :: candidates) →
        ∃ later matched, scoreCandidates candidateScores originalTitle more tier
            strongMatchThreshold titleScore = some later ∧
          Banded scoring more tier matched later ∧
          (result.status = .needsReview ∨ result.status = .autoRejected →
            later.status = .autoMatched → scoring.strong ≤ scoring.score matched) := by
  intro scoring
  -- Every strong threshold is at most the score that links by itself.
  have hstrong : scoring.strong ≤ MB_AUTO_LINK_SCORE := by
    cases titleScore with
    | none => exact hlink
    | some score => exact (by norm_num [V11_STRONG_MATCH_SCORE, MB_AUTO_LINK_SCORE] :
        V11_STRONG_MATCH_SCORE ≤ MB_AUTO_LINK_SCORE)
  have hscores : ∀ files : List LibraryFile, scoreCandidates candidateScores originalTitle files
      tier strongMatchThreshold titleScore = scoring.best files tier := fun _ => rfl
  simp only [hscores]
  obtain ⟨result, hresult⟩ := @Scoring.best_isSome scoring candidates tier hsome
  obtain ⟨file, hbanded⟩ := banded_of_best hids hresult
  refine ⟨file, result, hresult, hbanded, fun others hperm =>
    (Scoring.best_perm hids hperm).trans hresult, fun newcomer more hnew hperm => ?_⟩
  have hmoreIds : (more.map LibraryFile.id).Nodup := by
    refine (hperm.map LibraryFile.id).nodup_iff.mpr (List.nodup_cons.mpr ⟨fun hmem => ?_, hids⟩)
    obtain ⟨candidate, hcandidate, hsame⟩ := List.mem_map.mp hmem
    exact hnew candidate hcandidate hsame
  obtain ⟨later, hlater⟩ := @Scoring.best_isSome scoring more tier
    (List.ne_nil_of_mem (hperm.mem_iff.mpr List.mem_cons_self))
  obtain ⟨matched, hmatched⟩ := banded_of_best hmoreIds hlater
  refine ⟨later, matched, hlater, hmatched, fun _ hauto => ?_⟩
  rcases hmatched.matched.mp hauto with hliteral | ⟨-, -, hreached, -⟩
  · exact hstrong.trans hliteral
  · exact hreached

/-- Files whose ids are their scores. -/
def scoredById (score : Nat) : LibraryFile := { id := score, filePath := toString score }

theorem song_scoring_policy_twoFiles :
    ∃ result, scoreCandidates (fun _ file _ => (file.id, file.id)) "Smooth"
        [scoredById 75, scoredById 90] .localFileFuzzy 80 none = some result ∧
      scoreCandidates (fun _ file _ => (file.id, file.id)) "Smooth"
        [scoredById 90, scoredById 75] .localFileFuzzy 80 none = some result := by
  obtain ⟨file, result, hresult, -, horder, -⟩ :=
    song_scoring_policy (fun _ file _ => (file.id, file.id)) "Smooth"
      [scoredById 75, scoredById 90] .localFileFuzzy 80 none (by simp) (by decide)
      (by norm_num [MB_AUTO_LINK_SCORE])
  exact ⟨result, hresult, horder _ (List.Perm.swap _ _ _)⟩

end RetroStation.Matching
