import Mathlib.Tactic.Linarith
import RetroStation.Matching.Values

/-! # Scoring a song's candidates

One song's candidates are ranked by title score, and the best of them becomes
the song's result. The title scorers stand outside: whatever they answer, the
best-ranked candidate is the file of the result, and its score and lead decide
the status.
-/

namespace RetroStation.Matching

open Library

/-- A title scorer: the broadcast title against a file's title. -/
abbrev TitleScore := String → String → Rat

/-- Today's score of a title against a file, and that of the two full forms alone,
for a strong-match threshold. -/
abbrev CandidateScores := String → LibraryFile → Rat → Rat × Rat

/-- The file title V11.1 scores. -/
def v11FileTitle (file : LibraryFile) : String :=
  (truthy file.audio.trackTitle).getD ((truthy file.audio.normalizedTitle).getD "")

/-- How one song's candidates are scored: the score that ranks a candidate, the
full-form score that breaks ties, and what counts as a strong match. -/
structure Scoring where
  ranking : LibraryFile → Rat × Rat
  strong : Rat

namespace Scoring

variable (scoring : Scoring)

def score (file : LibraryFile) : Rat := (scoring.ranking file).1

/-- Best score first, then full-form score, then file id. -/
def RanksBefore (first second : LibraryFile) : Prop :=
  let (best, exact) := scoring.ranking first
  let (best', exact') := scoring.ranking second
  best' < best ∨ best' = best ∧ (exact' < exact ∨ exact' = exact ∧ first.id ≤ second.id)

instance : DecidableRel scoring.RanksBefore := fun first second => by
  unfold RanksBefore
  infer_instance

/-- The lead over the second candidate; a lone one has all of it. -/
def gap (topScore : Rat) : List LibraryFile → Rat
  | second :: _ => topScore - scoring.score second
  | [] => 100

/-- Whether the top score matches the song; only against a real competitor does a
lead count. -/
def autoMatches (topScore gap : Rat) (hasCompetitor : Bool) : Prop :=
  topScore ≥ MB_AUTO_LINK_SCORE ∨
    hasCompetitor ∧ topScore ≥ scoring.strong ∧ gap ≥ MB_SCORE_GAP

instance (topScore gap : Rat) (hasCompetitor : Bool) :
    Decidable (scoring.autoMatches topScore gap hasCompetitor) := by
  unfold autoMatches
  infer_instance

/-- A song's status, reason and detail from its top score. -/
def verdict (topScore gap : Rat) (hasCompetitor : Bool) :
    MatchStatus × Option ReasonCode × Option String :=
  if scoring.autoMatches topScore gap hasCompetitor then (.autoMatched, none, none)
  else if topScore < SONG_MIN_PRESENTATION_SCORE then
    (.autoRejected, some .lowConfidence, some (formatLowConfidence topScore))
  else if hasCompetitor ∧ topScore ≥ scoring.strong then
    (.needsReview, some .ambiguousGap, some (formatAmbiguousGap gap MB_SCORE_GAP))
  else (.needsReview, some .lowConfidence, some (formatLowConfidence topScore))

/-- The best-match result over the candidates; `none` is a call without any,
which the source refuses. -/
def best (candidates : List LibraryFile) (tier : MatchTier) : Option IdentityMatchResult :=
  match candidates.insertionSort scoring.RanksBefore with
  | [] => none
  | best :: rest =>
    let topScore := scoring.score best
    let (status, reason, detail) :=
      scoring.verdict topScore (scoring.gap topScore rest) (!rest.isEmpty)
    some {
      status := status
      tier := tier
      confidenceScore := topScore
      libraryFileId := some best.id
      workId := some ((truthy best.workId).getD "")
      reasonCode := reason
      reasonDetail := detail }

end Scoring

/-- One song's scoring, by today's scorer or by `titleScore` in its place. -/
def songScoring (candidateScores : CandidateScores) (originalTitle : String)
    (strongMatchThreshold : Rat) (titleScore : Option TitleScore) : Scoring where
  ranking file :=
    let (best, exact) := candidateScores originalTitle file strongMatchThreshold
    match titleScore with
    | some score => (score originalTitle (v11FileTitle file), exact)
    | none => (best, exact)
  strong := match titleScore with
    | some _ => V11_STRONG_MATCH_SCORE
    | none => strongMatchThreshold

def scoreCandidates (candidateScores : CandidateScores) (originalTitle : String)
    (candidates : List LibraryFile) (tier : MatchTier) (strongMatchThreshold : Rat)
    (titleScore : Option TitleScore) : Option IdentityMatchResult :=
  (songScoring candidateScores originalTitle strongMatchThreshold titleScore).best candidates tier

/-! ## What the best candidate decides -/

namespace Scoring

variable {scoring : Scoring}

/-- `file` is ranked before every candidate. -/
def Leads (scoring : Scoring) (candidates : List LibraryFile) (file : LibraryFile) : Prop :=
  file ∈ candidates ∧ ∀ other ∈ candidates, scoring.RanksBefore file other

/-- `file` matches the song by its score: a literal match, or a strong one with
a lead over every other candidate, of which there is one. -/
def WinsOutright (scoring : Scoring) (candidates : List LibraryFile) (file : LibraryFile) : Prop :=
  MB_AUTO_LINK_SCORE ≤ scoring.score file ∨
    (∃ other ∈ candidates, other.id ≠ file.id) ∧ scoring.strong ≤ scoring.score file ∧
      ∀ other ∈ candidates, other.id ≠ file.id →
        scoring.score other + MB_SCORE_GAP ≤ scoring.score file

theorem RanksBefore.score_le {first second : LibraryFile}
    (hranks : scoring.RanksBefore first second) : scoring.score second ≤ scoring.score first := by
  rcases hranks with hlt | ⟨heq, -⟩
  · exact le_of_lt hlt
  · exact le_of_eq heq

theorem ranksBefore_total (first second : LibraryFile) :
    scoring.RanksBefore first second ∨ scoring.RanksBefore second first := by
  simp only [RanksBefore]
  rcases lt_trichotomy (scoring.ranking first).1 (scoring.ranking second).1 with hlt | heq | hgt
  · exact .inr (.inl hlt)
  · rcases lt_trichotomy (scoring.ranking first).2 (scoring.ranking second).2 with
      hlt' | heq' | hgt'
    · exact .inr (.inr ⟨heq, .inl hlt'⟩)
    · rcases Nat.le_total first.id second.id with hid | hid
      · exact .inl (.inr ⟨heq.symm, .inr ⟨heq'.symm, hid⟩⟩)
      · exact .inr (.inr ⟨heq, .inr ⟨heq', hid⟩⟩)
    · exact .inl (.inr ⟨heq.symm, .inl hgt'⟩)
  · exact .inl (.inl hgt)

theorem RanksBefore.trans {first second third : LibraryFile}
    (hfirst : scoring.RanksBefore first second) (hsecond : scoring.RanksBefore second third) :
    scoring.RanksBefore first third := by
  simp only [RanksBefore] at *
  rcases hfirst with hlt | ⟨heq, hrest⟩ <;> rcases hsecond with hlt' | ⟨heq', hrest'⟩
  · exact .inl (lt_trans hlt' hlt)
  · exact .inl (heq' ▸ hlt)
  · exact .inl (heq ▸ hlt')
  · refine .inr ⟨heq'.trans heq, ?_⟩
    rcases hrest with hlt | ⟨heq, hid⟩ <;> rcases hrest' with hlt' | ⟨heq', hid'⟩
    · exact .inl (lt_trans hlt' hlt)
    · exact .inl (heq' ▸ hlt)
    · exact .inl (heq ▸ hlt')
    · exact .inr ⟨heq'.trans heq, hid.trans hid'⟩

theorem RanksBefore.antisymm {first second : LibraryFile}
    (hfirst : scoring.RanksBefore first second) (hsecond : scoring.RanksBefore second first) :
    first.id = second.id := by
  simp only [RanksBefore] at *
  rcases hfirst with hlt | ⟨heq, hrest⟩
  · rcases hsecond with hgt | ⟨heq, -⟩
    · exact absurd hgt (lt_asymm hlt)
    · exact absurd heq (ne_of_lt hlt).symm
  · rcases hsecond with hgt | ⟨-, hrest'⟩
    · exact absurd heq (ne_of_lt hgt).symm
    · rcases hrest with hlt | ⟨heq, hid⟩ <;> rcases hrest' with hgt | ⟨heq', hid'⟩
      · exact absurd hgt (lt_asymm hlt)
      · exact absurd heq' (ne_of_lt hlt).symm
      · exact absurd heq (ne_of_lt hgt).symm
      · exact Nat.le_antisymm hid hid'

instance : Std.Total scoring.RanksBefore := ⟨ranksBefore_total⟩

instance : IsTrans LibraryFile scoring.RanksBefore := ⟨fun _ _ _ => RanksBefore.trans⟩

/-- What a result says of the candidate it was scored from. -/
structure ScoredFrom (scoring : Scoring) (candidates : List LibraryFile) (tier : MatchTier)
    (file : LibraryFile) (result : IdentityMatchResult) : Prop where
  leads : scoring.Leads candidates file
  fileId : result.libraryFileId = some file.id
  workId : result.workId = some ((truthy file.workId).getD "")
  score : result.confidenceScore = scoring.score file
  tier : result.tier = tier
  matched : result.status = .autoMatched ↔ scoring.WinsOutright candidates file
  rejected : result.status = .autoRejected ↔
    ¬ scoring.WinsOutright candidates file ∧ scoring.score file < SONG_MIN_PRESENTATION_SCORE
  decided : result.status = .autoMatched ∨ result.status = .autoRejected ∨
    result.status = .needsReview

theorem best_eq_none_iff {candidates : List LibraryFile} {tier : MatchTier} :
    scoring.best candidates tier = none ↔ candidates = [] := by
  have hperm := List.perm_insertionSort scoring.RanksBefore candidates
  unfold best
  split
  next hsorted =>
    rw [hsorted] at hperm
    exact iff_of_true rfl hperm.symm.eq_nil
  next first rest hsorted =>
    rw [hsorted] at hperm
    exact iff_of_false (by simp) fun hnil => by simp [hnil] at hperm

theorem verdict_matched {topScore gap : Rat} {hasCompetitor : Bool} :
    (scoring.verdict topScore gap hasCompetitor).1 = .autoMatched ↔
      scoring.autoMatches topScore gap hasCompetitor := by
  unfold verdict
  split_ifs <;> simp_all

theorem verdict_rejected {topScore gap : Rat} {hasCompetitor : Bool} :
    (scoring.verdict topScore gap hasCompetitor).1 = .autoRejected ↔
      ¬ scoring.autoMatches topScore gap hasCompetitor ∧
        topScore < SONG_MIN_PRESENTATION_SCORE := by
  unfold verdict
  split_ifs <;> simp_all

theorem verdict_decided (topScore gap : Rat) (hasCompetitor : Bool) :
    (scoring.verdict topScore gap hasCompetitor).1 = .autoMatched ∨
      (scoring.verdict topScore gap hasCompetitor).1 = .autoRejected ∨
      (scoring.verdict topScore gap hasCompetitor).1 = .needsReview := by
  unfold verdict
  split_ifs <;> simp

/-- The lead over the second is the lead over every other candidate. -/
theorem autoMatches_iff {candidates rest : List LibraryFile} {file : LibraryFile}
    (hrest : rest.Pairwise scoring.RanksBefore)
    (hothers : ∀ other, other ∈ rest ↔ other ∈ candidates ∧ other.id ≠ file.id) :
    scoring.autoMatches (scoring.score file) (scoring.gap (scoring.score file) rest)
      (!rest.isEmpty) ↔ scoring.WinsOutright candidates file := by
  refine or_congr_right ?_
  cases rest with
  | nil =>
      simp only [List.not_mem_nil, false_iff, not_and, not_not] at hothers
      simp only [List.isEmpty_nil, Bool.not_true, Bool.false_eq_true, false_and, false_iff, not_and]
      exact fun ⟨other, hother, hne⟩ => absurd (hothers other hother) hne
  | cons second more =>
      simp only [List.isEmpty_cons, Bool.not_false, true_and, ge_iff_le, gap]
      have hsecond := (hothers second).mp (by simp)
      constructor
      · rintro ⟨hstrong, hgap⟩
        refine ⟨⟨second, hsecond⟩, hstrong, fun other hother hne => ?_⟩
        rcases List.mem_cons.mp ((hothers other).mpr ⟨hother, hne⟩) with rfl | hmore
        · linarith
        · have hle := ((List.pairwise_cons.mp hrest).1 other hmore).score_le
          linarith
      · rintro ⟨-, hstrong, hlead⟩
        have hgap := hlead second hsecond.1 hsecond.2
        exact ⟨hstrong, by linarith⟩

/-- The result of scoring some candidates is that of the one that leads them. -/
theorem scoredFrom_of_best {candidates : List LibraryFile} {tier : MatchTier}
    {result : IdentityMatchResult} (hids : (candidates.map LibraryFile.id).Nodup)
    (hbest : scoring.best candidates tier = some result) :
    ∃ file, scoring.ScoredFrom candidates tier file result := by
  have hperm := List.perm_insertionSort scoring.RanksBefore candidates
  have hsorted := List.pairwise_insertionSort scoring.RanksBefore candidates
  unfold best at hbest
  generalize candidates.insertionSort scoring.RanksBefore = ranked at hperm hsorted hbest
  cases ranked with
  | nil => cases hbest
  | cons file rest =>
      obtain ⟨hfirst, hrest⟩ := List.pairwise_cons.mp hsorted
      have hnodup : ((file :: rest).map LibraryFile.id).Nodup := (hperm.map _).nodup_iff.mpr hids
      have hothers : ∀ other, other ∈ rest ↔ other ∈ candidates ∧ other.id ≠ file.id := by
        intro other
        rw [← hperm.mem_iff, List.mem_cons]
        rw [List.map_cons, List.nodup_cons] at hnodup
        constructor
        · exact fun hother => ⟨.inr hother, fun hid =>
            hnodup.1 (hid ▸ List.mem_map_of_mem hother)⟩
        · rintro ⟨rfl | hother, hne⟩
          · exact absurd rfl hne
          · exact hother
      have hlead : scoring.Leads candidates file := by
        refine ⟨hperm.mem_iff.mp (by simp), fun other hother => ?_⟩
        rcases List.mem_cons.mp (hperm.mem_iff.mpr hother) with rfl | hother
        · exact (ranksBefore_total other other).elim id id
        · exact hfirst other hother
      have hwins := autoMatches_iff hrest hothers
      obtain rfl := Option.some.inj hbest
      exact ⟨file, hlead, rfl, rfl, rfl, rfl, verdict_matched.trans hwins,
        verdict_rejected.trans (and_congr_left' (not_congr hwins)), verdict_decided ..⟩

theorem best_isSome {candidates : List LibraryFile} {tier : MatchTier} (hsome : candidates ≠ []) :
    ∃ result, scoring.best candidates tier = some result :=
  Option.ne_none_iff_exists'.mp (mt best_eq_none_iff.mp hsome)

theorem Leads.unique {candidates : List LibraryFile} {first second : LibraryFile}
    (hids : (candidates.map LibraryFile.id).Nodup) (hfirst : scoring.Leads candidates first)
    (hsecond : scoring.Leads candidates second) : first = second :=
  List.inj_on_of_nodup_map hids hfirst.1 hsecond.1
    ((hfirst.2 second hsecond.1).antisymm (hsecond.2 first hfirst.1))

theorem Leads.score_le {candidates : List LibraryFile} {file other : LibraryFile}
    (hleads : scoring.Leads candidates file) (hother : other ∈ candidates) :
    scoring.score other ≤ scoring.score file := (hleads.2 other hother).score_le

end Scoring

end RetroStation.Matching
