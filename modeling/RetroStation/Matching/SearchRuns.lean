import RetroStation.Matching.Engines
import RetroStation.Transition.Run

/-! # A run's searches

One run asks MusicBrainz for recordings through a guard that stops calling it after so many
transient failures in a row. A run may also remember its answers. MusicBrainz stands outside:
what it would reply comes with each search.
-/

namespace RetroStation.Matching

/-- What an HTTP call failed of. -/
inductive HttpErrorKind
  | status (code : Nat)
  | timeout
  | network
  | remoteProtocol
  | other
  deriving DecidableEq, Repr

structure HttpError where
  kind : HttpErrorKind
  message : String
  deriving DecidableEq, Repr

/-- The failures the client itself retries. -/
def HttpErrorKind.isTransientMbError : HttpErrorKind → Bool
  | .status code => code = 429 || code ≥ 500
  | _ => false

def HttpErrorKind.isTransientTransportError : HttpErrorKind → Bool
  | .timeout => true
  | .network => true
  | .remoteProtocol => true
  | _ => false

def isTransientMbFailure (exc : HttpError) : Bool :=
  exc.kind.isTransientMbError || exc.kind.isTransientTransportError

/-- A search, and what the client replies if it is called. -/
structure SearchCall where
  artistMbid : String
  title : String
  reply : Except HttpError (List MbRecording)

namespace SearchCall

def key (call : SearchCall) : String × String := (call.artistMbid, call.title)

def failsTransiently (call : SearchCall) : Bool :=
  match call.reply with
  | .ok _ => false
  | .error exc => isTransientMbFailure exc

end SearchCall

/-- How a search ends: with recordings, as unavailable, or with the client's own failure. -/
inductive SearchOutcome
  | returned (recordings : List MbRecording)
  | unavailable (message : String)
  | raised (exc : HttpError)
  deriving DecidableEq, Repr

/-- How a search ended, and whether the client was called for it. -/
structure Searched where
  outcome : SearchOutcome
  called : Bool
  deriving DecidableEq, Repr

namespace RecordingSearch

/-- A run's first state. -/
def start (rememberAnswers : Bool) : RecordingSearch where
  failures := 0
  answers := if rememberAnswers then some .empty else none
  calls := 0

/-- One search, guarded by a cut-off. -/
def searchWithin (cutoff : Nat) (search : RecordingSearch) (call : SearchCall) :
    RecordingSearch × Searched :=
  if search.failures ≥ cutoff then
    (search, ⟨.unavailable "MusicBrainz cut-off reached in this run", false⟩)
  else match search.answers.bind (·.get? call.key) with
  | some recordings => ({ search with failures := 0 }, ⟨.returned recordings, false⟩)
  | none =>
    let asked := { search with calls := search.calls + 1 }
    match call.reply with
    | .error exc =>
      if !isTransientMbFailure exc then (asked, ⟨.raised exc, true⟩)
      else ({ asked with failures := search.failures + 1 }, ⟨.unavailable exc.message, true⟩)
    | .ok recordings =>
      ({ asked with
        failures := 0
        answers := search.answers.map (·.set call.key recordings) }, ⟨.returned recordings, true⟩)

end RecordingSearch

def searchMachine (cutoff : Nat) :
    Transition.Machine RecordingSearch SearchCall Searched where
  step search call := some (search.searchWithin cutoff call)

/-! ## The song engines' search -/

/-- A failure of the engines' client, as the HTTP error it stands for. -/
def MbFailure.toHttp : MbFailure → HttpError
  | .transient => ⟨.timeout, "timed out"⟩
  | .permanent => ⟨.status 400, "bad request"⟩

def SearchOutcome.toExcept : SearchOutcome → Except SongError (List MbRecording)
  | .returned recordings => .ok recordings
  | .unavailable _ => .error .musicBrainzUnavailable
  | .raised _ => .error .musicBrainzFailed

/-- The song engines search with the default cut-off. -/
theorem search_eq_searchWithin (client : MusicBrainzClient) (search : RecordingSearch)
    (artistMbid title : String) :
    let searched := search.searchWithin SONG_MB_FAILURE_CUTOFF
      ⟨artistMbid, title, (client search.calls artistMbid title).mapError MbFailure.toHttp⟩
    RecordingSearch.search client search artistMbid title =
      (searched.2.outcome.toExcept, searched.1) := by
  unfold RecordingSearch.search RecordingSearch.searchWithin RecordingSearch.cutOff
  simp only [SearchCall.key, decide_eq_true_eq]
  split
  · rfl
  · cases search.answers.bind (·.get? (artistMbid, title)) with
    | some recordings => rfl
    | none =>
        cases client search.calls artistMbid title with
        | ok recordings => rfl
        | error failure => cases failure <;> rfl

/-! ## What a run has seen -/

abbrev SearchTrace := List (SearchCall × Searched)

def answered (entry : SearchCall × Searched) : Bool :=
  match entry.2.outcome with
  | .returned _ => true
  | _ => false

/-- The client was called and failed transiently. -/
def struck (entry : SearchCall × Searched) : Bool := entry.2.called && entry.1.failsTransiently

/-- The client was called and answered. -/
def succeeded (entry : SearchCall × Searched) : Bool := entry.2.called && answered entry

/-- The run has seen so many transient failures with no answer between them. -/
def CutOffAfter (cutoff : Nat) (trace : SearchTrace) : Prop :=
  ∃ earlier streak, trace = earlier ++ streak ∧ (∀ entry ∈ streak, answered entry = false) ∧
    cutoff ≤ streak.countP struck

/-- The transient failures since the last answer. -/
def strikes (trace : SearchTrace) : Nat :=
  trace.foldl (fun count entry =>
    if answered entry then 0 else if struck entry then count + 1 else count) 0

section

variable {cutoff : Nat} {trace : SearchTrace} {entry : SearchCall × Searched}

theorem strikes_snoc : strikes (trace ++ [entry]) =
    if answered entry then 0 else if struck entry then strikes trace + 1 else strikes trace := by
  simp [strikes]

/-- The longest streak without an answer has all the strikes. -/
theorem exists_streak (trace : SearchTrace) : ∃ earlier streak, trace = earlier ++ streak ∧
    (∀ entry ∈ streak, answered entry = false) ∧ streak.countP struck = strikes trace := by
  induction trace using List.reverseRecOn with
  | nil => exact ⟨[], [], rfl, by simp, rfl⟩
  | append_singleton trace entry ih =>
      obtain ⟨earlier, streak, rfl, hquiet, hcount⟩ := ih
      rw [strikes_snoc]
      by_cases hanswered : answered entry = true
      · exact ⟨earlier ++ streak ++ [entry], [], by simp, by simp, by simp [hanswered]⟩
      · refine ⟨earlier, streak ++ [entry], by simp, fun other hother => ?_, ?_⟩
        · rcases List.mem_append.mp hother with hother | hother
          · exact hquiet other hother
          · rw [List.mem_singleton.mp hother]
            exact Bool.eq_false_of_not_eq_true hanswered
        · rw [if_neg hanswered, List.countP_append, hcount, List.countP_singleton]
          split <;> rfl

theorem countP_le_strikes {earlier streak : SearchTrace}
    (hquiet : ∀ entry ∈ streak, answered entry = false) :
    streak.countP struck ≤ strikes (earlier ++ streak) := by
  induction streak using List.reverseRecOn with
  | nil => simp
  | append_singleton streak entry ih =>
      have hbefore := ih fun other hother => hquiet other (List.mem_append_left _ hother)
      have hlast : answered entry = false := hquiet entry (by simp)
      rw [← List.append_assoc, strikes_snoc, List.countP_append, List.countP_singleton]
      simp only [hlast, Bool.false_eq_true, if_false]
      split <;> omega

theorem cutOffAfter_iff : CutOffAfter cutoff trace ↔ cutoff ≤ strikes trace := by
  constructor
  · rintro ⟨earlier, streak, rfl, hquiet, hcount⟩
    exact hcount.trans (countP_le_strikes hquiet)
  · intro hle
    obtain ⟨earlier, streak, htrace, hquiet, hcount⟩ := exists_streak trace
    exact ⟨earlier, streak, htrace, hquiet, hcount ▸ hle⟩

end

/-! ## What a search does -/

/-- The ways a search can go, and the state each leaves. -/
inductive Searches (cutoff : Nat) (search : RecordingSearch) (call : SearchCall) :
    RecordingSearch × Searched → Prop
  | cutOff (hcut : cutoff ≤ search.failures) : Searches cutoff search call
      (search, ⟨.unavailable "MusicBrainz cut-off reached in this run", false⟩)
  | remembered {recordings : List MbRecording} (hopen : search.failures < cutoff)
      (hanswer : search.answers.bind (·.get? call.key) = some recordings) :
      Searches cutoff search call ({ search with failures := 0 }, ⟨.returned recordings, false⟩)
  | answered {recordings : List MbRecording} (hopen : search.failures < cutoff)
      (hunknown : search.answers.bind (·.get? call.key) = none)
      (hreply : call.reply = .ok recordings) : Searches cutoff search call
      (⟨0, search.answers.map (·.set call.key recordings), search.calls + 1⟩,
        ⟨.returned recordings, true⟩)
  | transient {exc : HttpError} (hopen : search.failures < cutoff)
      (hunknown : search.answers.bind (·.get? call.key) = none) (hreply : call.reply = .error exc)
      (htransient : isTransientMbFailure exc = true) : Searches cutoff search call
      (⟨search.failures + 1, search.answers, search.calls + 1⟩, ⟨.unavailable exc.message, true⟩)
  | permanent {exc : HttpError} (hopen : search.failures < cutoff)
      (hunknown : search.answers.bind (·.get? call.key) = none) (hreply : call.reply = .error exc)
      (hpermanent : isTransientMbFailure exc = false) : Searches cutoff search call
      (⟨search.failures, search.answers, search.calls + 1⟩, ⟨.raised exc, true⟩)

theorem searches_searchWithin (cutoff : Nat) (search : RecordingSearch) (call : SearchCall) :
    Searches cutoff search call (search.searchWithin cutoff call) := by
  unfold RecordingSearch.searchWithin
  split
  next hcut => exact .cutOff hcut
  next hopen =>
    rw [ge_iff_le, not_le] at hopen
    split
    next hanswer => exact .remembered hopen hanswer
    next hunknown =>
      split
      next hreply =>
        split
        next hpermanent => exact .permanent hopen hunknown hreply (by simpa using hpermanent)
        next htransient => exact .transient hopen hunknown hreply (by simpa using htransient)
      next hreply => exact .answered hopen hunknown hreply

/-! ## One search -/

/-- What a run's state holds of what it has seen. -/
structure Follows (rememberAnswers : Bool) (trace : SearchTrace) (search : RecordingSearch) :
    Prop where
  failures : search.failures = strikes trace
  remembers : search.answers.isSome = rememberAnswers
  remembered : ∀ (key : String × String) (recordings : List MbRecording),
    search.answers.bind (·.get? key) = some recordings ↔ rememberAnswers = true ∧
      ∃ entry ∈ trace, entry.1.key = key ∧ entry.2 = ⟨.returned recordings, true⟩
  once : rememberAnswers = true → ∀ key : String × String,
    trace.countP (fun entry => succeeded entry && entry.1.key = key) ≤ 1

/-- How a search ends, by what the run has seen before it. -/
structure SearchLaw (cutoff : Nat) (rememberAnswers : Bool) (before : SearchTrace)
    (call : SearchCall) (searched : Searched) : Prop where
  cutOff : CutOffAfter cutoff before →
    searched = ⟨.unavailable "MusicBrainz cut-off reached in this run", false⟩
  called : ¬CutOffAfter cutoff before → (searched.called = true ↔
    ¬(rememberAnswers = true ∧ ∃ entry ∈ before, entry.1.key = call.key ∧ succeeded entry = true))
  again : ¬CutOffAfter cutoff before → rememberAnswers = true → ∀ entry ∈ before,
    entry.1.key = call.key → ∀ recordings : List MbRecording,
      entry.2 = ⟨.returned recordings, true⟩ → searched = ⟨.returned recordings, false⟩
  answers : searched.called = true → ∀ recordings : List MbRecording,
    call.reply = .ok recordings → searched.outcome = .returned recordings
  transient : searched.called = true → ∀ exc : HttpError, call.reply = .error exc →
    isTransientMbFailure exc = true → searched.outcome = .unavailable exc.message
  permanent : searched.called = true → ∀ exc : HttpError, call.reply = .error exc →
    isTransientMbFailure exc = false → searched.outcome = .raised exc

section

variable {cutoff : Nat} {rememberAnswers : Bool} {trace : SearchTrace}
  {search next : RecordingSearch} {call : SearchCall} {searched : Searched}

theorem follows_start : Follows rememberAnswers [] (RecordingSearch.start rememberAnswers) := by
  refine ⟨rfl, ?_, fun key recordings => ?_, by simp⟩
  · cases rememberAnswers <;> rfl
  · cases rememberAnswers <;> simp [RecordingSearch.start]

theorem succeeded_iff {entry : SearchCall × Searched} :
    succeeded entry = true ↔ ∃ recordings, entry.2 = ⟨.returned recordings, true⟩ := by
  obtain ⟨call, outcome, called⟩ := entry
  cases called <;> cases outcome <;> simp [succeeded, answered]

namespace Follows

variable (hfollows : Follows rememberAnswers trace search)
include hfollows

theorem cutOff_iff : CutOffAfter cutoff trace ↔ cutoff ≤ search.failures := by
  rw [cutOffAfter_iff, hfollows.failures]

theorem unknown_iff {key : String × String} : search.answers.bind (·.get? key) = none ↔
    ¬(rememberAnswers = true ∧ ∃ entry ∈ trace, entry.1.key = key ∧ succeeded entry = true) := by
  rw [Option.eq_none_iff_forall_ne_some]
  constructor
  · rintro hnone ⟨hremember, entry, hentry, hkey, hsucceeded⟩
    obtain ⟨recordings, hanswer⟩ := succeeded_iff.mp hsucceeded
    exact hnone recordings ((hfollows.remembered key recordings).mpr
      ⟨hremember, entry, hentry, hkey, hanswer⟩)
  · intro hnot recordings hsome
    obtain ⟨hremember, entry, hentry, hkey, hanswer⟩ :=
      (hfollows.remembered key recordings).mp hsome
    exact hnot ⟨hremember, entry, hentry, hkey, succeeded_iff.mpr ⟨recordings, hanswer⟩⟩

/-- A search that is not cut off calls the client exactly when it has no answer of it yet. -/
theorem not_known (hunknown : search.answers.bind (·.get? call.key) = none) (hremember :
    rememberAnswers = true) {entry : SearchCall × Searched} (hentry : entry ∈ trace)
    (hkey : entry.1.key = call.key) (recordings : List MbRecording) :
    entry.2 ≠ ⟨.returned recordings, true⟩ := fun hanswer =>
  hfollows.unknown_iff.mp hunknown
    ⟨hremember, entry, hentry, hkey, succeeded_iff.mpr ⟨recordings, hanswer⟩⟩

end Follows

/-- A search ends as the run so far says. -/
theorem law_of_searches (hfollows : Follows rememberAnswers trace search)
    (hsearch : Searches cutoff search call (next, searched)) :
    SearchLaw cutoff rememberAnswers trace call searched := by
  have hcut := @Follows.cutOff_iff cutoff _ _ _ hfollows
  cases hsearch with
  | cutOff hreached =>
      exact ⟨fun _ => rfl, fun hopen => absurd (hcut.mpr hreached) hopen,
        fun hopen => absurd (hcut.mpr hreached) hopen, by simp, by simp, by simp⟩
  | @remembered recordings hopen hanswer =>
      have hknown := mt (@Follows.unknown_iff _ _ _ hfollows call.key).mpr (by simp only [hanswer,
        reduceCtorEq, not_false_eq_true])
      refine ⟨fun hreached => absurd (hcut.mp hreached) (not_le.mpr hopen),
        fun _ => iff_of_false (by simp) hknown,
        fun _ hremember entry hentry hkey other hother => ?_,
        by simp, by simp, by simp⟩
      have hsame := (hfollows.remembered call.key other).mpr ⟨hremember, entry,
        hentry, hkey, hother⟩
      rw [hanswer] at hsame
      rw [Option.some.inj hsame]
  | answered hopen hunknown hreply =>
      refine ⟨fun hreached => absurd (hcut.mp hreached) (not_le.mpr hopen),
        fun _ => iff_of_true rfl (hfollows.unknown_iff.mp hunknown),
        fun _ hremember entry hentry hkey other hother =>
          absurd hother (hfollows.not_known hunknown hremember hentry hkey other), ?_, ?_, ?_⟩
      all_goals simp [hreply]
  | transient hopen hunknown hreply htransient =>
      refine ⟨fun hreached => absurd (hcut.mp hreached) (not_le.mpr hopen),
        fun _ => iff_of_true rfl (hfollows.unknown_iff.mp hunknown),
        fun _ hremember entry hentry hkey other hother =>
          absurd hother (hfollows.not_known hunknown hremember hentry hkey other), ?_, ?_, ?_⟩
      all_goals simp [hreply, htransient]
  | permanent hopen hunknown hreply hpermanent =>
      refine ⟨fun hreached => absurd (hcut.mp hreached) (not_le.mpr hopen),
        fun _ => iff_of_true rfl (hfollows.unknown_iff.mp hunknown),
        fun _ hremember entry hentry hkey other hother =>
          absurd hother (hfollows.not_known hunknown hremember hentry hkey other), ?_, ?_, ?_⟩
      all_goals simp [hreply, hpermanent]

/-- What a search that is not answered by the client leaves remembered. -/
theorem Follows.unanswered (hfollows : Follows rememberAnswers trace search)
    (hanswers : next.answers = search.answers) (hnot : succeeded (call, searched) = false)
    (hfailures : next.failures = strikes (trace ++ [(call, searched)])) :
    Follows rememberAnswers (trace ++ [(call, searched)]) next := by
  refine ⟨hfailures, hanswers ▸ hfollows.remembers,
    fun key recordings => ?_, fun hremember key => ?_⟩
  · rw [hanswers, hfollows.remembered]
    refine and_congr_right fun _ => ⟨?_, ?_⟩
    · rintro ⟨entry, hentry, hsame⟩
      exact ⟨entry, List.mem_append_left _ hentry, hsame⟩
    · rintro ⟨entry, hentry, hkey, hanswer⟩
      rcases List.mem_append.mp hentry with hentry | hentry
      · exact ⟨entry, hentry, hkey, hanswer⟩
      · rw [List.mem_singleton.mp hentry] at hanswer
        rw [succeeded_iff.mpr ⟨recordings, hanswer⟩] at hnot
        cases hnot
  · rw [List.countP_append, List.countP_singleton]
    simp only [hnot, Bool.false_and, Bool.false_eq_true, if_false]
    exact hfollows.once hremember key

/-- A search is one more that the run has seen. -/
theorem follows_of_searches (hfollows : Follows rememberAnswers trace search)
    (hsearch : Searches cutoff search call (next, searched)) :
    Follows rememberAnswers (trace ++ [(call, searched)]) next := by
  cases hsearch with
  | cutOff hreached =>
      refine hfollows.unanswered rfl (by simp [succeeded]) ?_
      simp [strikes_snoc, answered, struck, hfollows.failures]
  | remembered hopen hanswer =>
      refine hfollows.unanswered rfl (by simp [succeeded]) ?_
      simp [strikes_snoc, answered]
  | transient hopen hunknown hreply htransient =>
      refine hfollows.unanswered rfl (by simp [succeeded, answered]) ?_
      simp [strikes_snoc, answered, struck, SearchCall.failsTransiently, hreply, htransient,
        hfollows.failures]
  | permanent hopen hunknown hreply hpermanent =>
      refine hfollows.unanswered rfl (by simp [succeeded, answered]) ?_
      simp [strikes_snoc, answered, struck, SearchCall.failsTransiently, hreply, hpermanent,
        hfollows.failures]
  -- A reply clears the strikes and is remembered under a key that no reply was stored for.
  | @answered recordings hopen hunknown hreply =>
      refine ⟨by simp [strikes_snoc, answered], ?_, fun key other => ?_, fun hremember key => ?_⟩
      · simpa using hfollows.remembers
      · have hbefore := hfollows.remembered key other
        have hremembers := hfollows.remembers
        cases hanswers : search.answers with
        | none => simp [hanswers] at hremembers ⊢; simp [← hremembers]
        | some answers =>
            have hremember : rememberAnswers = true := by simpa [hanswers] using hremembers.symm
            simp only [hanswers, Option.bind_some, Option.map_some, Dict.get?_set,
              hremember, true_and] at hbefore ⊢
            by_cases hkey : key = call.key
            · rw [if_pos hkey]
              constructor
              · intro hsame
                exact ⟨_, List.mem_append_right _ List.mem_cons_self, hkey.symm,
                  by rw [Option.some.inj hsame]⟩
              · rintro ⟨entry, hentry, hother, hanswer⟩
                rcases List.mem_append.mp hentry with hentry | hentry
                · exact absurd hanswer (hfollows.not_known hunknown hremember hentry
                    (hother.trans hkey) other)
                · rw [List.mem_singleton.mp hentry] at hanswer
                  obtain rfl : recordings = other := by simpa using hanswer
                  rfl
            · rw [if_neg hkey, hbefore]
              constructor
              · rintro ⟨entry, hentry, hsame⟩
                exact ⟨entry, List.mem_append_left _ hentry, hsame⟩
              · rintro ⟨entry, hentry, hother, hanswer⟩
                rcases List.mem_append.mp hentry with hentry | hentry
                · exact ⟨entry, hentry, hother, hanswer⟩
                · rw [List.mem_singleton.mp hentry] at hother
                  exact absurd hother.symm hkey
      · rw [List.countP_append, List.countP_singleton]
        by_cases hkey : call.key = key
        · have hnone : trace.countP (fun entry => succeeded entry && entry.1.key = key) = 0 := by
            rw [List.countP_eq_zero]
            intro entry hentry hsucceeded
            rw [Bool.and_eq_true, decide_eq_true_eq] at hsucceeded
            exact hfollows.unknown_iff.mp hunknown
              ⟨hremember, entry, hentry, hsucceeded.2.trans hkey.symm, hsucceeded.1⟩
          rw [hnone]
          split <;> omega
        · simp only [hkey, decide_false, Bool.and_false, Bool.false_eq_true, if_false]
          exact hfollows.once hremember key

end

/-! ## A whole run -/

theorem follows_run {cutoff : Nat} {rememberAnswers : Bool} {trace : SearchTrace}
    {search : RecordingSearch}
    (hrun : (searchMachine cutoff).Run (RecordingSearch.start rememberAnswers) trace search) :
    Follows rememberAnswers trace search := by
  induction hrun with
  | nil => exact follows_start
  | @snoc trace state next call searched _ hstep ih =>
      have hsearch := searches_searchWithin cutoff state call
      rw [Option.some.inj hstep] at hsearch
      exact follows_of_searches ih hsearch

/-- Every search of a run ends as the searches before it say: the cut-off stops it, an answer
that was remembered is given again, and the client is called otherwise. -/
theorem song_search_law (cutoff : Nat) (rememberAnswers : Bool) (trace : SearchTrace)
    (search : RecordingSearch)
    (hrun : (searchMachine cutoff).Run (RecordingSearch.start rememberAnswers) trace search) :
    (∀ (before after : SearchTrace) (call : SearchCall) (searched : Searched),
      trace = before ++ (call, searched) :: after →
        SearchLaw cutoff rememberAnswers before call searched ∧
        (CutOffAfter cutoff before → CutOffAfter cutoff (before ++ [(call, searched)])) ∧
        ∀ (reached next : RecordingSearch) (exc : HttpError),
          (searchMachine cutoff).Run (RecordingSearch.start rememberAnswers) before reached →
          (searchMachine cutoff).step reached call = some (next, searched) →
          searched.outcome = .raised exc →
            next.failures = reached.failures ∧ next.answers = reached.answers) ∧
    (rememberAnswers = true → ∀ key : String × String,
      trace.countP (fun entry => succeeded entry && entry.1.key = key) ≤ 1) := by
  refine ⟨?_, (follows_run hrun).once⟩
  rintro before after call searched rfl
  obtain ⟨state, later, hbefore, hstep, -⟩ := hrun.split
  have hfollows := follows_run hbefore
  have hsearch := searches_searchWithin cutoff state call
  rw [Option.some.inj hstep] at hsearch
  have hlaw := law_of_searches hfollows hsearch
  refine ⟨hlaw, fun hcut => ?_, fun reached next exc hreached hnext hraised => ?_⟩
  -- A call after the cut-off is not made, so the streak that cut it off only grows.
  · have hended := hlaw.cutOff hcut
    obtain ⟨earlier, streak, rfl, hquiet, hcount⟩ := hcut
    refine ⟨earlier, streak ++ [(call, searched)], by simp, fun entry hentry => ?_, ?_⟩
    · rcases List.mem_append.mp hentry with hentry | hentry
      · exact hquiet entry hentry
      · rw [List.mem_singleton.mp hentry, hended]
        rfl
    · rw [List.countP_append]
      exact hcount.trans (Nat.le_add_right _ _)
  · have htaken := searches_searchWithin cutoff reached call
    rw [Option.some.inj hnext] at htaken
    cases htaken with
    | permanent => exact ⟨rfl, rfl⟩
    | _ => cases hraised

def searchFor (title : String) (reply : Except HttpError (List MbRecording)) : SearchCall :=
  ⟨"ab3f", title, reply⟩

/-- A song is found, another search times out, and the song is asked for again. -/
def foundThenTimedOut : SearchTrace :=
  [(searchFor "Smooth" (.ok [⟨some "r1"⟩]), ⟨.returned [⟨some "r1"⟩], true⟩),
    (searchFor "Maria" (.error ⟨.timeout, "timed out"⟩), ⟨.unavailable "timed out", true⟩),
    (searchFor "Smooth" (.ok [⟨some "r1"⟩]),
      ⟨.unavailable "MusicBrainz cut-off reached in this run", false⟩)]

theorem foundThenTimedOut_run : ∃ search : RecordingSearch,
    (searchMachine 1).Run (RecordingSearch.start true) foundThenTimedOut search :=
  ⟨_, Transition.Machine.run_of_exec (rfl : (searchMachine 1).exec (RecordingSearch.start true)
    (foundThenTimedOut.map Prod.fst) = some (foundThenTimedOut, _))⟩

theorem song_search_law_foundThenTimedOut :
    foundThenTimedOut.countP
      (fun entry => succeeded entry && entry.1.key = ("ab3f", "Smooth")) ≤ 1 :=
  foundThenTimedOut_run.elim fun search hrun =>
    (song_search_law 1 true foundThenTimedOut search hrun).2 rfl ("ab3f", "Smooth")

/-- Past the cut-off a remembered answer is not given again. -/
theorem remembered_answer_cut_off :
    ¬ ∀ (cutoff : Nat) (trace : SearchTrace) (search : RecordingSearch),
      (searchMachine cutoff).Run (RecordingSearch.start true) trace search →
      ∀ (before between after : SearchTrace) (first later : SearchCall × Searched)
        (recordings : List MbRecording),
        trace = before ++ first :: (between ++ later :: after) → first.1.key = later.1.key →
        first.2 = ⟨.returned recordings, true⟩ → later.2.outcome = .returned recordings := by
  intro hagain
  obtain ⟨search, hrun⟩ := foundThenTimedOut_run
  have hoff := hagain 1 foundThenTimedOut search hrun [] [_] [] _ _ [⟨some "r1"⟩] rfl rfl rfl
  cases hoff

end RetroStation.Matching
