import RetroStation.Cues.Analyser

/-! # What a batch's reading gives

The messages read are those of some files in order: each file begun, with its result line or
without one before the next began. The outcome holds these files and no others.
-/

namespace RetroStation.Cues

theorem partitionSpace_concat {head : String} (hspace : head.toList.all (· ≠ ' ') = true)
    (body : String) : partitionSpace (head ++ " " ++ body) = (head, body) := by
  have hchars : (head ++ " " ++ body).toList = head.toList ++ ' ' :: body.toList := by
    simp [String.toList_append]
  have hhead : ∀ letter ∈ head.toList, decide (letter ≠ ' ') = true :=
    List.all_eq_true.mp hspace
  rw [partitionSpace]
  simp only [hchars, List.takeWhile_append_of_pos hhead, List.dropWhile_append_of_pos hhead]
  simp

theorem parseLine_begin (body : String) : parseLine (BEGIN ++ " " ++ body) =
    some (.begin_ body) := by
  rw [parseLine, partitionSpace_concat (by decide)]
  rfl

theorem parseLine_result (body : String) :
    parseLine (RESULT ++ " " ++ body) = some (.result body) := by
  rw [parseLine, partitionSpace_concat (by decide)]
  rfl

/-- The messages of some files in order, from the result line that each was answered with. -/
def transcript (answered : List (Option String)) : List Message :=
  answered.zipIdx.flatMap fun (answer, index) =>
    .begin_ (toString index) :: answer.toList.map .result

theorem transcript_concat (answered : List (Option String)) (answer : Option String) :
    transcript (answered ++ [answer]) =
      transcript answered ++ .begin_ (toString answered.length) :: answer.toList.map .result := by
  simp [transcript, List.zipIdx_append]

/-- Messages that keep the protocol's order: the result lines of the files behind, and whether
one more file has begun. -/
inductive Orderly : List Message → List (Option String) → Bool → Prop
  | start : Orderly [] [] false
  | begun {messages answered} : Orderly messages answered false →
      Orderly (messages ++ [.begin_ (toString answered.length)]) answered true
  | answered {messages answered} (body : String) : Orderly messages answered true →
      Orderly (messages ++ [.result body]) (answered ++ [some body]) false
  | passed {messages answered} : Orderly messages answered true →
      Orderly (messages ++ [.begin_ (toString (answered.length + 1))]) (answered ++ [none]) true

theorem Orderly.messages_eq {messages : List Message} {answered : List (Option String)}
    {awaiting : Bool} (horderly : Orderly messages answered awaiting) :
    messages = transcript answered ++
      if awaiting then [.begin_ (toString answered.length)] else [] := by
  induction horderly with
  | start => rfl
  | begun _ ih => simp [ih]
  | answered body _ ih => simp [ih, transcript_concat]
  | passed _ ih => simp [ih, transcript_concat]

theorem Orderly.of_nil {answered : List (Option String)} {awaiting : Bool}
    (horderly : Orderly [] answered awaiting) : answered = [] ∧ awaiting = false := by
  generalize hall : ([] : List Message) = all at horderly
  cases horderly with
  | start => exact ⟨rfl, rfl⟩
  | _ => simp at hall

/-- The last message in order: the next file begins, or the file begun is answered. -/
theorem Orderly.last {messages : List Message} {message : Message}
    {answered : List (Option String)} {awaiting : Bool}
    (horderly : Orderly (messages ++ [message]) answered awaiting) :
    (∃ behind waits, Orderly messages behind waits ∧
        message = .begin_ (toString (behind.length + waits.toNat)) ∧
        (answered = if waits then behind ++ [none] else behind) ∧ awaiting = true) ∨
      ∃ behind body, Orderly messages behind true ∧ message = .result body ∧
        answered = behind ++ [some body] ∧ awaiting = false := by
  generalize hall : messages ++ [message] = all at horderly
  cases horderly with
  | start => simp at hall
  | begun hbefore =>
      obtain ⟨rfl, heq⟩ := List.append_inj' hall rfl
      exact .inl ⟨_, false, hbefore, List.singleton_inj.mp heq, rfl, rfl⟩
  | answered body hbefore =>
      obtain ⟨rfl, heq⟩ := List.append_inj' hall rfl
      exact .inr ⟨_, body, hbefore, List.singleton_inj.mp heq, rfl, rfl⟩
  | passed hbefore =>
      obtain ⟨rfl, heq⟩ := List.append_inj' hall rfl
      exact .inl ⟨_, true, hbefore, List.singleton_inj.mp heq, rfl, rfl⟩

section

variable (python : Python)

/-- A result line's body that is read as the metadata of a file. -/
def WellFormed (index : Nat) (body : String) (metadata : Metadata) : Prop :=
  ∃ fields entries, python.loads body = .value (.object fields) ∧
    fields.lookup "index" = some (.int index) ∧
    fields.lookup "metadata" = some (.object entries) ∧ stringsOf entries = some metadata

variable {python} in
theorem WellFormed.unique {index : Nat} {body : String} {metadata other : Metadata}
    (hwell : WellFormed python index body metadata)
    (hother : WellFormed python index body other) : metadata = other := by
  obtain ⟨fields, entries, hloads, -, hentries, hstrings⟩ := hwell
  obtain ⟨fields', entries', hloads', -, hentries', hstrings'⟩ := hother
  obtain rfl : fields = fields' := by simpa [hloads] using hloads'
  obtain rfl : entries = entries' := by simpa [hentries] using hentries'
  exact Option.some.inj (hstrings.symm.trans hstrings')

theorem resultMetadata_eq_ok {parsed : Json} {begun : Nat} {metadata : Metadata} :
    resultMetadata parsed begun = .ok metadata ↔
      ∃ fields entries, parsed = .object fields ∧ fields.lookup "index" = some (.int begun) ∧
        fields.lookup "metadata" = some (.object entries) ∧ stringsOf entries = some metadata := by
  constructor
  · intro hread
    unfold resultMetadata at hread
    split at hread
    next fields =>
      dsimp only at hread
      split at hread
      next value hindex =>
        split at hread
        · cases hread
        next hbegun =>
          split at hread
          next entries hentries =>
            split at hread
            next strings hstrings =>
              cases hread
              exact ⟨fields, entries, rfl, by rw [hindex, not_not.mp hbegun], hentries, hstrings⟩
            · cases hread
          · cases hread
      · cases hread
    · cases hread
  · rintro ⟨fields, entries, rfl, hindex, hentries, hstrings⟩
    simp [resultMetadata, hindex, hentries, hstrings]

/-- A result line's body on which the reading fails with an error that is not caught: in reading
it as JSON, or in showing a value of it that breaks the protocol. -/
def Unread (index : Nat) (body : String) : Prop :=
  python.loads body = .failed ∨
    ∃ parsed problem, python.loads body = .value parsed ∧
      resultMetadata parsed index = .error problem ∧ python.echo problem.found = none

variable {python} in
theorem WellFormed.read {index : Nat} {body : String} {metadata : Metadata}
    (hwell : WellFormed python index body metadata) : ¬ Unread python index body := by
  obtain ⟨fields, entries, hloads, hfields⟩ := hwell
  rintro (hfailed | ⟨parsed, problem, hvalue, hproblem, -⟩)
  · rw [hloads] at hfailed
    cases hfailed
  · rw [hloads, Loaded.value.injEq] at hvalue
    rw [resultMetadata_eq_ok.mpr ⟨fields, entries, hvalue.symm, hfields⟩] at hproblem
    cases hproblem

/-- A body that is read, for every file that has one. -/
def AllRead (answered : List (Option String)) : Prop :=
  ∀ index body, answered[index]? = some (some body) → ¬ Unread python index body

theorem allRead_concat {answered : List (Option String)} {answer : Option String} :
    AllRead python (answered ++ [answer]) ↔ AllRead python answered ∧
      ∀ body, answer = some body → ¬ Unread python answered.length body := by
  constructor
  · refine fun hread => ⟨fun index body hbody => hread index body ?_, fun body hbody =>
      hread _ body (by rw [List.getElem?_concat_length, hbody])⟩
    rwa [List.getElem?_append_left (List.getElem?_eq_some_iff.mp hbody).1]
  · rintro ⟨hold, hnew⟩ index body hbody
    rcases Nat.lt_or_ge index answered.length with hlt | hge
    · exact hold index body (by rwa [List.getElem?_append_left hlt] at hbody)
    · rw [List.getElem?_append_right hge, List.getElem?_singleton] at hbody
      split at hbody
      next hzero =>
        rw [show index = answered.length by omega]
        exact hnew body (Option.some.inj hbody)
      · cases hbody

variable (count : Nat)

/-- The reader stands behind these files, and keeps what came of each. -/
structure Follows (answered : List (Option String)) (awaiting : Bool) (reader : Reader) :
    Prop where
  begun : reader.begun = if awaiting then some answered.length
    else if answered = [] then none else some (answered.length - 1)
  fits : answered.length + awaiting.toNat ≤ count
  metadata : ∀ index metadata, reader.metadata.get? index = some metadata ↔
    ∃ body, answered[index]? = some (some body) ∧ WellFormed python index body metadata
  settled : ∀ index, reader.settled index = true ↔ index < answered.length
  apart : ∀ index, (reader.metadata.get? index).isSome → (reader.rejected.get? index).isSome → False
  size : reader.metadata.size + reader.rejected.size = answered.length
  readable : AllRead python answered

variable {python count} {answered : List (Option String)} {awaiting : Bool} {reader : Reader}

namespace Follows

theorem nextIndex_eq (hfollows : Follows python count answered awaiting reader) :
    reader.nextIndex = answered.length + awaiting.toNat := by
  unfold Reader.nextIndex
  rw [hfollows.begun]
  cases awaiting
  · rcases answered with _ | ⟨first, rest⟩ <;> simp
  · simp

theorem unsettled (hfollows : Follows python count answered awaiting reader) :
    reader.settled answered.length = false := by
  rw [← Bool.not_eq_true, hfollows.settled]
  exact Nat.lt_irrefl _

theorem not_mem_metadata (hfollows : Follows python count answered awaiting reader) :
    answered.length ∉ reader.metadata.keys := by
  have hsettled := hfollows.unsettled
  rw [Reader.settled, Bool.or_eq_false_iff, Option.isSome_eq_false_iff, Option.isNone_iff_eq_none]
    at hsettled
  exact Dict.get?_eq_none_iff.mp hsettled.1

theorem not_mem_rejected (hfollows : Follows python count answered awaiting reader) :
    answered.length ∉ reader.rejected.keys := by
  have hsettled := hfollows.unsettled
  simp only [Reader.settled, Bool.or_eq_false_iff, Option.isSome_eq_false_iff,
    Option.isNone_iff_eq_none] at hsettled
  exact Dict.get?_eq_none_iff.mp hsettled.2

/-- The file begun is rejected: it has no well-formed result line. -/
theorem reject (hfollows : Follows python count answered true reader) {answer : Option String}
    (hmalformed : ∀ body, answer = some body → ¬ Unread python answered.length body ∧
      ∀ metadata, ¬ WellFormed python answered.length body metadata)
    {next : Reader} {waits : Bool} (hmetadata : next.metadata = reader.metadata)
    (hrejected : ∃ reason, next.rejected = reader.rejected.set answered.length reason)
    (hbegun : next.begun = some (answered.length + waits.toNat))
    (hfits : answered.length + 1 + waits.toNat ≤ count) :
    Follows python count (answered ++ [answer]) waits next where
  begun := by cases waits <;> simpa using hbegun
  fits := by simpa using hfits
  metadata index metadata := by
    rw [hmetadata, hfollows.metadata]
    refine exists_congr fun body => and_congr_left fun hwell => ?_
    rcases Nat.lt_trichotomy index answered.length with hlt | rfl | hgt
    · rw [List.getElem?_append_left hlt]
    · simp only [List.getElem?_eq_none (Nat.le_refl _), reduceCtorEq, List.getElem?_concat_length,
        Option.some.injEq, false_iff]
      exact fun hanswer => (hmalformed body hanswer).2 metadata hwell
    · rw [List.getElem?_eq_none hgt.le,
        List.getElem?_eq_none (by rw [List.length_append]; exact hgt)]
  settled index := by
    obtain ⟨reason, hrejected⟩ := hrejected
    have hold := hfollows.settled index
    simp only [Reader.settled, hmetadata, hrejected, Dict.get?_set, Bool.or_eq_true,
      List.length_append, List.length_singleton] at hold ⊢
    split
    next heq => simp [heq]
    next hne => rw [hold]; omega
  apart index := by
    obtain ⟨reason, hrejected⟩ := hrejected
    rw [hmetadata, hrejected, Dict.get?_set]
    split
    next heq =>
      subst heq
      intro hsome _
      rw [Dict.get?_eq_none_iff.mpr hfollows.not_mem_metadata] at hsome
      cases hsome
    · exact hfollows.apart index
  size := by
    obtain ⟨reason, hrejected⟩ := hrejected
    rw [hmetadata, hrejected, Dict.size_set_of_not_mem hfollows.not_mem_rejected,
      List.length_append, List.length_singleton, ← hfollows.size, Nat.add_assoc]
  readable := (allRead_concat python).mpr
    ⟨hfollows.readable, fun body hanswer => (hmalformed body hanswer).1⟩

/-- The file begun is answered with its metadata. -/
theorem accept (hfollows : Follows python count answered true reader) {body : String}
    {metadata : Metadata} (hwell : WellFormed python answered.length body metadata)
    {next : Reader} (hmetadata : next.metadata = reader.metadata.set answered.length metadata)
    (hrejected : next.rejected = reader.rejected) (hbegun : next.begun = some answered.length) :
    Follows python count (answered ++ [some body]) false next where
  begun := by simpa using hbegun
  fits := by simpa using hfollows.fits
  metadata index other := by
    rw [hmetadata, Dict.get?_set]
    rcases Nat.lt_trichotomy index answered.length with hlt | rfl | hgt
    · rw [if_neg hlt.ne, hfollows.metadata, List.getElem?_append_left hlt]
    · simp only [↓reduceIte, Option.some.injEq, List.getElem?_concat_length, exists_eq_left']
      exact ⟨fun heq => heq ▸ hwell, hwell.unique⟩
    · rw [if_neg hgt.ne', hfollows.metadata, List.getElem?_eq_none hgt.le,
        List.getElem?_eq_none (by rw [List.length_append]; exact hgt)]
  settled index := by
    have hold := hfollows.settled index
    simp only [Reader.settled, hmetadata, hrejected, Dict.get?_set, Bool.or_eq_true,
      List.length_append,
      List.length_singleton] at hold ⊢
    split
    next heq => simp [heq]
    next hne => rw [hold]; omega
  apart index := by
    rw [hmetadata, hrejected, Dict.get?_set]
    split
    next heq =>
      subst heq
      intro _ hsome
      rw [Dict.get?_eq_none_iff.mpr hfollows.not_mem_rejected] at hsome
      cases hsome
    · exact hfollows.apart index
  size := by
    rw [hmetadata, hrejected, Dict.size_set_of_not_mem hfollows.not_mem_metadata,
      List.length_append, List.length_singleton, ← hfollows.size, Nat.add_right_comm]
  readable := by
    refine (allRead_concat python).mpr ⟨hfollows.readable, fun other hother => ?_⟩
    rw [← Option.some.inj hother]
    exact hwell.read

/-- The file after those behind begins. -/
theorem begins (hfollows : Follows python count answered false reader)
    (hfits : answered.length + 1 ≤ count) {next : Reader}
    (hmetadata : next.metadata = reader.metadata) (hrejected : next.rejected = reader.rejected)
    (hbegun : next.begun = some answered.length) : Follows python count answered true next where
  begun := hbegun
  fits := hfits
  metadata := by simpa only [hmetadata] using hfollows.metadata
  settled := by simpa only [Reader.settled, hmetadata, hrejected] using hfollows.settled
  apart := by simpa only [hmetadata, hrejected] using hfollows.apart
  size := by rw [hmetadata, hrejected, hfollows.size]
  readable := hfollows.readable

/-- A begin is refused, or the file after those behind begins; a file left without its result
line is rejected. -/
theorem begin_cases (hfollows : Follows python count answered awaiting reader) (body : String) :
    (body ≠ toString (answered.length + awaiting.toNat) ∨
      answered.length + awaiting.toNat ≥ count) ∧
        (∃ problem, reader.begin_ count body = .error (.analyserError problem)) ∨
      body = toString (answered.length + awaiting.toNat) ∧ ∃ next,
        reader.begin_ count body = .ok next ∧
        Follows python count (if awaiting then answered ++ [none] else answered) true next := by
  unfold Reader.begin_
  dsimp only
  rw [hfollows.nextIndex_eq]
  split
  next hwrong => exact .inl ⟨hwrong, _, rfl⟩
  next hright =>
    rw [not_or, not_not, not_le] at hright
    refine .inr ⟨hright.1, _, rfl, ?_⟩
    cases awaiting with
    | false =>
      refine hfollows.begins hright.2 rfl ?_ rfl
      rcases answered with _ | ⟨first, rest⟩
      · have hbegun : reader.begun = none := hfollows.begun
        simp only [hbegun]
      · have hbegun : reader.begun = some rest.length := hfollows.begun
        have hsettled : reader.settled rest.length = true := (hfollows.settled _).mpr (by simp)
        simp only [hbegun, hsettled, ↓reduceIte]
    | true =>
      have hbegun : reader.begun = some answered.length := hfollows.begun
      refine hfollows.reject (fun _ heq => by cases heq) rfl ?_ rfl hright.2
      simp only [hbegun, hfollows.unsettled, Bool.false_eq_true, ↓reduceIte]
      exact ⟨_, rfl⟩

/-- A result line is refused, or settles the file begun, or its body is not read at all. -/
theorem result_cases (hfollows : Follows python count answered awaiting reader) (body : String) :
    awaiting = false ∧ (∃ problem, reader.result python body = .error (.analyserError problem)) ∨
      awaiting = true ∧
        (Unread python answered.length body ∧
            reader.result python body = .error (.uncaught reader.lineNo) ∨
          ¬ Unread python answered.length body ∧ ∃ next, reader.result python body = .ok next ∧
            Follows python count (answered ++ [some body]) false next) := by
  unfold Reader.result
  cases awaiting with
  | false =>
    refine .inl ⟨rfl, ?_⟩
    rw [hfollows.begun]
    rcases answered with _ | ⟨first, rest⟩
    · exact ⟨_, rfl⟩
    · simp [hfollows.settled]
  -- The body is read by `json.loads`, then checked, and what is refused is echoed.
  | true =>
    have hbegun : reader.begun = some answered.length := hfollows.begun
    have hfits : answered.length + 1 ≤ count := hfollows.fits
    refine .inr ⟨rfl, ?_⟩
    simp only [hbegun, hfollows.unsettled, Bool.false_eq_true, ↓reduceIte]
    cases hloads : python.loads body with
    | failed => exact .inl ⟨.inl hloads, rfl⟩
    | notJson =>
      have hread : ¬ Unread python answered.length body := by simp [Unread, hloads]
      refine .inr ⟨hread, _, rfl, hfollows.reject ?_ rfl ⟨_, rfl⟩ rfl hfits⟩
      intro _ heq
      rw [← Option.some.inj heq]
      refine ⟨hread, fun metadata ⟨fields, entries, hvalue, _⟩ => ?_⟩
      rw [hloads] at hvalue
      cases hvalue
    | value parsed =>
      dsimp only
      cases hresult : resultMetadata parsed answered.length with
      | ok metadata =>
        obtain ⟨fields, entries, rfl, hfields⟩ := resultMetadata_eq_ok.mp hresult
        have hwell : WellFormed python answered.length body metadata :=
          ⟨fields, entries, hloads, hfields⟩
        exact .inr ⟨hwell.read, _, rfl, hfollows.accept hwell rfl rfl rfl⟩
      | error problem =>
        dsimp only
        cases hshown : python.echo problem.found with
        -- The echo itself can fail, and then nobody catches it.
        | none => exact .inl ⟨.inr ⟨parsed, problem, hloads, hresult, hshown⟩, rfl⟩
        | some shown =>
          have hread : ¬ Unread python answered.length body := by
            simp [Unread, hloads, hresult, hshown]
          refine .inr ⟨hread, _, rfl, hfollows.reject ?_ rfl ⟨_, rfl⟩ rfl hfits⟩
          intro _ heq
          rw [← Option.some.inj heq]
          refine ⟨hread, fun metadata ⟨fields, entries, hvalue, hfields⟩ => ?_⟩
          rw [hloads, Loaded.value.injEq] at hvalue
          rw [resultMetadata_eq_ok.mpr ⟨fields, entries, hvalue, hfields⟩] at hresult
          cases hresult

theorem numbered (hfollows : Follows python count answered awaiting reader) (lineNo : Nat) :
    Follows python count answered awaiting { reader with lineNo } :=
  ⟨hfollows.begun, hfollows.fits, hfollows.metadata, hfollows.settled, hfollows.apart,
    hfollows.size, hfollows.readable⟩

theorem done_iff (hfollows : Follows python count answered awaiting reader) :
    reader.done count = true ↔ answered.length = count := by
  have hfits := hfollows.fits
  rw [Reader.done, decide_eq_true_eq, hfollows.size]
  omega

/-- One line of output, while a file is left: the reader refuses it, does not read its body at
all, or moves in order. -/
theorem read_cases (hfollows : Follows python count answered awaiting reader) (line : String) :
    (∃ problem, reader.read python count line = .error (.analyserError problem)) ∨
      (∃ body, parseLine line = some (.result body) ∧ awaiting = true ∧
        Unread python answered.length body ∧
        reader.read python count line = .error (.uncaught (reader.lineNo + 1))) ∨
      ∃ next behind waits, reader.read python count line = .ok next ∧
        Follows python count behind waits next ∧
        ∀ messages, Orderly messages answered awaiting →
          Orderly (messages ++ (parseLine line).toList) behind waits := by
  have hnumbered := hfollows.numbered (reader.lineNo + 1)
  unfold Reader.read
  dsimp only
  cases parseLine line with
  | none =>
    refine .inr (.inr ⟨_, _, _, rfl, hnumbered, fun messages horderly => ?_⟩)
    simpa using horderly
  | some message =>
    cases message with
    | begin_ body =>
      rcases hnumbered.begin_cases body with ⟨-, hrefused⟩ | ⟨rfl, next, hnext, hbehind⟩
      · exact .inl hrefused
      · refine .inr (.inr ⟨next, _, true, hnext, hbehind, fun messages horderly => ?_⟩)
        cases awaiting
        · exact horderly.begun
        · exact horderly.passed
    | result body =>
      rcases hnumbered.result_cases body with
        ⟨-, hrefused⟩ | ⟨rfl, ⟨hfailed, huncaught⟩ | ⟨hread, next, hnext, hbehind⟩⟩
      · exact .inl hrefused
      · exact .inr (.inl ⟨body, rfl, rfl, hfailed, huncaught⟩)
      · exact .inr (.inr ⟨next, _, false, hnext, hbehind, fun _ horderly => horderly.answered body⟩)

end Follows

theorem follows_start (python : Python) (count : Nat) : Follows python count [] false {} where
  begun := rfl
  fits := Nat.zero_le _
  metadata := by simp
  settled := by simp [Reader.settled]
  apart := by simp
  size := rfl
  readable _ _ hbody := by simp at hbody

/-! ## A whole output -/

variable (python count) in
/-- A result line that comes in order, with a body on which the reading fails with an error that
is not caught. -/
def Escapes (lines : List String) : Prop :=
  ∃ before line after answered body, lines = before ++ line :: after ∧
    Orderly (before.filterMap parseLine) answered true ∧ answered.length < count ∧
    AllRead python answered ∧
    parseLine line = some (.result body) ∧ Unread python answered.length body

/-- Lines read from where the reader stands: it refuses one, one escapes, or it stops behind some
files, with every line read or no file left. -/
theorem run_cases {lines : List String} :
    ∀ {reader answered awaiting} (read : List String),
      Follows python count answered awaiting reader →
        Orderly (read.filterMap parseLine) answered awaiting →
      (∃ problem, reader.run python count lines = .error (.analyserError problem)) ∨
        Escapes python count (read ++ lines) ∨
        ∃ final behind waits consumed, reader.run python count lines = .ok final ∧
          Follows python count behind waits final ∧ consumed <+: lines ∧
          (consumed = lines ∨ behind.length = count) ∧
          Orderly ((read ++ consumed).filterMap parseLine) behind waits := by
  induction lines with
  | nil =>
      intro reader answered awaiting read hfollows horderly
      refine .inr (.inr ⟨reader, answered, awaiting, [], rfl, hfollows, List.prefix_rfl, .inl rfl,
        ?_⟩)
      simpa using horderly
  | cons line rest ih =>
      intro reader answered awaiting read hfollows horderly
      rw [Reader.run]
      split
      next hdone =>
        refine .inr (.inr ⟨reader, answered, awaiting, [], rfl, hfollows, List.nil_prefix,
          .inr (hfollows.done_iff.mp hdone), ?_⟩)
        simpa using horderly
      next hleft =>
        have hlt : answered.length < count := by
          have hfits := hfollows.fits
          have hne := mt hfollows.done_iff.mpr hleft
          omega
        rcases hfollows.read_cases line with
          ⟨problem, hrefused⟩ | ⟨body, hline, rfl, hfailed, -⟩ |
            ⟨next, behind, waits, hnext, hbehind, hmoves⟩
        · rw [hrefused]
          exact .inl ⟨problem, rfl⟩
        · exact .inr (.inl ⟨read, line, rest, answered, body, rfl, horderly, hlt, hfollows.readable,
            hline, hfailed⟩)
        · rw [hnext]
          have hstep : Orderly ((read ++ [line]).filterMap parseLine) behind waits := by
            have hmoved := hmoves _ horderly
            cases hline : parseLine line <;> simp_all
          rcases ih (read ++ [line]) hbehind hstep with hrefused | hescapes |
            ⟨final, after, last, consumed, hrun, hafter, hconsumed, hall, hread⟩
          · exact .inl hrefused
          · exact .inr (.inl (by simpa using hescapes))
          · refine .inr (.inr ⟨final, after, last, line :: consumed, hrun, hafter,
              (List.prefix_cons_inj line).mpr hconsumed, hall.imp_left (congrArg (line :: ·)), ?_⟩)
            simpa using hread

theorem run_append (reader : Reader) (before after : List String) :
    reader.run python count (before ++ after) =
      (reader.run python count before).bind (·.run python count after) := by
  induction before generalizing reader with
  | nil => rfl
  | cons line rest ih =>
      rw [List.cons_append, Reader.run, Reader.run]
      split
      next hdone =>
        cases after with
        | nil => rfl
        | cons => rw [Except.bind, Reader.run, if_pos hdone]
      · cases reader.read python count line with
        | error => rfl
        | ok next => exact ih next

theorem run_singleton (reader : Reader) (line : String) :
    reader.run python count [line] =
      if reader.done count then .ok reader else reader.read python count line := by
  rw [Reader.run]
  cases reader.read python count line <;> rfl

/-- Lines in order lead the reader behind the files they are of. -/
theorem run_orderly {before : List String} :
    ∀ {answered awaiting}, Orderly (before.filterMap parseLine) answered awaiting →
      answered.length + awaiting.toNat ≤ count →
      AllRead python answered →
      ∃ reader, Reader.run python count {} before = .ok reader ∧
        Follows python count answered awaiting reader := by
  -- The reader goes line by line, so on the last line of what it has read.
  induction before using List.reverseRecOn with
  | nil =>
      intro answered awaiting horderly _ _
      obtain ⟨rfl, rfl⟩ := horderly.of_nil
      exact ⟨{}, rfl, follows_start python count⟩
  | append_singleton before line ih =>
      intro answered awaiting horderly hfits hreadable
      rw [List.filterMap_append] at horderly
      cases hline : parseLine line with
      -- A line that is no message only moves the line number on.
      | none =>
        have hsame : Orderly (before.filterMap parseLine) answered awaiting := by
          simpa [hline] using horderly
        obtain ⟨reader, hrun, hfollows⟩ := ih hsame hfits hreadable
        rw [run_append, hrun, Except.bind, run_singleton, Reader.read, hline]
        split
        · exact ⟨reader, rfl, hfollows⟩
        · exact ⟨_, rfl, hfollows.numbered _⟩
      | some message =>
        have hmoved : Orderly (before.filterMap parseLine ++ [message]) answered awaiting := by
          simpa [hline] using horderly
        rcases hmoved.last with
          ⟨behind, waits, hbefore, rfl, rfl, rfl⟩ | ⟨behind, body, hbefore, rfl, rfl, rfl⟩
        · have hroom : behind.length + waits.toNat < count := by
            cases waits
            · exact hfits
            · rwa [if_pos rfl, List.length_append] at hfits
          have hbehind : AllRead python behind := by
            cases waits
            · exact hreadable
            · exact ((allRead_concat python).mp hreadable).1
          obtain ⟨reader, hrun, hfollows⟩ := ih hbefore hroom.le hbehind
          have hdone : ¬ reader.done count = true := by
            rw [hfollows.done_iff]
            omega
          rw [run_append, hrun, Except.bind, run_singleton, if_neg hdone, Reader.read, hline]
          rcases (hfollows.numbered (reader.lineNo + 1)).begin_cases _ with
            ⟨hwrong, -⟩ | ⟨-, next, hnext, hafter⟩
          · exact absurd hwrong (not_or.mpr ⟨not_not.mpr rfl, not_le.mpr hroom⟩)
          · exact ⟨next, hnext, hafter⟩
        · have hroom : behind.length + true.toNat ≤ count := by simpa using hfits
          have ⟨hbehind, hlast⟩ := (allRead_concat python).mp hreadable
          obtain ⟨reader, hrun, hfollows⟩ := ih hbefore hroom hbehind
          have hdone : ¬ reader.done count = true := by
            rw [hfollows.done_iff]
            exact Nat.ne_of_lt hroom
          rw [run_append, hrun, Except.bind, run_singleton, if_neg hdone, Reader.read, hline]
          rcases (hfollows.numbered (reader.lineNo + 1)).result_cases body with
            ⟨hwaits, -⟩ | ⟨-, ⟨hfailed, -⟩ | ⟨-, next, hnext, hafter⟩⟩
          · cases hwaits
          · exact absurd hfailed (hlast body rfl)
          · exact ⟨next, hnext, hafter⟩

/-- A result line that escapes ends the reading with its error. -/
theorem Escapes.uncaught {lines : List String} (hescapes : Escapes python count lines) :
    ∃ lineNo, Reader.run python count {} lines = .error (.uncaught lineNo) := by
  obtain ⟨before, line, after, answered, body, rfl, horderly, hlt, hreadable, hline, hfailed⟩ :=
    hescapes
  obtain ⟨reader, hrun, hfollows⟩ := run_orderly horderly hlt hreadable
  have hdone : ¬ reader.done count = true := by
    rw [hfollows.done_iff]
    exact hlt.ne
  rw [run_append, hrun, Except.bind, Reader.run, if_neg hdone, Reader.read, hline]
  rcases (hfollows.numbered (reader.lineNo + 1)).result_cases body with
    ⟨hwaits, -⟩ | ⟨-, ⟨-, huncaught⟩ | ⟨hread, -⟩⟩
  · cases hwaits
  · dsimp only
    rw [huncaught]
    exact ⟨_, rfl⟩
  · exact absurd hfailed hread

/-! ## The batch -/

variable (python count) in
/-- The outcome of a batch that was read safely: the files behind the reader have settled, each
with the metadata of its one well-formed result line or rejected, the one begun stalls, and the
cue run resumes behind them. -/
def ReadSafely (lines : List String) (analysis : BatchAnalysis) : Prop :=
  ∃ (consumed : List String) (answered : List (Option String)) (awaiting : Bool),
    consumed <+: lines ∧
    (consumed = lines ∨ answered.length = count) ∧
    (consumed.filterMap parseLine = transcript answered ++
      if awaiting then [.begin_ (toString answered.length)] else []) ∧
    (∀ index, ¬ ((analysis.metadata index).isSome ∧ (analysis.rejected index).isSome)) ∧
    (∀ index, (analysis.metadata index).isSome ∨ (analysis.rejected index).isSome ↔
      index < answered.length) ∧
    analysis.stalled = (if awaiting then some answered.length else none) ∧
    (∀ index metadata, analysis.metadata index = some metadata ↔
      ∃ body, answered[index]? = some (some body) ∧ WellFormed python index body metadata) ∧
    stalledAt count analysis = if answered.length < count then some answered.length else none

/-- The cue run resumes at the first file that has not settled. -/
theorem stalledAt_eq {analysis : BatchAnalysis} {settled : Nat} (hfits : settled ≤ count)
    (hsettled : ∀ index, (analysis.metadata index).isSome ∨ (analysis.rejected index).isSome ↔
      index < settled)
    (hstalled : ∀ index, analysis.stalled = some index → index = settled) :
    stalledAt count analysis = if settled < count then some settled else none := by
  have hopen : ∀ index, (decide (analysis.stalled = some index ∨
      (analysis.metadata index).isNone ∧ (analysis.rejected index).isNone) = true) ↔
      settled ≤ index := by
    intro index
    have hindex := hsettled index
    rw [decide_eq_true_eq, ← Option.not_isSome, ← Option.not_isSome, Bool.not_eq_true',
      Bool.not_eq_true', ← Bool.not_eq_true, ← Bool.not_eq_true, ← not_or, hindex, not_lt]
    exact or_iff_right_of_imp fun hstall => (hstalled index hstall).ge
  unfold stalledAt
  split
  next hlt =>
    rw [List.find?_range_eq_some]
    refine ⟨(hopen settled).mpr (Nat.le_refl _), List.mem_range.mpr hlt, fun index hindex => ?_⟩
    rw [Bool.not_eq_true', ← Bool.not_eq_true, hopen]
    exact not_le.mpr hindex
  next hge =>
    rw [List.find?_range_eq_none]
    intro index hindex
    rw [Bool.not_eq_true', ← Bool.not_eq_true, hopen]
    omega

/-- The outcome kept where the reader stopped. -/
theorem Follows.read_safely (hfollows : Follows python count answered awaiting reader)
    {begun : Nat} (hbegun : reader.begun = some begun) {lines consumed : List String}
    (hconsumed : consumed <+: lines) (hall : consumed = lines ∨ answered.length = count)
    (hread : consumed.filterMap parseLine = transcript answered ++
      if awaiting then [.begin_ (toString answered.length)] else []) :
    ReadSafely python count lines {
      metadata := reader.metadata.get?
      stalled := if reader.settled begun then none else some begun
      rejected := reader.rejected.get? } := by
  have hstalled : (if reader.settled begun then none else some begun) =
      if awaiting then some answered.length else none := by
    have hplace := hfollows.begun
    rw [hbegun] at hplace
    cases awaiting with
    | true =>
      obtain rfl := Option.some.inj hplace
      rw [hfollows.unsettled]
      rfl
    | false =>
      rcases answered with _ | ⟨first, rest⟩
      · cases hplace
      · obtain rfl : begun = rest.length := Option.some.inj hplace
        rw [if_pos ((hfollows.settled _).mpr (Nat.lt_succ_self _))]
        rfl
  have hsettled : ∀ index, (reader.metadata.get? index).isSome ∨
      (reader.rejected.get? index).isSome ↔ index < answered.length := by
    intro index
    rw [← hfollows.settled, Reader.settled, Bool.or_eq_true]
  refine ⟨consumed, answered, awaiting, hconsumed, hall, hread, fun index hboth =>
    hfollows.apart index hboth.1 hboth.2, hsettled, hstalled, hfollows.metadata, ?_⟩
  refine stalledAt_eq ((Nat.le_add_right _ _).trans hfollows.fits) hsettled fun index hindex => ?_
  rw [hstalled] at hindex
  split at hindex
  · exact (Option.some.inj hindex).symm
  · cases hindex

/-- A batch ends with the error it documents or is read safely, exactly if no result line that
comes in order has a body that cannot be read, or a wrong value in it that cannot be shown. -/
theorem analyseBatch_reads_safely (python : Python) (count : Nat) (output : Option (List String)) :
    ((∃ problem, analyseBatch python count output = .error (.analyserError problem)) ∨
        ∃ analysis, analyseBatch python count output = .ok analysis ∧
          ReadSafely python count (output.getD []) analysis) ↔
      ¬ Escapes python count (output.getD []) := by
  unfold analyseBatch
  split
  next hzero =>
    subst hzero
    refine iff_of_true (.inr ⟨{}, rfl, [], [], false, List.nil_prefix, .inr rfl, rfl, ?_⟩) ?_
    · simp [stalledAt]
    · rintro ⟨_, _, _, _, _, _, _, hlt, _⟩
      exact Nat.not_lt_zero _ hlt
  next hcount =>
    cases output with
    | none =>
      refine iff_of_true (.inl ⟨_, rfl⟩) ?_
      rintro ⟨before, line, after, _, _, hlines, _⟩
      simp at hlines
    | some lines =>
      dsimp only [Option.getD_some]
      constructor
      · intro hends hescapes
        obtain ⟨lineNo, hrun⟩ := hescapes.uncaught
        rw [hrun] at hends
        simp at hends
      · intro hescapes
        -- The output is out of order, or an error escapes, or the reader follows it to its end.
        rcases run_cases [] (follows_start python count) .start with
          ⟨problem, hrun⟩ | hescapes' |
            ⟨reader, answered, awaiting, consumed, hrun, hfollows, hconsumed, hall, hread⟩
        · rw [hrun]
          exact .inl ⟨problem, rfl⟩
        · exact absurd hescapes' hescapes
        · rw [hrun]
          dsimp only
          cases hbegun : reader.begun with
          | none => exact .inl ⟨_, rfl⟩
          | some begun =>
            refine .inr ⟨_, rfl, hfollows.read_safely hbegun hconsumed hall ?_⟩
            simpa using hread.messages_eq

end

/-- A number of more digits than an integer may be read from. -/
def longNumber : String := String.ofList (List.replicate 4301 '9')

def longNumberPython : Python where
  loads body := if body = longNumber then .failed else .notJson
  echo _ := some ""
  echoText := id

def longNumberLines : List String := [BEGIN ++ " " ++ "0", RESULT ++ " " ++ longNumber]

theorem longNumberLines_escape : Escapes longNumberPython 1 longNumberLines := by
  have hread : Orderly ([BEGIN ++ " " ++ "0"].filterMap parseLine) [] true := by
    rw [List.filterMap_cons_some (parseLine_begin "0")]
    exact .begun .start
  have hfailed : Unread longNumberPython 0 longNumber := .inl (by
    simp only [longNumberPython, ↓reduceIte])
  exact ⟨[BEGIN ++ " " ++ "0"], RESULT ++ " " ++ longNumber, [], [], longNumber, rfl, hread,
    Nat.one_pos, fun _ _ hbody => by simp at hbody, parseLine_result longNumber, hfailed⟩

theorem analyseBatch_longNumber :
    ¬ ((∃ problem, analyseBatch longNumberPython 1 (some longNumberLines) =
          .error (.analyserError problem)) ∨
        ∃ analysis, analyseBatch longNumberPython 1 (some longNumberLines) = .ok analysis ∧
          ReadSafely longNumberPython 1 longNumberLines analysis) := by
  obtain ⟨lineNo, hrun⟩ := longNumberLines_escape.uncaught
  rw [analyseBatch, if_neg Nat.one_ne_zero, hrun]
  rintro (⟨_, hended⟩ | ⟨_, hended, _⟩)
  · cases hended
  · cases hended

end RetroStation.Cues
