import Mathlib.Logic.Function.Iterate
import RetroStation.Audio.MpegFrames

/-! # The budget of a scan

The loops of the scan, one candidate or one frame at a time. Each goes forward, and each test of
a candidate spends one unit of the budget; the scan ends with the duration.
-/

namespace RetroStation.Audio

open Bytes

/-- Where the scan is: among the candidates before `last`, at a frame to count, or done. -/
inductive ScanPlace
  | finding (start last : Nat) (first : Option Frame)
  | counting (pos : Nat) (first : Frame)
  | done (duration : Option Rat)

/-- The scan's place, what it has counted, what is left of its budget and the candidates that
were tested as frame pairs. -/
structure Scan where
  place : ScanPlace
  samples : Nat := 0
  remaining : Nat := SYNC_BUDGET
  tested : List Nat := []

section

variable (data : ByteString) (stop : Nat)

def finish (first : Frame) (samples : Nat) : Option Rat :=
  if samples = 0 then none else some (samples / first.sampleRate)

/-- What a search that found nothing says. -/
def unfound (first : Option Frame) (samples remaining : Nat) : Option Rat :=
  match first with
  | none => none
  | some first => if remaining = 0 then none else finish first samples

/-- Where a frame pair leads: the first one of the scan must carry no length header. -/
def foundAt (candidate : Nat) (first : Option Frame) : ScanPlace :=
  match first with
  | some first => .counting candidate first
  | none =>
    match parseFrame data candidate with
    | none => .done none
    | some first =>
      if carriesLengthHeader data candidate first then .done none else .counting candidate first

/-- One turn of the loop that the scan is in. -/
def scanStep (scan : Scan) : Scan :=
  match scan.place with
  | .done _ => scan
  | .finding start last first =>
    match findSync data start last with
    | none => { scan with place := .done (unfound first scan.samples scan.remaining) }
    | some candidate =>
      if scan.remaining = 0 then { scan with place := .done none }
      else {
        scan with
        remaining := scan.remaining - 1
        tested := scan.tested ++ [candidate]
        place :=
          if (framePairAt data candidate stop first).isSome then foundAt data candidate first
          else .finding (candidate + 1) last first }
  | .counting pos first =>
    if pos < stop then
      match (parseFrame data pos).filter (·.continues first) with
      | none => { scan with
          place := .finding (pos + 1) (min stop (pos + 1 + RESYNC_WINDOW)) (some first) }
      | some frame =>
        if pos + frame.length > stop then { scan with place := .done (finish first scan.samples) }
        else { scan with
          samples := scan.samples + frame.samples
          place := .counting (pos + frame.length) first }
    else { scan with place := .done (finish first scan.samples) }

/-- A scan of the audio between two bounds. -/
def startScan (start : Nat) : Scan where
  place := .finding start (min stop (start + FIRST_SYNC_WINDOW)) none

/-- Some turns lead from one scan to another. -/
def Leads (scan next : Scan) : Prop := ∃ turns, (scanStep data stop)^[turns] scan = next

variable {data stop} {scan middle next : Scan}

theorem Leads.refl (scan : Scan) : Leads data stop scan scan := ⟨0, rfl⟩

theorem Leads.trans (hfirst : Leads data stop scan middle) (hsecond : Leads data stop middle next) :
    Leads data stop scan next := by
  obtain ⟨first, rfl⟩ := hfirst
  obtain ⟨second, rfl⟩ := hsecond
  exact ⟨second + first, Function.iterate_add_apply _ _ _ _⟩

theorem Leads.step (hrest : Leads data stop (scanStep data stop scan) next) :
    Leads data stop scan next :=
  Leads.trans ⟨1, rfl⟩ hrest

/-! ## One turn -/

/-- A turn goes forward: past the last candidate or frame, and a test of a candidate spends
some of the budget. -/
def Forward (before after : Scan) : Prop :=
  match before.place, after.place with
  | .finding start _ _, .finding next _ _ => start < next ∧ after.remaining < before.remaining
  | .finding start _ _, .counting pos _ => start ≤ pos ∧ after.remaining < before.remaining
  | .counting pos _, .finding start _ _ => pos < start
  | .counting pos _, .counting next _ => pos < next
  | .done _, _ => after = before
  | _, .done _ => True

theorem scanStep_forward (scan : Scan) : Forward scan (scanStep data stop scan) := by
  obtain ⟨place, samples, remaining, tested⟩ := scan
  cases place with
  | done duration => rfl
  | finding start last first =>
    unfold scanStep
    dsimp only
    split
    · trivial
    next candidate hfound =>
      have hge := findSync_ge hfound
      split
      · trivial
      next hleft =>
        have hspent : remaining - 1 < remaining := Nat.sub_one_lt hleft
        split
        · unfold foundAt
          cases first with
          | some first => exact ⟨hge, hspent⟩
          | none =>
            dsimp only
            split
            · trivial
            · split
              · trivial
              · exact ⟨hge, hspent⟩
        · exact ⟨Nat.lt_succ_of_le hge, hspent⟩
  | counting pos first =>
    unfold scanStep
    dsimp only
    split
    · split
      · exact Nat.lt_succ_self pos
      next frame _ =>
        split
        · trivial
        · have hlength := frame.header_lt_length
          change pos < pos + frame.length
          omega
    · trivial

/-- What is left and what was tested make up the budget. -/
theorem scanStep_budget (scan : Scan) :
    (scanStep data stop scan).tested.length + (scanStep data stop scan).remaining =
      scan.tested.length + scan.remaining := by
  unfold scanStep
  split
  · rfl
  · split
    · rfl
    · split
      · rfl
      next hleft =>
        dsimp only
        rw [List.length_append, List.length_singleton]
        omega
  · split
    · split
      · rfl
      · split <;> rfl
    · rfl

theorem iterate_budget (turns : Nat) (scan : Scan) :
    ((scanStep data stop)^[turns] scan).tested.length +
        ((scanStep data stop)^[turns] scan).remaining =
      scan.tested.length + scan.remaining := by
  induction turns with
  | zero => rfl
  | succ turns ih => rw [Function.iterate_succ_apply', scanStep_budget, ih]

/-- Nothing follows the end of a scan. -/
theorem iterate_done {duration : Option Rat} (hdone : scan.place = .done duration) (turns : Nat) :
    (scanStep data stop)^[turns] scan = scan := by
  have hstep : scanStep data stop scan = scan := by
    unfold scanStep
    rw [hdone]
  exact Function.iterate_fixed hstep turns

/-! ## The loops -/

/-- The search's loop leads to what the search finds. -/
theorem search_leads (last : Nat) (first : Option Frame) (samples remaining : Nat) :
    ∀ (start : Nat) (tested : List Nat), ∃ more,
      Leads data stop ⟨.finding start last first, samples, remaining, tested⟩ {
        place := match (searchSync data last stop first remaining start).1 with
          | some candidate => foundAt data candidate first
          | none => .done (unfound first samples
              (searchSync data last stop first remaining start).2)
        samples
        remaining := (searchSync data last stop first remaining start).2
        tested := more } := by
  induction remaining with
  | zero =>
      intro start tested
      refine ⟨tested, Leads.step ?_⟩
      have hnone : unfound first samples 0 = none := by cases first <;> rfl
      rw [searchSync, scanStep]
      dsimp only
      rw [hnone]
      split <;> exact Leads.refl _
  | succ remaining ih =>
      intro start tested
      rw [searchSync]
      cases hfound : findSync data start last with
      | none =>
        refine ⟨tested, Leads.step ?_⟩
        rw [scanStep]
        dsimp only
        rw [hfound]
        exact Leads.refl _
      | some candidate =>
        dsimp only
        by_cases hpair : (framePairAt data candidate stop first).isSome = true
        · refine ⟨tested ++ [candidate], Leads.step ?_⟩
          rw [scanStep, if_pos hpair]
          dsimp only
          rw [hfound]
          dsimp only
          rw [if_neg (Nat.succ_ne_zero _), if_pos hpair]
          exact Leads.refl _
        · rw [if_neg hpair]
          obtain ⟨more, hmore⟩ := ih (candidate + 1) (tested ++ [candidate])
          refine ⟨more, Leads.step ?_⟩
          rw [scanStep]
          dsimp only
          rw [hfound]
          dsimp only
          rw [if_neg (Nat.succ_ne_zero _), if_neg hpair]
          exact hmore

/-- The counting loop leads to the end of the scan, with the duration of what it counts. -/
theorem counting_leads (first : Frame) (fuel : Nat) :
    ∀ {pos : Nat}, stop - pos ≤ fuel → ∀ (samples remaining : Nat) (tested : List Nat),
      ∃ next : Scan, next.place =
          .done ((totalSamples data stop first pos remaining samples).bind (finish first)) ∧
        Leads data stop ⟨.counting pos first, samples, remaining, tested⟩ next := by
  have hdone : ∀ {pos : Nat}, stop ≤ pos → ∀ (samples remaining : Nat) (tested : List Nat),
      ∃ next : Scan, next.place =
          .done ((totalSamples data stop first pos remaining samples).bind (finish first)) ∧
        Leads data stop ⟨.counting pos first, samples, remaining, tested⟩ next := by
    intro pos hpast samples remaining tested
    refine ⟨_, ?_, Leads.step (Leads.refl _)⟩
    rw [totalSamples_done _ _ hpast, scanStep]
    dsimp only
    rw [if_neg (Nat.not_lt.mpr hpast)]
    rfl
  -- On the bytes still to scan: every turn goes at least one byte forward.
  induction fuel with
  | zero =>
      intro pos hfuel
      exact hdone (by omega)
  | succ fuel ih =>
      intro pos hfuel samples remaining tested
      by_cases hmore : pos < stop
      · cases hframe : (parseFrame data pos).filter (·.continues first) with
        | none =>
          have hturn : scanStep data stop ⟨.counting pos first, samples, remaining, tested⟩ =
              ⟨.finding (pos + 1) (min stop (pos + 1 + RESYNC_WINDOW)) (some first), samples,
                remaining, tested⟩ := by
            rw [scanStep]
            dsimp only
            rw [if_pos hmore, hframe]
          obtain ⟨more, hsearch⟩ := search_leads (min stop (pos + 1 + RESYNC_WINDOW)) (some first)
            samples remaining (pos + 1) tested
          rw [← hturn] at hsearch
          rw [totalSamples_resync _ _ hmore hframe, sync]
          cases hfound : searchSync data (min stop (pos + 1 + RESYNC_WINDOW)) stop (some first)
              remaining (pos + 1) with
          | mk found left =>
            rw [hfound] at hsearch
            cases found with
            | none =>
              refine ⟨_, ?_, hsearch.step⟩
              dsimp only [unfound]
              split <;> rfl
            | some resynced =>
              have hge : pos + 1 ≤ resynced := searchSync_ge (congrArg Prod.fst hfound)
              obtain ⟨next, hnext, hleads⟩ := ih (show stop - resynced ≤ fuel by omega) samples left
                more
              exact ⟨next, hnext, hsearch.step.trans hleads⟩
        | some frame =>
          have hlength := frame.header_lt_length
          rw [totalSamples_frame _ _ hmore hframe]
          -- A frame that runs past the end is the last one, and is not counted.
          by_cases hcut : pos + frame.length > stop
          · refine ⟨_, ?_, Leads.step (Leads.refl _)⟩
            rw [if_pos hcut, scanStep]
            dsimp only
            rw [if_pos hmore, hframe]
            dsimp only
            rw [if_pos hcut]
            rfl
          · obtain ⟨next, hnext, hleads⟩ := ih (show stop - (pos + frame.length) ≤ fuel by omega)
              (samples + frame.samples) remaining tested
            refine ⟨next, by rw [if_neg hcut, hnext], Leads.step ?_⟩
            rw [scanStep]
            dsimp only
            rw [if_pos hmore, hframe]
            dsimp only
            rw [if_neg hcut]
            exact hleads
      · exact hdone (Nat.not_lt.mp hmore) samples remaining tested

/-- The scan ends with the duration. -/
theorem scan_leads (data : ByteString) (start stop : Nat) : ∃ next : Scan,
    next.place = .done (durationWithin data start stop) ∧
      Leads data stop (startScan stop start) next := by
  obtain ⟨more, hsearch⟩ := @search_leads data stop
    (min stop (start + FIRST_SYNC_WINDOW)) none 0 SYNC_BUDGET start []
  unfold durationWithin sync
  cases hfound : searchSync data (min stop (start + FIRST_SYNC_WINDOW)) stop none SYNC_BUDGET
      start with
  | mk found left =>
    rw [hfound] at hsearch
    cases found with
    | none => exact ⟨_, rfl, hsearch⟩
    | some pos =>
      dsimp only [foundAt] at hsearch ⊢
      cases hframe : parseFrame data pos with
      | none =>
        rw [hframe] at hsearch
        exact ⟨_, rfl, hsearch⟩
      | some first =>
        rw [hframe] at hsearch
        dsimp only at hsearch ⊢
        by_cases hheader : carriesLengthHeader data pos first = true
        · rw [if_pos hheader] at hsearch ⊢
          exact ⟨_, rfl, hsearch⟩
        · rw [if_neg hheader] at hsearch ⊢
          obtain ⟨next, hnext, hleads⟩ :=
            counting_leads first _ (Nat.le_refl (stop - pos)) 0 left more
          refine ⟨next, ?_, hsearch.trans hleads⟩
          rw [hnext]
          cases totalSamples data stop first pos left 0 <;> rfl

end

/-- The scan of a file after some turns. -/
def scanAfter (data : ByteString) (turns : Nat) : Scan :=
  (scanStep data (audioBounds data).2)^[turns] (startScan (audioBounds data).2 (audioBounds data).1)

section

variable {data : ByteString} {first second : Option Rat} {turns others : Nat}

theorem scanAfter_succ (data : ByteString) (turns : Nat) :
    scanAfter data (turns + 1) = scanStep data (audioBounds data).2 (scanAfter data turns) :=
  Function.iterate_succ_apply' _ _ _

/-- A scan ends once. -/
theorem scanAfter_done (hfirst : (scanAfter data turns).place = .done first)
    (hsecond : (scanAfter data others).place = .done second) : first = second := by
  have hstays : ∀ {turns others : Nat} {duration : Option Rat}, turns ≤ others →
      (scanAfter data turns).place = .done duration →
      scanAfter data others = scanAfter data turns := by
    intro turns others duration hle hdone
    obtain ⟨more, rfl⟩ := Nat.exists_eq_add_of_le' hle
    rw [scanAfter, Function.iterate_add_apply]
    exact iterate_done hdone more
  rcases Nat.le_total turns others with hle | hle
  · rw [hstays hle hfirst, hfirst] at hsecond
    exact ScanPlace.done.inj hsecond
  · rw [hstays hle hsecond, hsecond] at hfirst
    exact (ScanPlace.done.inj hfirst).symm

/-- A search left without budget ends the scan with nothing. -/
theorem scanStep_spent {stop start last : Nat} {frame : Option Frame} {scan : Scan}
    (hplace : scan.place = .finding start last frame) (hspent : scan.remaining = 0) :
    (scanStep data stop scan).place = .done none := by
  unfold scanStep
  rw [hplace]
  dsimp only
  split
  · rw [hspent]
    cases frame <;> rfl
  · rw [if_pos hspent]

end

/-- The scan of a file ends with its duration after some turns, each of which goes forward; a
frame has some length; at every turn what was tested is within the budget; and a search that is
left without budget means no duration. -/
theorem headerlessDuration_within_budget (data : ByteString) :
    (∀ pos frame, parseFrame data pos = some frame → 0 < frame.length) ∧
      (∀ turns, Forward (scanAfter data turns) (scanAfter data (turns + 1))) ∧
      (∃ turns, (scanAfter data turns).place = .done (headerlessDuration data)) ∧
      (∀ turns, (scanAfter data turns).tested.length + (scanAfter data turns).remaining =
        SYNC_BUDGET) ∧
      ∀ turns start last first, (scanAfter data turns).place = .finding start last first →
        (scanAfter data turns).remaining = 0 → headerlessDuration data = none := by
  -- The scan as a machine ends where the recursive reading of the source returns.
  have hends : ∃ turns, (scanAfter data turns).place = .done (headerlessDuration data) := by
    obtain ⟨next, hnext, turns, hturns⟩ :=
      scan_leads data (audioBounds data).1 (audioBounds data).2
    exact ⟨turns, by rw [scanAfter, hturns, hnext, headerlessDuration]⟩
  refine ⟨fun pos frame _ => (Nat.zero_lt_succ _).trans frame.header_lt_length, fun turns => ?_,
    hends, fun turns => ?_, fun turns start last first hplace hspent => ?_⟩
  · rw [scanAfter_succ]
    exact scanStep_forward _
  · rw [scanAfter, iterate_budget]
    exact Nat.zero_add SYNC_BUDGET
  · obtain ⟨ended, hended⟩ := hends
    have hstep : (scanAfter data (turns + 1)).place = .done none := by
      rw [scanAfter_succ]
      exact scanStep_spent hplace hspent
    exact scanAfter_done hended hstep

/-- A header of MPEG 1, Layer III, at 32 kbit/s. -/
def loneHeader : ByteString := [0xFF, 0xFB, 0x10, 0x00]

theorem headerlessDuration_within_budget_lone :
    (∃ frame, parseFrame loneHeader 0 = some frame ∧ 0 < frame.length) ∧
      ∃ turns, (scanAfter loneHeader turns).place = .done (headerlessDuration loneHeader) := by
  obtain ⟨hlength, -, hends, -⟩ := headerlessDuration_within_budget loneHeader
  refine ⟨?_, hends⟩
  have hparsed : (parseFrame loneHeader 0).isSome = true := by decide +kernel
  obtain ⟨frame, hframe⟩ := Option.isSome_iff_exists.mp hparsed
  exact ⟨frame, hframe, hlength 0 frame hframe⟩

end RetroStation.Audio
