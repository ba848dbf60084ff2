import Mathlib.Logic.Function.Basic
import RetroStation.Transition.Run

/-! # Transactions on one locked record

Transactions work on a record and on the rows that belong to it, statement by statement
and in any interleaving. A statement sees what is committed when it starts and what its
own transaction wrote. Whoever writes or locks the record, or deletes a row, holds it to
the end of the transaction. Headline results: `serial_run` (transactions that take the
record before they touch the rows are as if each had run at its commit) and
`committed_held`.
-/

namespace Locking

/-- A record with the rows that belong to it. -/
structure View (Record Row : Type) where
  record : Record
  rows : List Row

/-- A transaction's statements. What it does after one depends on what that one found. -/
inductive Program (Record Row : Type)
  | finished
  /-- Raises, which rolls the transaction back. -/
  | refused
  | selectForUpdate (rest : Record → Program Record Row)
  /-- An UPDATE of the record where a condition holds of it; whether it did. -/
  | updateWhere (holds : Record → Bool) (change : Record → Record)
      (rest : Bool → Program Record Row)
  | selectRows (rest : List Row → Program Record Row)
  | deleteRows (rest : Program Record Row)
  | insertRow (row : Row) (rest : Program Record Row)

namespace Program

variable {Record Row : Type}

/-- What the program makes of a view alone. -/
def exec : Program Record Row → View Record Row → Option (View Record Row)
  | .finished, view => some view
  | .refused, _ => none
  | .selectForUpdate rest, view => (rest view.record).exec view
  | .updateWhere holds change rest, view =>
    if holds view.record then (rest true).exec { view with record := change view.record }
    else (rest false).exec view
  | .selectRows rest, view => (rest view.rows).exec view
  | .deleteRows rest, view => rest.exec { view with rows := [] }
  | .insertRow row rest, view => rest.exec { view with rows := view.rows ++ [row] }

/-- The program's first statement takes the record, or the program ends with it. -/
def LocksFirst : Program Record Row → Prop
  | .finished | .refused | .selectForUpdate _ => True
  | .updateWhere holds _ rest => ∀ record, holds record = false → rest false = .finished
  | .selectRows _ | .deleteRows _ | .insertRow _ _ => False

/-- The program's first statement takes the record, whatever it finds. -/
def AlwaysLocks : Program Record Row → Prop
  | .selectForUpdate _ => True
  | .updateWhere holds _ _ => ∀ record, holds record = true
  | _ => False

end Program

/-- A transaction is known by a number. -/
abbrev Tx := Nat

/-- A transaction under way: what is left of it, and what it wrote that nobody else sees. -/
structure Session (Request Record Row : Type) where
  request : Request
  rest : Program Record Row
  written : Option Record := none
  deleted : List Nat := []
  inserted : List (Nat × Row) := []

/-- What is committed, who holds the record and which rows, and the transactions under way.
Rows have keys, as a row is deleted and not its content. -/
structure Store (Request Record Row : Type) where
  record : Record
  rows : List (Nat × Row)
  nextKey : Nat
  holder : Option Tx := none
  rowHolder : Nat → Option Tx := fun _ => none
  sessions : Tx → Option (Session Request Record Row) := fun _ => none

inductive Action (Request : Type)
  | start (tx : Tx) (request : Request)
  | statement (tx : Tx)
  | commit (tx : Tx)
  | rollback (tx : Tx)

section

variable {Request Record Row : Type}

namespace Session

variable (session : Session Request Record Row) (store : Store Request Record Row)

/-- The rows that the transaction sees, with their keys. -/
def keyedRows : List (Nat × Row) :=
  (store.rows.filter fun row => row.1 ∉ session.deleted) ++ session.inserted

/-- What the transaction sees. -/
def view : View Record Row where
  record := session.written.getD store.record
  rows := (session.keyedRows store).map Prod.snd

end Session

namespace Store

variable (store : Store Request Record Row)

/-- What is committed. -/
def view : View Record Row := ⟨store.record, store.rows.map Prod.snd⟩

def heldByOther (tx : Tx) : Bool := store.holder.any (· ≠ tx)

def put (tx : Tx) (session : Session Request Record Row) : Store Request Record Row :=
  { store with sessions := Function.update store.sessions tx (some session) }

/-- The transaction's end gives up what it held. -/
def release (tx : Tx) : Store Request Record Row :=
  { store with
    holder := if store.holder = some tx then none else store.holder
    rowHolder := fun key => if store.rowHolder key = some tx then none else store.rowHolder key
    sessions := Function.update store.sessions tx none }

/-- The transaction's next statement; `none` is one that waits. -/
def statement (tx : Tx) (session : Session Request Record Row) :
    Option (Store Request Record Row) :=
  let seen := session.view store
  match session.rest with
  | .finished | .refused => none
  | .selectForUpdate rest =>
    if store.heldByOther tx then none
    else some { store.put tx { session with rest := rest seen.record } with holder := some tx }
  | .updateWhere holds change rest =>
    -- A record that does not qualify is neither written nor waited for.
    if !holds seen.record then some (store.put tx { session with rest := rest false })
    else if store.heldByOther tx then none
    else some { store.put tx {
      session with written := some (change seen.record), rest := rest true } with
        holder := some tx }
  | .selectRows rest => some (store.put tx { session with rest := rest seen.rows })
  | .deleteRows rest =>
    let keys := (session.keyedRows store).map Prod.fst
    if keys.any fun key => (store.rowHolder key).any (· ≠ tx) then none
    else some { store.put tx {
      session with deleted := session.deleted ++ keys, inserted := [], rest := rest } with
        rowHolder := fun key => if key ∈ keys then some tx else store.rowHolder key }
  | .insertRow row rest =>
    some { store.put tx {
      session with inserted := session.inserted ++ [(store.nextKey, row)], rest := rest } with
        nextKey := store.nextKey + 1 }

def commit (tx : Tx) (session : Session Request Record Row) : Store Request Record Row :=
  { store.release tx with
    record := session.written.getD store.record
    rows := session.keyedRows store }

/-- No transaction is under way. -/
def Idle : Prop := store.holder = none ∧ ∀ tx, store.sessions tx = none

end Store

/-- One statement, or the start or the end of a transaction, at a time. A commit gives its
request, and whether the transaction held the record. -/
def machine (program : Request → Program Record Row) :
    Transition.Machine (Store Request Record Row) (Action Request) (Option (Request × Bool)) where
  step store
    | .start tx request =>
      if (store.sessions tx).isSome then none
      else some (store.put tx { request := request, rest := program request }, none)
    | .statement tx =>
      (store.sessions tx).bind fun session => (store.statement tx session).map (·, none)
    | .commit tx =>
      (store.sessions tx).bind fun session =>
        match session.rest with
        | .finished =>
          some (store.commit tx session, some (session.request, store.holder = some tx))
        | _ => none
    | .rollback tx => (store.sessions tx).map fun _ => (store.release tx, none)

variable {program : Request → Program Record Row} {store next : Store Request Record Row} {tx : Tx}
  {session : Session Request Record Row}

/-- The requests of the transactions that held the record, one after another. -/
def replay (program : Request → Program Record Row) (view : View Record Row)
    (requests : List Request) : Option (View Record Row) :=
  requests.foldlM (fun view request => (program request).exec view) view

/-- The request of a commit that held the record. -/
def effective : Option (Request × Bool) → Option Request
  | some (request, true) => some request
  | _ => none

/-! ## What a transaction under way is -/

/-- The holder is as far as its request alone would be; any other transaction has written
nothing and is at its first statement, or past one that found nothing to take. -/
structure SessionOk (program : Request → Program Record Row) (store : Store Request Record Row)
    (tx : Tx) (session : Session Request Record Row) : Prop where
  holds : store.holder = some tx →
    session.rest.exec (session.view store) = (program session.request).exec store.view
  bare : store.holder ≠ some tx →
    session.written = none ∧ session.deleted = [] ∧ session.inserted = []
  first : store.holder ≠ some tx → session.rest = program session.request ∨
    session.rest = .finished ∧ ¬ (program session.request).AlwaysLocks

def StoreOk (program : Request → Program Record Row) (store : Store Request Record Row) : Prop :=
  ∀ tx session, store.sessions tx = some session → SessionOk program store tx session

theorem keyedRows_bare (hdeleted : session.deleted = []) (hinserted : session.inserted = []) :
    session.keyedRows store = store.rows := by
  simp [Session.keyedRows, hdeleted, hinserted]

theorem SessionOk.view_eq (hok : SessionOk program store tx session)
    (hother : store.holder ≠ some tx) : session.view store = store.view := by
  obtain ⟨hwritten, hdeleted, hinserted⟩ := hok.bare hother
  simp [Session.view, Store.view, keyedRows_bare hdeleted hinserted, hwritten]

theorem heldByOther_eq_false : store.heldByOther tx = false ↔
    store.holder = none ∨ store.holder = some tx := by
  unfold Store.heldByOther
  cases store.holder with
  | none => simp
  | some holder => simp

/-- A transaction that goes on is as far as its request alone would be. -/
theorem SessionOk.simulates (hok : SessionOk program store tx session)
    (hgoing : session.rest ≠ .finished) :
    session.rest.exec (session.view store) = (program session.request).exec store.view := by
  by_cases hholder : store.holder = some tx
  · exact hok.holds hholder
  · rcases hok.first hholder with hfirst | ⟨hfinished, -⟩
    · rw [hok.view_eq hholder, hfirst]
    · exact absurd hfinished hgoing

/-- Only the holder is past its first statement. -/
theorem SessionOk.holder_of_past (hlocks : (program session.request).LocksFirst)
    (hok : SessionOk program store tx session) (hpast : ¬ session.rest.LocksFirst) :
    store.holder = some tx := by
  by_contra hother
  rcases hok.first hother with hfirst | ⟨hfinished, -⟩
  · exact hpast (hfirst ▸ hlocks)
  · exact hpast (hfinished ▸ trivial)

/-- What a step that leaves the committed alone asks of the transactions that it passes by. -/
theorem SessionOk.pass (hok : SessionOk program store tx session)
    (hrecord : next.record = store.record) (hrows : next.rows = store.rows)
    (hholder : next.holder = some tx ↔ store.holder = some tx) :
    SessionOk program next tx session := by
  have hseen : session.view next = session.view store := by
    simp [Session.view, Session.keyedRows, hrecord, hrows]
  have hview : next.view = store.view := by simp [Store.view, hrecord, hrows]
  refine ⟨fun hthis => ?_, fun hother => hok.bare (mt hholder.mpr hother),
    fun hother => hok.first (mt hholder.mpr hother)⟩
  rw [hseen, hview]
  exact hok.holds (hholder.mp hthis)

theorem StoreOk.put (hok : StoreOk program store)
    (hsessions : next.sessions = Function.update store.sessions tx (some session))
    (hrecord : next.record = store.record) (hrows : next.rows = store.rows)
    (hholder : ∀ other, other ≠ tx → (next.holder = some other ↔ store.holder = some other))
    (hnew : SessionOk program next tx session) : StoreOk program next := by
  intro other found hfound
  rw [hsessions] at hfound
  by_cases hsame : other = tx
  · subst hsame
    rw [Function.update_self] at hfound
    obtain rfl := Option.some.inj hfound
    exact hnew
  · rw [Function.update_of_ne hsame] at hfound
    exact (hok other found hfound).pass hrecord hrows (hholder other hsame)

/-! ## One statement -/

/-- A transaction that takes the record, or has it, comes as far as its request alone. -/
theorem SessionOk.taken (store : Store Request Record Row) (session : Session Request Record Row)
    {later : Session Request Record Row} (hrequest : later.request = session.request)
    (hholder : next.holder = some tx) (hview : next.view = store.view)
    (hexec : later.rest.exec (later.view next) = session.rest.exec (session.view store))
    (hbefore : session.rest.exec (session.view store) = (program session.request).exec store.view) :
    SessionOk program next tx later := by
  refine ⟨fun _ => ?_, fun hother => absurd hholder hother, fun hother => absurd hholder hother⟩
  rw [hexec, hbefore, hrequest, hview]

theorem holder_iff_of_free (hfree : store.heldByOther tx = false) (hholder : next.holder = some tx)
    (other : Tx) (hne : other ≠ tx) : next.holder = some other ↔ store.holder = some other := by
  have hnext : next.holder ≠ some other := by
    rw [hholder]
    exact fun hsame => hne (Option.some.inj hsame).symm
  refine iff_of_false hnext fun hstored => ?_
  rcases heldByOther_eq_false.mp hfree with hnone | hthis
  · rw [hstored] at hnone
    cases hnone
  · exact hne (Option.some.inj (hstored.symm.trans hthis))

/-- Once what it saw is deleted, the transaction sees no row. -/
theorem view_deleted {later : Session Request Record Row} (hrecord : next.record = store.record)
    (hrows : next.rows = store.rows) (hwritten : later.written = session.written)
    (hdeleted : later.deleted = session.deleted ++ (session.keyedRows store).map Prod.fst)
    (hinserted : later.inserted = []) :
      later.view next = { session.view store with rows := [] } := by
  have hnone : later.keyedRows next = [] := by
    rw [Session.keyedRows, hrows, hdeleted, hinserted, List.append_nil, List.filter_eq_nil_iff]
    intro row hrow hkept
    have hkept := of_decide_eq_true hkept
    rw [List.mem_append, not_or] at hkept
    refine hkept.2 (List.mem_map_of_mem (List.mem_append_left _ ?_))
    exact List.mem_filter.mpr ⟨hrow, decide_eq_true hkept.1⟩
  simp only [Session.view, hnone, hrecord, hwritten, List.map_nil]

theorem statement_ok (hlocks : ∀ request, (program request).LocksFirst)
    (hok : StoreOk program store) (hsession : store.sessions tx = some session)
    (hstatement : store.statement tx session = some next) :
    StoreOk program next ∧ next.view = store.view := by
  have hthis := hok tx session hsession
  unfold Store.statement at hstatement
  dsimp only at hstatement
  split at hstatement
  next => cases hstatement
  next => cases hstatement
  next rest hrest =>
    split at hstatement
    · cases hstatement
    next hfree =>
      obtain rfl := Option.some.inj hstatement
      rw [Bool.not_eq_true] at hfree
      refine ⟨hok.put rfl rfl rfl (holder_iff_of_free hfree rfl) ?_, rfl⟩
      refine .taken store session rfl rfl rfl ?_ (hthis.simulates (by simp [hrest]))
      rw [hrest]
      rfl
  -- A statement that matches no row takes no lock, so a request without one is at its first.
  next holds change rest hrest =>
    split at hstatement
    next hmissed =>
      obtain rfl := Option.some.inj hstatement
      rw [Bool.not_eq_true'] at hmissed
      refine ⟨hok.put rfl rfl rfl (fun _ _ => Iff.rfl) ⟨fun hholder => ?_, fun hother =>
        hthis.bare hother,
        fun hother => .inr ?_⟩, rfl⟩
      · refine Eq.trans ?_ (hthis.holds hholder)
        rw [hrest, Program.exec, if_neg (by simp [hmissed])]
        rfl
      · have hfirst : session.rest = program session.request := by
          rcases hthis.first hother with hfirst | ⟨hfinished, -⟩
          · exact hfirst
          · rw [hrest] at hfinished
            cases hfinished
        have hends := hlocks session.request
        rw [← hfirst, hrest] at hends ⊢
        refine ⟨hends _ hmissed, fun halways => ?_⟩
        rw [halways] at hmissed
        cases hmissed
    next hqualifies =>
      split at hstatement
      · cases hstatement
      next hfree =>
        obtain rfl := Option.some.inj hstatement
        rw [Bool.not_eq_true] at hfree
        refine ⟨hok.put rfl rfl rfl (holder_iff_of_free hfree rfl) ?_, rfl⟩
        refine .taken store session rfl rfl rfl ?_ (hthis.simulates (by simp [hrest]))
        rw [hrest, Program.exec, if_pos (by simpa using hqualifies)]
        rfl
  next rest hrest =>
    have hholder := hthis.holder_of_past (hlocks _) (by simp [hrest, Program.LocksFirst])
    obtain rfl := Option.some.inj hstatement
    refine ⟨hok.put rfl rfl rfl (fun _ _ => Iff.rfl) ?_, rfl⟩
    refine .taken store session rfl hholder rfl ?_ (hthis.holds hholder)
    rw [hrest]
    rfl
  next rest hrest =>
    -- Past its first statement a request holds the row, so no other writes in between.
    have hholder := hthis.holder_of_past (hlocks _) (by simp [hrest, Program.LocksFirst])
    split at hstatement
    · cases hstatement
    · obtain rfl := Option.some.inj hstatement
      refine ⟨hok.put rfl rfl rfl (fun _ _ => Iff.rfl) ?_, rfl⟩
      refine .taken store session rfl hholder rfl ?_ (hthis.holds hholder)
      rw [hrest, Program.exec]
      exact congrArg rest.exec (view_deleted rfl rfl rfl rfl rfl)
  next row rest hrest =>
    have hholder := hthis.holder_of_past (hlocks _) (by simp [hrest, Program.LocksFirst])
    obtain rfl := Option.some.inj hstatement
    refine ⟨hok.put rfl rfl rfl (fun _ _ => Iff.rfl) ?_, rfl⟩
    refine .taken store session rfl hholder rfl ?_ (hthis.holds hholder)
    rw [hrest, Program.exec]
    congr 1
    simp [Session.view, Session.keyedRows, Store.put]

/-! ## The end of a transaction -/

/-- Whoever ends leaves the others as they were, if they do not hold the record or nothing
is written. -/
theorem StoreOk.release (hok : StoreOk program store)
    (hsessions : next.sessions = Function.update store.sessions tx none)
    (hholder : next.holder = if store.holder = some tx then none else store.holder)
    (hsame : store.holder ≠ some tx → next.record = store.record ∧ next.rows = store.rows) :
    StoreOk program next := by
  intro other found hfound
  rw [hsessions] at hfound
  have hne : other ≠ tx := by
    rintro rfl
    simp at hfound
  rw [Function.update_of_ne hne] at hfound
  have hthis := hok other found hfound
  by_cases hheld : store.holder = some tx
  · have hother : store.holder ≠ some other := by
      rw [hheld]
      exact fun hsame => hne (Option.some.inj hsame).symm
    rw [if_pos hheld] at hholder
    refine ⟨fun hthis => ?_, fun _ => hthis.bare hother, fun _ => hthis.first hother⟩
    rw [hholder] at hthis
    cases hthis
  · rw [if_neg hheld] at hholder
    exact hthis.pass (hsame hheld).1 (hsame hheld).2 (by rw [hholder])

/-- A commit makes of what was committed what its request alone makes of it, if it held the
record, and nothing otherwise. -/
theorem commit_ok (hok : StoreOk program store) (hsession : store.sessions tx = some session)
    (hfinished : session.rest = .finished) :
    StoreOk program (store.commit tx session) ∧
      if store.holder = some tx then
        (program session.request).exec store.view = some (store.commit tx session).view
      else (store.commit tx session).view = store.view := by
  have hthis := hok tx session hsession
  refine ⟨hok.release rfl rfl fun hother => ?_, ?_⟩
  · obtain ⟨hwritten, hdeleted, hinserted⟩ := hthis.bare hother
    exact ⟨by simp [Store.commit, hwritten], keyedRows_bare hdeleted hinserted⟩
  · split
    next hholder => rw [← hthis.holds hholder, hfinished]; rfl
    next hother => exact hthis.view_eq hother

theorem step_ok (hlocks : ∀ request, (program request).LocksFirst) {action : Action Request}
    {output : Option (Request × Bool)} (hok : StoreOk program store)
    (hstep : (machine program).step store action = some (next, output)) :
    StoreOk program next ∧ (effective output).elim (some store.view)
      (fun request => (program request).exec store.view) = some next.view := by
  cases action with
  | start tx request =>
      simp only [machine] at hstep
      split at hstep
      · cases hstep
      next hnew =>
        obtain ⟨rfl, rfl⟩ := Prod.mk.inj (Option.some.inj hstep)
        refine ⟨hok.put rfl rfl rfl (fun _ _ => Iff.rfl) ⟨fun _ => ?_, fun _ => ⟨rfl, rfl, rfl⟩,
          fun _ => .inl rfl⟩, rfl⟩
        congr 1
        simp [Session.view, Store.view, Session.keyedRows, Store.put]
  | statement tx =>
      obtain ⟨session, hsession, hstep⟩ := Option.bind_eq_some_iff.mp hstep
      obtain ⟨later, hstatement, heq⟩ := Option.map_eq_some_iff.mp hstep
      obtain ⟨rfl, rfl⟩ := Prod.mk.inj heq
      obtain ⟨hlater, hview⟩ := statement_ok hlocks hok hsession hstatement
      exact ⟨hlater, congrArg some hview.symm⟩
  | commit tx =>
      obtain ⟨session, hsession, hstep⟩ := Option.bind_eq_some_iff.mp hstep
      split at hstep
      next hfinished =>
        obtain ⟨rfl, rfl⟩ := Prod.mk.inj (Option.some.inj hstep)
        obtain ⟨hlater, hview⟩ := commit_ok hok hsession hfinished
        refine ⟨hlater, ?_⟩
        split at hview
        next hholder => simpa [effective, hholder] using hview
        next hother => simpa [effective, hother] using hview.symm
      · cases hstep
  | rollback tx =>
      obtain ⟨session, hsession, heq⟩ := Option.map_eq_some_iff.mp hstep
      obtain ⟨rfl, rfl⟩ := Prod.mk.inj heq
      exact ⟨hok.release rfl rfl fun _ => ⟨rfl, rfl⟩, rfl⟩

/-! ## Every run -/

theorem Store.Idle.ok (hidle : store.Idle) : StoreOk program store := by
  intro tx session hsession
  rw [hidle.2 tx] at hsession
  cases hsession

/-- In whatever order their statements interleave, the transactions that held the record are
as if each had run alone, at its commit. -/
theorem serial_run (hlocks : ∀ request, (program request).LocksFirst) {start last :
      Store Request Record Row} {trace : List (Action Request × Option (Request × Bool))}
    (hidle : start.Idle) (hrun : (machine program).Run start trace last) :
    replay program start.view (trace.filterMap fun entry => effective entry.2) =
      some last.view := by
  induction hrun with
  | nil => rfl
  | @snoc trace state next action output hrun hstep ih =>
      have hstate : StoreOk program state := hrun.invariant
        (fun _ _ _ _ hok hstep => (step_ok hlocks hok hstep).1) hidle.ok
      have hview := (step_ok hlocks hstate hstep).2
      unfold replay at ih ⊢
      rw [List.filterMap_append, List.foldlM_append, ih, Option.bind_eq_bind, Option.bind_some]
      cases heffect : effective output with
      | none =>
          rw [heffect] at hview
          simpa [heffect] using hview
      | some request =>
          rw [heffect] at hview
          simpa [heffect] using hview

/-- Whoever always takes the record holds it at its commit. -/
theorem committed_held (hlocks : ∀ request, (program request).LocksFirst) {start last :
      Store Request Record Row} {trace : List (Action Request × Option (Request × Bool))}
    (hidle : start.Idle) (hrun : (machine program).Run start trace last) {action : Action Request}
    {request : Request} {held : Bool} (hentry : (action, some (request, held)) ∈ trace)
    (halways : (program request).AlwaysLocks) : held = true := by
  induction hrun with
  | nil => cases hentry
  | @snoc trace state next final output hrun hstep ih =>
      rcases List.mem_append.mp hentry with hearlier | hlast
      · exact ih hearlier
      obtain ⟨rfl, rfl⟩ := Prod.mk.inj (List.mem_singleton.mp hlast)
      have hstate : StoreOk program state := hrun.invariant
        (fun _ _ _ _ hok hstep => (step_ok hlocks hok hstep).1) hidle.ok
      cases action with
      | start tx other =>
          simp only [machine] at hstep
          split at hstep
          · cases hstep
          · cases (Prod.mk.inj (Option.some.inj hstep)).2
      | statement tx =>
          obtain ⟨session, hsession, hstep⟩ := Option.bind_eq_some_iff.mp hstep
          obtain ⟨later, hstatement, heq⟩ := Option.map_eq_some_iff.mp hstep
          cases (Prod.mk.inj heq).2
      | commit tx =>
          obtain ⟨session, hsession, hstep⟩ := Option.bind_eq_some_iff.mp hstep
          split at hstep
          next hfinished =>
            obtain ⟨rfl, hcommitted⟩ := Prod.mk.inj (Option.some.inj hstep)
            obtain ⟨rfl, rfl⟩ := Prod.mk.inj (Option.some.inj hcommitted)
            by_contra hother
            rcases (hstate tx session hsession).first (by simpa using hother) with
              hfirst | ⟨-, hnever⟩
            · rw [← hfirst, hfinished] at halways
              exact halways
            · exact hnever halways
          · cases hstep
      | rollback tx =>
          obtain ⟨session, hsession, heq⟩ := Option.map_eq_some_iff.mp hstep
          cases (Prod.mk.inj heq).2

/-- A replay passes through each of its requests. -/
theorem replay_split {view last : View Record Row} {before after : List Request}
    {request : Request} (hreplay : replay program view (before ++ request :: after) = some last) :
    ∃ found left, (program request).exec found = some left ∧
      replay program left after = some last := by
  unfold replay at hreplay
  rw [List.foldlM_append] at hreplay
  obtain ⟨found, -, hrest⟩ := Option.bind_eq_some_iff.mp hreplay
  rw [List.foldlM_cons] at hrest
  obtain ⟨left, hexec, hafter⟩ := Option.bind_eq_some_iff.mp hrest
  exact ⟨found, left, hexec, hafter⟩

/-- What each request keeps, a replay of them keeps. -/
theorem replay_invariant {good : View Record Row → Prop} {view last : View Record Row}
    {requests : List Request}
    (hkeep : ∀ request ∈ requests, ∀ found left, good found →
      (program request).exec found = some left → good left)
    (hreplay : replay program view requests = some last) (hview : good view) : good last := by
  induction requests generalizing view with
  | nil =>
      obtain rfl := Option.some.inj hreplay
      exact hview
  | cons request rest ih =>
      rw [replay, List.foldlM_cons] at hreplay
      obtain ⟨left, hexec, hrest⟩ := Option.bind_eq_some_iff.mp hreplay
      exact ih (fun later hlater => hkeep later (List.mem_cons_of_mem _ hlater)) hrest
        (hkeep request List.mem_cons_self view left hview hexec)

end

end Locking
