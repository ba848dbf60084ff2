import RetroStation.Streaming.StoredLiners
import Mathlib.Data.List.Perm.Lattice

/-! # The rotation over a session

What is left of an order is never a liner already played from it. While the library
stays the same set, the rest of the order is played and then whole shuffles of the
library, one after another.
-/

namespace RetroStation.Streaming

theorem swapEnds_perm (ids : List Uuid) : (swapEnds ids).Perm ids := by
  unfold swapEnds
  split
  · exact .refl _
  · exact .refl _
  next first second rest =>
    have htail : (second :: rest).dropLast ++ [(second :: rest).getLast (by simp)] =
        second :: rest := List.dropLast_append_getLast _
    have hswapped :
        ((second :: rest).getLast (by simp) :: ((second :: rest).dropLast ++ [first])).Perm
        (first :: ((second :: rest).dropLast ++ [(second :: rest).getLast (by simp)])) := by
      refine ((List.Perm.cons _ (List.perm_append_comm)).trans ?_)
      refine (List.Perm.swap _ _ _).trans (.cons _ ?_)
      exact List.perm_append_singleton _ _ |>.symm
    rwa [htail] at hswapped

/-- The ends of a list without repeats are two liners. -/
theorem head?_swapEnds {ids : List Uuid} (hids : ids.Nodup) (hlong : 1 < ids.length) :
    (swapEnds ids).head? ≠ ids.head? := by
  match ids, hids, hlong with
  | first :: second :: rest, hids, _ =>
      have hlast : (second :: rest).getLast (by simp) ∈ second :: rest := List.getLast_mem _
      intro hhead
      obtain rfl : (second :: rest).getLast (by simp) = first := by
        simpa [swapEnds] using hhead
      exact (List.nodup_cons.mp hids).1 hlast

/-! ## One pick -/

/-- Nothing left to play twice, and not the liner played last. -/
structure LinerRotation.Ok (rotation : LinerRotation) : Prop where
  nodup : rotation.order.Nodup
  last : ∀ last, rotation.last = some last → last ∉ rotation.order

/-- The liners of the order that the library still has. -/
def LinerRotation.left (rotation : LinerRotation) (ids : List Uuid) : List Uuid :=
  rotation.order.filter (· ∈ ids)

/-- A library that can be read: each liner once, and a shuffle that only reorders. -/
structure LinerRead.Valid (read : LinerRead) : Prop where
  nodup : read.ids.Nodup
  shuffle : (read.shuffle read.ids).Perm read.ids

/-- What one pick does to the rotation. -/
structure Pick (read : LinerRead) (rotation : LinerRotation) (picked : Uuid)
    (later : LinerRotation) : Prop where
  ok : later.Ok
  last : later.last = some picked
  mem : picked ∈ read.ids
  goesOn : rotation.left read.ids = picked :: later.order ∨
    rotation.left read.ids = [] ∧ (picked :: later.order).Perm read.ids
  again : rotation.last = some picked → read.ids = [picked]

section

variable {read : LinerRead} {rotation later : LinerRotation} {picked : Uuid}

theorem pick_of_order (hnodup : (picked :: later.order).Nodup) (hlast : later.last = some picked) :
    later.Ok := by
  obtain ⟨hpicked, hrest⟩ := List.nodup_cons.mp hnodup
  refine ⟨hrest, fun last heq => ?_⟩
  rw [hlast] at heq
  obtain rfl := Option.some.inj heq
  exact hpicked

/-- The first liner of an order is picked, and the rest of it is left. -/
def LinerRotation.pickFirst (rotation : LinerRotation) (order : List Uuid) :
    Option Uuid × LinerRotation :=
  match order with
  | [] => (none, ⟨[], rotation.last⟩)
  | picked :: rest => (some picked, ⟨rest, some picked⟩)

/-- The order a pick is taken from: what is left of the last one, else a new shuffle
that does not start with the liner played last. -/
theorem next_order (rotation : LinerRotation) (hread : read.Valid) :
    ∃ order, read.next rotation = rotation.pickFirst order ∧
      (order ≠ [] ∧ rotation.left read.ids = order ∨
        rotation.left read.ids = [] ∧ order.Perm read.ids ∧
          (order.head? = rotation.last → order.length ≤ 1)) := by
  have hshuffle : (read.shuffle read.ids).Nodup := hread.shuffle.nodup_iff.mpr hread.nodup
  by_cases hleft : rotation.left read.ids = []
  · by_cases hids : read.ids = []
    · refine ⟨[], ?_, .inr ⟨hleft, by rw [hids], by simp⟩⟩
      simp [LinerRead.next, nextLiner, hids, LinerRotation.pickFirst]
    · refine ⟨if (read.shuffle read.ids).length > 1 && (read.shuffle read.ids).head? = rotation.last
        then swapEnds (read.shuffle read.ids) else read.shuffle read.ids, ?_, .inr ⟨hleft, ?_, ?_⟩⟩
      · simp only [LinerRotation.left] at hleft
        simp only [LinerRead.next, nextLiner, hleft, List.isEmpty_nil, Bool.true_and,
          Bool.not_eq_true', List.isEmpty_eq_false_iff, ne_eq, hids, not_false_eq_true, if_true]
        rfl
      · split
        · exact (swapEnds_perm _).trans hread.shuffle
        · exact hread.shuffle
      · split
        next hswap =>
          simp only [Bool.and_eq_true, decide_eq_true_eq] at hswap
          exact fun hhead => absurd (hhead.trans hswap.2.symm) (head?_swapEnds hshuffle hswap.1)
        next hswap =>
          intro hhead
          by_contra hlong
          exact hswap (by simpa [hhead] using hlong)
  · refine ⟨rotation.left read.ids, ?_, .inl ⟨hleft, rfl⟩⟩
    simp only [LinerRotation.left] at hleft
    simp only [LinerRead.next, nextLiner, LinerRotation.left, List.isEmpty_iff, hleft,
      Bool.and_eq_true, false_and, if_false]
    rfl

/-- The next liner is what is left of the order, else the first of a new shuffle. -/
theorem pick_of_next (hrotation : rotation.Ok) (hread : read.Valid)
    (hnext : read.next rotation = (some picked, later)) : Pick read rotation picked later := by
  obtain ⟨order, horder, hfrom⟩ := next_order rotation hread
  rw [horder] at hnext
  cases order with
  | nil => cases hnext
  | cons first rest =>
      cases hnext
      rcases hfrom with ⟨-, hleft⟩ | ⟨hleft, hshuffled, hagain⟩
      · have hnodup : (picked :: rest).Nodup := hleft ▸ hrotation.nodup.filter _
        have hmem : picked ∈ rotation.left read.ids := hleft ▸ List.mem_cons_self
        simp only [LinerRotation.left, List.mem_filter, decide_eq_true_eq] at hmem
        refine ⟨pick_of_order hnodup rfl, rfl, hmem.2, .inl hleft, fun hlast => ?_⟩
        exact absurd hmem.1 (hrotation.last picked hlast)
      · refine ⟨pick_of_order (hshuffled.nodup_iff.mpr hread.nodup) rfl, rfl,
          hshuffled.subset List.mem_cons_self, .inr ⟨hleft, hshuffled⟩, fun hlast => ?_⟩
        have hshort := hagain hlast.symm
        obtain rfl : rest = [] := by
          rw [List.length_cons] at hshort
          exact List.eq_nil_of_length_eq_zero (by omega)
        exact List.perm_singleton.mp hshuffled.symm

theorem next_ok (hrotation : rotation.Ok) (hread : read.Valid) : (read.next rotation).2.Ok := by
  cases hnext : read.next rotation with
  | mk picked later =>
      cases picked with
      | some picked => exact (pick_of_next hrotation hread hnext).ok
      | none =>
          obtain ⟨order, horder, -⟩ := next_order rotation hread
          rw [hnext] at horder
          cases order with
          | nil =>
              cases horder
              exact ⟨List.nodup_nil, by simp⟩
          | cons => cases horder

/-- A library with a liner always has one to play. -/
theorem next_isSome (rotation : LinerRotation) (hread : read.Valid) (hids : read.ids ≠ []) :
    ∃ picked later, read.next rotation = (some picked, later) := by
  obtain ⟨order, horder, hfrom⟩ := next_order rotation hread
  cases order with
  | nil =>
      rcases hfrom with ⟨hne, -⟩ | ⟨-, hshuffled, -⟩
      · exact absurd rfl hne
      · exact absurd (List.nil_perm.mp hshuffled) hids
  | cons picked rest => exact ⟨picked, _, horder⟩

/-- What is left of the order is played without looking at the shuffle. -/
theorem next_of_left {rest : List Uuid} (hleft : rotation.left read.ids = picked :: rest) :
    read.next rotation = (some picked, ⟨rest, some picked⟩) := by
  simp only [LinerRotation.left] at hleft
  simp [LinerRead.next, nextLiner, hleft]

end

/-! ## A pick for each library -/

namespace LinerRead

/-- What the rotation picks from each library, one after another. -/
def picks (rotation : LinerRotation) : List LinerRead → List (Option Uuid)
  | [] => []
  | read :: rest => (read.next rotation).1 :: picks (read.next rotation).2 rest

/-- The rotation after a pick for each library. -/
def rotate (rotation : LinerRotation) : List LinerRead → LinerRotation
  | [] => rotation
  | read :: rest => rotate (read.next rotation).2 rest

@[simp] theorem picks_append (rotation : LinerRotation) (first second : List LinerRead) :
    picks rotation (first ++ second) = picks rotation first ++
      picks (rotate rotation first) second := by
  induction first generalizing rotation with
  | nil => rfl
  | cons read rest ih => simp [picks, rotate, ih]

@[simp] theorem rotate_append (rotation : LinerRotation) (first second : List LinerRead) :
    rotate rotation (first ++ second) = rotate (rotate rotation first) second := by
  induction first generalizing rotation with
  | nil => rfl
  | cons read rest ih => exact ih _

@[simp] theorem length_picks (rotation : LinerRotation) (reads : List LinerRead) :
    (picks rotation reads).length = reads.length := by
  induction reads generalizing rotation with
  | nil => rfl
  | cons read rest ih => simp [picks, ih]

end LinerRead

section

variable {rotation : LinerRotation} {ids : List Uuid}

/-- The library stays the same set of liners. -/
def SameSet (ids : List Uuid) (reads : List LinerRead) : Prop :=
  ∀ read ∈ reads, ∀ id, id ∈ read.ids ↔ id ∈ ids

theorem LinerRotation.left_congr {first second : List Uuid}
    (hsame : ∀ id, id ∈ first ↔ id ∈ second) : rotation.left first = rotation.left second :=
  List.filter_congr fun id _ => by simp [hsame id]

theorem LinerRotation.left_eq_order (hsubset : ∀ id ∈ rotation.order, id ∈ ids) :
    rotation.left ids = rotation.order :=
  List.filter_eq_self.mpr fun id hid => by simpa using hsubset id hid

/-- What is left of the order is played first. -/
theorem picks_left {reads : List LinerRead} (hsame : SameSet ids reads)
    (hreads : reads.length ≤ (rotation.left ids).length) :
    LinerRead.picks rotation reads = ((rotation.left ids).take reads.length).map some ∧
      (LinerRead.rotate rotation reads).left ids = (rotation.left ids).drop reads.length := by
  induction reads generalizing rotation with
  | nil => simp [LinerRead.picks, LinerRead.rotate]
  | cons read rest ih =>
      have hread := hsame read List.mem_cons_self
      cases hleft : rotation.left ids with
      | nil => simp [hleft] at hreads
      | cons picked order =>
          have hnext := next_of_left ((LinerRotation.left_congr hread).trans hleft)
          have horder : (⟨order, some picked⟩ : LinerRotation).left ids = order := by
            refine LinerRotation.left_eq_order fun id hid => ?_
            have hmem : id ∈ rotation.left ids := hleft ▸ List.mem_cons_of_mem _ hid
            simpa using List.of_mem_filter hmem
          obtain ⟨hpicks, hrotate⟩ := @ih ⟨order, some picked⟩
            (fun read hmem => hsame read (List.mem_cons_of_mem _ hmem))
            (by rw [horder]; simpa [hleft] using hreads)
          rw [horder] at hpicks hrotate
          simp [LinerRead.picks, LinerRead.rotate, hnext, hpicks, hrotate]

/-- A whole cycle plays every liner once, and leaves nothing of its order. -/
theorem picks_cycle {reads : List LinerRead} (hrotation : rotation.Ok)
    (hreads : ∀ read ∈ reads, read.Valid) (hids : ids.Nodup) (hsame : SameSet ids reads)
    (hempty : rotation.left ids = []) (hlength : reads.length = ids.length) :
    (∃ order : List Uuid, order.Perm ids ∧ LinerRead.picks rotation reads = order.map some) ∧
      (LinerRead.rotate rotation reads).left ids = [] := by
  cases reads with
  | nil =>
      have hnil : ids = [] := List.eq_nil_of_length_eq_zero hlength.symm
      exact ⟨⟨[], by rw [hnil], rfl⟩, hempty⟩
  | cons read rest =>
      have hread := hsame read List.mem_cons_self
      have hvalid := hreads read List.mem_cons_self
      have hperm : read.ids.Perm ids := (List.perm_ext_iff_of_nodup hvalid.nodup hids).mpr hread
      have hne : read.ids ≠ [] := by
        intro hnil
        rw [hnil, List.nil_perm] at hperm
        simp [hperm] at hlength
      obtain ⟨picked, later, hnext⟩ := next_isSome rotation hvalid hne
      have hpick := pick_of_next hrotation hvalid hnext
      have horder : (picked :: later.order).Perm ids := by
        rcases hpick.goesOn with hleft | ⟨-, hshuffled⟩
        · rw [LinerRotation.left_congr hread, hempty] at hleft
          cases hleft
        · exact hshuffled.trans hperm
      have hleft : later.left ids = later.order :=
        LinerRotation.left_eq_order fun id hid => horder.subset (List.mem_cons_of_mem _ hid)
      have hrest : rest.length = later.order.length := by
        have hsize := horder.length_eq
        simp only [List.length_cons] at hsize hlength
        omega
      obtain ⟨hpicks, hrotate⟩ := @picks_left later ids rest
        (fun read hmem => hsame read (List.mem_cons_of_mem _ hmem)) (by rw [hleft, hrest])
      rw [hleft, hrest] at hpicks hrotate
      refine ⟨⟨picked :: later.order, horder, ?_⟩, ?_⟩
      · simp [LinerRead.picks, hnext, hpicks]
      · simp [LinerRead.rotate, hnext, hrotate]

theorem rotate_ok {reads : List LinerRead} (hrotation : rotation.Ok)
    (hreads : ∀ read ∈ reads, read.Valid) : (LinerRead.rotate rotation reads).Ok := by
  induction reads generalizing rotation with
  | nil => exact hrotation
  | cons read rest ih =>
      exact ih (next_ok hrotation (hreads read List.mem_cons_self))
        fun read hmem => hreads read (List.mem_cons_of_mem _ hmem)

/-- With nothing left of the order, one whole cycle comes after another. -/
theorem picks_cycles {reads : List LinerRead} (hrotation : rotation.Ok)
    (hreads : ∀ read ∈ reads, read.Valid) (hids : ids.Nodup) (hsame : SameSet ids reads)
    (hempty : rotation.left ids = []) (cycle : Nat)
    (hlength : (cycle + 1) * ids.length ≤ reads.length) :
    ∃ order : List Uuid, order.Perm ids ∧
      ((LinerRead.picks rotation reads).drop (cycle * ids.length)).take ids.length =
        order.map some := by
  induction cycle generalizing rotation reads with
  | zero =>
      rw [Nat.zero_add, Nat.one_mul] at hlength
      rw [← List.take_append_drop ids.length reads] at hreads hsame ⊢
      obtain ⟨⟨order, horder, hpicks⟩, -⟩ := picks_cycle hrotation
        (fun read hmem => hreads read (List.mem_append_left _ hmem)) hids
        (fun read hmem => hsame read (List.mem_append_left _ hmem)) hempty
        (List.length_take_of_le hlength)
      refine ⟨order, horder, ?_⟩
      rw [LinerRead.picks_append, Nat.zero_mul, List.drop_zero, hpicks, List.take_left']
      rw [List.length_map, horder.length_eq]
  | succ cycle ih =>
      have hlong : ids.length ≤ reads.length :=
        (Nat.le_mul_of_pos_left _ (Nat.succ_pos _)).trans hlength
      have hrest : (cycle + 1) * ids.length ≤ (reads.drop ids.length).length := by
        rw [List.length_drop]
        rw [Nat.add_mul, Nat.one_mul] at hlength
        omega
      rw [← List.take_append_drop ids.length reads] at hreads hsame ⊢
      have hfirst : ∀ read ∈ reads.take ids.length, read.Valid :=
        fun read hmem => hreads read (List.mem_append_left _ hmem)
      obtain ⟨⟨order, horder, hpicks⟩, hrotate⟩ := picks_cycle hrotation hfirst hids
        (fun read hmem => hsame read (List.mem_append_left _ hmem)) hempty
        (List.length_take_of_le hlong)
      obtain ⟨last, hlast, hcycle⟩ := ih (rotate_ok hrotation hfirst)
        (fun read hmem => hreads read (List.mem_append_right _ hmem))
        (fun read hmem => hsame read (List.mem_append_right _ hmem)) hrotate hrest
      refine ⟨last, hlast, ?_⟩
      have hsize : (LinerRead.picks rotation (reads.take ids.length)).length = ids.length := by
        rw [LinerRead.length_picks, List.length_take_of_le hlong]
      rw [LinerRead.picks_append, Nat.add_mul, Nat.one_mul, Nat.add_comm, ← List.drop_drop,
        List.drop_left' hsize]
      exact hcycle

/-- While the library stays the same set, the rest of the order is played and then
whole shuffles of the library. -/
theorem picks_sameSet {reads : List LinerRead} (hrotation : rotation.Ok)
    (hreads : ∀ read ∈ reads, read.Valid) (hids : ids.Nodup) (hsame : SameSet ids reads) :
    (LinerRead.picks rotation reads).take (rotation.left ids).length =
        ((rotation.left ids).take reads.length).map some ∧
      ∀ cycle, (rotation.left ids).length + (cycle + 1) * ids.length ≤ reads.length →
        ∃ order : List Uuid, order.Perm ids ∧
          ((LinerRead.picks rotation reads).drop
            ((rotation.left ids).length + cycle * ids.length)).take ids.length =
              order.map some := by
  rcases Nat.le_total reads.length (rotation.left ids).length with hshort | hlong
  · obtain ⟨hpicks, -⟩ := picks_left hsame hshort
    refine ⟨?_, fun cycle hcycle => ?_⟩
    · rw [List.take_of_length_le (by simpa using hshort), hpicks]
    · have hnone : ids.length = 0 := by
        have hle : ids.length ≤ (cycle + 1) * ids.length :=
          Nat.le_mul_of_pos_left _ (Nat.succ_pos cycle)
        omega
      rw [List.eq_nil_of_length_eq_zero hnone]
      exact ⟨[], .refl _, by simp⟩
  · have hsplit := List.take_append_drop (rotation.left ids).length reads
    have hfirst : (reads.take (rotation.left ids).length).length = (rotation.left ids).length :=
      List.length_take_of_le hlong
    have hrest : (reads.drop (rotation.left ids).length).length =
        reads.length - (rotation.left ids).length := List.length_drop
    rw [← hsplit] at hreads hsame
    have hvalid : ∀ read ∈ reads.take (rotation.left ids).length, read.Valid :=
      fun read hmem => hreads read (List.mem_append_left _ hmem)
    obtain ⟨hpicks, hrotate⟩ := @picks_left rotation ids _
      (fun read hmem => hsame read (List.mem_append_left _ hmem)) hfirst.le
    rw [hfirst, List.take_length] at hpicks
    rw [hfirst, List.drop_length] at hrotate
    have hwhole : LinerRead.picks rotation reads = (rotation.left ids).map some ++
        LinerRead.picks (LinerRead.rotate rotation (reads.take (rotation.left ids).length))
          (reads.drop (rotation.left ids).length) := by
      conv_lhs => rw [← hsplit, LinerRead.picks_append, hpicks]
    refine ⟨?_, fun cycle hcycle => ?_⟩
    · rw [hwhole, List.take_left' (by simp), List.take_of_length_le hlong]
    · rw [hwhole, ← List.drop_drop, List.drop_left' (by simp)]
      exact picks_cycles (rotate_ok hrotation hvalid)
        (fun read hmem => hreads read (List.mem_append_right _ hmem)) hids
        (fun read hmem => hsame read (List.mem_append_right _ hmem)) hrotate cycle (by omega)

end

/-! ## A session's liners -/

/-- What a session's liners say of the libraries they were picked from. -/
structure Rotated (reads : List LinerRead) (slots : List LinerSlot) (rotation : LinerRotation) :
    Prop where
  picks : LinerRead.picks {} reads = slots.map fun slot => some slot.liner.linerId
  rotate : LinerRead.rotate {} reads = rotation
  last : rotation.last = slots.getLast?.map fun slot => slot.liner.linerId
  mem : ∀ (index : Nat) (slot : LinerSlot), slots[index]? = some slot →
    ∃ read : LinerRead, reads[index]? = some read ∧ slot.liner ∈ read.liners
  again : ∀ (index : Nat) (slot next : LinerSlot), slots[index]? = some slot →
    slots[index + 1]? = some next → slot.liner.linerId = next.liner.linerId →
    ∃ read : LinerRead, reads[index + 1]? = some read ∧ read.ids = [next.liner.linerId]

theorem empty_ok : ({} : LinerRotation).Ok := ⟨List.nodup_nil, by simp⟩

theorem rotated_of_rotates {config : StreamConfig} {reads : List LinerRead}
    {slots : List LinerSlot} {rotation : LinerRotation}
    (hrotates : Rotates config reads slots rotation) (hreads : ∀ read ∈ reads, read.Valid) :
    Rotated reads slots rotation := by
  induction hrotates with
  | start => exact ⟨rfl, rfl, rfl, by simp, by simp⟩
  | @stores reads slots rotation later read slot hrotates hpicked ih =>
      have hbefore : ∀ read ∈ reads, read.Valid :=
        fun read hmem => hreads read (List.mem_append_left _ hmem)
      have hread : read.Valid := hreads read (List.mem_append_right _ (List.mem_singleton_self _))
      obtain ⟨hpicks, hrotate, hlast, hmem, hagain⟩ := ih hbefore
      have hok : rotation.Ok := hrotate ▸ rotate_ok empty_ok hbefore
      have hpick := pick_of_next hok hread hpicked.next
      have hsame : reads.length = slots.length := by
        have hlength := congrArg List.length hpicks
        rwa [LinerRead.length_picks, List.length_map] at hlength
      constructor
      case picks => simp [LinerRead.picks, hpicks, hrotate, hpicked.next]
      case rotate => simp [LinerRead.rotate, hrotate, hpicked.next]
      case last => simp [hpick.last]
      case mem =>
        intro index found hfound
        rcases getElem?_append_singleton_eq_some hfound with ⟨hindex, hfound⟩ | ⟨rfl, rfl⟩
        · obtain ⟨before, hread, hliner⟩ := hmem index found hfound
          exact ⟨before, by rw [List.getElem?_append_left (by omega), hread], hliner⟩
        · exact ⟨read, by rw [← hsame]; simp, hpicked.mem⟩
      case again =>
        intro index found next hfound hnext heq
        rcases getElem?_append_singleton_eq_some hnext with ⟨hindex, hnext⟩ | ⟨hindex, rfl⟩
        · rw [List.getElem?_append_left (by omega)] at hfound
          obtain ⟨before, hread, honly⟩ := hagain index found next hfound hnext heq
          exact ⟨before, by rw [List.getElem?_append_left (by omega), hread], honly⟩
        · rw [List.getElem?_append_left (by omega)] at hfound
          have hends : slots.getLast? = some found := by
            rw [List.getLast?_eq_getElem?, ← hindex]
            exact hfound
          refine ⟨read, by rw [hindex, ← hsame]; simp, hpick.again ?_⟩
          rw [hlast, hends, Option.map_some, heq]

/-- The rotation over a whole session, however its calls overlap: its liners are one pick
for each library read by the call that stored it. A pick is in that library and repeats the
one before only if it is all there is. While the library stays the same set, what is left of
the order is played first and each cycle after it plays every liner once. -/
theorem liner_rotation {config : StreamConfig} {loadDay : DayLoader} {openedAt : Int}
    {bookmarkKey : Option BookmarkKey} {token : String} {stationId : Option Uuid}
    {linerCadence : Option LinerCadence} {trace : List (SessionAction × Reply)}
    {state : SessionState}
    (hrun : (itemMachine config loadDay).Run
      (admitted openedAt bookmarkKey token stationId linerCadence) trace state)
    (hvalid : ∀ entry ∈ trace, ∀ read, entry.1.linerRead = some read → read.Valid) :
    let slots := linersOf state.session.handedOut
    let played := slots.map fun slot => slot.liner.linerId
    ∃ reads : List LinerRead,
      (∀ index read, reads[index]? = some read → StoredAt config loadDay
        (admitted openedAt bookmarkKey token stationId linerCadence) trace slots index read) ∧
      LinerRead.picks {} reads = played.map some ∧
      LinerRead.rotate {} reads = state.session.linerRotation ∧
      (∀ (index : Nat) (slot : LinerSlot), slots[index]? = some slot →
        ∃ read : LinerRead, reads[index]? = some read ∧ slot.liner ∈ read.liners) ∧
      (∀ (index : Nat) (slot next : LinerSlot), slots[index]? = some slot →
        slots[index + 1]? = some next → slot.liner.linerId = next.liner.linerId →
        ∃ read : LinerRead, reads[index + 1]? = some read ∧ read.ids = [next.liner.linerId]) ∧
      ∀ before during after ids, reads = before ++ during ++ after → ids.Nodup →
        SameSet ids during →
        let left := (LinerRead.rotate {} before).left ids
        let stretch := (played.drop before.length).take during.length
        stretch.take left.length = left.take during.length ∧
        ∀ cycle, left.length + (cycle + 1) * ids.length ≤ during.length →
          ((stretch.drop (left.length + cycle * ids.length)).take ids.length).Perm ids := by
  intro slots played
  obtain ⟨reads, hrotates, hlength, hstored⟩ := run_rotates hrun
  have hreads : ∀ read ∈ reads, read.Valid := by
    intro read hread
    obtain ⟨index, hindex⟩ := List.mem_iff_getElem?.mp hread
    obtain ⟨before, after, action, reply, earlier, later, htrace, -, -, hfound, -, -⟩ :=
      hstored index read hindex
    exact hvalid (action, reply) (by simp [htrace]) read hfound
  obtain ⟨hpicks, hrotate, -, hmem, hagain⟩ := rotated_of_rotates hrotates hreads
  have hplayed : LinerRead.picks {} reads = played.map some := by
    rw [hpicks, List.map_map]
    rfl
  refine ⟨reads, hstored, hplayed, hrotate, hmem, hagain, ?_⟩
  intro before during after ids hsplit hids hsame left stretch
  -- The stretch is what the rotation picks, from where it stood, over the reads of one set.
  have hstretch : stretch.map some = LinerRead.picks (LinerRead.rotate {} before) during := by
    rw [List.map_take, List.map_drop, ← hplayed, hsplit, List.append_assoc,
      LinerRead.picks_append, LinerRead.picks_append, List.drop_left' (LinerRead.length_picks ..),
      List.take_left' (LinerRead.length_picks ..)]
  have hvalidBefore : ∀ read ∈ before, read.Valid :=
    fun read hread => hreads read (by simp [hsplit, hread])
  have hvalidDuring : ∀ read ∈ during, read.Valid :=
    fun read hread => hreads read (by simp [hsplit, hread])
  obtain ⟨hleft, hcycles⟩ := picks_sameSet (rotate_ok empty_ok hvalidBefore) hvalidDuring hids hsame
  have hsome : Function.Injective (List.map (some : Uuid → Option Uuid)) :=
    List.map_injective_iff.mpr fun _ _ => Option.some.inj
  refine ⟨hsome ?_, fun cycle hcycle => ?_⟩
  · rw [List.map_take, hstretch]
    exact hleft
  · obtain ⟨order, horder, hcycle⟩ := hcycles cycle hcycle
    have heq : (stretch.drop (left.length + cycle * ids.length)).take ids.length = order := by
      refine hsome ?_
      rw [List.map_take, List.map_drop, hstretch]
      exact hcycle
    rw [heq]
    exact horder

/-- Three liners picked from two. The second shuffle starts with the liner played last, so its
ends are swapped. -/
theorem liner_rotation_twoLiners : ∃ (state : SessionState) (reads : List LinerRead),
    LinerRead.picks {} reads = [some 8, some 7, some 8] ∧
      LinerRead.rotate {} reads = state.session.linerRotation ∧
      (((linersOf state.session.handedOut).map fun slot => slot.liner.linerId).take 2).Perm
        [7, 8] := by
  obtain ⟨trace, state, hrun, hactions, hliners, -⟩ := rotation_run
  have hread : ∀ entry ∈ trace, ∀ read, entry.1.linerRead = some read →
      read.liners = [jingle, ident] ∧ (read.shuffle = List.reverse ∨ read.shuffle = id) := by
    intro entry hentry read hread
    have haction : entry.1 ∈ rotationActions := hactions ▸ List.mem_map_of_mem hentry
    generalize entry.1 = action at haction hread
    simp only [rotationActions, linerAndSong, List.cons_append, List.nil_append, List.mem_cons,
      List.not_mem_nil, or_false] at haction
    rcases haction with rfl | rfl | rfl | rfl | rfl | rfl | rfl | rfl | rfl | rfl | rfl | rfl |
      rfl | rfl | rfl | rfl | rfl | rfl | rfl | rfl | rfl | rfl <;>
      simp [SessionAction.linerRead] at hread <;> subst hread <;> simp
  have hvalid : ∀ entry ∈ trace, ∀ read, entry.1.linerRead = some read → read.Valid := by
    intro entry hentry read hlinerRead
    obtain ⟨hlibrary, hshuffle⟩ := hread entry hentry read hlinerRead
    refine ⟨by simp [LinerRead.ids, hlibrary, jingle, ident], ?_⟩
    rcases hshuffle with hshuffle | hshuffle
    · rw [hshuffle]
      exact List.reverse_perm _
    · rw [hshuffle]
      exact .refl _
  obtain ⟨reads, hstored, hpicks, hrotate, -, -, hcycles⟩ := liner_rotation hrun hvalid
  have hids : ∀ read ∈ reads, read.ids = [7, 8] := by
    intro read hmem
    obtain ⟨index, hindex⟩ := List.mem_iff_getElem?.mp hmem
    obtain ⟨before, after, action, reply, earlier, later, htrace, -, -, hfound, -, -⟩ :=
      hstored index read hindex
    obtain ⟨hlibrary, -⟩ := hread (action, reply) (by simp [htrace]) read hfound
    simp [LinerRead.ids, hlibrary, jingle, ident]
  have hlength : reads.length = 3 := by
    simpa [hliners] using congrArg List.length hpicks
  have hcycle := (hcycles [] reads [] [7, 8] (by simp) (by decide)
    (fun read hmem id => by rw [hids read hmem])).2 0 (by simp [hlength, LinerRead.rotate,
      LinerRotation.left])
  refine ⟨state, reads, by rw [hpicks, hliners]; rfl, hrotate, ?_⟩
  simpa [hliners, hlength, LinerRead.rotate, LinerRotation.left] using hcycle

end RetroStation.Streaming
