import Mathlib.Data.List.MinMax
import Mathlib.Data.Prod.Lex
import Mathlib.Data.String.Basic
import RetroStation.Curation.Merging
import RetroStation.Dict.Groups
import RetroStation.Normalization.Titles

/-! # Planning the merges of duplicate works

Works of one artist whose titles are the same in the strict form are one song. Each such class
is folded into its best work.
-/

namespace RetroStation

namespace Curation

open Normalization (normalizeTitle strictNormalize)
open Text (Unicode)

/-- A work and how much refers to it. -/
structure WorkFootprint where
  id : String
  title : String
  artistId : String
  fileCount : Int := 0
  matchCount : Int := 0
  deriving DecidableEq, Repr

def dedupKey (unicode : Unicode) (footprint : WorkFootprint) : String × List Char :=
  (footprint.artistId,
    strictNormalize unicode (normalizeTitle unicode footprint.title.toList))

def SurvivalKey : Type := Bool ×ₗ Int ×ₗ Int ×ₗ Int ×ₗ String

instance : LinearOrder SurvivalKey :=
  @Prod.Lex.instLinearOrder _ _ Bool.linearOrder (@Prod.Lex.instLinearOrder _ _ Int.instLinearOrder
    (@Prod.Lex.instLinearOrder _ _ Int.instLinearOrder
      (@Prod.Lex.instLinearOrder _ _ Int.instLinearOrder inferInstance)))

/-- Least for a title without decoding scars, then for the spelling most members have, then for
the most references. -/
def survivalKey (members : List WorkFootprint) (member : WorkFootprint) :
    SurvivalKey :=
  let votes := members.countP fun other => other.title = member.title
  toLex (member.title.toList.contains '\ufffd', toLex (-(votes : Int),
    toLex (-member.fileCount, toLex (-member.matchCount, member.id))))

/-- The work whose id and title the merged work keeps. -/
def pickSurvivor (members : List WorkFootprint) : Option WorkFootprint :=
  members.argmin (survivalKey members)

def mergePlan (members : List WorkFootprint) : Option WorkMergePlan :=
  if members.length < 2 then none
  else (pickSurvivor members).map fun survivor =>
    { targetId := survivor.id
      sourceIds := ((members.filter fun member => member.id ≠ survivor.id).map
        WorkFootprint.id).insertionSort (· ≤ ·) }

/-- The duplicate works in groups, each with its survivor. A title that normalizes to nothing
matches nothing. -/
def planDuplicateMerges (unicode : Unicode) (footprints : List WorkFootprint) :
    List WorkMergePlan :=
  let groups := Dict.group (dedupKey unicode)
    (footprints.filter fun footprint => (dedupKey unicode footprint).2 ≠ [])
  (groups.values.filterMap mergePlan).insertionSort
    fun first second => first.targetId ≤ second.targetId

/-! ## Classes -/

/-- The footprints of one key. -/
def classOf (unicode : Unicode) (footprints : List WorkFootprint) (key : String × List Char) :
    List WorkFootprint :=
  footprints.filter fun footprint => dedupKey unicode footprint = key

/-- A key that two or more footprints have, whose title is not nothing. -/
def IsClass (unicode : Unicode) (footprints : List WorkFootprint) (key : String × List Char) :
    Prop :=
  key.2 ≠ [] ∧ 2 ≤ (classOf unicode footprints key).length

instance (unicode : Unicode) (footprints : List WorkFootprint) (key : String × List Char) :
    Decidable (IsClass unicode footprints key) :=
  inferInstanceAs (Decidable (_ ∧ _))

def WorkMergePlan.works (plan : WorkMergePlan) : List String := plan.targetId :: plan.sourceIds

/-- The plan folds the class of a key into its best work, by the order of survival. -/
structure Merges (unicode : Unicode) (footprints : List WorkFootprint) (key : String × List Char)
    (plan : WorkMergePlan) : Prop where
  isClass : IsClass unicode footprints key
  survivor : ∃ survivor ∈ classOf unicode footprints key, plan.targetId = survivor.id ∧
    ∀ member ∈ classOf unicode footprints key,
      survivalKey (classOf unicode footprints key) survivor ≤
        survivalKey (classOf unicode footprints key) member
  works : plan.works.Perm ((classOf unicode footprints key).map WorkFootprint.id)
  ordered : plan.sourceIds.Pairwise (· ≤ ·)

/-- One plan for each class and nothing else, each member of a class in one place of one plan. -/
structure PlansExact (unicode : Unicode) (footprints : List WorkFootprint)
    (plans : List WorkMergePlan) : Prop where
  plan : ∀ plan ∈ plans, ∃ key, Merges unicode footprints key plan
  classes : ∀ key, IsClass unicode footprints key →
    ∃ plan ∈ plans, ∀ other ∈ plans, Merges unicode footprints key other ↔ other = plan
  members : (plans.flatMap WorkMergePlan.works).Perm
    ((footprints.filter fun footprint =>
      IsClass unicode footprints (dedupKey unicode footprint)).map WorkFootprint.id)
  once : (plans.flatMap WorkMergePlan.works).Nodup

variable {unicode : Unicode} {footprints others members : List WorkFootprint}
  {key next : String × List Char} {plan other : WorkMergePlan}

theorem mem_classOf {footprint : WorkFootprint} : footprint ∈ classOf unicode footprints key ↔
    footprint ∈ footprints ∧ dedupKey unicode footprint = key := by
  simp [classOf]

theorem survivalKey_inj {first second : WorkFootprint}
    (hsame : survivalKey members first = survivalKey members second) : first.id = second.id :=
  congrArg (fun key : Bool × Int × Int × Int × String => key.2.2.2.2) hsame

/-- The plan for a class is settled by the class. -/
theorem Merges.unique (hplan : Merges unicode footprints key plan)
    (hother : Merges unicode footprints key other) : plan = other := by
  obtain ⟨survivor, hsurvivor, htarget, hbest⟩ := hplan.survivor
  obtain ⟨best, hmember, hsame, hleast⟩ := hother.survivor
  have htargets : plan.targetId = other.targetId := by
    rw [htarget, hsame]
    exact survivalKey_inj (le_antisymm (hbest best hmember) (hleast survivor hsurvivor))
  have hsources : plan.sourceIds = other.sourceIds := by
    have hworks := hplan.works.trans hother.works.symm
    rw [WorkMergePlan.works, WorkMergePlan.works, htargets] at hworks
    exact hworks.cons_inv.eq_of_pairwise' hplan.ordered hother.ordered
  cases plan
  cases other
  cases htargets
  cases hsources
  rfl

/-- A footprint is in one class only. -/
theorem Merges.key_eq (hids : (footprints.map WorkFootprint.id).Nodup)
    (hplan : Merges unicode footprints key plan) (hother : Merges unicode footprints next other)
    {id : String} (hmem : id ∈ plan.works)
    (hagain : id ∈ other.works) : key = next := by
  obtain ⟨first, hfirst, hid⟩ := List.mem_map.mp (hplan.works.subset hmem)
  obtain ⟨second, hsecond, hsame⟩ := List.mem_map.mp (hother.works.subset hagain)
  rw [mem_classOf] at hfirst hsecond
  obtain rfl := List.inj_on_of_nodup_map hids hfirst.1 hsecond.1 (hid.trans hsame.symm)
  rw [← hfirst.2, ← hsecond.2]

/-! ## The plans -/

/-- Taken out of works with ids of their own, a work leaves those with other ids. -/
theorem cons_others_perm (hids : (members.map WorkFootprint.id).Nodup) {survivor : WorkFootprint}
    (hsurvivor : survivor ∈ members) :
    (survivor.id :: (members.filter fun member => member.id ≠ survivor.id).map
      WorkFootprint.id).Perm (members.map WorkFootprint.id) := by
  have hothers : ((members.filter fun member => member.id ≠ survivor.id).map
      WorkFootprint.id).Nodup := hids.sublist (List.filter_sublist.map _)
  refine (List.perm_ext_iff_of_nodup (List.nodup_cons.mpr ⟨?_, hothers⟩) hids).mpr fun id => ?_
  · intro hmem
    obtain ⟨member, hmember, hid⟩ := List.mem_map.mp hmem
    exact of_decide_eq_true (List.mem_filter.mp hmember).2 hid
  · rw [List.mem_cons, List.mem_map, List.mem_map]
    constructor
    · rintro (rfl | ⟨member, hmember, rfl⟩)
      · exact ⟨survivor, hsurvivor, rfl⟩
      · exact ⟨member, List.mem_of_mem_filter hmember, rfl⟩
    · rintro ⟨member, hmember, rfl⟩
      by_cases hid : member.id = survivor.id
      · exact .inl hid
      · exact .inr ⟨member, List.mem_filter.mpr ⟨hmember, by simpa using hid⟩, rfl⟩

theorem mergePlan_isSome (hmany : 2 ≤ members.length) : ∃ plan, mergePlan members = some plan := by
  unfold mergePlan
  rw [if_neg (by omega)]
  cases hpick : pickSurvivor members with
  | none =>
      obtain rfl := List.argmin_eq_none.mp hpick
      cases hmany
  | some survivor => exact ⟨_, rfl⟩

theorem mergePlan_merges (hids : (footprints.map WorkFootprint.id).Nodup) (hkey : key.2 ≠ [])
    (hplan : mergePlan (classOf unicode footprints key) = some plan) :
    Merges unicode footprints key plan := by
  unfold mergePlan at hplan
  split at hplan
  next => cases hplan
  next hmany =>
    obtain ⟨survivor, hsurvivor, rfl⟩ := Option.map_eq_some_iff.mp hplan
    have hmember : survivor ∈ classOf unicode footprints key := List.argmin_mem hsurvivor
    have hclass : ((classOf unicode footprints key).map WorkFootprint.id).Nodup :=
      hids.sublist (List.filter_sublist.map _)
    exact {
      isClass := ⟨hkey, by omega⟩
      survivor := ⟨survivor, hmember, rfl, fun member hother =>
        List.le_of_mem_argmin hother hsurvivor⟩
      works := ((List.perm_insertionSort _ _).cons _).trans (cons_others_perm hclass hmember)
      ordered := List.pairwise_insertionSort _ _ }

/-- The groups are the classes of the titles that are not nothing. -/
theorem mem_entries_group : (key, members) ∈ (Dict.group (dedupKey unicode) (footprints.filter
      fun footprint => (dedupKey unicode footprint).2 ≠ [])).entries ↔
    key.2 ≠ [] ∧ members = classOf unicode footprints key ∧ members ≠ [] := by
  have hclass : key.2 ≠ [] → (footprints.filter
      fun footprint => (dedupKey unicode footprint).2 ≠ []).filter
        (fun footprint => dedupKey unicode footprint = key) = classOf unicode footprints key := by
    intro hkey
    rw [List.filter_filter]
    refine List.filter_congr fun footprint _ => ?_
    by_cases hsame : dedupKey unicode footprint = key <;> simp [hsame, hkey]
  rw [Dict.mem_group_entries]
  constructor
  · rintro ⟨rfl, hsome⟩
    obtain ⟨footprint, hmem⟩ := List.exists_mem_of_ne_nil _ hsome
    obtain ⟨hmem, hsame⟩ := List.mem_filter.mp hmem
    have hkey : key.2 ≠ [] := by
      rw [← of_decide_eq_true hsame]
      exact of_decide_eq_true (List.mem_filter.mp hmem).2
    exact ⟨hkey, hclass hkey, hsome⟩
  · rintro ⟨hkey, rfl, hsome⟩
    exact ⟨(hclass hkey).symm, hsome⟩

theorem mem_planDuplicateMerges (hids : (footprints.map WorkFootprint.id).Nodup) :
    plan ∈ planDuplicateMerges unicode footprints ↔
      ∃ key, Merges unicode footprints key plan := by
  unfold planDuplicateMerges
  dsimp only
  rw [List.mem_insertionSort, List.mem_filterMap]
  constructor
  · rintro ⟨members, hmembers, hplan⟩
    obtain ⟨⟨key, members⟩, hentry, rfl⟩ := List.mem_map.mp hmembers
    obtain ⟨hkey, rfl, -⟩ := mem_entries_group.mp hentry
    exact ⟨key, mergePlan_merges hids hkey hplan⟩
  · rintro ⟨key, hmerges⟩
    have hmany := hmerges.isClass.2
    obtain ⟨other, hother⟩ := mergePlan_isSome hmany
    obtain rfl := hmerges.unique (mergePlan_merges hids hmerges.isClass.1 hother)
    have hsome : classOf unicode footprints key ≠ [] := List.ne_nil_of_length_pos (by omega)
    have hentry := mem_entries_group.mpr ⟨hmerges.isClass.1, rfl, hsome⟩
    exact ⟨_, List.mem_map_of_mem hentry, hother⟩

/-- Two plans have no work in common. -/
theorem planDuplicateMerges_apart (hids : (footprints.map WorkFootprint.id).Nodup) :
    (planDuplicateMerges unicode footprints).Pairwise fun plan other =>
      List.Disjoint plan.works other.works := by
  unfold planDuplicateMerges
  dsimp only
  refine (List.perm_insertionSort _ _).pairwise_iff (fun hapart => hapart.symm) |>.mpr ?_
  rw [List.pairwise_filterMap, Dict.values, List.pairwise_map]
  refine (List.pairwise_map.mp (Dict.nodup _)).imp_of_mem ?_
  rintro ⟨key, members⟩ ⟨next, others⟩ hentry hnext hne plan hplan other hother id hmem hagain
  obtain ⟨hkey, rfl, -⟩ := mem_entries_group.mp hentry
  obtain ⟨hnextKey, rfl, -⟩ := mem_entries_group.mp hnext
  exact hne (Merges.key_eq hids (mergePlan_merges hids hkey hplan)
    (mergePlan_merges hids hnextKey hother) hmem hagain)

theorem planDuplicateMerges_sorted : (planDuplicateMerges unicode footprints).Pairwise
    fun plan other => plan.targetId ≤ other.targetId := by
  have : Std.Total fun plan other : WorkMergePlan => plan.targetId ≤ other.targetId :=
    ⟨fun plan other => le_total plan.targetId other.targetId⟩
  have : IsTrans WorkMergePlan fun plan other => plan.targetId ≤ other.targetId :=
    ⟨fun _ _ _ => le_trans⟩
  exact List.pairwise_insertionSort _ _

theorem nodup_works_planDuplicateMerges (hids : (footprints.map WorkFootprint.id).Nodup) :
    ((planDuplicateMerges unicode footprints).flatMap WorkMergePlan.works).Nodup := by
  refine List.nodup_flatMap.mpr ⟨fun plan hplan => ?_, planDuplicateMerges_apart hids⟩
  obtain ⟨key, hmerges⟩ := (mem_planDuplicateMerges hids).mp hplan
  exact hmerges.works.nodup_iff.mpr (hids.sublist (List.filter_sublist.map _))

/-- Equal plans are found wherever the footprints stand. -/
theorem Merges.perm (hperm : others.Perm footprints) (hplan : Merges unicode footprints key plan) :
    Merges unicode others key plan := by
  have hclass : (classOf unicode others key).Perm (classOf unicode footprints key) :=
    hperm.filter _
  have hkeys : survivalKey (classOf unicode others key) =
      survivalKey (classOf unicode footprints key) := by
    funext member
    unfold survivalKey
    rw [hclass.countP_eq]
  obtain ⟨survivor, hsurvivor, htarget, hbest⟩ := hplan.survivor
  exact {
    isClass := ⟨hplan.isClass.1, hclass.length_eq ▸ hplan.isClass.2⟩
    survivor := ⟨survivor, hclass.mem_iff.mpr hsurvivor, htarget, fun member hmember =>
      hkeys ▸ hbest member (hclass.mem_iff.mp hmember)⟩
    works := hplan.works.trans (hclass.map _).symm
    ordered := hplan.ordered }

theorem planDuplicateMerges_plansExact (hids : (footprints.map WorkFootprint.id).Nodup) :
    PlansExact unicode footprints (planDuplicateMerges unicode footprints) := by
  refine ⟨fun plan => (mem_planDuplicateMerges hids).mp, ?_, ?_,
    nodup_works_planDuplicateMerges hids⟩
  · intro key hclass
    obtain ⟨plan, hplan⟩ := mergePlan_isSome hclass.2
    have hmerges := mergePlan_merges hids hclass.1 hplan
    refine ⟨plan, (mem_planDuplicateMerges hids).mpr ⟨key, hmerges⟩, fun other _ => ?_⟩
    exact ⟨fun hother => hother.unique hmerges, fun heq => heq ▸ hmerges⟩
  · have hmembers : ((footprints.filter fun footprint =>
        IsClass unicode footprints (dedupKey unicode footprint)).map WorkFootprint.id).Nodup :=
      hids.sublist (List.filter_sublist.map _)
    refine (List.perm_ext_iff_of_nodup (nodup_works_planDuplicateMerges hids) hmembers).mpr
      fun id => ?_
    rw [List.mem_flatMap, List.mem_map]
    constructor
    · rintro ⟨plan, hplan, hmem⟩
      obtain ⟨key, hmerges⟩ := (mem_planDuplicateMerges hids).mp hplan
      obtain ⟨footprint, hfootprint, rfl⟩ := List.mem_map.mp (hmerges.works.subset hmem)
      obtain ⟨hin, rfl⟩ := mem_classOf.mp hfootprint
      exact ⟨footprint, List.mem_filter.mpr ⟨hin, decide_eq_true hmerges.isClass⟩, rfl⟩
    · rintro ⟨footprint, hfootprint, rfl⟩
      obtain ⟨hfootprint, hclass⟩ := List.mem_filter.mp hfootprint
      have hclass := of_decide_eq_true hclass
      obtain ⟨plan, hplan⟩ := mergePlan_isSome hclass.2
      have hmerges := mergePlan_merges hids hclass.1 hplan
      refine ⟨plan, (mem_planDuplicateMerges hids).mpr ⟨_, hmerges⟩, ?_⟩
      exact hmerges.works.symm.subset
        (List.mem_map_of_mem (mem_classOf.mpr ⟨hfootprint, rfl⟩))

/-- The plans do not depend on the order of the footprints. -/
theorem planDuplicateMerges_perm (hids : (footprints.map WorkFootprint.id).Nodup)
    (hperm : others.Perm footprints) :
    planDuplicateMerges unicode others = planDuplicateMerges unicode footprints := by
  have hothers : (others.map WorkFootprint.id).Nodup := (hperm.map _).nodup_iff.mpr hids
  have hnodup := fun footprints hids =>
    (@planDuplicateMerges_apart unicode footprints hids).imp (S := (· ≠ ·)) (by
      rintro plan other hapart rfl
      exact hapart List.mem_cons_self List.mem_cons_self)
  have hplans : (planDuplicateMerges unicode others).Perm
      (planDuplicateMerges unicode footprints) := by
    refine (List.perm_ext_iff_of_nodup (hnodup _ hothers) (hnodup _ hids)).mpr fun plan => ?_
    rw [mem_planDuplicateMerges hothers, mem_planDuplicateMerges hids]
    exact ⟨fun ⟨key, hplan⟩ => ⟨key, hplan.perm hperm.symm⟩,
      fun ⟨key, hplan⟩ => ⟨key, hplan.perm hperm⟩⟩
  refine List.Perm.eq_of_pairwise ?_ planDuplicateMerges_sorted planDuplicateMerges_sorted hplans
  intro plan other hplan hother hle hge
  obtain ⟨key, hplan⟩ := (mem_planDuplicateMerges hids).mp (hplans.subset hplan)
  obtain ⟨next, hother⟩ := (mem_planDuplicateMerges hids).mp hother
  have htarget : plan.targetId = other.targetId := le_antisymm hle hge
  obtain rfl := hplan.key_eq hids hother List.mem_cons_self (htarget ▸ List.mem_cons_self)
  exact hplan.unique hother

/-! ## Applying the plans -/

/-- A merge leaves the works that are none of its sources. -/
theorem hasWork_mergeWorkGroup {db done : Database} {id : String}
    (hdone : mergeWorkGroup db plan = some done) (hwork : db.hasWork id)
    (hother : id ∉ plan.sourceIds) : done.hasWork id := by
  unfold mergeWorkGroup at hdone
  split at hdone
  next =>
    obtain rfl := Option.some.inj hdone
    rw [Database.hasWork, reselect_works, ← Database.hasWork]
    rcases mergeWorksInto_eq db plan.targetId plan.sourceIds with
      hsame | ⟨sources, -, hsources, hmerged⟩
    · rwa [hsame]
    · rw [hmerged]
      refine workIds_merged ⟨?_, fun hmem => hother (hsources hmem)⟩
      change (db.mergeRecordings plan.targetId sources).hasWork id = true
      rwa [Database.hasWork, (SameRefs.mergeRecordings plan.targetId sources db).works]
  next => cases hdone

/-- Plans whose works are apart can be applied in any order: each finds its target. -/
theorem applied_in_any_order {plans : List WorkMergePlan} {db : Database}
    (hworks : ∀ plan ∈ plans, db.hasWork plan.targetId)
    (hapart : plans.Pairwise fun plan other => List.Disjoint plan.works other.works) :
    ∃ done, plans.foldlM mergeWorkGroup db = some done := by
  induction plans generalizing db with
  | nil => exact ⟨db, rfl⟩
  | cons plan plans ih =>
      obtain ⟨hfirst, hrest⟩ := List.pairwise_cons.mp hapart
      have hmerge : ∃ done, mergeWorkGroup db plan = some done := by
        unfold mergeWorkGroup
        rw [if_pos (hworks plan List.mem_cons_self)]
        exact ⟨_, rfl⟩
      obtain ⟨next, hnext⟩ := hmerge
      obtain ⟨done, hdone⟩ := @ih next (fun other hother =>
        hasWork_mergeWorkGroup hnext (hworks other (List.mem_cons_of_mem _ hother)) fun hsource =>
          hfirst other hother (List.mem_cons_of_mem _ hsource) List.mem_cons_self) hrest
      refine ⟨done, ?_⟩
      rw [List.foldlM_cons, hnext]
      exact hdone

/-- Duplicate works are planned exactly, whatever their order, and the plans can be applied in
any order. -/
theorem planDuplicateMerges_exact (unicode : Unicode) (footprints : List WorkFootprint)
    (hids : (footprints.map WorkFootprint.id).Nodup) :
    PlansExact unicode footprints (planDuplicateMerges unicode footprints) ∧
      (∀ others : List WorkFootprint, others.Perm footprints →
        planDuplicateMerges unicode others = planDuplicateMerges unicode footprints) ∧
      ∀ order : List WorkMergePlan, order.Perm (planDuplicateMerges unicode footprints) →
        ∀ db : Database, (∀ footprint ∈ footprints, db.hasWork footprint.id) →
          ∃ done, order.foldlM mergeWorkGroup db = some done := by
  refine ⟨planDuplicateMerges_plansExact hids, fun _ => planDuplicateMerges_perm hids, ?_⟩
  intro order horder db hworks
  -- The plans are of disjoint works, so each can be applied whatever went before.
  refine applied_in_any_order (fun plan hplan => ?_)
    ((horder.pairwise_iff fun hapart => hapart.symm).mpr (planDuplicateMerges_apart hids))
  obtain ⟨key, hmerges⟩ := (mem_planDuplicateMerges hids).mp (horder.subset hplan)
  obtain ⟨survivor, hsurvivor, htarget, -⟩ := hmerges.survivor
  exact htarget ▸ hworks survivor (mem_classOf.mp hsurvivor).1

/-- Three spellings of one title, a song of another artist, and two titles that are nothing. -/
def threeSpellings : List WorkFootprint :=
  [ { id := "w2", title := "Would?", artistId := "a" },
    { id := "w1", title := "Wo\ufffduld!", artistId := "a", fileCount := 9 },
    { id := "w3", title := "would", artistId := "b" },
    { id := "w4", title := "WOULD", artistId := "a", fileCount := 1 },
    { id := "w5", title := "!!!", artistId := "a" },
    { id := "w6", title := "???", artistId := "a" } ]

theorem planDuplicateMerges_exact_threeSpellings :
    PlansExact .ascii threeSpellings (planDuplicateMerges .ascii threeSpellings) ∧
      planDuplicateMerges .ascii threeSpellings.reverse = [⟨"w4", ["w1", "w2"]⟩] := by
  obtain ⟨hexact, hperm, -⟩ := planDuplicateMerges_exact .ascii threeSpellings (by decide)
  refine ⟨hexact, ?_⟩
  rw [hperm _ (List.reverse_perm _)]
  decide +kernel

end Curation

end RetroStation
