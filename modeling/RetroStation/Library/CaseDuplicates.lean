import RetroStation.Dict.Groups
import RetroStation.Library.Values
import RetroStation.Table.Basic

/-! # Rows left behind by case-only renames

Rows whose paths differ only in case are taken for one file. The row that is spelled as the disk
spells the file is kept, and the others are folded into it.
-/

namespace RetroStation.Library

/-! ## Paths on disk -/

/-- The files that paths name. A path that names one is spelled by the disk in one way, which
    names the same file and is its own spelling. -/
structure FileNames where
  fileAt : String → Option Nat
  realpath : String → String
  normcase : String → String
  fileAt_realpath {path : String} : (fileAt path).isSome → fileAt (realpath path) = fileAt path
  realpath_realpath {path : String} : (fileAt path).isSome →
    realpath (realpath path) = realpath path

/-- The path as the disk spells it; none if no file is there or it cannot be told. -/
def FileNames.onDiskSpelling (names : FileNames) (filePath : String) : Option String :=
  if (names.fileAt filePath).isNone then none
  else
    let real := names.realpath filePath
    if names.normcase real ≠ names.normcase filePath then none else some real

/-! ## The groups and their repairs -/

/-- The rows whose path another row has in some case, next to each other. -/
def caseDuplicateRows (databaseLower : String → String) (files : List LibraryFile) :
    List LibraryFile :=
  (files.filter fun row =>
    files.countP (fun other => databaseLower other.filePath = databaseLower row.filePath) > 1)
      |>.insertionSort fun first second =>
        databaseLower first.filePath < databaseLower second.filePath ∨
          databaseLower first.filePath = databaseLower second.filePath ∧
            first.filePath ≤ second.filePath

/-- Rows of the same path but for its case, as the database compares paths and then as Python
    does. -/
def getCaseDuplicateGroups (databaseLower lower : String → String) (files : List LibraryFile) :
    List (List LibraryFile) :=
  (Dict.group (fun row => lower row.filePath) (caseDuplicateRows databaseLower files)).values

/-- The row that is kept, and the rows that are folded into it. -/
structure CaseDuplicateRepair where
  keeperId : Uuid
  keeperPath : String
  staleIds : List Uuid
  deriving DecidableEq, Repr

/-- The repairs, and the paths of the groups that are left alone. -/
structure CaseDuplicatePlan where
  repairs : List CaseDuplicateRepair := []
  unresolved : List (List String) := []
  deriving DecidableEq, Repr

/-- The repair of a group whose file the disk spells so: the one row of that path is kept. -/
def repairOf (group : List LibraryFile) (disk : Option String) : Option CaseDuplicateRepair :=
  match group.filter fun row => some row.filePath = disk with
  | [keeper] => some ⟨keeper.id, keeper.filePath,
      (group.filter fun row => row.id ≠ keeper.id).map LibraryFile.id⟩
  | _ => none

section

variable (spelling : String → Option String)

/-- The plan with one more group. The disk is asked for the group's first row alone. -/
def planGroup (plan : CaseDuplicatePlan) (group : List LibraryFile) : Option CaseDuplicatePlan :=
  match group with
  | [] => none
  | first :: _ =>
    match repairOf group (spelling first.filePath) with
    | some repair => some { plan with repairs := plan.repairs ++ [repair] }
    | none => some { plan with
        unresolved := plan.unresolved ++ [group.map LibraryFile.filePath] }

/-- `plan_case_duplicate_repairs`, which fails on a group without rows. -/
def planCaseDuplicateRepairs (groups : List (List LibraryFile)) : Option CaseDuplicatePlan :=
  groups.foldlM (planGroup spelling) {}

/-- The repair of a group, if it gets one. -/
def groupRepair (group : List LibraryFile) : Option CaseDuplicateRepair :=
  group.head?.bind fun first => repairOf group (spelling first.filePath)

end

variable {names : FileNames} {spelling : String → Option String}
  {group other : List LibraryFile} {groups : List (List LibraryFile)} {row keeper : LibraryFile}

/-! ## What is planned -/

theorem planCaseDuplicateRepairs_eq (hrows : ∀ group ∈ groups, group ≠ []) :
    planCaseDuplicateRepairs spelling groups = some
      { repairs := groups.filterMap (groupRepair spelling)
        unresolved := (groups.filter fun group => groupRepair spelling group = none).map
          (·.map LibraryFile.filePath) } := by
  have hfrom : ∀ plan : CaseDuplicatePlan, groups.foldlM (planGroup spelling) plan = some
      { repairs := plan.repairs ++ groups.filterMap (groupRepair spelling)
        unresolved := plan.unresolved ++
          (groups.filter fun group => groupRepair spelling group = none).map
            (·.map LibraryFile.filePath) } := by
    induction groups with
    | nil => simp
    | cons group rest ih =>
        intro plan
        have hrest := ih fun group hgroup => hrows group (List.mem_cons_of_mem _ hgroup)
        cases group with
        | nil => exact absurd rfl (hrows [] List.mem_cons_self)
        | cons first later =>
          rw [List.foldlM_cons, planGroup]
          have hhead : groupRepair spelling (first :: later) =
              repairOf (first :: later) (spelling first.filePath) := rfl
          cases hrepair : repairOf (first :: later) (spelling first.filePath) with
          | none =>
            rw [hrepair] at hhead
            simp [hhead, hrest]
          | some repair =>
            rw [hrepair] at hhead
            simp [hhead, hrest]
  simpa [planCaseDuplicateRepairs] using hfrom {}

theorem repairOf_eq_some {disk : Option String} {repair : CaseDuplicateRepair}
    (hrepair : repairOf group disk = some repair) :
    ∃ keeper ∈ group, some keeper.filePath = disk ∧ repair.keeperId = keeper.id ∧
      repair.keeperPath = keeper.filePath ∧
        repair.staleIds = (group.filter fun row => row.id ≠ keeper.id).map LibraryFile.id := by
  unfold repairOf at hrepair
  split at hrepair
  next keeper hkeeper =>
    cases hrepair
    have hmem : keeper ∈ group.filter fun row => some row.filePath = disk := by
      rw [hkeeper]
      exact List.mem_singleton_self _
    obtain ⟨hgroup, hdisk⟩ := List.mem_filter.mp hmem
    exact ⟨keeper, hgroup, of_decide_eq_true hdisk, rfl, rfl, rfl⟩
  · cases hrepair

/-- A row of the disk's spelling is the one that is kept, if no other has its path. -/
theorem repairOf_of_mem (hpaths : (group.map LibraryFile.filePath).Nodup)
    (hkeeper : keeper ∈ group) :
    repairOf group (some keeper.filePath) = some ⟨keeper.id, keeper.filePath,
      (group.filter fun row => row.id ≠ keeper.id).map LibraryFile.id⟩ := by
  have hone : (group.filter fun row => some row.filePath = some keeper.filePath) = [keeper] := by
    have hsame : ∀ row ∈ group.filter (fun row => some row.filePath = some keeper.filePath),
        row = keeper := by
      intro row hrow
      obtain ⟨hrow, hpath⟩ := List.mem_filter.mp hrow
      exact List.inj_on_of_nodup_map hpaths hrow hkeeper
        (Option.some.inj (of_decide_eq_true hpath))
    have hmem : keeper ∈ group.filter fun row => some row.filePath = some keeper.filePath :=
      List.mem_filter.mpr ⟨hkeeper, decide_eq_true rfl⟩
    have hnodup : (group.filter fun row => some row.filePath = some keeper.filePath).Nodup :=
      (List.Nodup.of_map _ hpaths).filter _
    generalize (group.filter fun row => some row.filePath = some keeper.filePath) = kept at *
    rw [List.eq_replicate_of_mem hsame] at hnodup hmem ⊢
    have hlength := List.nodup_replicate.mp hnodup
    have hpos : 0 < kept.length := Nat.pos_of_ne_zero fun hzero => by simp [hzero] at hmem
    rw [show kept.length = 1 by omega]
    rfl
  rw [repairOf, hone]

/-- A file that the disk spells is spelled by it in the same way when it is asked by that. -/
theorem FileNames.onDiskSpelling_eq_some {filePath real : String}
    (hspelled : names.onDiskSpelling filePath = some real) :
    names.fileAt real = names.fileAt filePath ∧ (names.fileAt filePath).isSome = true ∧
      names.onDiskSpelling real = some real := by
  unfold onDiskSpelling at hspelled
  split at hspelled
  · cases hspelled
  next hfile =>
    rw [Option.isNone_iff_eq_none, ← ne_eq, Option.ne_none_iff_isSome] at hfile
    dsimp only at hspelled
    split at hspelled
    · cases hspelled
    next hcase =>
      cases hspelled
      refine ⟨names.fileAt_realpath hfile, hfile, ?_⟩
      have hreal : (names.fileAt (names.realpath filePath)).isSome = true := by
        rw [names.fileAt_realpath hfile, hfile]
      have hsome : ¬ (names.fileAt (names.realpath filePath)).isNone = true := by
        rw [Option.isNone_iff_eq_none, ← ne_eq, Option.ne_none_iff_isSome]
        exact hreal
      rw [onDiskSpelling, if_neg hsome, names.realpath_realpath hfile]
      exact if_neg (not_not.mpr rfl)

/-! ## What the plan should be -/

/-- What a group's repair is: its keeper is a row of the group that is spelled as the disk spells
    it, and the stale rows are others of the group. -/
def Settles (names : FileNames) (group : List LibraryFile) (repair : CaseDuplicateRepair) : Prop :=
  ∃ keeper ∈ group, repair.keeperId = keeper.id ∧ repair.keeperPath = keeper.filePath ∧
    names.onDiskSpelling keeper.filePath = some keeper.filePath ∧
      ∀ staleId ∈ repair.staleIds, ∃ row ∈ group, row.id = staleId ∧ row.id ≠ keeper.id

/-- Two plans that repair the same groups in the same way, and leave the others alone. -/
def SamePlan (first second : CaseDuplicatePlan) : Prop :=
  List.Forall₂ (fun repair repair' : CaseDuplicateRepair => repair.keeperId = repair'.keeperId ∧
      repair.keeperPath = repair'.keeperPath ∧ repair.staleIds.Perm repair'.staleIds)
    first.repairs second.repairs ∧
    List.Forall₂ List.Perm first.unresolved second.unresolved

/-- The plan removes respellings only. Each group has one repair or is left alone, and the order
    of a group's rows makes no difference. -/
structure RemovesRespellings (names : FileNames) (groups : List (List LibraryFile))
    (plan : CaseDuplicatePlan) : Prop where
  stale : ∀ repair ∈ plan.repairs, ∀ group ∈ groups, ∀ row ∈ group, row.id ∈ repair.staleIds →
    names.fileAt row.filePath = names.fileAt repair.keeperPath ∨ names.fileAt row.filePath = none
  settled : ∃ settle : List LibraryFile → Option CaseDuplicateRepair,
    (∀ group ∈ groups, ∀ repair ∈ settle group, Settles names group repair) ∧
      plan.repairs = groups.filterMap settle ∧
        plan.unresolved = (groups.filter fun group => settle group = none).map
          (·.map LibraryFile.filePath)
  anyOrder : ∀ other, List.Forall₂ List.Perm groups other →
    ∃ plan', planCaseDuplicateRepairs names.onDiskSpelling other = some plan' ∧ SamePlan plan plan'

/-- If the disk spells one row's path as a path of the group, it spells every row's so. -/
def SpelledAlike (names : FileNames) (group : List LibraryFile) : Prop :=
  ∀ row ∈ group, ∀ keeper ∈ group, names.onDiskSpelling row.filePath = some keeper.filePath →
    ∀ other ∈ group, names.onDiskSpelling other.filePath = some keeper.filePath

theorem groupRepair_eq_some {repair : CaseDuplicateRepair}
    (hrepair : groupRepair spelling group = some repair) :
    ∃ first ∈ group, ∃ keeper ∈ group, spelling first.filePath = some keeper.filePath ∧
      repair.keeperId = keeper.id ∧ repair.keeperPath = keeper.filePath ∧
        repair.staleIds = (group.filter fun row => row.id ≠ keeper.id).map LibraryFile.id := by
  obtain ⟨first, hfirst, hrepair⟩ := Option.bind_eq_some_iff.mp hrepair
  obtain ⟨keeper, hkeeper, hdisk, hid, hpath, hstale⟩ := repairOf_eq_some hrepair
  exact ⟨first, List.mem_of_mem_head? hfirst, keeper, hkeeper, hdisk.symm, hid, hpath, hstale⟩

theorem groupRepair_settles {repair : CaseDuplicateRepair}
    (hrepair : groupRepair names.onDiskSpelling group = some repair) :
    Settles names group repair := by
  obtain ⟨first, -, keeper, hkeeper, hdisk, hid, hpath, hstale⟩ := groupRepair_eq_some hrepair
  refine ⟨keeper, hkeeper, hid, hpath, (names.onDiskSpelling_eq_some hdisk).2.2, ?_⟩
  intro staleId hmem
  rw [hstale] at hmem
  obtain ⟨row, hrow, rfl⟩ := List.mem_map.mp hmem
  obtain ⟨hgroup, hother⟩ := List.mem_filter.mp hrow
  exact ⟨row, hgroup, rfl, by simpa using hother⟩

/-! ## Groups that are spelled alike -/

section

variable (hpaths : (group.map LibraryFile.filePath).Nodup)

include hpaths

/-- A group of which the disk spells a row as a path of the group keeps the row of that path. -/
theorem groupRepair_of_spelled (halike : SpelledAlike names group) (hrow : row ∈ group)
    (hkeeper : keeper ∈ group)
    (hspelled : names.onDiskSpelling row.filePath = some keeper.filePath) :
    groupRepair names.onDiskSpelling group = some ⟨keeper.id, keeper.filePath,
      (group.filter fun row => row.id ≠ keeper.id).map LibraryFile.id⟩ := by
  cases group with
  | nil => cases hrow
  | cons first rest =>
    have hfirst := halike row hrow keeper hkeeper hspelled first List.mem_cons_self
    change repairOf (first :: rest) (names.onDiskSpelling first.filePath) = _
    rw [hfirst, repairOf_of_mem hpaths hkeeper]

/-- The order of the rows of such a group makes no difference to its repair. -/
theorem groupRepair_perm (halike : SpelledAlike names group) (hperm : group.Perm other) :
    Option.Rel (fun repair repair' : CaseDuplicateRepair => repair.keeperId = repair'.keeperId ∧
      repair.keeperPath = repair'.keeperPath ∧ repair.staleIds.Perm repair'.staleIds)
        (groupRepair names.onDiskSpelling group) (groupRepair names.onDiskSpelling other) := by
  have halike' : SpelledAlike names other := fun row hrow keeper hkeeper hspelled third hthird =>
    halike row (hperm.mem_iff.mpr hrow) keeper (hperm.mem_iff.mpr hkeeper) hspelled third
      (hperm.mem_iff.mpr hthird)
  have hpaths' : (other.map LibraryFile.filePath).Nodup := (hperm.map _).nodup_iff.mp hpaths
  by_cases hany : ∃ row ∈ group, ∃ keeper ∈ group,
      names.onDiskSpelling row.filePath = some keeper.filePath
  · obtain ⟨row, hrow, keeper, hkeeper, hspelled⟩ := hany
    rw [groupRepair_of_spelled hpaths halike hrow hkeeper hspelled,
      groupRepair_of_spelled hpaths' halike' (hperm.mem_iff.mp hrow) (hperm.mem_iff.mp hkeeper)
        hspelled]
    exact .some ⟨rfl, rfl, (hperm.filter _).map _⟩
  · have hnone : groupRepair names.onDiskSpelling group = none := by
      rw [Option.eq_none_iff_forall_ne_some]
      intro repair hrepair
      obtain ⟨first, hfirst, keeper, hkeeper, hspelled, -⟩ := groupRepair_eq_some hrepair
      exact hany ⟨first, hfirst, keeper, hkeeper, hspelled⟩
    have hnone' : groupRepair names.onDiskSpelling other = none := by
      rw [Option.eq_none_iff_forall_ne_some]
      intro repair hrepair
      obtain ⟨first, hfirst, keeper, hkeeper, hspelled, -⟩ := groupRepair_eq_some hrepair
      exact hany ⟨first, hperm.mem_iff.mpr hfirst, keeper, hperm.mem_iff.mpr hkeeper, hspelled⟩
    rw [hnone, hnone']
    exact .none

end

/-- The groups have rows, and no two rows have one id or one path. -/
structure GroupsOk (groups : List (List LibraryFile)) : Prop where
  rows : ∀ group ∈ groups, group ≠ []
  ids : (groups.flatten.map LibraryFile.id).Nodup
  paths : (groups.flatten.map LibraryFile.filePath).Nodup

theorem GroupsOk.group_paths (hok : GroupsOk groups) (hgroup : group ∈ groups) :
    (group.map LibraryFile.filePath).Nodup :=
  hok.paths.sublist ((List.sublist_flatten_of_mem hgroup).map _)

/-- The groups that a query answers have rows, each row once. -/
theorem getCaseDuplicateGroups_ok {files : List LibraryFile} (databaseLower lower : String → String)
    (hids : Table.UniqueBy LibraryFile.id files)
    (hpaths : Table.UniqueBy LibraryFile.filePath files) :
    GroupsOk (getCaseDuplicateGroups databaseLower lower files) := by
  have hperm : (caseDuplicateRows databaseLower files).Perm (files.filter _) :=
    List.perm_insertionSort _ _
  have hflat := (Dict.flatten_values_group (fun row => lower row.filePath)
    (caseDuplicateRows databaseLower files)).trans hperm
  refine ⟨?_, ?_, ?_⟩
  · intro group hgroup
    obtain ⟨⟨path, members⟩, hentry, rfl⟩ := List.mem_map.mp hgroup
    exact (Dict.mem_group_entries.mp hentry).2
  · exact ((hflat.map _).nodup_iff).mpr (hids.sublist (List.filter_sublist.map _))
  · exact ((hflat.map _).nodup_iff).mpr (hpaths.sublist (List.filter_sublist.map _))

/-! ## The plan and the disk -/

theorem plan_stale (hok : GroupsOk groups) (halike : ∀ group ∈ groups, SpelledAlike names group)
    {repair : CaseDuplicateRepair}
    (hrepair : repair ∈ groups.filterMap (groupRepair names.onDiskSpelling))
    (hgroup : group ∈ groups) (hrow : row ∈ group) (hstale : row.id ∈ repair.staleIds) :
    names.fileAt row.filePath = names.fileAt repair.keeperPath := by
  obtain ⟨owner, howner, hrepair⟩ := List.mem_filterMap.mp hrepair
  obtain ⟨first, hfirst, keeper, hkeeper, hspelled, -, hpath, hids⟩ := groupRepair_eq_some hrepair
  rw [hids] at hstale
  obtain ⟨same, hsame, hid⟩ := List.mem_map.mp hstale
  have hmem : same ∈ owner := (List.mem_filter.mp hsame).1
  have heq : same = row := List.inj_on_of_nodup_map hok.ids
    (List.mem_flatten_of_mem howner hmem) (List.mem_flatten_of_mem hgroup hrow) hid
  have halso := halike owner howner first hfirst keeper hkeeper hspelled same hmem
  rw [hpath, ← heq, (names.onDiskSpelling_eq_some halso).1]

theorem plan_anyOrder (hpaths : ∀ group ∈ groups, (group.map LibraryFile.filePath).Nodup)
    (halike : ∀ group ∈ groups, SpelledAlike names group)
    {other : List (List LibraryFile)} (hother : List.Forall₂ List.Perm groups other) :
    SamePlan
      { repairs := groups.filterMap (groupRepair names.onDiskSpelling)
        unresolved := (groups.filter fun group =>
          groupRepair names.onDiskSpelling group = none).map (·.map LibraryFile.filePath) }
      { repairs := other.filterMap (groupRepair names.onDiskSpelling)
        unresolved := (other.filter fun group =>
          groupRepair names.onDiskSpelling group = none).map (·.map LibraryFile.filePath) } := by
  induction hother with
  | nil => exact ⟨.nil, .nil⟩
  | @cons group group' rest rest' hperm hrest ih =>
      obtain ⟨hrepairs, hunresolved⟩ := ih
        (fun group hgroup => hpaths group (List.mem_cons_of_mem _ hgroup))
        (fun group hgroup => halike group (List.mem_cons_of_mem _ hgroup))
      have hfirst := groupRepair_perm (hpaths group List.mem_cons_self)
        (halike group List.mem_cons_self) hperm
      unfold SamePlan
      rw [List.filterMap_cons, List.filterMap_cons, List.filter_cons, List.filter_cons]
      cases hrepair : groupRepair names.onDiskSpelling group with
      | none =>
        cases hrepair' : groupRepair names.onDiskSpelling group' with
        | none => exact ⟨hrepairs, .cons (hperm.map _) hunresolved⟩
        | some repair' =>
          rw [hrepair, hrepair'] at hfirst
          cases hfirst
      | some repair =>
        cases hrepair' : groupRepair names.onDiskSpelling group' with
        | none =>
          rw [hrepair, hrepair'] at hfirst
          cases hfirst
        | some repair' =>
          rw [hrepair, hrepair'] at hfirst
          cases hfirst with
          | some hsame => exact ⟨.cons hsame hrepairs, hunresolved⟩

theorem rows_of_perm {other : List (List LibraryFile)}
    (hother : List.Forall₂ List.Perm groups other) (hrows : ∀ group ∈ groups, group ≠ []) :
    ∀ group ∈ other, group ≠ [] := by
  induction hother with
  | nil => exact fun group hgroup => absurd hgroup List.not_mem_nil
  | cons hperm hrest ih =>
      rw [List.forall_mem_cons] at hrows ⊢
      exact ⟨fun hnil => hrows.1 (hnil ▸ hperm).eq_nil, ih hrows.2⟩

/-- The path that a group keeps. -/
def keptPath (spelling : String → Option String) (group : List LibraryFile) : Option String :=
  (groupRepair spelling group).map CaseDuplicateRepair.keeperPath

theorem samePlan_keptPaths {other : List (List LibraryFile)} {plan plan' : CaseDuplicatePlan}
    (hplan : plan.repairs = groups.filterMap (groupRepair spelling))
    (hplan' : plan'.repairs = other.filterMap (groupRepair spelling))
    (hsame : SamePlan plan plan') :
    groups.filterMap (keptPath spelling) = other.filterMap (keptPath spelling) := by
  have hpaths : plan.repairs.map CaseDuplicateRepair.keeperPath =
      plan'.repairs.map CaseDuplicateRepair.keeperPath := by
    rw [← List.forall₂_eq_eq_eq, List.forall₂_map_left_iff, List.forall₂_map_right_iff]
    exact hsame.1.imp fun _ _ hrepair => hrepair.2.1
  rw [hplan, hplan', List.map_filterMap, List.map_filterMap] at hpaths
  exact hpaths

/-- A plan that no order changes asks the disk for any row of a group as for the first. -/
theorem keptPath_perm (hgroup : group ∈ groups)
    (hany : ∀ other, List.Forall₂ List.Perm groups other →
      groups.filterMap (keptPath spelling) = other.filterMap (keptPath spelling))
    (hperm : group.Perm other) : keptPath spelling group = keptPath spelling other := by
  obtain ⟨before, after, rfl⟩ := List.append_of_mem hgroup
  have hrefl : ∀ groups : List (List LibraryFile), List.Forall₂ List.Perm groups groups :=
    fun groups => List.forall₂_same.mpr fun group _ => List.Perm.refl group
  have hkept := hany (before ++ other :: after)
    (List.rel_append (hrefl before) (.cons hperm (hrefl after)))
  rw [List.filterMap_append, List.filterMap_append, List.append_cancel_left_eq,
    List.filterMap_cons, List.filterMap_cons] at hkept
  cases hpath : keptPath spelling group with
  | none =>
    cases hpath' : keptPath spelling other with
    | none => rfl
    | some path' =>
      rw [hpath, hpath'] at hkept
      exact absurd (congrArg List.length hkept) (by simp)
  | some path =>
    cases hpath' : keptPath spelling other with
    | none =>
      rw [hpath, hpath'] at hkept
      exact absurd (congrArg List.length hkept) (by simp)
    | some path' =>
      rw [hpath, hpath'] at hkept
      exact congrArg some (List.cons.inj hkept).1

/-- Such a plan is made only where the disk spells the rows of each group alike. -/
theorem spelledAlike_of_anyOrder (hok : GroupsOk groups)
    (hany : ∀ other, List.Forall₂ List.Perm groups other →
      groups.filterMap (keptPath names.onDiskSpelling) =
        other.filterMap (keptPath names.onDiskSpelling)) :
    ∀ group ∈ groups, SpelledAlike names group := by
  intro group hgroup row hrow keeper hkeeper hspelled third hthird
  have hrowFirst := List.perm_cons_erase hrow
  have hthirdFirst := List.perm_cons_erase hthird
  have hsame := (keptPath_perm hgroup hany hrowFirst).symm.trans
    (keptPath_perm hgroup hany hthirdFirst)
  have hpaths := (hrowFirst.map LibraryFile.filePath).nodup_iff.mp (hok.group_paths hgroup)
  have hkept : keptPath names.onDiskSpelling (row :: group.erase row) = some keeper.filePath := by
    change (repairOf (row :: group.erase row) (names.onDiskSpelling row.filePath)).map _ = _
    rw [hspelled, repairOf_of_mem hpaths (hrowFirst.mem_iff.mp hkeeper)]
    rfl
  rw [hkept] at hsame
  obtain ⟨repair, hrepair, hpath⟩ := Option.map_eq_some_iff.mp hsame.symm
  obtain ⟨other, -, hother, -, hotherPath, -⟩ := repairOf_eq_some hrepair
  rw [← hpath, hotherPath]
  exact hother.symm

/-- The plan removes respellings only, and is the same in any order, exactly where the disk
    spells all rows of a group alike or none of them as a row of the group. -/
theorem removesRespellings_iff (names : FileNames) (databaseLower lower : String → String)
    {files : List LibraryFile} (hids : Table.UniqueBy LibraryFile.id files)
    (hpaths : Table.UniqueBy LibraryFile.filePath files) :
    (∃ plan, planCaseDuplicateRepairs names.onDiskSpelling
        (getCaseDuplicateGroups databaseLower lower files) = some plan ∧
      RemovesRespellings names (getCaseDuplicateGroups databaseLower lower files) plan) ↔
      ∀ group ∈ getCaseDuplicateGroups databaseLower lower files, SpelledAlike names group := by
  have hok := getCaseDuplicateGroups_ok databaseLower lower hids hpaths
  generalize getCaseDuplicateGroups databaseLower lower files = groups at hok ⊢
  have hrows : ∀ other, List.Forall₂ List.Perm groups other → ∀ group ∈ other, group ≠ [] :=
    fun other hother => rows_of_perm hother hok.rows
  constructor
  · rintro ⟨plan, hplan, hremoves⟩
    obtain rfl := Option.some.inj (hplan.symm.trans (planCaseDuplicateRepairs_eq hok.rows))
    -- Asking the disk for another row first must lead to the same plan.
    refine spelledAlike_of_anyOrder hok fun other hother => ?_
    obtain ⟨plan', hplan', hsame⟩ := hremoves.anyOrder other hother
    rw [planCaseDuplicateRepairs_eq (hrows other hother)] at hplan'
    obtain rfl := Option.some.inj hplan'
    exact samePlan_keptPaths rfl rfl hsame
  · intro halike
    refine ⟨_, planCaseDuplicateRepairs_eq hok.rows, ?_, ?_, ?_⟩
    · exact fun repair hrepair group hgroup row hrow hstale =>
        .inl (plan_stale hok halike hrepair hgroup hrow hstale)
    · exact ⟨groupRepair names.onDiskSpelling,
        fun group _ repair hrepair => groupRepair_settles hrepair, rfl, rfl⟩
    · exact fun other hother => ⟨_, planCaseDuplicateRepairs_eq (hrows other hother),
        plan_anyOrder (fun group hgroup => hok.group_paths hgroup) halike hother⟩

/-! ## Two files of one lower-cased path -/

/-- A folder that tells the two names apart, with a file of each. -/
def bothCases : FileNames where
  fileAt filePath := if filePath = "/m/A.mp3" then some 1
    else if filePath = "/m/a.mp3" then some 2 else none
  realpath filePath := filePath
  normcase filePath := filePath
  fileAt_realpath _ := rfl
  realpath_realpath _ := rfl

def bothRows : List LibraryFile :=
  [{ id := 1, filePath := "/m/A.mp3" }, { id := 2, filePath := "/m/a.mp3" }]

/-- The lower-cased path, as far as these two go. -/
def lowerA (filePath : String) : String := if filePath = "/m/A.mp3" then "/m/a.mp3" else filePath

/-- The file of the other name would lose its row. -/
theorem removesRespellings_bothCases : ¬ ∃ plan,
    planCaseDuplicateRepairs bothCases.onDiskSpelling
        (getCaseDuplicateGroups lowerA lowerA bothRows) = some plan ∧
      RemovesRespellings bothCases (getCaseDuplicateGroups lowerA lowerA bothRows) plan := by
  rintro ⟨plan, hplan, hremoves⟩
  have hgroups : getCaseDuplicateGroups lowerA lowerA bothRows = [bothRows] := by decide +kernel
  rw [hgroups] at hplan hremoves
  have hrepair : planCaseDuplicateRepairs bothCases.onDiskSpelling [bothRows] =
      some { repairs := [⟨1, "/m/A.mp3", [2]⟩] } := by
    decide +kernel
  obtain rfl := Option.some.inj (hplan.symm.trans hrepair)
  have hstale := hremoves.stale ⟨1, "/m/A.mp3", [2]⟩ List.mem_cons_self bothRows
    List.mem_cons_self { id := 2, filePath := "/m/a.mp3" } (by decide) (by decide)
  exact absurd hstale (by decide)

/-- A folder that takes the two names for one, which it spells with a capital. -/
def oneCase : FileNames where
  fileAt filePath := if filePath = "/m/A.mp3" ∨ filePath = "/m/a.mp3" then some 1 else none
  realpath filePath := if filePath = "/m/a.mp3" then "/m/A.mp3" else filePath
  normcase := lowerA
  fileAt_realpath {path} _ := by
    by_cases hpath : path = "/m/a.mp3"
    · subst hpath
      rfl
    · rw [if_neg hpath]
  realpath_realpath {path} _ := by
    by_cases hpath : path = "/m/a.mp3"
    · subst hpath
      rfl
    · rw [if_neg hpath, if_neg hpath]

theorem removesRespellings_oneCase : ∃ plan,
    planCaseDuplicateRepairs oneCase.onDiskSpelling
        (getCaseDuplicateGroups lowerA lowerA bothRows) = some plan ∧
      RemovesRespellings oneCase (getCaseDuplicateGroups lowerA lowerA bothRows) plan := by
  refine (removesRespellings_iff oneCase lowerA lowerA (by decide) (by decide)).mpr ?_
  have hgroups : getCaseDuplicateGroups lowerA lowerA bothRows = [bothRows] := by decide +kernel
  rw [hgroups]
  have hall : bothRows.all (fun row =>
      oneCase.onDiskSpelling row.filePath = some "/m/A.mp3") = true := by
    decide +kernel
  rw [List.all_eq_true] at hall
  intro group hgroup row hrow keeper hkeeper hspelled other hother
  obtain rfl := List.mem_singleton.mp hgroup
  rw [of_decide_eq_true (hall other hother), ← of_decide_eq_true (hall row hrow), hspelled]

end RetroStation.Library
