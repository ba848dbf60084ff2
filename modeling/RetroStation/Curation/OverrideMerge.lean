import Mathlib.Data.Prod.Lex
import RetroStation.Curation.RecordingMerge

/-! # Folding format overrides together

The overrides of several works become those of one, which has one for each format: its own, or
else the sources' oldest. The rows that stay move one after another, in any order.
-/

namespace RetroStation.Curation

open Library

/-- Each override has its own id, and a work has one for each format. -/
structure OverridesKeyed (db : Database) : Prop where
  ids : Table.UniqueBy FormatOverride.id db.formatOverrides
  slots : ∀ first ∈ db.formatOverrides, ∀ second ∈ db.formatOverrides,
    first.workId = second.workId → first.formatName = second.formatName → first = second

/-- The order in which the rows of a statement are updated. -/
structure RowOrder where
  order : List FormatOverride → List FormatOverride
  perm : ∀ rows, (order rows).Perm rows

/-- A row moves to the target, if the unique index lets it. -/
def moveOverride? (target : String) (db : Database) (override : FormatOverride) :
    Option Database :=
  if db.formatOverrides.any fun other => other.workId = target ∧
      other.formatName = override.formatName ∧ other.id ≠ override.id then none
  else some { db with
    formatOverrides := Table.update db.formatOverrides (fun other => other.id = override.id)
      fun other => { other with workId := target } }

/-- The sources' overrides move to the target, a row at a time. -/
def moveOverrides? (rows : RowOrder) (db : Database) (target : String) (sources : List String) :
    Option Database :=
  (rows.order (db.formatOverrides.filter fun override => override.workId ∈ sources)).foldlM
    (moveOverride? target) db

/-- The overrides that lose a format, as one statement deletes them. -/
def dropLosers (db : Database) (target : String) (sources : List String) : Database :=
  { db with
    formatOverrides := Table.delete db.formatOverrides fun override => override.workId ∈ sources ∧
      ((db.formatOverrides.any fun kept =>
        kept.workId = target ∧ kept.formatName = override.formatName) ∨
        db.olderOverride sources override) }

def mergeFormatOverrides? (rows : RowOrder) (db : Database) (target : String)
    (sources : List String) : Option Database :=
  moveOverrides? rows (dropLosers db target sources) target sources

variable {db : Database} {target : String} {sources : List String}
  {override : FormatOverride}

/-! ## Row by row -/

/-- Rows of different formats that the target lacks move without a clash. -/
theorem foldlM_moveOverride? {moving : List FormatOverride}
    (hfree : ∀ override ∈ moving, ∀ other ∈ db.formatOverrides, other.workId = target →
      other.formatName ≠ override.formatName)
    (hapart : moving.Pairwise fun first second => first.formatName ≠ second.formatName)
    (hstored : ∀ override ∈ moving, ∀ other ∈ db.formatOverrides, other.id = override.id →
      other.formatName = override.formatName) :
    moving.foldlM (moveOverride? target) db = some { db with
      formatOverrides := Table.update db.formatOverrides
        (fun other => other.id ∈ moving.map FormatOverride.id)
        fun other => { other with workId := target } } := by
  induction moving generalizing db with
  | nil => simp [Table.update]
  | cons override rest ih =>
      obtain ⟨hother, hapart⟩ := List.pairwise_cons.mp hapart
      have hclear : (db.formatOverrides.any fun other => other.workId = target ∧
          other.formatName = override.formatName ∧ other.id ≠ override.id) = false := by
        rw [List.any_eq_false]
        intro other hmem hclash
        simp only [ne_eq, decide_eq_true_eq] at hclash
        exact hfree override List.mem_cons_self other hmem hclash.1 hclash.2.1
      have hmoved : moveOverride? target db override = some { db with
          formatOverrides := Table.update db.formatOverrides (fun other => other.id = override.id)
            fun other => { other with workId := target } } := by
        rw [moveOverride?, hclear]
        rfl
      rw [List.foldlM_cons, hmoved, Option.bind_eq_bind, Option.bind_some, ih ?_ hapart ?_]
      · congr 2
        simp only [Table.update, List.map_map, List.map_cons, List.mem_cons]
        refine List.map_congr_left fun other _ => ?_
        by_cases hid : other.id = override.id
        · simp [hid]
        · simp [hid]
      · intro later hlater other hmem htarget
        rcases Table.mem_update.mp hmem with ⟨old, hold, hid, rfl⟩ | ⟨hold, -⟩
        · have hformat := hstored override List.mem_cons_self old hold (of_decide_eq_true hid)
          exact hformat.trans_ne (hother later hlater)
        · exact hfree later (List.mem_cons_of_mem _ hlater) other hold htarget
      · intro later hlater other hmem hid
        rcases Table.mem_update.mp hmem with ⟨old, hold, -, rfl⟩ | ⟨hold, -⟩
        · exact hstored later (List.mem_cons_of_mem _ hlater) old hold hid
        · exact hstored later (List.mem_cons_of_mem _ hlater) other hold hid

/-! ## The overrides that stay -/

/-- A source's override that stays: the target has none for its format, and no source's is
older. -/
structure Stays (db : Database) (target : String) (sources : List String)
    (override : FormatOverride) : Prop where
  stored : override ∈ db.formatOverrides
  onSource : override.workId ∈ sources
  unclaimed : ∀ kept ∈ db.formatOverrides, kept.workId = target →
    kept.formatName ≠ override.formatName
  oldest : ∀ other ∈ db.formatOverrides, other.workId ∈ sources →
    other.formatName = override.formatName →
    override.createdAt < other.createdAt ∨
      override.createdAt = other.createdAt ∧ override.id ≤ other.id

theorem olderOverride_eq_false_iff : db.olderOverride sources override = false ↔
    ∀ other ∈ db.formatOverrides, other.workId ∈ sources →
      other.formatName = override.formatName →
      override.createdAt < other.createdAt ∨
        override.createdAt = other.createdAt ∧ override.id ≤ other.id := by
  simp only [Database.olderOverride, List.any_eq_false, decide_eq_true_eq, not_and, not_or, not_lt]
  refine forall₂_congr fun other _ => forall₂_congr fun _ _ => ?_
  constructor
  · rintro ⟨hle, htie⟩
    rcases lt_or_eq_of_le hle with hlt | heq
    · exact .inl hlt
    · exact .inr ⟨heq, htie heq.symm⟩
  · rintro (hlt | ⟨heq, hid⟩)
    · exact ⟨hlt.le, fun hsame => absurd hsame hlt.ne'⟩
    · exact ⟨heq.le, fun _ => hid⟩

/-- What is left of the overrides when the losers are gone. -/
theorem mem_dropLosers : override ∈ (dropLosers db target sources).formatOverrides ↔
    override ∈ db.formatOverrides ∧ override.workId ∉ sources ∨
      Stays db target sources override := by
  simp only [dropLosers, Table.mem_delete, decide_eq_false_iff_not, not_and, not_or,
    Bool.not_eq_true, olderOverride_eq_false_iff, List.any_eq_false, decide_eq_true_eq]
  constructor
  · rintro ⟨hstored, hkept⟩
    by_cases hon : override.workId ∈ sources
    · obtain ⟨hunclaimed, holdest⟩ := hkept hon
      exact .inr ⟨hstored, hon, hunclaimed, holdest⟩
    · exact .inl ⟨hstored, hon⟩
  · rintro (⟨hstored, hoff⟩ | ⟨hstored, -, hunclaimed, holdest⟩)
    · exact ⟨hstored, fun hon => absurd hon hoff⟩
    · exact ⟨hstored, fun _ => ⟨hunclaimed, holdest⟩⟩

/-- No two overrides of one format stay. -/
theorem Stays.eq (hkeyed : OverridesKeyed db) {first second : FormatOverride}
    (hfirst : Stays db target sources first) (hsecond : Stays db target sources second)
    (hformat : first.formatName = second.formatName) : first = second := by
  have hle := hfirst.oldest second hsecond.stored hsecond.onSource hformat.symm
  have hge := hsecond.oldest first hfirst.stored hfirst.onSource hformat
  have hid : first.id = second.id := by
    rcases hle with hlt | ⟨heq, hid⟩
    · rcases hge with hlt' | ⟨heq', -⟩
      · exact absurd hlt hlt'.asymm
      · exact absurd heq' hlt.ne'
    · rcases hge with hlt' | ⟨-, hid'⟩
      · exact absurd heq hlt'.ne'
      · exact le_antisymm hid hid'
  exact hkeyed.ids.eq hfirst.stored hsecond.stored hid

/-- A format that a source overrides and the target does not has an override that stays. -/
theorem exists_stays {source : FormatOverride} (hsource : source ∈ db.formatOverrides)
    (hon : source.workId ∈ sources) (hunclaimed : ∀ kept ∈ db.formatOverrides,
      kept.workId = target → kept.formatName ≠ source.formatName) :
    ∃ override, Stays db target sources override ∧ override.formatName = source.formatName := by
  let own := db.formatOverrides.filter fun override =>
    override.workId ∈ sources ∧ override.formatName = source.formatName
  have hmem : source ∈ own := List.mem_filter.mpr ⟨hsource, by simp [hon]⟩
  cases hfirst : own.argmin fun override =>
      (toLex (override.createdAt, override.id) : ℤ ×ₗ ℕ) with
  | none => simp [List.argmin_eq_none.mp hfirst] at hmem
  | some override =>
      obtain ⟨hstored, hown⟩ := List.mem_filter.mp (List.argmin_mem hfirst)
      obtain ⟨honSource, hformat⟩ := of_decide_eq_true hown
      refine ⟨override, ⟨hstored, honSource, hformat ▸ hunclaimed, ?_⟩, hformat⟩
      intro other hother hotherOn hsame
      have hle := List.le_of_mem_argmin
        (List.mem_filter.mpr ⟨hother, decide_eq_true ⟨hotherOn, hsame.trans hformat⟩⟩) hfirst
      exact Prod.Lex.le_iff.mp hle

/-! ## The merge of overrides -/

theorem mem_mergeFormatOverrides :
    override ∈ (db.mergeFormatOverrides target sources).formatOverrides ↔
      override ∈ db.formatOverrides ∧ override.workId ∉ sources ∨
        ∃ stays, Stays db target sources stays ∧ override = { stays with workId := target } := by
  change override ∈ Table.update (dropLosers db target sources).formatOverrides
    (fun override => override.workId ∈ sources) (fun override => { override with workId := target })
    ↔ _
  rw [Table.mem_update]
  simp only [mem_dropLosers, decide_eq_true_eq, decide_eq_false_iff_not]
  constructor
  · rintro (⟨old, ⟨-, hoff⟩ | hstays, hon, rfl⟩ | ⟨⟨hstored, hoff⟩ | hstays, hnot⟩)
    · exact absurd hon hoff
    · exact .inr ⟨old, hstays, rfl⟩
    · exact .inl ⟨hstored, hoff⟩
    · exact absurd hstays.onSource hnot
  · rintro (⟨hstored, hoff⟩ | ⟨stays, hstays, rfl⟩)
    · exact .inr ⟨.inl ⟨hstored, hoff⟩, hoff⟩
    · exact .inl ⟨stays, .inr hstays, hstays.onSource, rfl⟩

/-- The rows that stay move in any order, and none of them clashes with another. -/
theorem mergeFormatOverrides?_eq (hkeyed : OverridesKeyed db) (rows : RowOrder) :
    mergeFormatOverrides? rows db target sources =
      some (db.mergeFormatOverrides target sources) := by
  let dropped := dropLosers db target sources
  let moving := rows.order (dropped.formatOverrides.filter fun override =>
    override.workId ∈ sources)
  have hmoving : ∀ override, override ∈ moving ↔ Stays db target sources override := by
    intro override
    rw [(rows.perm _).mem_iff, List.mem_filter, mem_dropLosers, decide_eq_true_eq]
    constructor
    · rintro ⟨⟨-, hoff⟩ | hstays, hon⟩
      · exact absurd hon hoff
      · exact hstays
    · exact fun hstays => ⟨.inr hstays, hstays.onSource⟩
  have hsubset : ∀ override ∈ dropped.formatOverrides, override ∈ db.formatOverrides :=
    fun override hmem => (Table.mem_delete.mp hmem).1
  have hnodup : moving.Nodup :=
    (rows.perm _).nodup_iff.mpr ((hkeyed.ids.delete.of_map _).filter _)
  have hrun : moving.foldlM (moveOverride? target) dropped = some { dropped with
      formatOverrides := Table.update dropped.formatOverrides
        (fun other => other.id ∈ moving.map FormatOverride.id)
        fun other => { other with workId := target } } := by
    refine foldlM_moveOverride? (fun override hmem other hother => ?_) ?_ fun override hmem other
      hother hid => ?_
    · exact ((hmoving override).mp hmem).unclaimed other (hsubset other hother)
    · refine hnodup.pairwise_of_forall_ne fun first hfirst second hsecond hne hformat => hne ?_
      exact ((hmoving first).mp hfirst).eq hkeyed ((hmoving second).mp hsecond) hformat
    · rw [hkeyed.ids.eq (hsubset other hother) ((hmoving override).mp hmem).stored hid]
  refine hrun.trans ?_
  -- After the losers are dropped, the rows on a source are exactly those that stay.
  have hsame : ∀ other ∈ dropped.formatOverrides,
      (other.id ∈ moving.map FormatOverride.id ↔ other.workId ∈ sources) := by
    intro other hother
    constructor
    · intro hmem
      obtain ⟨override, hmem, hid⟩ := List.mem_map.mp hmem
      have hstays := (hmoving override).mp hmem
      rw [← hkeyed.ids.eq hstays.stored (hsubset other hother) hid]
      exact hstays.onSource
    · intro hon
      rcases mem_dropLosers.mp hother with ⟨-, hoff⟩ | hstays
      · exact absurd hon hoff
      · exact List.mem_map_of_mem ((hmoving other).mpr hstays)
  have hrows : Table.update dropped.formatOverrides
        (fun other => other.id ∈ moving.map FormatOverride.id)
        (fun other => { other with workId := target }) =
      Table.update dropped.formatOverrides (fun other => other.workId ∈ sources)
        fun other => { other with workId := target } :=
    List.map_congr_left fun other hother => by simp only [hsame other hother]
  rw [hrows]
  rfl

theorem OverridesKeyed.merge (hkeyed : OverridesKeyed db) :
    OverridesKeyed (db.mergeFormatOverrides target sources) where
  ids := hkeyed.ids.delete.update fun _ => rfl
  slots first hfirst second hsecond hwork hformat := by
    rcases mem_mergeFormatOverrides.mp hfirst with ⟨hfirst, -⟩ | ⟨stays, hstays, rfl⟩
    · rcases mem_mergeFormatOverrides.mp hsecond with ⟨hsecond, -⟩ | ⟨other, hother, rfl⟩
      · exact hkeyed.slots first hfirst second hsecond hwork hformat
      · exact absurd hformat (hother.unclaimed first hfirst hwork)
    · rcases mem_mergeFormatOverrides.mp hsecond with ⟨hsecond, -⟩ | ⟨other, hother, rfl⟩
      · exact absurd hformat.symm (hstays.unclaimed second hsecond hwork.symm)
      · rw [hstays.eq hkeyed hother hformat]

end RetroStation.Curation
