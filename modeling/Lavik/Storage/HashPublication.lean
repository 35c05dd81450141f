import Lavik.Storage.GroupRouting
/-!
# Updates that are accepted

An update is accepted when its records belong to the new root, it retires current groups and
revives no retired one, the ranges of its active groups meet neither each other nor the routes that
stay, and the totals of all routes after it are those of the new root.
-/

namespace Lavik.Storage.HashGroupDirectory

open Base OrderedMap HashGroupId

/-- Changes that an update accepts. -/
structure Acceptable (dir : HashGroupDirectory) (root : GroupedHashRoot)
    (changes : List RecoveredHashGroup) : Prop where
  recordable : ∀ change ∈ changes, Recordable root change
  distinct : changes.Pairwise fun earlier later => earlier.id ≠ later.id
  current : ∀ change ∈ changes, change.retired = true → ∃ current, Replaces dir change current
  unretired : ∀ change ∈ changes, change.retired = false → dir.retired.get change.id = none
  apart : ∀ left ∈ changes, left.retired = false → ∀ right ∈ changes, right.retired = false →
    left.id ≠ right.id → left.id.Apart right.id
  separate : ∀ change ∈ changes, change.retired = false → ∀ route ∈ dir.groups.entries,
    (∀ other ∈ changes, other.id ≠ route.2.id) → change.id.Apart route.2.id

variable {memory : RoutingMemory} (granted : ∀ update id, memory update id = true)

include granted

/-- Memory that is granted is reserved. -/
theorem reserved_succeeds {Map : Type} (update : RoutingUpdate) (id : HashGroupId) (updated : Map) :
    reserved memory update id updated = .ok updated :=
  reserved_returns.mpr ⟨granted update id, rfl⟩

variable {dir : HashGroupDirectory} {change : RecoveredHashGroup} {staged : Staged}
  {root : GroupedHashRoot} {changes : List RecoveredHashGroup}

/-- A route that is there can be released. -/
theorem releaseRoute_succeeds (staged : Staged)
    (current : change.retired = true → ∃ current, Replaces dir change current) :
    ∃ after, releaseRoute memory dir staged change = .ok after := by
  by_cases replaces : ∃ cur, Replaces dir change cur
  · obtain ⟨cur, replaced⟩ := replaces
    exact ⟨_, releaseRoute_iff.mpr (.inl ⟨cur, replaced, granted _ _, rfl⟩)⟩
  · have active := Bool.eq_false_iff.mpr (mt current replaces)
    exact ⟨_, releaseRoute_iff.mpr (.inr ⟨not_exists.mp replaces, active, rfl⟩)⟩

/-- The change of a new group can be staged. -/
theorem stageChange_succeeds (recordable : Recordable root change)
    (fresh : staged.writes.get change.id = none)
    (cur : change.retired = true → ∃ cur, Replaces dir change cur) :
    ∃ after, stageChange memory dir root staged change = .ok after := by
  obtain ⟨released, releasing⟩ := releaseRoute_succeeds granted
    { staged with writes := staged.writes.set change.id change } cur
  have recorded : ∃ after, recordRetirement memory released change = .ok after := by
    unfold recordRetirement
    rw [reserved_succeeds granted]
    split <;> exact ⟨_, rfl⟩
  obtain ⟨after, recording⟩ := recorded
  refine ⟨after, ?_⟩
  unfold stageChange
  rw [refuseIf_bind, bind_returns]
  refine ⟨?_, released, releasing, recording⟩
  simp only [not_or, Bool.not_eq_false, not_not, not_lt, not_and, Bool.not_eq_true,
    Option.isSome_eq_false_iff, Option.isNone_iff_eq_none]
  exact ⟨recordable.valid, recordable.incarnation, recordable.sequence, recordable.bounded,
    recordable.emptied, fresh⟩

/-- A route apart from all others can be placed. -/
theorem placeRoute_succeeds (laid : Laid staged.groups) {id : HashGroupId}
    (valid : id.valid = true) (unretired : staged.retired.get id = none)
    (separate : ∀ route ∈ staged.groups.entries, id.Apart route.2.id)
    (change : RecoveredHashGroup) : ∃ after, placeRoute memory staged id change = .ok after := by
  have below : ∀ floor, staged.groups.floor id.prefixWord = some floor →
      floor.2.id.last < id.prefixWord := by
    intro floor found
    obtain ⟨held, low, -⟩ := floor_eq_some found
    have start := laid.first_eq held
    rw [UInt64.le_iff_toNat_le] at low
    rw [UInt64.lt_iff_toNat_lt, toNat_last (laid.placeable floor held).valid]
    have pos := id.width_pos
    have floorPositive := floor.2.id.width_pos
    have apart := separate floor held
    unfold HashGroupId.Apart first at *
    omega
  have above : ∀ later, staged.groups.after id.prefixWord = some later → id.last < later.1 := by
    intro later found
    obtain ⟨held, high, -⟩ := after_eq_some found
    have start := laid.first_eq held
    rw [UInt64.lt_iff_toNat_lt] at high
    rw [UInt64.lt_iff_toNat_lt, toNat_last valid]
    have apart := separate later held
    unfold HashGroupId.Apart first at *
    omega
  exact ⟨_, placeRoute_iff.mpr ⟨unretired, below, granted _ _, above, rfl⟩⟩

variable (total : Total dir) (acceptable : Acceptable dir root changes)

include total acceptable

/-- All that was staged can be placed. -/
theorem places_succeeds (stages : Stages dir root changes staged) :
    ∃ placed, staged.writes.entries.foldlM (placeChange memory) staged = .ok placed ∧
      Places staged staged.writes.entries placed := by
  apply foldlM_succeeds
  · exact ⟨total.laid.mono fun route held => ((stages.kept route).mp held).1, by simp, rfl, by simp,
      stages.tallied⟩
  · intro gone write rest placed whole places
    obtain ⟨change, mem, rfl⟩ := (stages.written write).mp (by simp [whole])
    have recordable := stages.recordable change mem
    suffices returns : ∃ after, placeChange memory placed (change.id, change) = .ok after by
      obtain ⟨after, ret⟩ := returns
      exact ⟨after, ret, places.step recordable.valid recordable.bounded ret⟩
    unfold placeChange
    split
    · exact ⟨placed, rfl⟩
    next unretired =>
    have active : change.retired = false := by simpa using unretired
    have kept : staged.retired.get change.id = none := by
      rw [get_eq_none]
      intro entry listed same
      rcases (stages.remembered entry).mp listed with ⟨other, held, retired, rfl⟩ | ⟨before, -⟩
      · have eq : other = change := by
          have first := (stages.written _).mpr ⟨other, held, rfl⟩
          have second := (stages.written _).mpr ⟨change, mem, rfl⟩
          rw [← same] at second
          exact value_unique first second
        rw [eq, active] at retired
        exact Bool.false_ne_true retired
      · exact get_eq_none.mp (acceptable.unretired change mem active) entry before same
    apply placeRoute_succeeds granted places.laid recordable.valid (places.unchanged ▸ kept)
    intro route held
    rcases (places.routed route).mp held with before | ⟨earlier, done, placedActive, rfl⟩
    · obtain ⟨route_kept, unnamed⟩ := (stages.kept route).mp before
      exact acceptable.separate change mem active route route_kept unnamed
    obtain ⟨other, listed, rfl⟩ := (stages.written earlier).mp (by simp [whole, done])
    apply acceptable.apart change mem active other listed placedActive
    have sorted := staged.writes.sorted
    rw [whole, List.pairwise_append] at sorted
    exact (sorted.2.2 _ done _ (List.mem_cons_self ..)).ne'

/-- Acceptable changes are applied. -/
theorem apply_succeeds {sequence : Nat} (valid : root.valid = true)
    (incarnation : root.incarnation = dir.root.incarnation) (seed : root.seed = dir.root.seed)
    (notOlder : dir.commandSequence ≤ sequence) (newer : dir.sequence < root.revision)
    (ne : changes ≠ []) (totals : ∀ groups, Laid groups → RoutedBy dir changes groups →
      fieldTotal groups = root.fieldCount.toNat ∧ widthTotal groups = UInt64.size ∧
        groups.size = root.groupCount.toNat) :
    ∃ after, dir.apply memory root sequence changes = .ok after := by
  obtain ⟨staged, staging, stages⟩ : ∃ staged, changes.foldlM (stageChange memory dir root)
        ⟨dir.groups, dir.retired, .empty, dir.root.fieldCount, 1#128 <<< 64⟩ = .ok staged ∧
      Stages dir root changes staged := by
    apply foldlM_succeeds
    · exact ⟨by simp, by simp, by simp, by simp [RetiredBy], total.tallied⟩
    · intro gone change rest staged whole stages
      have mem : change ∈ changes := by simp [whole]
      have fresh : staged.writes.get change.id = none := by
        rw [get_eq_none]
        intro write listed
        obtain ⟨earlier, before, rfl⟩ := (stages.written write).mp listed
        have nodup := acceptable.distinct
        rw [whole, List.pairwise_append] at nodup
        exact nodup.2.2 earlier before change (by simp)
      obtain ⟨after, ret⟩ := stageChange_succeeds granted (acceptable.recordable change mem)
        fresh (acceptable.current change mem)
      exact ⟨after, ret, stages.step total.laid ret⟩
  obtain ⟨placed, placing, places⟩ := places_succeeds granted total acceptable stages
  obtain ⟨fields, widths, size⟩ := totals placed.groups places.laid (places.routedBy stages)
  have count : placed.count = root.fieldCount := by
    rw [places.tallied.fields, fields, UInt64.ofNat_toNat]
  have coverage : placed.coverage = 1#128 <<< 64 := by
    rw [places.tallied.widths, widths]
    decide
  refine ⟨_, refuseIf_bind.mpr ⟨?_, bind_returns.mpr ⟨staged, staging, bind_returns.mpr
    ⟨placed, placing, refuseIf_bind.mpr ⟨?_, rfl⟩⟩⟩⟩⟩
  · simp only [not_or, Bool.not_eq_false, not_not, not_lt, not_le]
    exact ⟨valid, incarnation, seed, notOlder, newer, ne⟩
  · simp only [not_or, not_not]
    exact ⟨count, size, coverage⟩

end Lavik.Storage.HashGroupDirectory
