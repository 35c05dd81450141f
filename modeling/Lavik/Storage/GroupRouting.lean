import Lavik.Base.TransitionSystem
import Lavik.Storage.GroupedHash
/-!
# Routing totality of the directory

Recovery walks all routes; an update only checks the neighbours of the groups it places and
compares the total width, and since ranges that do not meet cannot be wider than the space, an
unchanged total leaves no gap.
-/

namespace Lavik.Storage

open Base List OrderedMap HashGroupId

namespace HashGroupId

variable (id : HashGroupId)

def first : Nat := id.prefixWord.toNat

def width : Nat := rangeWidth id.bits.toNat

theorem width_pos : 0 < id.width := rangeWidth_pos _

variable {id : HashGroupId}

theorem valid_iff : id.valid = true ↔ id.bits.toNat ≤ 64 ∧ id.width ∣ id.first := by
  unfold valid
  rw [Bool.and_eq_true, decide_eq_true_eq, decide_eq_true_eq, UInt8.le_iff_toNat_le]
  exact and_congr_right fun bounded => and_not_highMask_eq_zero _ bounded

theorem range_le (valid : id.valid = true) : id.first + id.width ≤ UInt64.size :=
  range_bounded (valid_iff.mp valid).2

theorem contains_iff (valid : id.valid = true) (hash : UInt64) :
    id.contains hash = true ↔ id.first ≤ hash.toNat ∧ hash.toNat < id.first + id.width := by
  obtain ⟨bounded, aligned⟩ := valid_iff.mp valid
  unfold contains
  rw [valid, Bool.true_and, decide_eq_true_eq, ← UInt64.toNat_inj, toNat_and_highMask _ bounded]
  exact div_mul_eq_iff id.width_pos aligned

theorem toNat_last (valid : id.valid = true) : id.last.toNat = id.first + id.width - 1 := by
  obtain ⟨bounded, aligned⟩ := valid_iff.mp valid
  unfold last
  rw [if_pos valid, toNat_or_not_highMask bounded aligned]
  have pos := id.width_pos
  unfold first width at *
  omega

def Apart (left right : HashGroupId) : Prop :=
  left.first + left.width ≤ right.first ∨ right.first + right.width ≤ left.first

theorem apart_of_ordered {Item : Type} {id : Item → HashGroupId} {items : List Item}
    (ordered : items.Pairwise fun left right =>
      (id left).first + (id left).width ≤ (id right).first)
    {left right : Item} (first : left ∈ items) (second : right ∈ items) (ne : left ≠ right) :
    (id left).Apart (id right) := by
  have symmetric : Std.Symm fun left right => (id left).Apart (id right) := ⟨fun _ _ => Or.symm⟩
  exact (ordered.imp (S := fun left right => (id left).Apart (id right)) Or.inl).forall first
    second ne

end HashGroupId

namespace HashGroupDirectory

/-! ## Routes that do not meet -/

structure Placeable (group : RecoveredHashGroup) : Prop where
  valid : group.id.valid = true
  active : group.retired = false
  bounded : group.fieldCount.toNat ≤ maxU32

variable (groups : OrderedMap UInt64 RecoveredHashGroup)

structure Laid : Prop where
  keyed : ∀ route ∈ groups.entries, route.2.id.prefixWord = route.1
  placeable : ∀ route ∈ groups.entries, Placeable route.2
  apart : ∀ left ∈ groups.entries, ∀ right ∈ groups.entries, left.1 ≠ right.1 →
    left.2.id.Apart right.2.id

def fieldTotal : Nat :=
  (groups.entries.map fun route => route.2.fieldCount.toNat).sum

def widthTotal : Nat :=
  (groups.entries.map fun route => route.2.id.width).sum

variable {groups : OrderedMap UInt64 RecoveredHashGroup}

theorem Laid.mono {fewer : OrderedMap UInt64 RecoveredHashGroup} (laid : Laid groups)
    (subset : ∀ route ∈ fewer.entries, route ∈ groups.entries) : Laid fewer where
  keyed := fun route held => laid.keyed route (subset route held)
  placeable := fun route held => laid.placeable route (subset route held)
  apart := fun left first right second =>
    laid.apart left (subset left first) right (subset right second)

theorem Laid.set (laid : Laid groups) {group : RecoveredHashGroup} (placeable : Placeable group)
    (separate : ∀ route ∈ groups.entries, group.id.Apart route.2.id) :
    Laid (groups.set group.id.prefixWord group) where
  keyed route held := by
    rcases mem_set.mp held with rfl | ⟨before, -⟩
    exacts [rfl, laid.keyed route before]
  placeable route held := by
    rcases mem_set.mp held with rfl | ⟨before, -⟩
    exacts [placeable, laid.placeable route before]
  apart := by
    intro left first right second ne
    rcases mem_set.mp first with rfl | ⟨leftBefore, -⟩
    · rcases mem_set.mp second with rfl | ⟨rightBefore, -⟩
      · exact (ne rfl).elim
      · exact separate right rightBefore
    · rcases mem_set.mp second with rfl | ⟨rightBefore, -⟩
      · exact (separate left leftBefore).symm
      · exact laid.apart left leftBefore right rightBefore ne

variable {route : UInt64 × RecoveredHashGroup} {id : HashGroupId} {count start next : UInt64}
  {placed : Staged} {routes : Routes} {candidate : RecoveredHashGroup} {done : Unit}

section

variable (laid : Laid groups)

include laid

theorem Laid.first_eq (held : route ∈ groups.entries) : route.2.id.first = route.1.toNat := by
  unfold first
  rw [laid.keyed route held]

theorem Laid.separate (valid : id.valid = true)
    (below : ∀ floor, groups.floor id.prefixWord = some floor → floor.2.id.last < id.prefixWord)
    (above : ∀ after, groups.after id.prefixWord = some after → id.last < after.1) :
    ∀ route ∈ groups.entries, id.Apart route.2.id := by
  intro route held
  by_cases low : route.1 ≤ id.prefixWord
  · right
    cases found : groups.floor id.prefixWord with
    | none =>
      have higher := floor_eq_none.mp found route held
      exact (not_lt.mpr low higher).elim
    | some floor =>
      obtain ⟨mem, -, greatest⟩ := floor_eq_some found
      have lower := UInt64.le_iff_toNat_le.mp (greatest route held low)
      have ended := below floor found
      rw [UInt64.lt_iff_toNat_lt, toNat_last (laid.placeable floor mem).valid] at ended
      by_cases same : route.1 = floor.1
      · have eq : route.2 = floor.2 := value_unique held (same ▸ mem)
        rw [eq]
        exact Nat.le_of_pred_lt ended
      have routeFirst := laid.first_eq held
      have floorFirst := laid.first_eq mem
      have ne : route.1.toNat ≠ floor.1.toNat := fun eq => same (UInt64.toNat_inj.mp eq)
      change _ ≤ id.prefixWord.toNat
      rcases laid.apart route held floor mem same with before | behind <;> omega
  · left
    cases found : groups.after id.prefixWord with
    | none => exact (low (after_eq_none.mp found route held)).elim
    | some after =>
      obtain ⟨-, -, least⟩ := after_eq_some found
      have higher := UInt64.le_iff_toNat_le.mp (least route held (not_le.mp low))
      have ended := above after found
      rw [UInt64.lt_iff_toNat_lt, toNat_last valid] at ended
      have routeFirst := laid.first_eq held
      omega

theorem Laid.pairwise : groups.entries.Pairwise fun left right => left.2.id.Apart right.2.id := by
  apply groups.sorted.imp_of_mem
  intro left right first second less
  exact laid.apart left first right second less.ne

theorem Laid.widthTotal_le : widthTotal groups ≤ UInt64.size :=
  width_sum_le (fun route held => range_le (laid.placeable route held).valid) laid.pairwise

theorem Laid.covered (full : widthTotal groups = UInt64.size) (hash : UInt64) :
    ∃ route ∈ groups.entries, route.2.id.contains hash = true := by
  obtain ⟨route, held, inside⟩ := covered_of_width_sum
    (fun route held => range_le (laid.placeable route held).valid) laid.pairwise full
    hash.toNat_lt
  exact ⟨route, held, (contains_iff (laid.placeable route held).valid hash).mpr inside⟩

end

/-! ## Running totals -/

/-- The field count and the coverage are those of the routes, as far as their words hold them. -/
structure Tallied (groups : OrderedMap UInt64 RecoveredHashGroup) (count : UInt64)
    (coverage : BitVec 128) : Prop where
  fields : count = UInt64.ofNat (fieldTotal groups)
  widths : coverage = BitVec.ofNat 128 (widthTotal groups)

theorem rangeCoverage_eq (id : HashGroupId) : rangeCoverage id = BitVec.ofNat 128 id.width := by
  apply BitVec.eq_of_toNat_eq
  rw [rangeCoverage, BitVec.toNat_shiftLeft, BitVec.toNat_ofNat, BitVec.toNat_ofNat,
    Nat.shiftLeft_eq, width, rangeWidth]
  simp

variable {coverage : BitVec 128}

theorem Tallied.erase (tallied : Tallied groups count coverage) {cur : RecoveredHashGroup}
    (found : groups.get start = some cur) :
    Tallied (groups.erase start) (count - cur.fieldCount) (coverage - rangeCoverage cur.id) where
  fields := by
    rw [tallied.fields, fieldTotal, sum_erase found, add_comm, UInt64.ofNat_add,
      UInt64.ofNat_toNat, UInt64.add_sub_cancel, fieldTotal]
  widths := by
    rw [tallied.widths, widthTotal, sum_erase found, add_comm, BitVec.ofNat_add,
      rangeCoverage_eq, BitVec.add_sub_cancel, widthTotal]

theorem Tallied.set (tallied : Tallied groups count coverage) (absent : groups.get start = none)
    (group : RecoveredHashGroup) :
    Tallied (groups.set start group) (count + group.fieldCount)
      (coverage + rangeCoverage group.id) where
  fields := by
    have total : fieldTotal (groups.set start group) =
        group.fieldCount.toNat + fieldTotal groups := sum_set groups group absent _
    rw [tallied.fields, total, add_comm, UInt64.ofNat_add, UInt64.ofNat_toNat]
  widths := by
    have total : widthTotal (groups.set start group) = group.id.width + widthTotal groups :=
      sum_set groups group absent _
    rw [tallied.widths, total, rangeCoverage_eq, ← BitVec.ofNat_add, add_comm]

theorem Laid.fieldTotal_lt (laid : Laid groups) (few : groups.size ≤ maxU32) :
    fieldTotal groups < UInt64.size := by
  have each : fieldTotal groups ≤ groups.entries.length * maxU32 := by
    rw [← length_map (f := fun route : UInt64 × RecoveredHashGroup =>
      route.2.fieldCount.toNat)]
    apply sum_le_card_nsmul
    intro fields mem
    obtain ⟨route, held, rfl⟩ := mem_map.mp mem
    exact (laid.placeable route held).bounded
  rw [size_eq] at few
  have bound := Nat.mul_le_mul_right maxU32 few
  have small : maxU32 * maxU32 < UInt64.size := by decide
  omega

variable {root : GroupedHashRoot}

theorem Tallied.exact (tallied : Tallied groups root.fieldCount coverage) (laid : Laid groups)
    (sized : groups.size = root.groupCount.toNat) (full : coverage = 1#128 <<< 64) :
    fieldTotal groups = root.fieldCount.toNat ∧ widthTotal groups = UInt64.size := by
  constructor
  · have few : groups.size ≤ maxU32 := by
      have bounded := root.groupCount.toNat_lt
      unfold maxU32
      omega
    have small := laid.fieldTotal_lt few
    rw [tallied.fields, UInt64.toNat_ofNat']
    exact (Nat.mod_eq_of_lt small).symm
  · have narrow := laid.widthTotal_le
    have eq : (BitVec.ofNat 128 (widthTotal groups)).toNat = UInt64.size := by
      rw [← tallied.widths, full]
      decide
    rw [BitVec.toNat_ofNat, Nat.mod_eq_of_lt] at eq
    · exact eq
    · exact lt_of_le_of_lt narrow (by decide)

/-! ## The first pass of an update -/

variable {memory : RoutingMemory}

theorem reserved_returns {Map : Type} {update : RoutingUpdate} {updated after : Map} :
    reserved memory update id updated = .ok after ↔ memory update id = true ∧ updated = after := by
  unfold reserved
  split <;> simp_all

structure Recordable (root : GroupedHashRoot) (change : RecoveredHashGroup) : Prop where
  valid : change.id.valid = true
  incarnation : change.incarnation = root.incarnation
  sequence : change.sequence = root.revision
  bounded : change.fieldCount.toNat ≤ maxU32
  emptied : change.retired = true → change.fieldCount = 0

def Replaces (dir : HashGroupDirectory) (change current : RecoveredHashGroup) : Prop :=
  (change.id.prefixWord, current) ∈ dir.groups.entries ∧ current.id = change.id

variable {dir : HashGroupDirectory} {staged after : Staged} {change : RecoveredHashGroup}

theorem releaseRoute_iff : releaseRoute memory dir staged change = .ok after ↔
    (∃ cur, Replaces dir change cur ∧ memory .erase change.id = true ∧ { staged with
        groups := staged.groups.erase change.id.prefixWord
        count := staged.count - cur.fieldCount
        coverage := staged.coverage - rangeCoverage cur.id } = after) ∨
    ((∀ cur, ¬Replaces dir change cur) ∧ change.retired = false ∧ staged = after) := by
  unfold releaseRoute
  split
  · next absent =>
    have none : ∀ cur, ¬Replaces dir change cur := fun cur replaced =>
      get_eq_none.mp absent _ replaced.1 rfl
    simp [refuseIf_bind, none]
  · next cur found =>
    have own : ∀ other, Replaces dir change other ↔ other = cur ∧ cur.id = change.id := by
      intro other
      constructor
      · intro replaced
        obtain rfl := value_unique (get_eq_some.mp found) replaced.1
        exact ⟨rfl, replaced.2⟩
      · rintro ⟨rfl, same⟩
        exact ⟨get_eq_some.mp found, same⟩
    split
    · next same => simp [bind_returns, reserved_returns, own, same]
    · next other => simp [refuseIf_bind, own, other]

theorem recordRetirement_returns (ret : recordRetirement memory staged change = .ok after) :
    after = { staged with
      retired := if change.retired then staged.retired.set change.id change
        else staged.retired } := by
  unfold recordRetirement at ret
  split at ret
  · next retired =>
    obtain ⟨map, reservation, stored⟩ := bind_returns.mp ret
    obtain ⟨-, rfl⟩ := reserved_returns.mp reservation
    cases stored
    rw [if_pos retired]
  · next active =>
    cases ret
    rw [if_neg active]

/-- The retired groups after an update: those no retiring change names, and the retiring changes. -/
def RetiredBy (dir : HashGroupDirectory) (changes : List RecoveredHashGroup)
    (retired : OrderedMap HashGroupId RecoveredHashGroup) : Prop :=
  ∀ entry, entry ∈ retired.entries ↔
    (∃ change ∈ changes, change.retired = true ∧ entry = (change.id, change)) ∨
      entry ∈ dir.retired.entries ∧ ∀ change ∈ changes, change.retired = true → change.id ≠ entry.1

structure Stages (dir : HashGroupDirectory) (root : GroupedHashRoot)
    (changes : List RecoveredHashGroup) (staged : Staged) : Prop where
  recordable : ∀ change ∈ changes, Recordable root change
  written : ∀ write, write ∈ staged.writes.entries ↔ ∃ change ∈ changes, write = (change.id, change)
  kept : ∀ route, route ∈ staged.groups.entries ↔
    route ∈ dir.groups.entries ∧ ∀ change ∈ changes, change.id ≠ route.2.id
  remembered : RetiredBy dir changes staged.retired
  tallied : Tallied staged.groups staged.count staged.coverage

theorem Laid.replaces_iff (laid : Laid dir.groups) (held : route ∈ dir.groups.entries) :
    Replaces dir change route.2 ↔ change.id = route.2.id := by
  constructor
  · intro replaced
    exact replaced.2.symm
  · intro same
    refine ⟨?_, same.symm⟩
    rw [same, laid.keyed route held]
    exact held

variable {changes : List RecoveredHashGroup}

theorem Stages.release (laid : Laid dir.groups) {released : Staged}
    (stages : Stages dir root changes staged)
    (fresh : ∀ earlier ∈ changes, earlier.id ≠ change.id)
    (ret : releaseRoute memory dir
      { staged with writes := staged.writes.set change.id change } change = .ok released) :
    (∀ route, route ∈ released.groups.entries ↔ route ∈ dir.groups.entries ∧
        ∀ other ∈ changes ++ [change], other.id ≠ route.2.id) ∧
      Tallied released.groups released.count released.coverage ∧
      released.writes = staged.writes.set change.id change ∧ released.retired = staged.retired := by
  rcases releaseRoute_iff.mp ret with ⟨current, replaced, -, rfl⟩ | ⟨none, -, rfl⟩
  · have found : staged.groups.get change.id.prefixWord = some current := by
      rw [get_eq_some, stages.kept]
      refine ⟨replaced.1, fun earlier before => ?_⟩
      rw [replaced.2]
      exact fresh earlier before
    refine ⟨?_, stages.tallied.erase found, rfl, rfl⟩
    intro route
    rw [mem_erase, stages.kept, and_assoc]
    apply and_congr_right
    intro held
    have named : route.1 ≠ change.id.prefixWord ↔ change.id ≠ route.2.id := by
      apply not_congr
      constructor
      · intro same
        rw [value_unique (same ▸ held : (change.id.prefixWord, route.2) ∈ _) replaced.1]
        exact replaced.2.symm
      · intro same
        rw [same, laid.keyed route held]
    simp [named, or_imp, forall_and]
  · refine ⟨?_, stages.tallied, rfl, rfl⟩
    intro route
    rw [stages.kept]
    apply and_congr_right
    intro held
    have other : change.id ≠ route.2.id := fun same =>
      none route.2 ((laid.replaces_iff held).mpr same)
    simp [other, or_imp, forall_and]

theorem Stages.step (laid : Laid dir.groups) (stages : Stages dir root changes staged)
    (ret : stageChange memory dir root staged change = .ok after) :
    Stages dir root (changes ++ [change]) after := by
  obtain ⟨guards, cont⟩ := refuseIf_bind.mp ret
  simp only [not_or, not_and, Bool.not_eq_false, not_not, not_lt, Bool.not_eq_true,
    Option.isSome_eq_false_iff, Option.isNone_iff_eq_none] at guards
  obtain ⟨valid, incarnation, sequence, bounded, emptied, absent⟩ := guards
  have recordable : Recordable root change := ⟨valid, incarnation, sequence, bounded, emptied⟩
  obtain ⟨released, releasing, recording⟩ := bind_returns.mp cont
  have fresh : ∀ earlier ∈ changes, earlier.id ≠ change.id := fun earlier before =>
    get_eq_none.mp absent _ ((stages.written _).mpr ⟨earlier, before, rfl⟩)
  obtain ⟨kept, tallied, writes, retired⟩ := stages.release laid fresh releasing
  rw [recordRetirement_returns recording]
  constructor
  case recordable =>
    exact forall_mem_append.mpr ⟨stages.recordable, forall_mem_singleton.mpr recordable⟩
  case written =>
    intro write
    rw [writes, OrderedMap.mem_set, stages.written]
    constructor
    · rintro (rfl | ⟨⟨earlier, before, rfl⟩, -⟩)
      · exact ⟨change, by simp, rfl⟩
      · exact ⟨earlier, by simp [before], rfl⟩
    · rintro ⟨other, held, rfl⟩
      rcases mem_append.mp held with before | last
      · exact .inr ⟨⟨other, before, rfl⟩, fresh other before⟩
      · exact .inl (by rw [mem_singleton.mp last])
  case kept => exact kept
  case remembered =>
    intro entry
    have before := stages.remembered entry
    by_cases retiring : change.retired = true
    · simp only [if_pos retiring, OrderedMap.mem_set, retired, before]
      grind
    · simp only [if_neg retiring, retired, before]
      grind
  case tallied => exact tallied

/-! ## The second pass of an update -/

theorem placeRoute_iff : placeRoute memory staged id change = .ok after ↔
    staged.retired.get id = none ∧
      (∀ floor, staged.groups.floor id.prefixWord = some floor → floor.2.id.last < id.prefixWord) ∧
      memory .insert id = true ∧
      (∀ later, staged.groups.after id.prefixWord = some later → id.last < later.1) ∧
      { staged with
        groups := staged.groups.set id.prefixWord change
        count := staged.count + change.fieldCount
        coverage := staged.coverage + rangeCoverage id } = after := by
  rw [placeRoute, refuseIf_bind, refuseIf_bind, bind_returns]
  cases floor : staged.groups.floor id.prefixWord <;>
    cases later : staged.groups.after id.prefixWord <;>
    simp [reserved_returns, refuseIf_bind, after_set_self, later]

structure Places (staged : Staged) (writes : List (HashGroupId × RecoveredHashGroup))
    (placed : Staged) : Prop where
  laid : Laid placed.groups
  routed : ∀ route, route ∈ placed.groups.entries ↔ route ∈ staged.groups.entries ∨
    ∃ write ∈ writes, write.2.retired = false ∧ route = (write.1.prefixWord, write.2)
  unchanged : placed.retired = staged.retired
  unretired : ∀ write ∈ writes, write.2.retired = false → staged.retired.get write.1 = none
  tallied : Tallied placed.groups placed.count placed.coverage

theorem Laid.absent (laid : Laid groups)
    (separate : ∀ route ∈ groups.entries, id.Apart route.2.id) :
    groups.get id.prefixWord = none := by
  rw [get_eq_none]
  intro route held same
  have first := laid.first_eq held
  rw [same] at first
  have pos := id.width_pos
  have routePositive := route.2.id.width_pos
  rcases separate route held with before | behind <;> unfold HashGroupId.first at * <;> omega

theorem Places.step {writes : List (HashGroupId × RecoveredHashGroup)}
    (places : Places staged writes placed) (valid : change.id.valid = true)
    (bounded : change.fieldCount.toNat ≤ maxU32)
    (ret : placeChange memory placed (change.id, change) = .ok after) :
    Places staged (writes ++ [(change.id, change)]) after := by
  unfold placeChange at ret
  split at ret
  · next retired =>
    have retiring : change.retired = true := retired
    cases ret
    refine { places with
      routed := fun route => ?_
      unretired := forall_mem_append.mpr
        ⟨places.unretired, forall_mem_singleton.mpr fun active => ?_⟩ }
    · rw [places.routed]
      simp [retiring, or_and_right, exists_or]
    · exact (Bool.false_ne_true (active.symm.trans retired)).elim
  · next active =>
    obtain ⟨unretired, below, -, above, rfl⟩ := placeRoute_iff.mp ret
    have separate := places.laid.separate valid below above
    have absent := places.laid.absent separate
    have placeable : Placeable change := ⟨valid, by simpa using active, bounded⟩
    constructor
    case laid => exact places.laid.set placeable separate
    case routed =>
      intro route
      rw [OrderedMap.mem_set]
      constructor
      · rintro (rfl | ⟨held, -⟩)
        · exact .inr ⟨(change.id, change), by simp, placeable.active, rfl⟩
        · rcases (places.routed route).mp held with before | ⟨write, mem, kept⟩
          · exact .inl before
          · exact .inr ⟨write, mem_append_left _ mem, kept⟩
      · have others : ∀ held ∈ placed.groups.entries, held.1 ≠ change.id.prefixWord :=
          get_eq_none.mp absent
        rintro (before | ⟨write, mem, kept, rfl⟩)
        · have held := (places.routed route).mpr (.inl before)
          exact .inr ⟨held, others route held⟩
        · rcases mem_append.mp mem with earlier | last
          · have held := (places.routed _).mpr (.inr ⟨write, earlier, kept, rfl⟩)
            exact .inr ⟨held, others _ held⟩
          · rw [mem_singleton.mp last]
            exact .inl rfl
    case unchanged => exact places.unchanged
    case unretired =>
      rw [places.unchanged] at unretired
      exact forall_mem_append.mpr ⟨places.unretired, forall_mem_singleton.mpr fun _ => unretired⟩
    case tallied => exact places.tallied.set absent change

/-! ## Total routing -/

/-- The routes of a directory partition the hash space and add up to its root. -/
structure Total (dir : HashGroupDirectory) : Prop where
  laid : Laid dir.groups
  filled : widthTotal dir.groups = UInt64.size
  counted : fieldTotal dir.groups = dir.root.fieldCount.toNat
  sized : dir.groups.size = dir.root.groupCount.toNat
  unretired : ∀ route ∈ dir.groups.entries, dir.retired.get route.2.id = none

theorem Total.tallied (total : Total dir) :
    Tallied dir.groups dir.root.fieldCount (1#128 <<< 64) where
  fields := by rw [total.counted, UInt64.ofNat_toNat]
  widths := by
    rw [total.filled]
    decide

/-- The routes after an update: those no change names, and the active changes. -/
def RoutedBy (dir : HashGroupDirectory) (changes : List RecoveredHashGroup)
    (groups : OrderedMap UInt64 RecoveredHashGroup) : Prop :=
  ∀ route, route ∈ groups.entries ↔
    (route ∈ dir.groups.entries ∧ ∀ change ∈ changes, change.id ≠ route.2.id) ∨
      ∃ change ∈ changes, change.retired = false ∧ route = (change.id.prefixWord, change)

theorem Places.routedBy (places : Places staged staged.writes.entries placed)
    (stages : Stages dir root changes staged) : RoutedBy dir changes placed.groups := by
  intro route
  rw [places.routed, stages.kept]
  apply or_congr_right
  constructor
  · rintro ⟨write, mem, active, rfl⟩
    obtain ⟨change, held, rfl⟩ := (stages.written write).mp mem
    exact ⟨change, held, active, rfl⟩
  · rintro ⟨change, held, active, rfl⟩
    exact ⟨(change.id, change), (stages.written _).mpr ⟨change, held, rfl⟩, active, rfl⟩

/-- What an update that returns did: it was newer, its changes are records of the new root with
distinct identities, and the routes and retired groups are those of the changes and those no change
names. -/
structure Applied (dir : HashGroupDirectory) (root : GroupedHashRoot) (sequence : Nat)
    (changes : List RecoveredHashGroup) (after : HashGroupDirectory) : Prop where
  valid : root.valid = true
  incarnation : root.incarnation = dir.root.incarnation
  seed : root.seed = dir.root.seed
  newer : dir.sequence < root.revision
  recordable : ∀ change ∈ changes, Recordable root change
  named : ∀ left ∈ changes, ∀ right ∈ changes, left.id = right.id → left = right
  header : after.root = root ∧ after.sequence = root.revision ∧ after.commandSequence = sequence
  routed : RoutedBy dir changes after.groups
  remembered : RetiredBy dir changes after.retired
  total : Total after

theorem places_of_returns (total : Total dir) (stages : Stages dir root changes staged)
    (ret : staged.writes.entries.foldlM (placeChange memory) staged = .ok placed) :
    Places staged staged.writes.entries placed := by
  apply foldlM_invariant _ _ ret
  · exact ⟨total.laid.mono fun route held => ((stages.kept route).mp held).1, by simp, rfl, by simp,
      stages.tallied⟩
  · intro gone write rest placed after whole places step
    obtain ⟨change, mem, rfl⟩ := (stages.written write).mp (by simp [whole])
    have recordable := stages.recordable change mem
    exact places.step recordable.valid recordable.bounded step

theorem apply_returns {after : HashGroupDirectory} (total : Total dir) {sequence : Nat}
    (ret : dir.apply memory root sequence changes = .ok after) :
    Applied dir root sequence changes after := by
  obtain ⟨guards, cont⟩ := refuseIf_bind.mp ret
  obtain ⟨staged, staging, cont⟩ := bind_returns.mp cont
  obtain ⟨placed, placing, cont⟩ := bind_returns.mp cont
  obtain ⟨aggregates, stored⟩ := refuseIf_bind.mp cont
  cases stored
  have stages : Stages dir root changes staged := by
    apply foldlM_invariant _ (fun _ _ _ _ _ _ stages => stages.step total.laid) staging
    exact ⟨by simp, by simp, by simp, by simp [RetiredBy], total.tallied⟩
  have places := places_of_returns total stages placing
  simp only [not_or, Bool.not_eq_false, not_not, not_le] at guards aggregates
  obtain ⟨valid, incarnation, seed, -, newer, -⟩ := guards
  obtain ⟨count, sized, coverage⟩ := aggregates
  have routed := places.routedBy stages
  have remembered := stages.remembered
  rw [← places.unchanged] at remembered
  have exact_totals := Tallied.exact (count ▸ places.tallied) places.laid sized coverage
  have named : ∀ left ∈ changes, ∀ right ∈ changes, left.id = right.id → left = right := by
    intro left first right second same
    have firstWritten := (stages.written _).mpr ⟨left, first, rfl⟩
    have secondWritten := (stages.written _).mpr ⟨right, second, rfl⟩
    rw [same] at firstWritten
    exact value_unique firstWritten secondWritten
  refine ⟨valid, incarnation, seed, newer, stages.recordable, named,
    ⟨rfl, rfl, rfl⟩, routed, remembered, places.laid, exact_totals.2, exact_totals.1, sized, ?_⟩
  intro route held
  rcases (routed route).mp held with ⟨before, unnamed⟩ | ⟨change, mem, active, rfl⟩
  · rw [get_eq_none]
    rintro entry listed same
    rcases (remembered entry).mp listed with ⟨change, mem, -, rfl⟩ | ⟨earlier, -⟩
    · exact unnamed change mem same
    · exact get_eq_none.mp (total.unretired route before) entry earlier same
  · show placed.retired.get change.id = none
    rw [places.unchanged]
    exact places.unretired (change.id, change) ((stages.written _).mpr ⟨change, mem, rfl⟩) active

/-! ## Recovery -/

structure Routing (root : GroupedHashRoot) (winners : List (HashGroupId × RecoveredHashGroup))
    (routes : Routes) : Prop where
  routed : ∀ route, route ∈ routes.groups.entries ↔
    ∃ winner ∈ winners, winner.2.retired = false ∧ route = (winner.1.prefixWord, winner.2)
  remembered : ∀ entry, entry ∈ routes.retired.entries ↔ entry ∈ winners ∧ entry.2.retired = true
  counted : routes.count.toNat = fieldTotal routes.groups
  bounded : routes.count ≤ root.fieldCount

theorem addRoute_returns {after : Routes}
    (ret : addRoute memory root routes id candidate = .ok after) :
    candidate.fieldCount ≤ root.fieldCount - routes.count ∧ routes.groups.get id.prefixWord = none ∧
      after = { routes with
        groups := routes.groups.set id.prefixWord candidate
        count := routes.count + candidate.fieldCount } := by
  obtain ⟨guards, cont⟩ := refuseIf_bind.mp ret
  obtain ⟨groups, reservation, stored⟩ := bind_returns.mp cont
  obtain ⟨-, rfl⟩ := reserved_returns.mp reservation
  cases stored
  rw [not_or] at guards
  exact ⟨not_lt.mp guards.1, by simpa using guards.2, rfl⟩

theorem Routing.step {winners : List (HashGroupId × RecoveredHashGroup)} {after : Routes}
    (routing : Routing root winners routes) {winner : HashGroupId × RecoveredHashGroup}
    (fresh : ∀ earlier ∈ winners, earlier.1 ≠ winner.1)
    (ret : addWinner memory root routes winner = .ok after) :
    Routing root (winners ++ [winner]) after := by
  unfold addWinner at ret
  split at ret
  · next retired =>
    obtain ⟨map, reservation, stored⟩ := bind_returns.mp ret
    obtain ⟨-, rfl⟩ := reserved_returns.mp reservation
    cases stored
    constructor
    case routed =>
      intro route
      rw [routing.routed]
      simp only [mem_append, mem_singleton, or_and_right, exists_or, exists_eq_left,
        retired, Bool.true_eq_false, false_and, or_false]
    case remembered =>
      intro entry
      rw [OrderedMap.mem_set, routing.remembered]
      grind
    case counted => exact routing.counted
    case bounded => exact routing.bounded
  · next active =>
    obtain ⟨fits, absent, rfl⟩ := addRoute_returns ret
    have others := get_eq_none.mp absent
    have room : winner.2.fieldCount.toNat ≤ root.fieldCount.toNat - routes.count.toNat := by
      rw [← UInt64.toNat_sub_of_le _ _ routing.bounded]
      exact UInt64.le_iff_toNat_le.mp fits
    have bounded := UInt64.le_iff_toNat_le.mp routing.bounded
    have sum : (routes.count + winner.2.fieldCount).toNat =
        routes.count.toNat + winner.2.fieldCount.toNat := by
      rw [UInt64.toNat_add, Nat.mod_eq_of_lt]
      have small := root.fieldCount.toNat_lt
      omega
    constructor
    case routed =>
      intro route
      rw [OrderedMap.mem_set, and_iff_left_of_imp (others route), routing.routed]
      simp only [mem_append, mem_singleton, or_and_right, exists_or, exists_eq_left,
        active, true_and]
      exact or_comm
    case remembered =>
      intro entry
      rw [routing.remembered]
      grind
    case counted =>
      have total : fieldTotal (routes.groups.set winner.1.prefixWord winner.2) =
          winner.2.fieldCount.toNat + fieldTotal routes.groups :=
        sum_set routes.groups winner.2 absent _
      rw [sum, total, routing.counted, add_comm]
    case bounded =>
      rw [UInt64.le_iff_toNat_le, sum]
      omega

theorem routing_of_returns {winners : OrderedMap HashGroupId RecoveredHashGroup}
    (ret : winners.entries.foldlM (addWinner memory root) ⟨.empty, .empty, 0⟩ = .ok routes) :
    Routing root winners.entries routes := by
  apply foldlM_invariant _ _ ret
  · exact ⟨by simp, by simp, rfl, UInt64.le_iff_toNat_le.mpr (Nat.zero_le _)⟩
  · intro gone winner rest state after whole routing step
    apply routing.step _ step
    have sorted := winners.sorted
    rw [whole, pairwise_append] at sorted
    exact fun earlier before => (sorted.2.2 earlier before winner (by simp)).ne

theorem checkRoutes_complete {routes : List (UInt64 × RecoveredHashGroup)} :
    checkRoutes next true routes = .ok done ↔ routes = [] := by
  cases routes <;> simp [checkRoutes, refuseIf_bind, refuseIf_returns]

/-- The walk over the routes from a hash accepts those that start there, follow each other, and
fill the rest of the hash space. -/
theorem checkRoutes_iff {routes : List (UInt64 × RecoveredHashGroup)}
    (keyed : ∀ route ∈ routes, route.2.id.prefixWord = route.1)
    (valid : ∀ route ∈ routes, route.2.id.valid = true) :
    checkRoutes next false routes = .ok done ↔
      (∀ route ∈ routes, next.toNat ≤ route.2.id.first) ∧
      routes.Pairwise (fun left right => left.2.id.first + left.2.id.width ≤ right.2.id.first) ∧
      (routes.map fun route => route.2.id.width).sum + next.toNat = UInt64.size := by
  induction routes generalizing next with
  | nil =>
    have bounded : next.toNat < UInt64.size := next.toNat_lt
    simp [checkRoutes, refuseIf_returns, bounded.ne]
  | cons route rest ih =>
    obtain ⟨start, cand⟩ := route
    simp only [forall_mem_cons] at keyed valid
    have last := toNat_last valid.1
    have pos := cand.id.width_pos
    have inside := range_le valid.1
    have here : start = next ↔ cand.id.first = next.toNat := by
      rw [← UInt64.toNat_inj, first, keyed.1]
    have final : cand.id.last = lastHash ↔ cand.id.first + cand.id.width = UInt64.size := by
      rw [← UInt64.toNat_inj, last]
      show _ = UInt64.size - 1 ↔ _
      omega
    simp only [checkRoutes, refuseIf_bind, Bool.false_eq_true, false_or, not_not, here, final,
      forall_mem_cons, pairwise_cons, map_cons, sum_cons]
    -- what lies behind the first route cannot be wider than the space behind it
    have behind : (∀ route ∈ rest, cand.id.first + cand.id.width ≤ route.2.id.first) →
        rest.Pairwise (fun left right => left.2.id.first + left.2.id.width ≤ right.2.id.first) →
        (rest.map fun route => route.2.id.width).sum + (cand.id.first + cand.id.width) ≤
          UInt64.size :=
      width_sum_le_above (fun route mem => range_le (valid.2 route mem)) inside
    split
    · next ended =>
      rw [checkRoutes_complete]
      constructor
      · rintro ⟨starts, rfl⟩
        simp
        omega
      · rintro ⟨⟨above, -⟩, ⟨follow, ordered⟩, full⟩
        have bound := behind follow ordered
        refine ⟨by omega, ?_⟩
        cases rest with
        | nil => rfl
        | cons other more =>
          have otherPos := other.2.id.width_pos
          rw [map_cons, sum_cons] at bound
          omega
    · next more =>
      have following : (cand.id.last + 1).toNat = cand.id.first + cand.id.width := by
        rw [UInt64.toNat_add, Nat.mod_eq_of_lt]
        · show cand.id.last.toNat + 1 = _
          omega
        · show cand.id.last.toNat + 1 < UInt64.size
          omega
      rw [ih keyed.2 valid.2, following]
      constructor
      · rintro ⟨starts, follow, ordered, full⟩
        refine ⟨⟨starts.ge, fun route mem => ?_⟩, ⟨follow, ordered⟩, by omega⟩
        have bound := follow route mem
        omega
      · rintro ⟨⟨above, -⟩, ⟨follow, ordered⟩, full⟩
        have bound := behind follow ordered
        exact ⟨by omega, follow, ordered, by omega⟩

/-- What a recovery that returns did: it kept the latest admitted record of every identity, and the
routes and retired groups are those winners. -/
structure Recovered (root : GroupedHashRoot) (rootSequence : Nat)
    (candidates : List RecoveredHashGroup) (committed : List Nat)
    (winners : OrderedMap HashGroupId RecoveredHashGroup) (dir : HashGroupDirectory) :
    Prop where
  valid : root.valid = true
  holds : (winnerReader root committed).Holds
    (candidates.filter fun candidate => !excluded root committed candidate) winners
  checked : ∀ candidate ∈ candidates, excluded root committed candidate = false →
    checkCandidate candidate = .ok ()
  header : dir.root = root ∧ dir.sequence = root.revision ∧ dir.commandSequence = rootSequence
  routed : ∀ route, route ∈ dir.groups.entries ↔
    ∃ winner ∈ winners.entries, winner.2.retired = false ∧ route = (winner.1.prefixWord, winner.2)
  remembered : ∀ entry, entry ∈ dir.retired.entries ↔
    entry ∈ winners.entries ∧ entry.2.retired = true
  total : Total dir

theorem recover_returns {rootSequence : Nat} {candidates : List RecoveredHashGroup}
    {committed : List Nat} (ret : recover memory root rootSequence candidates committed = .ok dir) :
    ∃ winners, Recovered root rootSequence candidates committed winners dir := by
  obtain ⟨guards, cont⟩ := refuseIf_bind.mp ret
  obtain ⟨winners, collected, cont⟩ := bind_returns.mp cont
  obtain ⟨routes, built, cont⟩ := bind_returns.mp cont
  obtain ⟨aggregates, cont⟩ := refuseIf_bind.mp cont
  obtain ⟨done, walked, stored⟩ := bind_returns.mp cont
  cases stored
  obtain ⟨holds, ok⟩ := LatestReader.collect_holds collected
  have routing := routing_of_returns built
  simp only [not_or, Bool.not_eq_false, not_not] at guards aggregates
  have own : ∀ winner ∈ winners.entries, winner.2.id = winner.1 ∧
      checkCandidate winner.2 = .ok () := by
    intro winner held
    obtain ⟨mem, named⟩ := holds.listed winner held
    rw [mem_filter] at mem
    exact ⟨named, ok winner.2 mem.1 (by simpa using mem.2)⟩
  have keyed : ∀ route ∈ routes.groups.entries, route.2.id.prefixWord = route.1 := by
    intro route held
    obtain ⟨winner, mem, -, rfl⟩ := (routing.routed route).mp held
    exact congrArg prefixWord (own winner mem).1
  have placeable : ∀ route ∈ routes.groups.entries, Placeable route.2 := by
    intro route held
    obtain ⟨winner, mem, active, rfl⟩ := (routing.routed route).mp held
    have ok := (own winner mem).2
    simp only [checkCandidate, refuseIf_returns, not_or, Bool.not_eq_false, not_lt] at ok
    exact ⟨ok.1, active, ok.2.2.2⟩
  obtain ⟨-, pairwise, filled⟩ :=
    (checkRoutes_iff keyed fun route held => (placeable route held).valid).mp walked
  have laid : Laid routes.groups := by
    refine ⟨keyed, placeable, ?_⟩
    intro left first right second ne
    exact apart_of_ordered pairwise first second fun same => ne (congrArg Prod.fst same)
  refine ⟨winners, guards.1, holds, ok, ⟨rfl, rfl, rfl⟩, routing.routed, routing.remembered,
    laid, filled, ?_, aggregates.2, ?_⟩
  · rw [← aggregates.1, routing.counted]
  · intro route held
    obtain ⟨winner, mem, active, rfl⟩ := (routing.routed route).mp held
    rw [get_eq_none]
    intro gone listed same
    obtain ⟨lost, retired⟩ := (routing.remembered gone).mp listed
    have named : gone.1 = winner.1 := same.trans (own winner mem).1
    have eq : gone.2 = winner.2 := value_unique lost (named ▸ mem)
    rw [eq, active] at retired
    exact Bool.false_ne_true retired

/-! ## Every field has one group -/

theorem Total.findHash (total : Total dir) (hash : UInt64) :
    ∃ group, dir.findHash hash = some group ∧ group.id.contains hash = true ∧
      ∀ route ∈ dir.groups.entries, route.2.id.contains hash = true → route.2 = group := by
  have floored : ∀ route ∈ dir.groups.entries, route.2.id.contains hash = true →
      dir.groups.floor hash = some route := by
    intro route held inside
    rw [contains_iff (total.laid.placeable route held).valid, total.laid.first_eq held] at inside
    cases found : dir.groups.floor hash with
    | none =>
      have above := floor_eq_none.mp found route held
      rw [UInt64.lt_iff_toNat_lt] at above
      omega
    | some floor =>
      obtain ⟨mem, low, greatest⟩ := floor_eq_some found
      by_cases same : floor.1 = route.1
      · rw [Prod.ext same (value_unique mem (same ▸ held))]
      have above := greatest route held (UInt64.le_iff_toNat_le.mpr inside.1)
      rw [UInt64.le_iff_toNat_le] at above low
      have apart := total.laid.apart floor mem route held same
      unfold HashGroupId.Apart at apart
      rw [total.laid.first_eq held, total.laid.first_eq mem] at apart
      have pos := floor.2.id.width_pos
      omega
  obtain ⟨route, held, inside⟩ := total.laid.covered total.filled hash
  refine ⟨route.2, ?_, inside, ?_⟩
  · unfold HashGroupDirectory.findHash
    rw [floored route held inside]
    exact if_pos inside
  · intro other mem otherInside
    have same := (floored other mem otherInside).symm.trans (floored route held inside)
    rw [Option.some.inj same]

def directorySystem : TransitionSystem HashGroupDirectory Unit where
  init := fun dir => ∃ memory root rootSequence candidates committed,
    recover memory root rootSequence candidates committed = .ok dir
  step := fun dir _ after => ∃ memory root sequence changes,
    dir.apply memory root sequence changes = .ok after

theorem reachable_total (reached : directorySystem.Reachable dir) : Total dir := by
  apply reached.invariant
  · rintro recovered ⟨memory, root, rootSequence, candidates, committed, ret⟩
    obtain ⟨winners, result⟩ := recover_returns ret
    exact result.total
  · rintro before _ after _ total ⟨memory, root, sequence, changes, ret⟩
    exact (apply_returns total ret).total

/-- In every directory that recovery and updates lead to, the ranges of the active groups are
disjoint and cover all hashes, their fields and their number are those of the root, no active group
is retired, and every field is found in one group, which contains its digest. -/
theorem every_field_has_one_group {dir : HashGroupDirectory}
    (reached : directorySystem.Reachable dir) (digestOf : DigestSeed → List UInt8 → UInt64) :
    dir.groups.entries.Pairwise (fun left right => ∀ hash,
      ¬(left.2.id.contains hash = true ∧ right.2.id.contains hash = true)) ∧
    (∀ hash, ∃ route ∈ dir.groups.entries, route.2.id.contains hash = true) ∧
    (dir.groups.entries.map fun route => route.2.fieldCount.toNat).sum = dir.root.fieldCount.toNat ∧
    dir.groups.entries.length = dir.root.groupCount.toNat ∧
    (∀ route ∈ dir.groups.entries, ∀ gone ∈ dir.retired.entries, gone.1 ≠ route.2.id) ∧
    ∀ field, ∃ group, dir.find digestOf field = some group ∧
      group.id.contains (digestOf dir.root.seed field) = true ∧ ∀ route ∈ dir.groups.entries,
        route.2.id.contains (digestOf dir.root.seed field) = true → route.2 = group := by
  have total := reachable_total reached
  refine ⟨?_, total.laid.covered total.filled, total.counted, ?_, ?_, ?_⟩
  · apply total.laid.pairwise.imp_of_mem
    rintro left right first second apart hash ⟨leftInside, rightInside⟩
    rw [contains_iff (total.laid.placeable left first).valid] at leftInside
    rw [contains_iff (total.laid.placeable right second).valid] at rightInside
    rcases apart with before | behind <;> omega
  · rw [← size_eq]
    exact total.sized
  · intro route held gone listed
    exact get_eq_none.mp (total.unretired route held) gone listed
  · intro field
    exact total.findHash (digestOf dir.root.seed field)

def recordOf (sequence : Nat) (id : HashGroupId) (fieldCount : UInt64) (retired : Bool) :
    RecoveredHashGroup :=
  ⟨17, id, sequence, sequence, 0, 0, fieldCount, retired⟩

def halvesRoot : GroupedHashRoot := ⟨17, List.Vector.replicate 16 7, 2, 2, 1⟩

def halves : List RecoveredHashGroup :=
  [recordOf 1 ⟨0, 1⟩ 1 false, recordOf 1 ⟨0x8000000000000000, 1⟩ 1 false]

def upperSplit : List RecoveredHashGroup :=
  [recordOf 2 ⟨0x8000000000000000, 1⟩ 0 true, recordOf 2 ⟨0x8000000000000000, 2⟩ 2 false,
    recordOf 2 ⟨0xc000000000000000, 2⟩ 0 false]

def splitRoot : GroupedHashRoot := ⟨17, List.Vector.replicate 16 7, 3, 3, 2⟩

/-- A recovered directory with one split applied has three groups, and finds every field. -/
theorem split_half_has_one_group : ∃ dir, directorySystem.Reachable dir ∧
    dir.groups.size = 3 ∧ dir.retired.size = 1 ∧
    ∀ field, ∃ group, dir.find (fun _ _ => 0xd000000000000000) field = some group ∧
      group.id.contains 0xd000000000000000 = true := by
  have applied : ((recover (fun _ _ => true) halvesRoot 1 halves [] >>= fun dir =>
      dir.apply (fun _ _ => true) splitRoot 1 upperSplit).toOption.any fun dir =>
        dir.groups.size = 3 && dir.retired.size = 1) = true := by decide +kernel
  obtain ⟨dir, both, sizes⟩ := returns_of_any applied
  obtain ⟨recovered, recovery, update⟩ := bind_returns.mp both
  have reached : directorySystem.Reachable dir :=
    @TransitionSystem.Reachable.next _ _ directorySystem _ _ ()
      (.start ⟨_, _, _, _, _, recovery⟩) ⟨_, _, _, _, update⟩
  rw [Bool.and_eq_true, decide_eq_true_eq, decide_eq_true_eq] at sizes
  refine ⟨dir, reached, sizes.1, sizes.2, fun field => ?_⟩
  obtain ⟨-, -, -, -, -, routed⟩ := every_field_has_one_group reached fun _ _ => 0xd000000000000000
  obtain ⟨group, found, inside, -⟩ := routed field
  exact ⟨group, found, inside⟩

end HashGroupDirectory

end Lavik.Storage
