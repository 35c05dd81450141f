import Lavik.Storage.HashPlan
/-!
# Replacing groups by their leaves

The leaves of the changed groups and the routes that stay make the next directory. An update with
their records is accepted, and the pages stand for the same plain hash as before the split.
-/

namespace Lavik.Storage

open Base HashGroupDirectory List

section Replacement

variable {digestOf : DigestSeed → List UInt8 → UInt64} {dir : HashGroupDirectory}
  {pages : Pages}

/-! ## Ranges of the writes -/

variable {right left id : HashGroupId} {write : HashGroupSnapshot} {writes : List HashGroupSnapshot}

theorem apart_of_within {outerLeft outerRight : HashGroupId} (first : left.Within outerLeft)
    (second : right.Within outerRight) (apart : outerLeft.Apart outerRight) : left.Apart right := by
  unfold HashGroupId.Within HashGroupId.Apart at *
  omega

theorem ne_of_apart (apart : left.Apart right) : left ≠ right := by
  rintro rfl
  have pos := left.width_pos
  unfold HashGroupId.Apart at apart
  omega

/-- Active groups that are replaced by the leaves of their current pages. -/
structure Replacing (digestOf : DigestSeed → List UInt8 → UInt64)
    (dir : HashGroupDirectory) (pages current : Pages) (ids : List HashGroupId)
    (leavesOf : HashGroupId → List HashGroupSnapshot) : Prop where
  distinct : ids.Nodup
  routed : ∀ id ∈ ids, ∃ route ∈ dir.groups.entries, route.2.id = id
  leaves : ∀ id ∈ ids, Leaves digestOf dir.root.seed
    { incarnation := dir.root.incarnation, id, entries := current id } (leavesOf id)
  kept : ∀ id, id ∉ ids → current id = pages id
  fit : PagesFit digestOf dir current

def replacementWrites (dir : HashGroupDirectory) (ids : List HashGroupId)
    (leavesOf : HashGroupId → List HashGroupSnapshot) : List HashGroupSnapshot :=
  ids.flatMap fun id => writesOf dir.root.incarnation id (leavesOf id)

theorem mem_writesOf {incarnation : Nat} {leaves : List HashGroupSnapshot} :
    write ∈ writesOf incarnation id leaves ↔
      1 < leaves.length ∧ write = { incarnation, id, retired := true } ∨ write ∈ leaves := by
  unfold writesOf
  split
  · next many => simp [many]
  · next single => simp [single]

variable {current : Pages} {ids : List HashGroupId}
  {leavesOf : HashGroupId → List HashGroupSnapshot}
  (replacing : Replacing digestOf dir pages current ids leavesOf)
  (stored : Stored digestOf dir pages)

section Replacing

variable (total : Total dir)

include replacing

theorem Replacing.write_within (mem : id ∈ ids)
    (written : write ∈ writesOf dir.root.incarnation id (leavesOf id)) : write.id.Within id := by
  rcases mem_writesOf.mp written with ⟨-, rfl⟩ | leaf
  · exact ⟨le_rfl, le_rfl⟩
  · exact (replacing.leaves id mem).within write leaf

theorem Replacing.named (mem : id ∈ ids) :
    ∃ write ∈ writesOf dir.root.incarnation id (leavesOf id), write.id = id := by
  rcases (replacing.leaves id mem).narrower with single | ⟨many, -⟩
  · exact ⟨_, mem_writesOf.mpr (.inr (by rw [single]; exact mem_singleton_self _)), rfl⟩
  · exact ⟨_, mem_writesOf.mpr (.inl ⟨many, rfl⟩), rfl⟩

include total

theorem Replacing.apart {left right : HashGroupId} (first : left ∈ ids) (second : right ∈ ids)
    (ne : left ≠ right) : left.Apart right := by
  obtain ⟨leftRoute, leftHeld, rfl⟩ := replacing.routed left first
  obtain ⟨rightRoute, rightHeld, rfl⟩ := replacing.routed right second
  exact total.laid.apart_of_ne leftHeld rightHeld ne

theorem Replacing.named_iff {route : UInt64 × RecoveredHashGroup}
    (held : route ∈ dir.groups.entries) :
    (∀ write ∈ replacementWrites dir ids leavesOf, write.id ≠ route.2.id) ↔
      route.2.id ∉ ids := by
  constructor
  · intro unnamed mem
    obtain ⟨write, written, same⟩ := replacing.named mem
    exact unnamed write (mem_flatMap.mpr ⟨_, mem, written⟩) same
  · intro kept write listed same
    obtain ⟨id, mem, written⟩ := mem_flatMap.mp listed
    obtain ⟨parent, parentHeld, rfl⟩ := replacing.routed id mem
    have within := replacing.write_within mem written
    rw [same] at within
    have ne : parent.2.id ≠ route.2.id := fun eq => kept (eq ▸ mem)
    have apart := total.laid.apart_of_ne parentHeld held ne
    have pos := route.2.id.width_pos
    unfold HashGroupId.Within HashGroupId.Apart at *
    omega

theorem Replacing.writes_distinct :
    (replacementWrites dir ids leavesOf).Pairwise
      fun earlier later => earlier.id ≠ later.id := by
  unfold replacementWrites
  rw [pairwise_flatMap]
  constructor
  · intro id mem
    have leaves := replacing.leaves id mem
    have separate : (leavesOf id).Pairwise fun earlier later => earlier.id ≠ later.id :=
      leaves.ordered.imp fun before => ne_of_apart (.inl before)
    unfold writesOf
    split
    · next many =>
      refine pairwise_cons.mpr ⟨fun leaf held same => ?_, separate⟩
      rcases leaves.narrower with single | ⟨-, narrower⟩
      · rw [single] at many
        exact absurd many (by simp)
      · have width := narrower leaf held
        rw [← same] at width
        exact lt_irrefl _ width
    · exact separate
  · apply replacing.distinct.imp_of_mem
    intro left right first second ne earlier before later after
    exact ne_of_apart (apart_of_within (replacing.write_within first before)
      (replacing.write_within second after) (replacing.apart total first second ne))

end Replacing

/-! ## Publishing the writes -/

structure RecordStamp where
  lsn : Nat
  txid : Nat
  batchTxid : Nat

def publishedRecord (revision : Nat) (stamps : HashGroupId → RecordStamp)
    (write : HashGroupSnapshot) : RecoveredHashGroup where
  incarnation := write.incarnation
  id := write.id
  sequence := revision
  lsn := (stamps write.id).lsn
  txid := (stamps write.id).txid
  batchTxid := (stamps write.id).batchTxid
  fieldCount := UInt64.ofNat write.entries.length
  retired := write.retired

theorem toNat_publishedRecord {revision : Nat} {stamps : HashGroupId → RecordStamp}
    (bounded : write.entries.length ≤ maxU32) :
    (publishedRecord revision stamps write).fieldCount.toNat = write.entries.length := by
  show (UInt64.ofNat write.entries.length).toNat = _
  apply Nat.mod_eq_of_lt
  unfold maxU32 at bounded
  omega

section Publishing

variable {revision : Nat} {stamps : HashGroupId → RecordStamp}

def replacementRecords (revision : Nat) (stamps : HashGroupId → RecordStamp)
    (dir : HashGroupDirectory) (ids : List HashGroupId)
    (leavesOf : HashGroupId → List HashGroupSnapshot) : List RecoveredHashGroup :=
  (replacementWrites dir ids leavesOf).map (publishedRecord revision stamps)

variable {root : GroupedHashRoot}

theorem mem_replacementRecords {record : RecoveredHashGroup} :
    record ∈ replacementRecords revision stamps dir ids leavesOf ↔
      ∃ id ∈ ids, ∃ write ∈ writesOf dir.root.incarnation id (leavesOf id),
        record = publishedRecord revision stamps write := by
  unfold replacementRecords replacementWrites
  simp only [mem_map, mem_flatMap]
  constructor
  · rintro ⟨write, ⟨id, mem, written⟩, rfl⟩
    exact ⟨id, mem, write, written, rfl⟩
  · rintro ⟨id, mem, write, written, rfl⟩
    exact ⟨write, ⟨id, mem, written⟩, rfl⟩

theorem leaf_of_active {incarnation : Nat} {leaves : List HashGroupSnapshot}
    (written : write ∈ writesOf incarnation id leaves) (active : write.retired = false) :
    write ∈ leaves := by
  rcases mem_writesOf.mp written with ⟨-, rfl⟩ | leaf
  · cases active
  · exact leaf

include replacing stored

theorem Replacing.recordable (incarnation : root.incarnation = dir.root.incarnation)
    (newRevision : root.revision = revision) (mem : id ∈ ids)
    (written : write ∈ writesOf dir.root.incarnation id (leavesOf id)) :
    Recordable root (publishedRecord revision stamps write) := by
  have leaves := replacing.leaves id mem
  obtain ⟨route, held, named⟩ := replacing.routed id mem
  rcases mem_writesOf.mp written with ⟨-, rfl⟩ | leaf
  · have valid := (stored.total.laid.placeable route held).valid
    rw [named] at valid
    exact ⟨valid, incarnation.symm, newRevision.symm, Nat.zero_le _, fun _ => rfl⟩
  have bounded := leaves.bounded write leaf
  refine ⟨leaves.valid write leaf, ?_, newRevision.symm, ?_, fun retired => ?_⟩
  · exact (leaves.incarnation write leaf).trans incarnation.symm
  · rwa [toNat_publishedRecord bounded]
  · have active := leaves.active write leaf
    exact (Bool.false_ne_true (active.symm.trans retired)).elim

theorem Replacing.acceptable (incarnation : root.incarnation = dir.root.incarnation)
    (newRevision : root.revision = revision) :
    Acceptable dir root (replacementRecords revision stamps dir ids leavesOf) := by
  constructor
  case recordable =>
    intro record listed
    obtain ⟨id, mem, write, written, rfl⟩ := mem_replacementRecords.mp listed
    exact replacing.recordable stored incarnation newRevision mem written
  case distinct =>
    unfold replacementRecords
    rw [pairwise_map]
    exact replacing.writes_distinct stored.total
  case current =>
    intro record listed retired
    obtain ⟨id, mem, write, written, rfl⟩ := mem_replacementRecords.mp listed
    rcases mem_writesOf.mp written with ⟨-, rfl⟩ | leaf
    · obtain ⟨route, held, named⟩ := replacing.routed id mem
      exact ⟨route.2, (stored.total.laid.replaces_iff held).mpr named.symm⟩
    · have active := (replacing.leaves id mem).active write leaf
      exact (Bool.false_ne_true (active.symm.trans retired)).elim
  case unretired =>
    intro record listed active
    obtain ⟨id, mem, write, written, rfl⟩ := mem_replacementRecords.mp listed
    obtain ⟨route, held, rfl⟩ := replacing.routed id mem
    rw [OrderedMap.get_eq_none]
    intro gone remembered same
    apply stored.fresh route held gone remembered
    rw [same]
    exact replacing.write_within mem written
  case apart =>
    intro left leftListed leftActive right rightListed rightActive ne
    obtain ⟨leftId, leftMember, leftWrite, leftWritten, rfl⟩ := mem_replacementRecords.mp leftListed
    obtain ⟨rightId, rightMember, rightWrite, rightWritten, rfl⟩ :=
      mem_replacementRecords.mp rightListed
    by_cases same : leftId = rightId
    · subst same
      have leaves := replacing.leaves leftId leftMember
      have leftLeaf := leaf_of_active leftWritten leftActive
      have rightLeaf := leaf_of_active rightWritten rightActive
      exact HashGroupId.apart_of_ordered leaves.ordered leftLeaf rightLeaf
        fun eq => ne (congrArg HashGroupSnapshot.id eq)
    · exact apart_of_within (replacing.write_within leftMember leftWritten)
        (replacing.write_within rightMember rightWritten)
        (replacing.apart stored.total leftMember rightMember same)
  case separate =>
    intro record listed active route held unnamed
    obtain ⟨id, mem, write, written, rfl⟩ := mem_replacementRecords.mp listed
    obtain ⟨parent, parentHeld, rfl⟩ := replacing.routed id mem
    have ne : parent.2.id ≠ route.2.id := by
      obtain ⟨own, ownWritten, ownNamed⟩ := replacing.named mem
      intro same
      apply unnamed (publishedRecord revision stamps own)
        (mem_replacementRecords.mpr ⟨_, mem, own, ownWritten, rfl⟩)
      exact ownNamed.trans same
    exact apart_of_within (replacing.write_within mem written) ⟨le_rfl, le_rfl⟩
      (stored.total.laid.apart_of_ne parentHeld held ne)

omit replacing

def keptRoutes (dir : HashGroupDirectory) (ids : List HashGroupId) :
    List (UInt64 × RecoveredHashGroup) :=
  dir.groups.entries.filter fun route => route.2.id ∉ ids

def leafRoutes (revision : Nat) (stamps : HashGroupId → RecordStamp) (ids : List HashGroupId)
    (leavesOf : HashGroupId → List HashGroupSnapshot) : List (UInt64 × RecoveredHashGroup) :=
  (ids.flatMap leavesOf).map fun leaf =>
    (leaf.id.prefixWord, publishedRecord revision stamps leaf)

include replacing

theorem Replacing.sum_before (weight : HashGroupId → Nat) :
    (dir.groups.entries.map fun route => weight route.2.id).sum =
      ((keptRoutes dir ids).map fun route => weight route.2.id).sum + (ids.map weight).sum := by
  have split := filter_append_perm (fun route : UInt64 × RecoveredHashGroup =>
    decide (route.2.id ∉ ids)) dir.groups.entries
  rw [← (split.map fun route => weight route.2.id).sum_nat, map_append, sum_append]
  congr 1
  have replaced : ((dir.groups.entries.filter fun route =>
      !decide (route.2.id ∉ ids)).map fun route => route.2.id).Perm ids := by
    rw [perm_ext_iff_of_nodup _ replacing.distinct]
    · intro id
      simp only [mem_map, mem_filter]
      constructor
      · rintro ⟨route, ⟨held, mem⟩, rfl⟩
        simpa using mem
      · intro mem
        obtain ⟨route, held, rfl⟩ := replacing.routed id mem
        exact ⟨route, ⟨held, by simpa using mem⟩, rfl⟩
    · apply List.Nodup.map_on _ (dir.groups.nodup.filter _)
      intro left first right second same
      exact stored.total.laid.route_unique (mem_filter.mp first).1 (mem_filter.mp second).1 same
  rw [← (replaced.map weight).sum_nat, map_map]
  rfl

omit stored

theorem Replacing.active_writes :
    (replacementWrites dir ids leavesOf).filter (fun write => !write.retired) =
      ids.flatMap leavesOf := by
  unfold replacementWrites
  rw [filter_flatMap]
  apply flatMap_congr
  intro id mem
  have leaves : (leavesOf id).filter (fun write => !write.retired) = leavesOf id := by
    apply filter_eq_self.mpr
    intro leaf held
    simp [(replacing.leaves id mem).active leaf held]
  unfold writesOf
  split
  · rw [filter_cons_of_neg (by simp), leaves]
  · exact leaves

include stored

variable {groups : OrderedMap UInt64 RecoveredHashGroup}
  (routed : RoutedBy dir (replacementRecords revision stamps dir ids leavesOf) groups)

include routed

theorem Replacing.routes_perm :
    groups.entries.Perm (keptRoutes dir ids ++ leafRoutes revision stamps ids leavesOf) := by
  have unnamed : ∀ route ∈ dir.groups.entries,
      (∀ change ∈ replacementRecords revision stamps dir ids leavesOf,
        change.id ≠ route.2.id) ↔ route.2.id ∉ ids := by
    intro route held
    rw [← replacing.named_iff stored.total held]
    unfold replacementRecords
    simp only [forall_mem_map]
    rfl
  have distinct : (leafRoutes revision stamps ids leavesOf).Nodup := by
    unfold leafRoutes
    rw [← replacing.active_writes]
    apply List.Pairwise.map _ _ ((replacing.writes_distinct stored.total).filter _)
    intro earlier later ne same
    exact ne (congrArg (fun route : UInt64 × RecoveredHashGroup => route.2.id) same)
  have leafOf : ∀ route, route ∈ leafRoutes revision stamps ids leavesOf ↔
      ∃ change ∈ replacementRecords revision stamps dir ids leavesOf,
        change.retired = false ∧ route = (change.id.prefixWord, change) := by
    intro route
    unfold leafRoutes replacementRecords
    rw [← replacing.active_writes]
    simp only [mem_map, mem_filter]
    constructor
    · rintro ⟨leaf, ⟨written, active⟩, rfl⟩
      exact ⟨_, ⟨leaf, written, rfl⟩, by simpa [publishedRecord] using active, rfl⟩
    · rintro ⟨change, ⟨leaf, written, rfl⟩, active, rfl⟩
      exact ⟨leaf, ⟨written, by simpa [publishedRecord] using active⟩, rfl⟩
  have separate : List.Disjoint (keptRoutes dir ids) (leafRoutes revision stamps ids leavesOf) := by
    intro route kept leaf
    obtain ⟨held, mem⟩ := mem_filter.mp kept
    obtain ⟨change, listed, -, rfl⟩ := (leafOf route).mp leaf
    exact (unnamed _ held).mpr (by simpa using mem) change listed rfl
  have nodup : (keptRoutes dir ids ++ leafRoutes revision stamps ids leavesOf).Nodup :=
    nodup_append'.mpr ⟨dir.groups.nodup.filter _, distinct, separate⟩
  rw [perm_ext_iff_of_nodup groups.nodup nodup]
  intro route
  rw [routed, mem_append, leafOf, keptRoutes, mem_filter, decide_eq_true_eq]
  apply or_congr_left
  constructor
  · rintro ⟨held, free⟩
    exact ⟨held, (unnamed route held).mp free⟩
  · rintro ⟨held, free⟩
    exact ⟨held, (unnamed route held).mpr free⟩

theorem Replacing.sum_after (weight : RecoveredHashGroup → Nat) :
    (groups.entries.map fun route => weight route.2).sum =
      ((keptRoutes dir ids).map fun route => weight route.2).sum +
        (ids.map fun id => ((leavesOf id).map fun leaf =>
          weight (publishedRecord revision stamps leaf)).sum).sum := by
  have permuted := replacing.routes_perm stored routed
  rw [(permuted.map fun route => weight route.2).sum_nat, map_append, sum_append]
  congr 1
  unfold leafRoutes
  rw [map_map, map_flatMap, flatMap, sum_flatten, map_map]
  rfl

/-- The routes after a replacement have as many fields as the current pages, cover the hash space,
and are as many as the leaves and the routes that stay. -/
theorem Replacing.totals :
    fieldTotal groups = pageTotal dir current ∧ widthTotal groups = UInt64.size ∧
      groups.size + ids.length =
        dir.root.groupCount.toNat + (ids.map fun id => (leavesOf id).length).sum := by
  refine ⟨?_, ?_, ?_⟩
  · have kept : ∀ route ∈ keptRoutes dir ids,
        route.2.fieldCount.toNat = (current route.2.id).length := by
      intro route held
      obtain ⟨before, free⟩ := mem_filter.mp held
      rw [replacing.kept route.2.id (by simpa using free), stored.sized route before]
    have leaves : ∀ id ∈ ids, ((leavesOf id).map fun leaf =>
        (publishedRecord revision stamps leaf).fieldCount.toNat).sum = (current id).length := by
      intro id mem
      have split := replacing.leaves id mem
      rw [← split.counts]
      congr 1
      exact map_congr_left fun leaf held => toNat_publishedRecord (split.bounded leaf held)
    unfold fieldTotal pageTotal
    rw [replacing.sum_after stored routed fun group => group.fieldCount.toNat,
      replacing.sum_before stored fun id => (current id).length, map_congr_left kept,
      map_congr_left leaves]
  · have leaves : ∀ id ∈ ids, ((leavesOf id).map fun leaf =>
        (publishedRecord revision stamps leaf).id.width).sum = id.width :=
      fun id mem => (replacing.leaves id mem).widths
    rw [← stored.total.filled]
    unfold widthTotal
    rw [replacing.sum_after stored routed fun group => group.id.width,
      replacing.sum_before stored HashGroupId.width, map_congr_left leaves]
  · have after := replacing.sum_after stored routed fun _ => 1
    have before := replacing.sum_before stored fun _ => 1
    have sized := stored.total.sized
    rw [OrderedMap.size_eq] at sized ⊢
    simp only [map_const', sum_replicate_nat, Nat.mul_one] at after before
    omega

end Publishing

/-! ## Storing the writes -/

def storePages (pages : Pages) (writes : List HashGroupSnapshot) : Pages :=
  writes.foldl (fun pages write => Function.update pages write.id write.entries) pages

theorem storePages_of_absent (absent : ∀ write ∈ writes, write.id ≠ id) :
    storePages pages writes id = pages id := by
  induction writes generalizing pages with
  | nil => rfl
  | cons write rest ih =>
    have ne := absent write mem_cons_self
    show storePages (Function.update pages write.id write.entries) rest id = _
    rw [ih fun other mem => absent other (mem_cons_of_mem _ mem), Function.update_of_ne ne.symm]

theorem storePages_of_mem (nodup : writes.Pairwise fun earlier later => earlier.id ≠ later.id)
    (written : write ∈ writes) : storePages pages writes write.id = write.entries := by
  induction writes generalizing pages with
  | nil => cases written
  | cons first rest ih =>
    obtain ⟨fresh, others⟩ := pairwise_cons.mp nodup
    show storePages (Function.update pages first.id first.entries) rest write.id = _
    rcases mem_cons.mp written with rfl | later
    · rw [storePages_of_absent fun other mem => (fresh other mem).symm, Function.update_self]
    · exact ih others later

theorem lookup_entriesOf {seed : DigestSeed} {field : List UInt8}
    (inside : id.contains (digestOf seed field) = true) (entries : List HashEntry) :
    lookup (entriesOf digestOf seed id entries) field = lookup entries field := by
  unfold lookup entriesOf
  rw [find?_filter]
  congr 2
  funext entry
  by_cases same : entry.field = field
  · simp [same, inside]
  · simp [same]

section Storing

variable {revision sequence : Nat} {stamps : HashGroupId → RecordStamp}
  {root : GroupedHashRoot} {after : HashGroupDirectory}
  (applied : Applied dir root sequence
    (replacementRecords revision stamps dir ids leavesOf) after)

include replacing stored

variable {route : UInt64 × RecoveredHashGroup}

theorem Replacing.page_kept (held : route ∈ dir.groups.entries) (free : route.2.id ∉ ids) :
    storePages pages (replacementWrites dir ids leavesOf) route.2.id =
      current route.2.id := by
  rw [storePages_of_absent ((replacing.named_iff stored.total held).mpr free),
    replacing.kept route.2.id free]

theorem Replacing.page_leaf (mem : id ∈ ids) {leaf : HashGroupSnapshot}
    (held : leaf ∈ leavesOf id) :
    storePages pages (replacementWrites dir ids leavesOf) leaf.id =
      entriesOf digestOf dir.root.seed leaf.id (current id) := by
  have written : leaf ∈ replacementWrites dir ids leavesOf :=
    mem_flatMap.mpr ⟨id, mem, mem_writesOf.mpr (.inr held)⟩
  rw [storePages_of_mem (replacing.writes_distinct stored.total) written,
    (replacing.leaves id mem).contents leaf held]

include applied

theorem Replacing.mem_after :
    route ∈ after.groups.entries ↔ (route ∈ dir.groups.entries ∧ route.2.id ∉ ids) ∨
        ∃ id ∈ ids, ∃ leaf ∈ leavesOf id,
          route = (leaf.id.prefixWord, publishedRecord revision stamps leaf) := by
  rw [(replacing.routes_perm stored applied.routed).mem_iff, mem_append, keptRoutes,
    mem_filter, decide_eq_true_eq, leafRoutes]
  apply or_congr_right
  simp only [mem_map, mem_flatMap]
  constructor
  · rintro ⟨leaf, ⟨id, mem, held⟩, rfl⟩
    exact ⟨id, mem, leaf, held, rfl⟩
  · rintro ⟨id, mem, leaf, held, rfl⟩
    exact ⟨leaf, ⟨id, mem, held⟩, rfl⟩

theorem Replacing.fit_after :
    PagesFit digestOf after
      (storePages pages (replacementWrites dir ids leavesOf)) := by
  constructor
  case distinct =>
    intro route held
    rcases (replacing.mem_after stored applied).mp held with
      ⟨before, free⟩ | ⟨id, mem, leaf, split, rfl⟩
    · rw [replacing.page_kept stored before free]
      exact replacing.fit.distinct route before
    show ((storePages _ _ leaf.id).map HashEntry.field).Nodup
    obtain ⟨parent, parentHeld, rfl⟩ := replacing.routed id mem
    rw [replacing.page_leaf stored mem split]
    exact (filter_sublist.map HashEntry.field).nodup (replacing.fit.distinct parent parentHeld)
  case belongs =>
    intro route held entry listed
    rw [applied.header.1, applied.seed]
    rcases (replacing.mem_after stored applied).mp held with
      ⟨before, free⟩ | ⟨id, mem, leaf, split, rfl⟩
    · rw [replacing.page_kept stored before free] at listed
      exact replacing.fit.belongs route before entry listed
    have inside : entry ∈ storePages pages
      (replacementWrites dir ids leavesOf) leaf.id := listed
    rw [replacing.page_leaf stored mem split] at inside
    exact (mem_filter.mp inside).2

omit stored in
theorem Replacing.retired_after {gone : HashGroupId × RecoveredHashGroup}
    (remembered : gone ∈ after.retired.entries) :
    gone ∈ dir.retired.entries ∨ gone.1 ∈ ids ∧ 1 < (leavesOf gone.1).length := by
  rcases (applied.remembered gone).mp remembered with ⟨change, listed, retired, rfl⟩ | ⟨before, -⟩
  · obtain ⟨id, mem, write, written, rfl⟩ := mem_replacementRecords.mp listed
    rcases mem_writesOf.mp written with ⟨many, rfl⟩ | leaf
    · exact .inr ⟨mem, many⟩
    · have active := (replacing.leaves id mem).active write leaf
      exact (Bool.false_ne_true (active.symm.trans retired)).elim
  · exact .inl before

theorem Replacing.fresh_after (held : route ∈ after.groups.entries)
    {gone : HashGroupId × RecoveredHashGroup} (remembered : gone ∈ after.retired.entries) :
    ¬gone.1.Within route.2.id := by
  intro within
  -- a split group does not lie inside a group that does not meet it
  have outside : ∀ {outer : HashGroupId}, gone.1.Within outer → ¬gone.1.Apart outer := by
    intro outer inside apart
    have pos := gone.1.width_pos
    unfold HashGroupId.Within HashGroupId.Apart at *
    omega
  rcases (replacing.mem_after stored applied).mp held with
    ⟨before, free⟩ | ⟨id, mem, leaf, split, rfl⟩
  · rcases replacing.retired_after applied remembered with old | ⟨own, -⟩
    · exact stored.fresh route before gone old within
    · obtain ⟨parent, parentHeld, named⟩ := replacing.routed gone.1 own
      have ne : parent.2.id ≠ route.2.id := by
        rintro same
        exact free (same ▸ named ▸ own)
      apply outside within
      rw [← named]
      exact stored.total.laid.apart_of_ne parentHeld before ne
  · have inner : leaf.id.Within id := (replacing.leaves id mem).within leaf split
    have whole : gone.1.Within id := HashGroupId.Within.trans within inner
    rcases replacing.retired_after applied remembered with old | ⟨own, many⟩
    · obtain ⟨parent, parentHeld, rfl⟩ := replacing.routed id mem
      exact stored.fresh parent parentHeld gone old whole
    by_cases same : gone.1 = id
    · have narrow : leaf.id.width < id.width := by
        rcases (replacing.leaves id mem).narrower with single | ⟨-, narrower⟩
        · rw [same, single] at many
          exact absurd many (by simp)
        · exact narrower leaf split
      have wide : gone.1.Within leaf.id := within
      rw [same] at wide
      unfold HashGroupId.Within at wide
      omega
    · exact outside whole (replacing.apart stored.total own mem same)

theorem Replacing.stored_after :
    Stored digestOf after
      (storePages pages (replacementWrites dir ids leavesOf)) where
  valid := applied.header.1 ▸ applied.valid
  total := applied.total
  fit := replacing.fit_after stored applied
  sized route held := by
    rcases (replacing.mem_after stored applied).mp held with
      ⟨before, free⟩ | ⟨id, mem, leaf, split, rfl⟩
    · rw [replacing.page_kept stored before free, replacing.kept route.2.id free,
        stored.sized route before]
    have leaves := replacing.leaves id mem
    show (storePages _ _ leaf.id).length = _
    rw [replacing.page_leaf stored mem split, toNat_publishedRecord (leaves.bounded leaf split),
      leaves.contents leaf split]
  fresh := fun _ held _ remembered => replacing.fresh_after stored applied held remembered

theorem Replacing.meaning_after :
    meaning after (storePages pages (replacementWrites dir ids leavesOf)) =
      meaning dir current := by
  have fit := replacing.fit_after stored applied
  have here : ∀ route ∈ after.groups.entries, ∀ field,
      route.2.id.contains (digestOf dir.root.seed field) = true → meaning after (storePages pages
          (replacementWrites dir ids leavesOf)) field = lookup (storePages pages
              (replacementWrites dir ids leavesOf) route.2.id) field := by
    intro route held field inside
    rw [← applied.seed, ← applied.header.1] at inside
    exact meaning_eq applied.total fit held inside
  funext field
  obtain ⟨group, found, inside, -⟩ :=
    stored.total.findHash (digestOf dir.root.seed field)
  obtain ⟨held, -⟩ := Total.find_eq_some stored.total found
  rw [meaning_eq stored.total replacing.fit held inside]
  by_cases replaced : group.id ∈ ids
  · obtain ⟨leaf, split, covers⟩ := (replacing.leaves group.id replaced).covered _ inside
    have route := (replacing.mem_after stored applied).mpr (.inr ⟨_, replaced, leaf, split, rfl⟩)
    have eq := here _ route field covers
    rw [eq]
    show lookup (storePages _ _ leaf.id) field = _
    rw [replacing.page_leaf stored replaced split, lookup_entriesOf covers]
  · have route := (replacing.mem_after stored applied).mpr (.inl ⟨held, replaced⟩)
    have eq := here _ route field inside
    rw [eq, replacing.page_kept stored held replaced]

end Storing

end Replacement

end Lavik.Storage
