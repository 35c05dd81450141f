import Lavik.Storage.HashRecovery
/-!
# The history of a grouped hash

A hash that grows over the compact encoding is promoted; every further mutation is planned and
applied, and its records are written next to all earlier ones.
-/

namespace Lavik.Storage

open Base HashGroupDirectory List

structure HashHistory where
  directory : HashGroupDirectory
  written : List RecoveredHashGroup

def promotedRoot (entries : List HashEntry) (leaves : List HashGroupSnapshot)
    (incarnation revision : Nat) (seed : DigestSeed) : GroupedHashRoot where
  incarnation := incarnation
  seed := seed
  fieldCount := UInt64.ofNat entries.length
  groupCount := UInt32.ofNat leaves.length
  revision := revision

theorem promotedRoot_counts {entries : List HashEntry} {leaves : List HashGroupSnapshot}
    (bounded : entries.length ≤ maxU32) (few : leaves.length ≤ maxU32) (incarnation revision : Nat)
    (seed : DigestSeed) :
    (promotedRoot entries leaves incarnation revision seed).fieldCount.toNat = entries.length ∧
      (promotedRoot entries leaves incarnation revision seed).groupCount.toNat = leaves.length := by
  have range : maxU32 < UInt32.size ∧ UInt32.size ≤ UInt64.size := by decide
  constructor
  · show (UInt64.ofNat entries.length).toNat = _
    exact Nat.mod_eq_of_lt (show entries.length < UInt64.size by omega)
  · show (UInt32.ofNat leaves.length).toNat = _
    exact Nat.mod_eq_of_lt (show leaves.length < UInt32.size by omega)

def transactionsOf (records : List RecoveredHashGroup) : List Nat :=
  records.flatMap fun record => [record.txid, record.batchTxid]

section History

variable (digestOf : DigestSeed → List UInt8 → UInt64)

/-- The promotion of a compact hash: `PrepareGroupedHashMutation` without a previous object, and the
first directory of `CommitGroupedHashMutationLocked`. -/
def promote (memory : RoutingMemory) (entries : List HashEntry) (incarnation : Nat)
    (seed : DigestSeed) (targetBytes revision sequence : Nat) (stamps : HashGroupId → RecordStamp) :
    StatusOr HashHistory := do
  refuseIf (entries.length = 0 ∨ maxU32 < entries.length)
    .outOfRange "invalid grouped collection cardinality/type"
  let leaves ← groupHashValue digestOf entries incarnation seed targetBytes
  refuseIf (maxU32 < leaves.length) .outOfRange "grouped Hash directory exceeds storage limit"
  let records := leaves.map (publishedRecord revision stamps)
  let dir ← recover memory (promotedRoot entries leaves incarnation revision seed) sequence
    records (transactionsOf records)
  .ok ⟨dir, records⟩

/-- The runs of a grouped hash: it is promoted, and then every plan that is applied adds its
records. -/
def historySystem : TransitionSystem HashHistory Unit where
  init := fun history => ∃ memory entries incarnation seed targetBytes revision sequence stamps,
    promote digestOf memory entries incarnation seed targetBytes revision sequence stamps =
      .ok history
  step := fun history _ next =>
    ∃ loadedGroups kind fields values targetBytes plan memory revision sequence stamps,
      planHashGroupMutation digestOf history.directory loadedGroups kind fields values
        targetBytes = .ok plan ∧
      applyPlan memory history.directory plan revision sequence stamps = .ok next.directory ∧
      next.written = history.written ++ plan.writes.map (publishedRecord revision stamps)

variable {digestOf}

/-! ## Promotion -/

variable {root : GroupedHashRoot} {entries : List HashEntry} {seed : DigestSeed}
  {incarnation targetBytes revision sequence : Nat} {stamps : HashGroupId → RecordStamp}

section Promotion

variable {leaves : List HashGroupSnapshot}
  (split : Leaves digestOf seed { incarnation, entries } leaves)
  (revision sequence : Nat) (stamps : HashGroupId → RecordStamp)

include split

theorem promoted_distinct :
    (leaves.map (publishedRecord revision stamps)).Pairwise fun left right => left.id ≠ right.id
    := by
  rw [pairwise_map]
  exact split.ordered.imp fun before => ne_of_apart (.inl before)

theorem promoted_admitted :
    ∀ record ∈ leaves.map (publishedRecord revision stamps),
      excluded (promotedRoot entries leaves incarnation revision seed)
        (transactionsOf (leaves.map (publishedRecord revision stamps))) record = false := by
  intro record mem
  have first : record.txid ∈ transactionsOf _ := mem_flatMap.mpr ⟨record, mem, by simp⟩
  have second : record.batchTxid ∈ transactionsOf _ := mem_flatMap.mpr ⟨record, mem, by simp⟩
  obtain ⟨leaf, held, rfl⟩ := mem_map.mp mem
  have incarnation := split.incarnation leaf held
  simp_all [excluded, publishedRecord, promotedRoot]

def promotedDirectory (entries : List HashEntry) (leaves : List HashGroupSnapshot)
    (incarnation revision sequence : Nat) (seed : DigestSeed) (stamps : HashGroupId → RecordStamp) :
    HashGroupDirectory where
  root := promotedRoot entries leaves incarnation revision seed
  sequence := revision
  commandSequence := sequence
  groups := .ofList (leaves.map fun leaf =>
    (leaf.id.prefixWord, publishedRecord revision stamps leaf))
  retired := .empty

theorem promoted_perm :
    (promotedDirectory entries leaves incarnation revision sequence seed stamps).groups.entries.Perm
      (leaves.map fun leaf => (leaf.id.prefixWord, publishedRecord revision stamps leaf)) := by
  apply OrderedMap.ofList_perm
  rw [map_map, nodup_iff_pairwise_ne, pairwise_map]
  apply split.ordered.imp
  intro left right before same
  have pos := left.id.width_pos
  have eq : left.id.first = right.id.first := congrArg UInt64.toNat same
  omega

theorem promoted_total (few : leaves.length ≤ maxU32) (bounded : entries.length ≤ maxU32) :
    Total (promotedDirectory entries leaves incarnation revision sequence seed stamps) := by
  have permuted := promoted_perm split revision sequence stamps
  have listed : ∀ route ∈ (promotedDirectory entries leaves incarnation revision sequence seed
      stamps).groups.entries, ∃ leaf ∈ leaves,
        route = (leaf.id.prefixWord, publishedRecord revision stamps leaf) := by
    intro route held
    obtain ⟨leaf, mem, rfl⟩ := mem_map.mp (permuted.mem_iff.mp held)
    exact ⟨leaf, mem, rfl⟩
  constructor
  case laid =>
    constructor
    · intro route held
      obtain ⟨leaf, mem, rfl⟩ := listed route held
      rfl
    · intro route held
      obtain ⟨leaf, mem, rfl⟩ := listed route held
      refine ⟨split.valid leaf mem, split.active leaf mem, ?_⟩
      rw [toNat_publishedRecord (split.bounded leaf mem)]
      exact split.bounded leaf mem
    · intro left first right second ne
      obtain ⟨leftLeaf, leftMember, rfl⟩ := listed left first
      obtain ⟨rightLeaf, rightMember, rfl⟩ := listed right second
      apply HashGroupId.apart_of_ordered split.ordered leftMember rightMember
      rintro rfl
      exact ne rfl
  case filled =>
    unfold widthTotal
    rw [(permuted.map _).sum_nat, map_map]
    exact split.widths
  case counted =>
    unfold fieldTotal
    rw [(permuted.map _).sum_nat, map_map]
    have counts : leaves.map ((fun route : UInt64 × RecoveredHashGroup => route.2.fieldCount.toNat)
      ∘ fun leaf => (leaf.id.prefixWord, publishedRecord revision stamps leaf)) =
        leaves.map fun leaf => leaf.entries.length :=
      map_congr_left fun leaf mem => toNat_publishedRecord (split.bounded leaf mem)
    rw [counts, split.counts]
    exact (promotedRoot_counts bounded few incarnation revision seed).1.symm
  case sized =>
    rw [OrderedMap.size_eq, permuted.length_eq, length_map]
    exact (promotedRoot_counts bounded few incarnation revision seed).2.symm
  case unretired =>
    intro route held
    exact OrderedMap.get_eq_none.mpr (by simp [promotedDirectory])

theorem promoted_logged (revised : revision ≠ 0) :
    Logged (promotedDirectory entries leaves incarnation revision sequence seed stamps)
      (leaves.map (publishedRecord revision stamps)) := by
  have permuted := promoted_perm split revision sequence stamps
  have nodup := promoted_distinct split revision stamps
  have listed : ∀ record, Current (promotedDirectory entries leaves incarnation revision sequence
      seed stamps) record → record ∈ leaves.map (publishedRecord revision stamps) := by
    rintro record (routed | remembered)
    · obtain ⟨leaf, mem, same⟩ := mem_map.mp (permuted.mem_iff.mp routed)
      obtain ⟨-, rfl⟩ := Prod.mk.inj same
      exact mem_map_of_mem mem
    · cases remembered
  constructor
  case admissible =>
    refine forall_mem_map.mpr fun leaf held => ?_
    refine ⟨split.incarnation leaf held, le_rfl, refuseIf_returns.mpr ?_⟩
    have counted : (publishedRecord revision stamps leaf).fieldCount.toNat = leaf.entries.length :=
      toNat_publishedRecord (split.bounded leaf held)
    have active : (publishedRecord revision stamps leaf).retired = false := split.active leaf held
    simp only [not_or, not_and, not_lt, Bool.not_eq_false, counted, active, Bool.false_eq_true,
      false_implies, true_and]
    exact ⟨split.valid leaf held, revised, split.bounded leaf held⟩
  case log =>
    apply RecordLog.of_distinct nodup
    intro record
    refine ⟨listed record, fun mem => ?_⟩
    obtain ⟨leaf, held, rfl⟩ := mem_map.mp mem
    exact .inl (permuted.mem_iff.mpr (mem_map.mpr ⟨leaf, held, rfl⟩))
  case marked =>
    intro entry remembered
    cases remembered

end Promotion

variable {memory : RoutingMemory}

theorem promote_succeeds (granted : ∀ update id, memory update id = true)
    {leaves : List HashGroupSnapshot}
    (grouped : groupHashValue digestOf entries incarnation seed targetBytes = .ok leaves)
    (bounded : entries.length ≤ maxU32) (few : leaves.length ≤ maxU32) (revised : revision ≠ 0)
    (sequenced : sequence ≠ 0) (stamps : HashGroupId → RecordStamp) :
    ∃ history, promote digestOf memory entries incarnation seed targetBytes revision sequence
        stamps = .ok history ∧ history.written = leaves.map (publishedRecord revision stamps) := by
  obtain ⟨ne, splitting⟩ := refuseIf_bind.mp grouped
  obtain ⟨-, -, split⟩ := splitHashGroup_returns splitting
  have total := promoted_total split revision sequence stamps few bounded
  have logged := promoted_logged split revision sequence stamps revised
  have identified : incarnation ≠ 0 := by
    obtain ⟨-, cont⟩ := refuseIf_bind.mp splitting
    obtain ⟨done, validated, -⟩ := bind_returns.mp cont
    exact (validateFields_returns validated).1
  have some : leaves.length ≠ 0 := fun none => split.nonempty (length_eq_zero_iff.mp none)
  have filled : entries.length ≠ 0 := fun none => ne (length_eq_zero_iff.mp none)
  have valid : (promotedRoot entries leaves incarnation revision seed).valid = true := by
    obtain ⟨fields, groups⟩ := promotedRoot_counts bounded few incarnation revision seed
    refine GroupedHashRoot.valid_iff.mpr ⟨identified, revised, ?_, ?_, fields.le.trans bounded⟩
    · intro zero
      rw [zero] at groups
      exact some groups.symm
    · intro zero
      rw [zero] at fields
      exact filled fields.symm
  have admitted := promoted_admitted split revision stamps
  have surviving : Surviving (promotedRoot entries leaves incarnation revision seed)
      (transactionsOf (leaves.map (publishedRecord revision stamps)))
      (leaves.map (publishedRecord revision stamps))
      (leaves.map (publishedRecord revision stamps)) :=
    ⟨fun record mem => ⟨record, mem, ⟨rfl, rfl, rfl, rfl, rfl⟩, admitted record mem⟩,
      fun record mem _ => ⟨record, mem, rfl, rfl, rfl, rfl, rfl⟩⟩
  obtain ⟨dir, recovery, -⟩ := logged.recovers total valid surviving granted sequenced
  refine ⟨⟨dir, leaves.map (publishedRecord revision stamps)⟩, ?_, rfl⟩
  refine refuseIf_bind.mpr ⟨?_, bind_returns.mpr ⟨leaves, grouped, refuseIf_bind.mpr
    ⟨not_lt.mpr few, bind_returns.mpr ⟨dir, recovery, rfl⟩⟩⟩⟩
  omega

variable {history : HashHistory}

/-! ## Every history -/

structure HashHistory.Sound (history : HashHistory) : Prop where
  valid : history.directory.root.valid = true
  total : Total history.directory
  sequenced : history.directory.sequence = history.directory.root.revision
  logged : Logged history.directory history.written

theorem HashHistory.Sound.apply (sound : history.Sound) {changes : List RecoveredHashGroup}
    {after : HashGroupDirectory}
    (updated : history.directory.apply memory root sequence changes = .ok after) :
    HashHistory.Sound ⟨after, history.written ++ changes⟩ := by
  have applied := apply_returns sound.total updated
  refine ⟨applied.header.1 ▸ applied.valid, applied.total, ?_,
    sound.logged.apply sound.sequenced applied⟩
  rw [applied.header.2.1, applied.header.1]

theorem promote_returns
    (promoted : promote digestOf memory entries incarnation seed targetBytes revision sequence
      stamps = .ok history) :
    history.Sound ∧ ∃ leaves,
      groupHashValue digestOf entries incarnation seed targetBytes = .ok leaves ∧
      history.written = leaves.map (publishedRecord revision stamps) ∧
      history.directory.root.seed = seed := by
  obtain ⟨-, cont⟩ := refuseIf_bind.mp promoted
  obtain ⟨leaves, grouping, cont⟩ := bind_returns.mp cont
  obtain ⟨-, cont⟩ := refuseIf_bind.mp cont
  obtain ⟨dir, recovery, stored⟩ := bind_returns.mp cont
  cases stored
  obtain ⟨-, splitting⟩ := refuseIf_bind.mp grouping
  obtain ⟨-, -, split⟩ := splitHashGroup_returns splitting
  obtain ⟨winners, recovered⟩ := recover_returns recovery
  refine ⟨⟨recovered.header.1 ▸ recovered.valid, recovered.total, ?_,
    recovered.logged (promoted_admitted split _ _) (promoted_distinct split _ _)⟩,
    leaves, grouping, rfl, ?_⟩
  · rw [recovered.header.2.1, recovered.header.1]
  · rw [recovered.header.1]
    rfl

theorem reachable_sound (reached : (historySystem digestOf).Reachable history) : history.Sound := by
  apply reached.invariant
  · rintro begun ⟨memory, entries, incarnation, seed, targetBytes, revision, sequence, stamps,
      promoted⟩
    exact (promote_returns promoted).1
  · rintro before _ after _ sound ⟨loadedGroups, kind, fields, values, targetBytes, plan, memory,
      revision, sequence, stamps, -, updated, written⟩
    have next := sound.apply updated
    rwa [← written] at next

/-- Recovery of a grouped hash agrees with the live directory. Every hash whose fields can be
grouped is promoted. After any planned and applied mutations, take what a crash may leave of all
records ever written: a committed copy of each, and besides only records of other incarnations, of
later revisions, or of transactions that are not committed, in any order. Recovery with the latest
root then returns a directory with the same routes and the same retired groups. -/
theorem recovery_agrees_with_live_directory :
    (∀ memory : RoutingMemory, (∀ update id, memory update id = true) →
      ∀ entries incarnation seed targetBytes leaves,
        groupHashValue digestOf entries incarnation seed targetBytes = .ok leaves →
        entries.length ≤ maxU32 → leaves.length ≤ maxU32 →
        ∀ revision sequence stamps, revision ≠ 0 → sequence ≠ 0 →
          ∃ history, promote digestOf memory entries incarnation seed targetBytes revision
            sequence stamps = .ok history ∧
            history.written = leaves.map (publishedRecord revision stamps)) ∧
    ∀ history, (historySystem digestOf).Reachable history → ∀ committed candidates,
        Surviving history.directory.root committed history.written candidates →
        ∀ memory : RoutingMemory, (∀ update id, memory update id = true) →
        ∀ sequence, sequence ≠ 0 →
          ∃ recovered, recover memory history.directory.root sequence candidates committed =
              .ok recovered ∧ recovered.groups.entries.map routeFact =
              history.directory.groups.entries.map routeFact ∧
            recovered.retired.entries.map retiredFact =
              history.directory.retired.entries.map retiredFact := by
  constructor
  · intro memory granted entries incarnation seed targetBytes leaves grouped bounded few revision
      sequence stamps revised sequenced
    exact promote_succeeds granted grouped bounded few revised sequenced stamps
  · intro history reached committed candidates surviving memory granted sequence sequenced
    have sound := reachable_sound reached
    exact sound.logged.recovers sound.total sound.valid surviving granted sequenced

/-! ## The pages of a history -/

variable (digestOf) in
/-- The runs of a grouped hash with the pages beside it: a promotion stores its leaves, the groups
that a plan loads are copies of their pages, and a plan that is applied stores its writes. -/
def pagedSystem : TransitionSystem (HashHistory × Pages) Unit where
  init := fun state =>
    ∃ memory entries incarnation seed targetBytes revision sequence stamps leaves,
    groupHashValue digestOf entries incarnation seed targetBytes = .ok leaves ∧
    promote digestOf memory entries incarnation seed targetBytes revision sequence stamps =
      .ok state.1 ∧
    state.2 = storePages (fun _ => []) leaves
  step := fun state _ next =>
    ∃ loadedGroups kind fields values targetBytes plan memory revision sequence stamps,
      (∀ loaded ∈ loadedGroups, loaded.snapshot.entries = state.2 loaded.snapshot.id) ∧
      planHashGroupMutation digestOf state.1.directory loadedGroups kind fields values
        targetBytes = .ok plan ∧
      applyPlan memory state.1.directory plan revision sequence stamps = .ok next.1.directory ∧
      next.1.written = state.1.written ++ plan.writes.map (publishedRecord revision stamps) ∧
      next.2 = storePages state.2 plan.writes

theorem promote_stored {leaves : List HashGroupSnapshot}
    (grouped : groupHashValue digestOf entries incarnation seed targetBytes = .ok leaves)
    (promoted : promote digestOf memory entries incarnation seed targetBytes revision sequence
      stamps = .ok history) :
    Stored digestOf history.directory (storePages (fun _ => []) leaves) := by
  obtain ⟨sound, own, grouping, written, seeded⟩ := promote_returns promoted
  cases grouped.symm.trans grouping
  obtain ⟨-, splitting⟩ := refuseIf_bind.mp grouped
  obtain ⟨nodup, -, split⟩ := splitHashGroup_returns splitting
  have listed : ∀ record, Current history.directory record →
      ∃ leaf ∈ leaves, publishedRecord revision stamps leaf = record := by
    intro record current
    have mem := sound.logged.log.listed record current
    rw [written] at mem
    exact mem_map.mp mem
  have routed : ∀ route ∈ history.directory.groups.entries,
      ∃ leaf ∈ leaves, publishedRecord revision stamps leaf = route.2 ∧
        storePages (fun _ => []) leaves route.2.id = entriesOf digestOf seed leaf.id entries := by
    intro route held
    have keyed := sound.total.laid.keyed route held
    obtain ⟨leaf, mem, same⟩ := listed route.2 (.inl (by rw [keyed]; exact held))
    refine ⟨leaf, mem, same, ?_⟩
    rw [← same, ← split.contents leaf mem]
    exact storePages_of_mem (split.ordered.imp fun before => ne_of_apart (.inl before)) mem
  refine ⟨sound.valid, sound.total, ⟨?_, ?_⟩, ?_, ?_⟩
  · intro route held
    obtain ⟨leaf, mem, same, page⟩ := routed route held
    rw [page]
    exact (filter_sublist.map HashEntry.field).nodup nodup
  · intro route held entry inside
    obtain ⟨leaf, mem, same, page⟩ := routed route held
    rw [page] at inside
    rw [seeded, ← same]
    exact (mem_filter.mp inside).2
  · intro route held
    obtain ⟨leaf, mem, same, page⟩ := routed route held
    rw [page, ← same, toNat_publishedRecord (split.bounded leaf mem), split.contents leaf mem]
  · intro route _ gone remembered
    obtain ⟨named, retired⟩ := sound.logged.marked gone remembered
    obtain ⟨leaf, mem, same⟩ := listed gone.2 (.inr (by rw [named]; exact remembered))
    have active : gone.2.retired = false := same ▸ split.active leaf mem
    exact (Bool.false_ne_true (active.symm.trans retired)).elim

theorem Stored.recovered {dir after : HashGroupDirectory} {pages : Pages}
    (stored : Stored digestOf dir pages) (root : after.root = dir.root) (total : Total after)
    (groups : after.groups.entries.map routeFact = dir.groups.entries.map routeFact)
    (retired : after.retired.entries.map retiredFact = dir.retired.entries.map retiredFact) :
    Stored digestOf after pages := by
  have routed : ∀ route ∈ after.groups.entries, ∃ live ∈ dir.groups.entries,
      live.2.id = route.2.id ∧ live.2.fieldCount = route.2.fieldCount := by
    intro route held
    obtain ⟨live, mem, same⟩ := mem_map.mp (groups ▸ mem_map_of_mem (f := routeFact) held)
    simp only [routeFact, Prod.mk.injEq] at same
    exact ⟨live, mem, same.2.1, same.2.2.2⟩
  refine ⟨root ▸ stored.valid, total, ⟨?_, ?_⟩, ?_, ?_⟩
  · intro route held
    obtain ⟨live, mem, same, -⟩ := routed route held
    exact same ▸ stored.fit.distinct live mem
  · intro route held
    obtain ⟨live, mem, same, -⟩ := routed route held
    rw [root, ← same]
    exact stored.fit.belongs live mem
  · intro route held
    obtain ⟨live, mem, same, count⟩ := routed route held
    rw [← same, ← count]
    exact stored.sized live mem
  · intro route held gone remembered
    obtain ⟨live, mem, same, -⟩ := routed route held
    obtain ⟨old, before, fact⟩ :=
      mem_map.mp (retired ▸ mem_map_of_mem (f := retiredFact) remembered)
    have named : old.1 = gone.1 := (Prod.mk.inj fact).1
    rw [← same, ← named]
    exact stored.fresh live mem old before

/-- Every directory that a promotion and the plans after it lead to is stored with its pages, and so
is the directory that a recovery of its records returns. -/
theorem paged_stored {state : HashHistory × Pages}
    (reached : (pagedSystem digestOf).Reachable state) :
    (historySystem digestOf).Reachable state.1 ∧ Stored digestOf state.1.directory state.2 ∧
    ∀ committed candidates, Surviving state.1.directory.root committed state.1.written candidates →
      ∀ memory : RoutingMemory, (∀ update id, memory update id = true) →
      ∀ sequence, sequence ≠ 0 →
        ∃ recovered, recover memory state.1.directory.root sequence candidates committed =
          .ok recovered ∧ Stored digestOf recovered state.2 := by
  have along : (historySystem digestOf).Reachable state.1 ∧
      Stored digestOf state.1.directory state.2 := by
    apply reached.invariant
    · rintro ⟨begun, pages⟩ ⟨memory, entries, incarnation, seed, targetBytes, revision, sequence,
        stamps, leaves, grouped, promoted, rfl⟩
      exact ⟨.start ⟨_, _, _, _, _, _, _, _, promoted⟩, promote_stored grouped promoted⟩
    · rintro ⟨before, pages⟩ _ ⟨after, stored⟩ _ ⟨reached, holds⟩ ⟨loadedGroups, kind, fields,
        values, targetBytes, plan, memory, revision, sequence, stamps, current, planned, updated,
        written, rfl⟩
      exact ⟨@TransitionSystem.Reachable.next _ _ (historySystem digestOf) _ _ () reached
        ⟨_, _, _, _, _, _, _, _, _, _, planned, updated, written⟩,
        holds.applyPlan current planned updated⟩
  refine ⟨along.1, along.2, ?_⟩
  intro committed candidates surviving memory granted sequence sequenced
  have sound := reachable_sound along.1
  obtain ⟨dir, recovery, groups, retired⟩ :=
    sound.logged.recovers sound.total sound.valid surviving granted sequenced
  obtain ⟨winners, recovered⟩ := recover_returns recovery
  exact ⟨dir, recovery, along.2.recovered recovered.header.1 recovered.total groups retired⟩

end History

/-! ## A promotion and a split -/

def halvesEntries : List HashEntry := [⟨[0x01], [1]⟩, ⟨[0x81], [2]⟩]

def plainStamp : HashGroupId → RecordStamp := fun _ => ⟨1, 0, 0⟩

/-- The lower half of a promoted hash is split. The five records are found in reverse order, behind
one of another incarnation, and recovery returns the routes and the retired half. -/
theorem split_history_recovers : ∃ history,
    (historySystem leadingDigest).Reachable history ∧ history.written.length = 5 ∧
    history.directory.groups.size = 3 ∧ history.directory.retired.size = 1 ∧
    ∃ recovered, recover (fun _ _ => true) history.directory.root 1
        (recordOf 1 ⟨0, 0⟩ 9 false :: history.written.reverse) [] = .ok recovered ∧
      recovered.groups.entries.map routeFact = history.directory.groups.entries.map routeFact ∧
      recovered.retired.entries.map retiredFact =
        history.directory.retired.entries.map retiredFact := by
  have evaluated : ((promote leadingDigest (fun _ _ => true) halvesEntries 18
      (List.Vector.replicate 16 7) 50 1 1 plainStamp >>= fun history =>
        planHashGroupMutation leadingDigest history.directory
            [⟨1, { incarnation := 18, id := ⟨0, 1⟩, entries := [⟨[0x01], [1]⟩] }⟩] .set [[0x41]]
              [[3]]
            50 >>= fun plan =>
          applyPlan (fun _ _ => true) history.directory plan 2 1 plainStamp >>= fun after =>
            .ok (history, plan, after)).toOption.any fun all =>
        let written := all.1.written ++ all.2.1.writes.map (publishedRecord 2 plainStamp)
        written.length = 5 && all.2.2.groups.size = 3 && all.2.2.retired.size = 1 &&
          all.2.2.root.incarnation = 18 &&
          written.all fun record => !excluded all.2.2.root [] record) = true := by decide +kernel
  obtain ⟨⟨history, plan, after⟩, returned, facts⟩ := returns_of_any evaluated
  obtain ⟨begun, promoted, continued⟩ := bind_returns.mp returned
  obtain ⟨planned, planning, continued⟩ := bind_returns.mp continued
  obtain ⟨next, applied, same⟩ := bind_returns.mp continued
  cases same
  simp only [Bool.and_eq_true, decide_eq_true_eq, all_eq_true, Bool.not_eq_true'] at facts
  obtain ⟨⟨⟨⟨length, size⟩, retired⟩, incarnation⟩, admitted⟩ := facts
  have reached : (historySystem leadingDigest).Reachable
      ⟨after, history.written ++ plan.writes.map (publishedRecord 2 plainStamp)⟩ :=
    @TransitionSystem.Reachable.next _ _ (historySystem leadingDigest) _ _ ()
      (.start ⟨_, _, _, _, _, _, _, _, promoted⟩)
      ⟨_, _, _, _, _, _, _, _, _, _, planning, applied, rfl⟩
  refine ⟨_, reached, length, size, retired, ?_⟩
  apply recovery_agrees_with_live_directory.2 _ reached
  · constructor
    · intro record member
      exact ⟨record, mem_cons_of_mem _ (mem_reverse.mpr member),
        ⟨rfl, rfl, rfl, rfl, rfl⟩, admitted record member⟩
    · intro candidate member kept
      rcases mem_cons.mp member with rfl | listed
      · simp [winnerReader, excluded, incarnation, recordOf] at kept
      · exact ⟨candidate, mem_reverse.mp listed, rfl, rfl, rfl, rfl, rfl⟩
  · exact fun _ _ => rfl
  · decide

end Lavik.Storage
