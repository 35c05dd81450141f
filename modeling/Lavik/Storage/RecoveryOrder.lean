import Lavik.Storage.RecoveryMerge
/-!
# Recovery does not depend on the scan order

A key that was over the inline limit when it was first written and is under it now loses its row in
the table of external keys, and one replay command can write several roots with different expiries
under one sequence. Records that are uniform in both respects can be fed in any order.
-/

namespace Lavik.Storage

open List RecoveryContext RecordLocation

def WorkerStore.empty (epochs : PartitionId → Nat) : WorkerStore where
  partitions id := { replicationEpoch := epochs id }

def RecoveryContext.current (context : RecoveryContext) (epochs : PartitionId → Nat)
    (feeds : List Feed) : List RecoveryRecord :=
  (feeds.map Feed.record).filter fun record =>
    record.replicationEpoch = epochs (context.partitionOf record.key)

/-- The records of a key with one sequence are copies of one version, or all of them roots. -/
def OneVersion (records : List RecoveryRecord) : Prop :=
  ∀ first ∈ records, ∀ second ∈ records, first.dbId = second.dbId → first.key = second.key →
    first.sequence = second.sequence →
    first.CopyOf second ∨ first.location.grouped = true ∧ second.location.grouped = true

instance (first second : RecoveryRecord) : Decidable (first.CopyOf second) :=
  inferInstanceAs (Decidable (_ ∧ _ ∧ _))

instance (records : List RecoveryRecord) : Decidable (OneVersion records) :=
  inferInstanceAs (Decidable (∀ first ∈ records, ∀ second ∈ records, _ → _ → _ → _))

/-- What recovery is for: one entry a key, held by the winner of its versions, and counters that
count the winners that are values and those that carry an expiry. -/
structure WorkerStore.Recovered (store : WorkerStore) (context : RecoveryContext)
    (fed : List RecoveryRecord) (now : Nat) : Prop extends store.Indexed context fed where
  winners : ∀ id dbId, ∀ entry ∈ (store.partitions id).indexes dbId,
    context.partitionOf entry.key = id ∧ entry.Wins (versionsOf fed dbId entry.key) now

theorem OneVersion.comparable {records : List RecoveryRecord} (versions : OneVersion records)
    {first second : RecoveryRecord} (inFirst : first ∈ records) (inSecond : second ∈ records)
    (dbId : first.dbId = second.dbId) (key : first.key = second.key) : first.Comparable second := by
  intro same
  rcases versions first inFirst second inSecond dbId key same with copy | ⟨mine, its⟩
  · exact ⟨copy.1, by rw [copy.2.2]⟩
  · constructor
    · rw [first.groupedValue mine, second.groupedValue its]
    · rw [← first.rooted, ← second.rooted, mine, its]

theorem WorkerStore.Rebuilt.empty (context : RecoveryContext) (epochs : PartitionId → Nat)
    (bound : Nat) : (WorkerStore.empty epochs).Rebuilt context epochs [] bound where
  epoch _ := rfl
  home := by simp [WorkerStore.empty]
  distinct := by simp [WorkerStore.empty]
  stands := by simp [WorkerStore.empty]
  present := by simp
  live := by simp [WorkerStore.empty]
  expiring := by simp [WorkerStore.empty]
  total := by simp [WorkerStore.empty]

theorem WorkerStore.Rebuilt.recovered {store : WorkerStore} {context : RecoveryContext}
    {epochs : PartitionId → Nat} {fed records : List RecoveryRecord} {bound : Nat}
    (rebuilt : store.Rebuilt context epochs fed bound)
    (same : ∀ record, record ∈ records ↔ record ∈ fed) : store.Recovered context records bound where
  distinct := rebuilt.distinct
  winners := by
    intro id dbId entry member
    obtain ⟨record, stands⟩ := rebuilt.stands id dbId entry member
    have versions : ∀ other, other ∈ versionsOf records dbId entry.key ↔
        other ∈ versionsOf fed dbId entry.key := by
      intro other
      simp only [versionsOf, mem_filter, same]
    refine ⟨rebuilt.home id dbId entry member, record, (versions record).mpr stands.fed,
      stands.holds, fun other inside => stands.newest other ((versions other).mp inside), ?_⟩
    intro clear other inside
    exact stands.shields clear other ((versions other).mp inside)
  present record member := rebuilt.present record ((same record).mp member)
  live := rebuilt.live
  expiring := rebuilt.expiring
  total := rebuilt.total

def RecoveryContext.Feedable (context : RecoveryContext) (epochs : PartitionId → Nat)
    (feeds : List Feed) : Prop :=
  ∀ before feed after, feeds = before ++ feed :: after → ∀ store,
    applyRecoveredRecords context (.empty epochs) before = .ok store →
    feed.record.replicationEpoch = epochs (context.partitionOf feed.record.key) →
    context.Mergeable store feed.record

section Runs

variable {context : RecoveryContext} {epochs : PartitionId → Nat} {now : Nat}

theorem applyRecoveredRecords_concat (store : WorkerStore) (feeds : List Feed) (feed : Feed) :
    applyRecoveredRecords context store (feeds ++ [feed]) =
      (applyRecoveredRecords context store feeds).bind fun after =>
        applyRecoveredRecord context after feed := by
  simp only [applyRecoveredRecords, foldlM_append, foldlM_cons, foldlM_nil, bind_pure]
  rfl

theorem RecoveryContext.current_concat (feeds : List Feed) (feed : Feed) :
    context.current epochs (feeds ++ [feed]) = context.current epochs feeds ++
      if feed.record.replicationEpoch = epochs (context.partitionOf feed.record.key) then
        [feed.record] else [] := by
  unfold current
  split <;> rename_i current <;> simp [current]

variable {store : WorkerStore} {feed : Feed} {feeds : List Feed}

theorem applyRecoveredRecord_stale (stale : feed.record.replicationEpoch ≠
      (store.partitions (context.partitionOf feed.record.key)).replicationEpoch) :
    applyRecoveredRecord context store feed = .ok store := by
  simp [applyRecoveredRecord, stale]

theorem applyRecoveredRecord_disabled (cur : feed.record.replicationEpoch =
      (store.partitions (context.partitionOf feed.record.key)).replicationEpoch)
    (disabled : context.databaseCount ≤ feed.record.dbId) :
    applyRecoveredRecord context store feed = .error .disabledDatabase := by
  simp [applyRecoveredRecord, cur, disabled]

theorem RecoveryContext.Feedable.init (feedable : context.Feedable epochs (feeds ++ [feed])) :
    context.Feedable epochs feeds := by
  intro before middle after split
  exact feedable before middle (after ++ [feed]) (by rw [split]; simp)

theorem RecoveryContext.mem_current_concat (feed : Feed) {other : RecoveryRecord}
    (mem : other ∈ context.current epochs feeds) :
    other ∈ context.current epochs (feeds ++ [feed]) := by
  rw [current_concat]
  exact mem_append_left _ mem

/-- A scan without a checkpoint, before `now`, of records that are versions. -/
structure RecoveryContext.Scan (context : RecoveryContext) (epochs : PartitionId → Nat) (now : Nat)
    (feeds : List Feed) : Prop where
  scanned : ∀ feed ∈ feeds, feed.record.checkpointSnapshot = false
  clock : ∀ feed ∈ feeds, feed.now ≤ now
  versions : OneVersion (context.current epochs feeds)

theorem RecoveryContext.Scan.init (scan : context.Scan epochs now (feeds ++ [feed])) :
    context.Scan epochs now feeds where
  scanned other member := scan.scanned other (mem_append_left _ member)
  clock other member := scan.clock other (mem_append_left _ member)
  versions first inFirst second inSecond := scan.versions first (mem_current_concat feed inFirst)
    second (mem_current_concat feed inSecond)

theorem RecoveryContext.Scan.last (scan : context.Scan epochs now (feeds ++ [feed]))
    (feedable : context.Feedable epochs (feeds ++ [feed]))
    (done : applyRecoveredRecords context (.empty epochs) feeds = .ok store)
    (rebuilt : store.Rebuilt context epochs (context.current epochs feeds).reverse now)
    (cur : feed.record.replicationEpoch = epochs (context.partitionOf feed.record.key))
    (enabled : feed.record.dbId < context.databaseCount) :
    context.Applies epochs store feed (context.current epochs feeds).reverse now := by
  have last : feed ∈ feeds ++ [feed] := by simp
  have known : ∀ other ∈ feed.record :: versionsOf (context.current epochs feeds).reverse
      feed.record.dbId feed.record.key, other ∈ context.current epochs (feeds ++ [feed]) ∧
        other.dbId = feed.record.dbId ∧ other.key = feed.record.key := by
    intro other mem
    rcases mem_cons.mp mem with rfl | inside
    · exact ⟨by simp [current_concat, cur], rfl, rfl⟩
    · simp only [versionsOf, mem_filter, mem_reverse, decide_eq_true_eq] at inside
      exact ⟨mem_current_concat feed inside.1, inside.2⟩
  have mergeable := feedable feeds feed [] rfl store done cur
  rw [← rebuilt.epoch] at cur
  cases search : ((store.partitions (context.partitionOf feed.record.key)).indexes
      feed.record.dbId).find? (context.isEntryOf feed.record.key) with
  | none => exact rebuilt.apply_fresh (scan.scanned feed last) mergeable cur enabled search
  | some found =>
  refine rebuilt.apply_found (scan.scanned feed last) mergeable cur enabled (scan.clock feed last)
    ?_ search
  intro first inFirst second inSecond
  obtain ⟨firstIn, firstDb, firstKey⟩ := known first inFirst
  obtain ⟨secondIn, secondDb, secondKey⟩ := known second inSecond
  exact scan.versions.comparable firstIn secondIn (firstDb.trans secondDb.symm)
    (firstKey.trans secondKey.symm)

/-- A run whose calls meet their condition rebuilds the store from the records fed, and fails only
for want of room or for a disabled database. -/
theorem applyRecoveredRecords_rebuilt (scan : context.Scan epochs now feeds)
    (feedable : context.Feedable epochs feeds) :
    (∀ store, applyRecoveredRecords context (.empty epochs) feeds = .ok store →
      store.Rebuilt context epochs (context.current epochs feeds).reverse now) ∧
    ((∀ feed ∈ feeds, feed.room = true) →
      (∀ record ∈ context.current epochs feeds, record.dbId < context.databaseCount) →
      ∃ store, applyRecoveredRecords context (.empty epochs) feeds = .ok store) := by
  induction feeds using reverseRecOn with
  | nil =>
    constructor
    · intro store done
      obtain rfl := Except.ok.inj done
      exact WorkerStore.Rebuilt.empty context epochs now
    · intro _ _
      exact ⟨_, rfl⟩
  | append_singleton feeds feed ih =>
    obtain ⟨rebuilds, succeeds⟩ := ih scan.init feedable.init
    rw [applyRecoveredRecords_concat]
    rcases done : applyRecoveredRecords context (.empty epochs) feeds with failure | store
    · refine ⟨nofun, fun rooms inRange => ?_⟩
      obtain ⟨store, succeeded⟩ := succeeds (fun other mem => rooms other (mem_append_left _ mem))
        (fun record mem => inRange record (mem_current_concat feed mem))
      cases done.symm.trans succeeded
    have rebuilt := rebuilds store done
    show (∀ after, applyRecoveredRecord context store feed = .ok after → _) ∧
      (_ → _ → ∃ after, applyRecoveredRecord context store feed = .ok after)
    by_cases cur : feed.record.replicationEpoch = epochs (context.partitionOf feed.record.key)
    · rw [current_concat, if_pos cur, reverse_append, reverse_singleton, singleton_append]
      by_cases enabled : feed.record.dbId < context.databaseCount
      · obtain ⟨after, next, -, applied | ⟨full, failed⟩⟩ :=
          scan.last feedable done rebuilt cur enabled
        · rw [applied]
          exact ⟨fun other same => Except.ok.inj same ▸ next, fun _ _ => ⟨after, rfl⟩⟩
        · rw [failed]
          refine ⟨nofun, fun rooms _ => ?_⟩
          cases full.symm.trans (rooms feed (by simp))
      · rw [applyRecoveredRecord_disabled (by rw [rebuilt.epoch, cur]) (not_lt.mp enabled)]
        refine ⟨nofun, fun _ inRange => absurd (inRange feed.record ?_) enabled⟩
        simp
    · rw [applyRecoveredRecord_stale (by rw [rebuilt.epoch]; exact cur),
        current_concat, if_neg cur, append_nil]
      exact ⟨fun after same => Except.ok.inj same ▸ rebuilt, fun _ _ => ⟨store, rfl⟩⟩

/-- Recovery in any order, in runs whose calls meet their condition. -/
theorem recovered_in_every_order {feeds : List Feed}
    (scanned : ∀ feed ∈ feeds, feed.record.checkpointSnapshot = false)
    (clock : ∀ feed ∈ feeds, feed.now ≤ now) (versions : OneVersion (context.current epochs feeds))
    (feedable : context.Feedable epochs feeds) :
    (∀ store, applyRecoveredRecords context (.empty epochs) feeds = .ok store →
      store.Recovered context (context.current epochs feeds) now) ∧
    ((∀ feed ∈ feeds, feed.room = true) →
      (∀ record ∈ context.current epochs feeds, record.dbId < context.databaseCount) →
      ∃ store, applyRecoveredRecords context (.empty epochs) feeds = .ok store) := by
  obtain ⟨rebuilds, succeeds⟩ := applyRecoveredRecords_rebuilt ⟨scanned, clock, versions⟩ feedable
  refine ⟨fun store done => ?_, succeeds⟩
  exact (rebuilds store done).recovered fun record => mem_reverse.symm

/-- Records that leave the merge nothing to miss: a key is inline in all its records or in none,
and its records of one sequence share their expiry. -/
def Uniform (records : List RecoveryRecord) : Prop :=
  ∀ first ∈ records, ∀ second ∈ records, first.dbId = second.dbId → first.key = second.key →
    first.location.keyExternal = second.location.keyExternal ∧
      (first.sequence = second.sequence → first.location.expireAtMs = second.location.expireAtMs)

theorem WorkerStore.Rebuilt.mergeable {fed : List RecoveryRecord} {record : RecoveryRecord}
    (rebuilt : store.Rebuilt context epochs fed now) (uniform : Uniform (record :: fed)) :
    context.Mergeable store record := by
  have known : ∀ (entry : IndexEntry) (other : RecoveryRecord),
      other ∈ versionsOf fed record.dbId entry.key → entry.key = record.key →
        other ∈ record :: fed ∧ other.dbId = record.dbId ∧ other.key = record.key := by
    intro entry other inside sameKey
    simp only [versionsOf, mem_filter, decide_eq_true_eq] at inside
    exact ⟨mem_cons_of_mem _ inside.1, inside.2.1, inside.2.2.trans sameKey⟩
  constructor
  · intro entry mem sameKey
    obtain ⟨held, stands⟩ := rebuilt.stands _ _ entry mem
    obtain ⟨first, inFirst, complete⟩ := stands.named
    obtain ⟨firstIn, firstDb, firstKey⟩ := known entry first inFirst sameKey
    obtain ⟨heldIn, heldDb, heldKey⟩ := known entry held stands.fed sameKey
    have agree := (uniform first firstIn held heldIn (firstDb.trans heldDb.symm)
      (firstKey.trans heldKey.symm)).1
    cases external : held.location.keyExternal with
    | true =>
      apply Or.inr
      rw [stands.holds.externalKey, external, if_pos rfl, heldKey]
    | false =>
      apply Or.inl
      rw [complete, agree, external]
      rfl
  · intro entry mem sameKey sameSequence
    obtain ⟨held, stands⟩ := rebuilt.stands _ _ entry mem
    obtain ⟨heldIn, heldDb, heldKey⟩ := known entry held stands.fed sameKey
    rw [stands.holds.location] at sameSequence ⊢
    exact (uniform held heldIn record mem_cons_self heldDb heldKey).2 sameSequence

theorem Uniform.feedable (scan : context.Scan epochs now feeds)
    (uniform : Uniform (context.current epochs feeds)) : context.Feedable epochs feeds := by
  induction feeds using reverseRecOn with
  | nil => simp [RecoveryContext.Feedable]
  | append_singleton feeds feed ih =>
    have feedable := ih scan.init fun first inFirst second inSecond =>
      uniform first (mem_current_concat feed inFirst) second (mem_current_concat feed inSecond)
    intro before middle after split store done cur
    rcases eq_nil_or_concat after with rfl | ⟨rest, final, rfl⟩
    · obtain ⟨rfl, same⟩ := append_inj' split rfl
      obtain rfl := singleton_inj.mp same
      have rebuilt := (applyRecoveredRecords_rebuilt scan.init feedable).1 store done
      apply rebuilt.mergeable
      have listed : ∀ other ∈ feed.record :: (context.current epochs feeds).reverse,
          other ∈ context.current epochs (feeds ++ [feed]) := by
        intro other mem
        rcases mem_cons.mp mem with rfl | inside
        · simp [current_concat, cur]
        · exact mem_current_concat feed (mem_reverse.mp inside)
      exact fun first inFirst second inSecond =>
        uniform first (listed first inFirst) second (listed second inSecond)
    · rw [concat_eq_append, ← cons_append, ← append_assoc] at split
      obtain ⟨same, -⟩ := append_inj' split rfl
      exact feedable before middle rest same store done cur

end Runs

/-! ## Orders that matter -/

def onePartition : RecoveryContext where
  databaseCount := 16
  partitionOf := fun _ => ⟨0, by decide⟩
  computeDigest := length

def scannedRecord (lsn sequence : Nat) (expireAtMs : Nat) (keyExternal : Bool) : RecoveryRecord
    where
  key := [107]
  dbId := 0
  txid := 0
  lsn
  replicationEpoch := 1
  location :=
    { blockId := lsn, recordOffset := 8192, allocationEpoch := 1, mutationSequence := sequence,
      expireAtMs, kind := .value, keyExternal }
  timeless := by simp
  groupedValue := by simp
  rooted := rfl

def scannedRoot (lsn sequence revision expireAtMs : Nat) : RecoveryRecord where
  key := [107]
  dbId := 0
  txid := 0
  lsn
  replicationEpoch := 1
  location :=
    { blockId := lsn, recordOffset := 8192, allocationEpoch := 1, mutationSequence := sequence,
      expireAtMs, kind := .value, grouped := true }
  groupedRoot := some ⟨revision, 1⟩
  timeless := by simp
  groupedValue := by simp
  rooted := rfl

def limitRaised : List Feed :=
  [⟨scannedRecord 1 1 0 true, 10, true⟩, ⟨scannedRecord 2 2 0 false, 10, true⟩,
    ⟨scannedRecord 3 3 0 false, 10, true⟩]

/-- A value until `50`, and one replay command that writes a root until `100` and then until
`20`. -/
def shortened : List Feed :=
  [⟨scannedRecord 1 1 50 false, 10, true⟩, ⟨scannedRoot 2 2 2 100, 10, true⟩,
    ⟨scannedRoot 3 2 3 20, 10, true⟩]

/-- The first order leaves two entries for one key; the second clears the shielding bit over a
value that outlives the winner. -/
theorem recovery_misses_merges :
    (OneVersion (onePartition.current (fun _ => 1) limitRaised) ∧
      ∃ store, applyRecoveredRecords onePartition (.empty fun _ => 1) limitRaised = .ok store ∧
        ¬ store.Recovered onePartition (onePartition.current (fun _ => 1) limitRaised) 10) ∧
    OneVersion (onePartition.current (fun _ => 1) shortened) ∧
      ∃ store, applyRecoveredRecords onePartition (.empty fun _ => 1) shortened = .ok store ∧
        ¬ store.Recovered onePartition (onePartition.current (fun _ => 1) shortened) 10 := by
  refine ⟨⟨by decide, _, rfl, ?_⟩, by decide, _, rfl, ?_⟩
  · intro recovered
    have distinct := recovered.distinct ⟨0, by decide⟩ 0
    exact absurd distinct (by decide)
  · intro recovered
    obtain ⟨-, record, -, holds, -, shields⟩ :=
      recovered.winners ⟨0, by decide⟩ 0 _ mem_cons_self
    have sequence : 2 = record.sequence := congrArg mutationSequence holds.location
    have expiry : 20 = record.location.expireAtMs :=
      congrArg expireAtMs holds.location
    have gone := shields rfl (scannedRecord 1 1 50 false) mem_cons_self
    simp [shieldedBy, ← sequence, ← expiry, scannedRecord, live, outlives] at gone

instance (records : List RecoveryRecord) : Decidable (Uniform records) :=
  inferInstanceAs (Decidable (∀ first ∈ records, ∀ second ∈ records, _ → _ → _))

def outOfOrder : List Feed :=
  [⟨scannedRecord 5 2 30 true, 10, true⟩, ⟨scannedRecord 4 1 0 true, 10, true⟩,
    ⟨scannedRecord 6 2 30 true, 10, true⟩]

/-- Fed out of order, the copy wins and shields the older version. -/
theorem recovered_in_every_order_copied :
    ∃ store, applyRecoveredRecords onePartition (.empty fun _ => 1) outOfOrder = .ok store ∧
      store.Recovered onePartition (onePartition.current (fun _ => 1) outOfOrder) 10 ∧
      ((store.partitions ⟨0, by decide⟩).indexes 0).map
        (fun entry => (entry.lsn, entry.location.shielding)) = [(some 6, true)] := by
  have scanned : ∀ feed ∈ outOfOrder, feed.record.checkpointSnapshot = false := by
    simp [outOfOrder, scannedRecord]
  have clock : ∀ feed ∈ outOfOrder, feed.now ≤ 10 := by simp [outOfOrder]
  have recovers := recovered_in_every_order scanned clock
    (show OneVersion (onePartition.current (fun _ => 1) outOfOrder) by decide)
    (Uniform.feedable ⟨scanned, clock, by decide⟩ (by decide))
  exact ⟨_, rfl, recovers.1 _ rfl, by decide⟩

end Lavik.Storage
