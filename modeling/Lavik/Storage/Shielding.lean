import Lavik.Storage.RecoveryOrder
/-!
# The shielding bit after recovery

A merge never clears the bit, so a newer winner inherits it also when it expires later than the
value that set it. The bits are exact in runs where no call hands on a bit that is no longer due.
-/

namespace Lavik.Storage

open List

/-- The condition on a call: a record that replaces an entry with its bit set expires no later, or
that entry itself outlives it. -/
def RecoveryContext.HandsOn (context : RecoveryContext) (store : WorkerStore) (feed : Feed) :
    Prop :=
  ∀ entry ∈ (store.partitions (context.partitionOf feed.record.key)).indexes feed.record.dbId,
    entry.key = feed.record.key → entry.location.shielding = true →
    context.candidateNewer entry feed.record = .ok true →
      feed.record.location.expireAtMs ≤ max entry.location.expireAtMs feed.now ∨
        entry.location.shieldedBy feed.record.location feed.now = true

def RecoveryContext.HandsOnDue (context : RecoveryContext) (epochs : PartitionId → Nat)
    (feeds : List Feed) : Prop :=
  ∀ before feed after, feeds = before ++ feed :: after → ∀ store,
    applyRecoveredRecords context (.empty epochs) before = .ok store → context.HandsOn store feed

/-- Every set bit is due to a version of the key. -/
def WorkerStore.Earned (store : WorkerStore) (fed : List RecoveryRecord) (now : Nat) : Prop :=
  ∀ id dbId, ∀ entry ∈ (store.partitions id).indexes dbId, entry.location.shielding = true →
    ∃ other ∈ versionsOf fed dbId entry.key, other.location.shieldedBy entry.location now = true

section Bits

variable {context : RecoveryContext} {epochs : PartitionId → Nat} {store after : WorkerStore}
  {fed : List RecoveryRecord} {feed : Feed} {now : Nat}

theorem RecordLocation.shieldedBy_of_expiry_le {older newer newest : RecordLocation}
    (shields : older.shieldedBy newer now = true)
    (sequence : newer.mutationSequence ≤ newest.mutationSequence)
    (expiry : newest.expireAtMs ≤ max newer.expireAtMs now) :
    older.shieldedBy newest now = true := by
  simp only [shieldedBy, outlives, Bool.and_eq_true, Bool.or_eq_true, decide_eq_true_eq]
    at shields ⊢
  obtain ⟨⟨live, older⟩, outlasts⟩ := shields
  exact ⟨⟨live, by omega⟩, by omega⟩

theorem WorkerStore.Earned.follow (earned : store.Earned fed feed.now)
    (rebuilt : store.Rebuilt context epochs fed now)
    (unset : feed.record.location.shielding = false) (due : context.HandsOn store feed)
    (follows : after.Follows context store feed) : after.Earned (feed.record :: fed) feed.now := by
  have later : ∀ {dbId key} {other : RecoveryRecord}, other ∈ versionsOf fed dbId key →
      other ∈ versionsOf (feed.record :: fed) dbId key := by
    intro dbId key other mem
    exact mem_filter.mpr (And.imp_left (mem_cons_of_mem _) (mem_filter.mp mem))
  intro id dbId entry mem set
  rcases follows id dbId entry mem with old | ⟨rfl, rfl | ⟨found, known, sameKey, outcome⟩⟩
  · obtain ⟨other, inside, shields⟩ := earned id dbId entry old set
    exact ⟨other, later inside, shields⟩
  · cases unset.symm.trans set
  · obtain ⟨held, stands⟩ := rebuilt.stands _ _ found known
    rcases outcome with ⟨newer, rfl⟩ | rfl
    · have direct : found.location.shieldedBy feed.record.location feed.now = true →
          ∃ other ∈ versionsOf (feed.record :: fed) feed.record.dbId found.key,
            other.location.shieldedBy feed.record.location feed.now = true := by
        intro shields
        rw [stands.holds.location] at shields
        exact ⟨held, later stands.fed, shields⟩
      rcases Bool.or_eq_true_iff.mp set with wasSet | shields
      · rcases due found known sameKey wasSet newer with expiry | shields
        · obtain ⟨other, inside, shields⟩ := earned _ _ found known wasSet
          rw [candidateNewer_spec context stands.holds, Except.ok.injEq] at newer
          refine ⟨other, later inside, RecordLocation.shieldedBy_of_expiry_le shields ?_ expiry⟩
          rw [stands.holds.location]
          exact RecoveryRecord.sequence_le_of_newer newer
        · exact direct shields
      · exact direct shields
    · rcases Bool.or_eq_true_iff.mp set with wasSet | shields
      · obtain ⟨other, inside, shields⟩ := earned _ _ found known wasSet
        exact ⟨other, later inside, shields⟩
      · refine ⟨feed.record, ?_, shields⟩
        simp only [IndexEntry.withShielding, sameKey, versionsOf_cons_self, mem_cons_self]

theorem applyRecoveredRecords_earned {feeds : List Feed} (scan : context.Scan epochs now feeds)
    (feedable : context.Feedable epochs feeds) (clock : ∀ feed ∈ feeds, feed.now = now)
    (unset : ∀ feed ∈ feeds, feed.record.location.shielding = false)
    (due : context.HandsOnDue epochs feeds)
    (done : applyRecoveredRecords context (.empty epochs) feeds = .ok store) :
    store.Earned (context.current epochs feeds).reverse now := by
  induction feeds using reverseRecOn generalizing store with
  | nil =>
    cases done
    simp [WorkerStore.Earned, WorkerStore.empty]
  | append_singleton feeds feed ih =>
    rw [applyRecoveredRecords_concat] at done
    rcases run : applyRecoveredRecords context (.empty epochs) feeds with failure | before
    · rw [run] at done
      cases done
    rw [run] at done
    have last : feed ∈ feeds ++ [feed] := by simp
    have earned := ih scan.init feedable.init (fun other mem => clock other (mem_append_left _ mem))
      (fun other mem => unset other (mem_append_left _ mem))
      (fun earlier other later split => due earlier other (later ++ [feed]) (by rw [split]; simp))
      run
    have rebuilt := (applyRecoveredRecords_rebuilt scan.init feedable.init).1 before run
    rw [RecoveryContext.current_concat]
    split
    · rename_i cur
      have enabled : feed.record.dbId < context.databaseCount := by
        rw [← rebuilt.epoch] at cur
        by_contra disabled
        cases (applyRecoveredRecord_disabled cur (not_lt.mp disabled)).symm.trans done
      obtain ⟨after, -, follows, applied | ⟨-, failed⟩⟩ :=
        scan.last feedable run rebuilt cur enabled
      · cases applied.symm.trans done
        rw [← clock feed last] at earned ⊢
        rw [reverse_append, reverse_singleton, singleton_append]
        exact earned.follow rebuilt (unset feed last) (due feeds feed [] rfl before run) follows
      · cases failed.symm.trans done
    · rename_i stale
      rw [← rebuilt.epoch] at stale
      cases (applyRecoveredRecord_stale stale).symm.trans done
      rw [append_nil]
      exact earned

/-- In runs whose calls meet their conditions, the bit of every entry says whether a strictly older
value of its key outlives it, whatever the order. -/
theorem shielding_rebuilt_exactly {feeds : List Feed}
    (scanned : ∀ feed ∈ feeds, feed.record.checkpointSnapshot = false)
    (unset : ∀ feed ∈ feeds, feed.record.location.shielding = false)
    (clock : ∀ feed ∈ feeds, feed.now = now) (versions : OneVersion (context.current epochs feeds))
    (feedable : context.Feedable epochs feeds) (due : context.HandsOnDue epochs feeds)
    (done : applyRecoveredRecords context (.empty epochs) feeds = .ok store) :
    store.Recovered context (context.current epochs feeds) now ∧
      ∀ id dbId, ∀ entry ∈ (store.partitions id).indexes dbId, (entry.location.shielding = true ↔
        ∃ other ∈ versionsOf (context.current epochs feeds) dbId entry.key,
          other.location.shieldedBy entry.location now = true) := by
  have scan : context.Scan epochs now feeds :=
    ⟨scanned, fun feed member => le_of_eq (clock feed member), versions⟩
  have rebuilt := (applyRecoveredRecords_rebuilt scan feedable).1 store done
  have earned := applyRecoveredRecords_earned scan feedable clock unset due done
  have recovered := rebuilt.recovered fun record => mem_reverse.symm
  refine ⟨recovered, fun id dbId entry member => ⟨fun set => ?_, ?_⟩⟩
  · obtain ⟨other, inside, shields⟩ := earned id dbId entry member set
    rw [versionsOf, filter_reverse, mem_reverse] at inside
    exact ⟨other, inside, shields⟩
  · rintro ⟨other, inside, shields⟩
    obtain ⟨-, held, -, holds, -, clear⟩ := recovered.winners id dbId entry member
    apply Bool.of_not_eq_false
    intro bit
    rw [holds.location] at shields
    cases (clear bit other inside).symm.trans shields

end Bits

/-- Fed out of order, the copy inherits a bit that the older version still earns. -/
theorem shielding_rebuilt_exactly_copied :
    ∃ store, applyRecoveredRecords onePartition (.empty fun _ => 1) outOfOrder = .ok store ∧
      store.Recovered onePartition (onePartition.current (fun _ => 1) outOfOrder) 10 ∧
      ∀ id dbId, ∀ entry ∈ (store.partitions id).indexes dbId, (entry.location.shielding = true ↔
        ∃ other ∈ versionsOf (onePartition.current (fun _ => 1) outOfOrder) dbId entry.key,
          other.location.shieldedBy entry.location 10 = true) := by
  have scanned : ∀ feed ∈ outOfOrder, feed.record.checkpointSnapshot = false := by
    simp [outOfOrder, scannedRecord]
  have unset : ∀ feed ∈ outOfOrder, feed.record.location.shielding = false := by
    simp [outOfOrder, scannedRecord]
  have clock : ∀ feed ∈ outOfOrder, feed.now = 10 := by simp [outOfOrder]
  have versions : OneVersion (onePartition.current (fun _ => 1) outOfOrder) := by decide
  have feedable : onePartition.Feedable (fun _ => 1) outOfOrder :=
    Uniform.feedable ⟨scanned, fun feed member => le_of_eq (clock feed member), versions⟩
      (by decide)
  have due : onePartition.HandsOnDue (fun _ => 1) outOfOrder := by
    intro before feed after split store done entry member
    rcases before with _ | ⟨first, _ | ⟨second, _ | ⟨third, rest⟩⟩⟩ <;>
      simp [outOfOrder] at split
    · cases done
      cases member
    · obtain ⟨rfl, rfl, -⟩ := split
      cases done
      obtain rfl := mem_singleton.mp member
      intro _ set
      cases set
    · obtain ⟨rfl, rfl, rfl, -⟩ := split
      cases done
      obtain rfl := mem_singleton.mp member
      intro _ _ _
      exact Or.inl (by decide)
  exact ⟨_, rfl, shielding_rebuilt_exactly scanned unset clock versions feedable due rfl⟩

def raisedExpiry : List Feed :=
  [⟨scannedRecord 1 1 100 false, 10, true⟩, ⟨scannedRecord 2 2 50 false, 10, true⟩,
    ⟨scannedRecord 3 3 200 false, 10, true⟩]

def bitsOf (feeds : List Feed) : Except RecoveryError (List Bool) :=
  (applyRecoveredRecords onePartition (.empty fun _ => 1) feeds).map fun store =>
    ((store.partitions (onePartition.partitionOf [])).indexes 0).map (·.location.shielding)

/-- One order of three values keeps a bit that no value is due for and another order does not; and
the bit of the winner among the roots of one command misses a value that outlives it. -/
theorem shielding_depends_on_order :
    bitsOf raisedExpiry = .ok [true] ∧ (raisedExpiry.map Feed.record).all (fun older =>
      !older.location.shieldedBy (scannedRecord 3 3 200 false).location 10) = true ∧
    (∃ order, order.Perm raisedExpiry ∧ bitsOf order = .ok [false]) ∧
    bitsOf shortened = .ok [false] ∧ (scannedRecord 1 1 50 false).location.shieldedBy
      (scannedRoot 3 2 3 20).location 10 = true := by
  refine ⟨rfl, rfl, ⟨[_, _, _], ((List.Perm.swap _ _ _).cons _).symm, rfl⟩, rfl, rfl⟩

end Lavik.Storage
