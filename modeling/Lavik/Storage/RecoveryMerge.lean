import Mathlib.Algebra.BigOperators.Fin
import Lavik.Storage.Recovery
/-!
# One merge of recovery

The index has one entry a key, held by the newest version fed so far. A call of
`ApplyRecoveredRecord` keeps that provided that it finds the entry of its key and that a record of
the winner's own sequence has the winner's expiry.
-/

namespace Lavik.Storage

open RecoveryRecord RecordLocation PartitionStore Function

open RecoveryContext

open List

/-! ## The order of versions -/

namespace RecoveryRecord

variable (record : RecoveryRecord)

abbrev sequence : Nat := record.location.mutationSequence

variable (other : RecoveryRecord)

def newer : Bool :=
  decide (other.sequence < record.sequence) || record.sequence = other.sequence &&
      match record.groupedRoot, other.groupedRoot with
      | some incoming, some current =>
        if incoming.revision ≠ current.revision then decide (current.revision < incoming.revision)
        else decide (other.lsn < record.lsn)
      | _, _ => decide (other.lsn < record.lsn)

def rank : Nat ×ₗ Nat ×ₗ Nat :=
  toLex (record.sequence, toLex ((record.groupedRoot.map GroupedRoot.revision).getD 0, record.lsn))

/-- Two records of one sequence are comparable if they are of one kind, and both or neither of them
roots. -/
def Comparable : Prop :=
  record.sequence = other.sequence → record.location.kind = other.location.kind ∧
    record.groupedRoot.isSome = other.groupedRoot.isSome

theorem newer_iff_rank {record other : RecoveryRecord} (comparable : record.Comparable other) :
    record.newer other = true ↔ other.rank < record.rank := by
  unfold newer rank
  rw [Prod.Lex.toLex_lt_toLex, Prod.Lex.toLex_lt_toLex]
  by_cases same : record.sequence = other.sequence
  · have roots := (comparable same).2
    cases mine : record.groupedRoot <;> cases its : other.groupedRoot <;>
      simp only [mine, its, Option.isSome_some, Option.isSome_none, Bool.false_eq_true,
        Bool.true_eq_false] at roots
    · simp [same]
    · rename_i incoming cur
      by_cases revisions : incoming.revision = cur.revision
      · simp [same, revisions]
      · simp [same, revisions, Ne.symm revisions]
  · simp [same, Ne.symm same]

/-- Copies of one version differ in place, LSN and transaction tag only. -/
def CopyOf : Prop :=
  record.location.kind = other.location.kind ∧
    record.location.expireAtMs = other.location.expireAtMs ∧
    record.groupedRoot = other.groupedRoot

end RecoveryRecord

/-! ## One key -/

structure IndexEntry.Holds (entry : IndexEntry) (record : RecoveryRecord) : Prop where
  key : entry.key = record.key
  location : entry.location = { record.location with
    shielding := entry.location.shielding, txTagged := record.txid ≠ 0 }
  lsn : entry.lsn = some record.lsn
  groupedRoot : entry.groupedRoot = record.groupedRoot
  txid : entry.txid = if record.txid ≠ 0 then some record.txid else none
  extents : entry.extents = if record.location.external then some record.extents else none
  externalKey : entry.externalKey = if record.location.keyExternal then some record.key else none

/-- An entry that is the winner among the versions of its key: none is newer, and if its shielding
bit is clear no older value outlives it. -/
def IndexEntry.Wins (entry : IndexEntry) (versions : List RecoveryRecord) (now : Nat) : Prop :=
  ∃ record ∈ versions, entry.Holds record ∧ (∀ other ∈ versions, other.newer record = false) ∧
    (entry.location.shielding = false →
      ∀ other ∈ versions, other.location.shieldedBy record.location now = false)

/-- What the merge keeps of the winner: besides, the versions of its sequence share its expiry, and
its key is complete if the first version had it inline. -/
structure IndexEntry.Stands (entry : IndexEntry) (record : RecoveryRecord)
    (versions : List RecoveryRecord) (now : Nat) : Prop where
  fed : record ∈ versions
  holds : entry.Holds record
  newest : ∀ other ∈ versions, other.newer record = false
  shields : entry.location.shielding = false →
    ∀ other ∈ versions, other.location.shieldedBy record.location now = false
  steady : ∀ other ∈ versions, other.sequence = record.sequence →
    other.location.expireAtMs = record.location.expireAtMs
  named : ∃ first ∈ versions, entry.keyComplete = !first.location.keyExternal

@[simp]
theorem RecordLocation.shieldedBy_self (location : RecordLocation) (now : Nat) :
    location.shieldedBy location now = false := by
  simp [shieldedBy]

@[simp]
theorem RecoveryRecord.newer_self (record : RecoveryRecord) : record.newer record = false := by
  unfold newer
  cases record.groupedRoot <;> simp

theorem candidateNewer_spec (context : RecoveryContext) {entry : IndexEntry}
    {held : RecoveryRecord} (holds : entry.Holds held) (record : RecoveryRecord) :
    context.candidateNewer entry record = .ok (record.newer held) := by
  have sequence : entry.location.mutationSequence = held.sequence := by rw [holds.location]
  have grouped : entry.location.grouped = held.groupedRoot.isSome := by
    rw [holds.location]
    exact held.rooted
  have lsn : context.currentLsn entry = held.lsn := by
    rw [currentLsn, holds.lsn, Option.getD_some]
  unfold candidateNewer equalCommandNewer newer
  rw [sequence, grouped, lsn, holds.groupedRoot]
  cases incoming : record.groupedRoot with
  | none => rfl
  | some root =>
    cases cur : held.groupedRoot with
    | none => rfl
    | some other =>
      by_cases same : record.sequence = held.sequence
      · by_cases revisions : root.revision = other.revision
        · simp [same, revisions, pure, Except.pure, bind, Except.bind]
        · simp [same, revisions, pure, Except.pure, bind, Except.bind]
      · simp [same, pure, Except.pure, bind, Except.bind]

variable {record : RecoveryRecord}

theorem winnerEntry_first (scanned : record.checkpointSnapshot = false) (now bound : Nat) :
    (winnerEntry none record now).Stands record [record] bound where
  fed := mem_singleton_self record
  holds := ⟨rfl, rfl, by simp [winnerEntry, scanned], rfl, rfl, rfl, rfl⟩
  newest := by simp
  shields := by simp
  steady := by simp
  named := ⟨record, mem_singleton_self record, rfl⟩

theorem RecoveryRecord.newer_trans {first second third : RecoveryRecord}
    (lower : first.Comparable second) (upper : third.Comparable second)
    (outer : first.Comparable third) (notNewer : first.newer second = false)
    (newer : third.newer second = true) : first.newer third = false := by
  have below : first.rank ≤ second.rank := by
    apply le_of_not_gt
    intro above
    rw [(newer_iff_rank lower).mpr above] at notNewer
    contradiction
  have above := (newer_iff_rank upper).mp newer
  apply Bool.eq_false_iff.mpr
  intro wrong
  exact absurd ((newer_iff_rank outer).mp wrong) (not_lt.mpr (le_trans below (le_of_lt above)))

variable {other : RecoveryRecord}

theorem RecoveryRecord.sequence_le_of_newer (newer : record.newer other = true) :
    other.sequence ≤ record.sequence := by
  simp only [RecoveryRecord.newer, Bool.or_eq_true, Bool.and_eq_true, decide_eq_true_eq] at newer
  omega

theorem RecoveryRecord.sequence_le_of_not_newer (older : record.newer other = false) :
    record.sequence ≤ other.sequence := by
  simp only [newer, Bool.or_eq_false_iff, decide_eq_false_iff_not] at older
  omega

theorem RecordLocation.shieldedBy_eq_false_iff {older newer : RecordLocation} {now : Nat} :
    older.shieldedBy newer now = false ↔ older.live = true →
      older.mutationSequence < newer.mutationSequence →
      outlives older.expireAtMs newer.expireAtMs now = false := by
  unfold shieldedBy
  cases older.live <;> cases outlives older.expireAtMs newer.expireAtMs now <;> simp

def IndexEntry.withShielding (entry : IndexEntry) (shielding : Bool) : IndexEntry :=
  { entry with location := { entry.location with shielding } }

namespace IndexEntry.Stands

variable {entry : IndexEntry} {held record : RecoveryRecord} {versions : List RecoveryRecord}
  {now bound : Nat}

section

variable (stands : entry.Stands held versions bound)

include stands

theorem held_gone (clock : now ≤ bound)
    (unshielded : entry.location.shieldedBy record.location now = false)
    (live : held.location.live = true) (older : held.sequence < record.sequence) :
    outlives held.location.expireAtMs record.location.expireAtMs bound = false := by
  apply outlives_mono clock
  rw [stands.holds.location] at unshielded
  exact shieldedBy_eq_false_iff.mp unshielded live older

theorem replaced (scanned : record.checkpointSnapshot = false) (clock : now ≤ bound)
    (sameKey : entry.key = record.key)
    (comparable : ∀ first ∈ record :: versions, ∀ second ∈ record :: versions,
      first.Comparable second) (steady : record.sequence = held.sequence →
      record.location.expireAtMs = held.location.expireAtMs) (newer : record.newer held = true) :
    (winnerEntry (some entry) record now).Stands record (record :: versions) bound where
  fed := mem_cons_self
  holds := ⟨sameKey, rfl, by simp [winnerEntry, scanned], rfl, rfl, rfl, rfl⟩
  newest := by
    intro other mem
    rcases mem_cons.mp mem with rfl | earlier
    · exact newer_self other
    apply newer_trans _ _ _ (stands.newest other earlier) newer
    · exact comparable other mem held (mem_cons_of_mem _ stands.fed)
    · exact comparable record mem_cons_self held (mem_cons_of_mem _ stands.fed)
    · exact comparable other mem record mem_cons_self
  shields := by
    intro clear other mem
    simp only [winnerEntry, winnerLocation, Bool.or_eq_false_iff] at clear
    obtain ⟨wasClear, unshielded⟩ := clear
    rcases mem_cons.mp mem with rfl | earlier
    · exact shieldedBy_self _ _
    apply shieldedBy_eq_false_iff.mpr
    intro live older
    have order := sequence_le_of_newer newer
    have below := sequence_le_of_not_newer (stands.newest other earlier)
    by_cases strictly : other.sequence < held.sequence
    · have gone := shieldedBy_eq_false_iff.mp (stands.shields wasClear other earlier) live strictly
      by_cases same : record.sequence = held.sequence
      · rw [steady same]
        exact gone
      cases heldLive : held.location.live with
      | true =>
        exact outlives_trans gone (stands.held_gone clock unshielded heldLive (by omega))
      | false =>
        -- A tombstone has no deadline of its own.
        have timeless := held.timeless (by simpa [RecordLocation.live] using heldLive)
        rw [outlives_eq_false_iff] at gone ⊢
        omega
    · -- A copy of the held version, with its kind and its expiry.
      have same : other.sequence = held.sequence := by omega
      have kinds := (comparable other mem held (mem_cons_of_mem _ stands.fed) same).1
      rw [stands.steady other earlier same]
      apply stands.held_gone clock unshielded
      · rw [RecordLocation.live, ← kinds]
        exact live
      · change other.sequence < record.sequence at older
        omega
  steady := by
    intro other mem same
    rcases mem_cons.mp mem with rfl | earlier
    · rfl
    have order := sequence_le_of_newer newer
    have below := sequence_le_of_not_newer (stands.newest other earlier)
    have level : record.sequence = held.sequence := by omega
    rw [steady level]
    exact stands.steady other earlier (by omega)
  named := by
    obtain ⟨first, mem, complete⟩ := stands.named
    exact ⟨first, mem_cons_of_mem _ mem, complete⟩

theorem kept (clock : now ≤ bound) (steady : record.sequence = held.sequence →
      record.location.expireAtMs = held.location.expireAtMs) (older : record.newer held = false) :
    (entry.withShielding (entry.location.shielding ||
      record.location.shieldedBy entry.location now)).Stands held (record :: versions) bound where
  fed := mem_cons_of_mem _ stands.fed
  holds := { stands.holds with location := by rw [withShielding, stands.holds.location] }
  newest := by
    intro other mem
    rcases mem_cons.mp mem with rfl | earlier
    · exact older
    · exact stands.newest other earlier
  shields := by
    intro clear other mem
    rw [withShielding, Bool.or_eq_false_iff] at clear
    rcases mem_cons.mp mem with rfl | earlier
    · apply shieldedBy_eq_false_iff.mpr
      intro live below
      have unshielded := clear.2
      rw [stands.holds.location] at unshielded
      exact outlives_mono clock (shieldedBy_eq_false_iff.mp unshielded live below)
    · exact stands.shields clear.1 other earlier
  steady := by
    intro other mem same
    rcases mem_cons.mp mem with rfl | earlier
    · exact steady same
    · exact stands.steady other earlier same
  named := by
    obtain ⟨first, mem, complete⟩ := stands.named
    exact ⟨first, mem_cons_of_mem _ mem, complete⟩

end

end IndexEntry.Stands

/-! ## One call -/

def versionsOf (fed : List RecoveryRecord) (dbId : Nat) (key : Key) : List RecoveryRecord :=
  fed.filter fun record => record.dbId = dbId ∧ record.key = key

theorem versionsOf_cons_self (record : RecoveryRecord) (fed : List RecoveryRecord) :
    versionsOf (record :: fed) record.dbId record.key =
      record :: versionsOf fed record.dbId record.key := by
  simp [versionsOf]

theorem versionsOf_cons_of_ne {dbId : Nat} {key : Key}
    (apart : ¬(record.dbId = dbId ∧ record.key = key)) (fed : List RecoveryRecord) :
    versionsOf (record :: fed) dbId key = versionsOf fed dbId key := by
  unfold versionsOf
  rw [filter_cons_of_neg (by simpa using apart)]

theorem countP_exchange (p : IndexEntry → Bool) (left right : List IndexEntry)
    (found : Option IndexEntry) (winner : IndexEntry) :
    (left ++ winner :: right).countP p =
      recount ((left ++ found.toList ++ right).countP p) (found.any p) (p winner) := by
  cases found with
  | none => cases flag : p winner <;> simp [recount, flag, Nat.add_assoc]
  | some entry =>
    cases was : p entry <;> cases flag : p winner <;> simp [recount, was, flag, Nat.add_assoc]

/-- Every index has one entry a key, every key that was fed has one, and the counters agree with
the entries. -/
structure WorkerStore.Indexed (store : WorkerStore) (context : RecoveryContext)
    (fed : List RecoveryRecord) : Prop where
  distinct : ∀ id dbId, (((store.partitions id).indexes dbId).map IndexEntry.key).Nodup
  present : ∀ record ∈ fed, ∃ entry ∈
    (store.partitions (context.partitionOf record.key)).indexes record.dbId, entry.key = record.key
  live : ∀ id dbId, (store.partitions id).liveKeyCount dbId =
    ((store.partitions id).indexes dbId).countP (·.location.live)
  expiring : ∀ id dbId, (store.partitions id).expiringKeyCount dbId =
    ((store.partitions id).indexes dbId).countP (·.location.expiring)
  total : ∀ dbId, store.liveKeyCount dbId = ∑ id, (store.partitions id).liveKeyCount dbId

structure WorkerStore.Rebuilt (store : WorkerStore) (context : RecoveryContext)
    (epochs : PartitionId → Nat) (fed : List RecoveryRecord) (now : Nat) : Prop
    extends store.Indexed context fed where
  epoch : ∀ id, (store.partitions id).replicationEpoch = epochs id
  home : ∀ id dbId, ∀ entry ∈ (store.partitions id).indexes dbId, context.partitionOf entry.key = id
  stands : ∀ id dbId, ∀ entry ∈ (store.partitions id).indexes dbId,
    ∃ record, entry.Stands record (versionsOf fed dbId entry.key) now

def WorkerStore.exchange (store : WorkerStore) (id : PartitionId) (dbId sequence : Nat)
    (index : List IndexEntry) (found : Option IndexEntry) (winner : RecordLocation) :
    WorkerStore :=
  store.setPartition id
    ({ store.partitions id with mutationSequence := sequence }.install dbId index found winner) dbId
    (recount (store.liveKeyCount dbId) (found.any (·.location.live)) winner.live)

namespace WorkerStore

variable {store : WorkerStore} {id home : PartitionId} {dbId target sequence : Nat}
  {index : List IndexEntry} {found : Option IndexEntry} {winner : RecordLocation}

theorem exchange_here :
    ((store.exchange home target sequence index found winner).partitions home).indexes target =
      index := by
  simp [exchange, setPartition, install]

theorem exchange_elsewhere (apart : ¬(id = home ∧ dbId = target)) :
    ((store.exchange home target sequence index found winner).partitions id).indexes dbId =
        (store.partitions id).indexes dbId ∧
      ((store.exchange home target sequence index found winner).partitions id).liveKeyCount dbId =
        (store.partitions id).liveKeyCount dbId ∧
      ((store.exchange home target sequence index found winner).partitions id).expiringKeyCount
          dbId = (store.partitions id).expiringKeyCount dbId := by
  by_cases here : id = home
  · subst here
    have other : dbId ≠ target := fun same => apart ⟨rfl, same⟩
    simp [exchange, setPartition, install, other]
  · simp [exchange, setPartition, here]

/-- The entries after an exchange: the new one in its place, and the old ones but the one it
replaced. -/
theorem mem_exchange {left right : List IndexEntry} {new entry : IndexEntry}
    (before : (store.partitions home).indexes target = left ++ found.toList ++ right) :
    entry ∈ ((store.exchange home target sequence (left ++ new :: right) found winner).partitions
        id).indexes dbId ↔
      (id = home ∧ dbId = target) ∧ entry = new ∨ entry ∈ (store.partitions id).indexes dbId ∧
        (id = home ∧ dbId = target → entry ∈ left ++ right) := by
  by_cases here : id = home ∧ dbId = target
  · obtain ⟨rfl, rfl⟩ := here
    rw [exchange_here, before]
    simp only [mem_append, mem_cons]
    tauto
  · simp [(exchange_elsewhere here).1, here]

theorem exchange_counts_here :
    ((store.exchange home target sequence index found winner).partitions home).liveKeyCount target =
        recount ((store.partitions home).liveKeyCount target) (found.any (·.location.live))
          winner.live ∧
      ((store.exchange home target sequence index found winner).partitions home).expiringKeyCount
          target = recount ((store.partitions home).expiringKeyCount target)
          (found.any (·.location.expiring)) winner.expiring := by
  simp [exchange, setPartition, install]

theorem exchange_epoch :
    ((store.exchange home target sequence index found winner).partitions id).replicationEpoch =
      (store.partitions id).replicationEpoch := by
  by_cases here : id = home
  · subst here
    simp [exchange, setPartition, install]
  · simp [exchange, setPartition, here]

theorem exchange_shielding (entry : IndexEntry) (shielding : Bool) :
    store.exchange home target sequence index (some entry)
        (entry.withShielding shielding).location =
      store.setPartition home { store.partitions home with
        mutationSequence := sequence
        indexes := update (store.partitions home).indexes target index } target
        (store.liveKeyCount target) := by
  have live : (entry.withShielding shielding).location.live = entry.location.live := rfl
  have expiring : (entry.withShielding shielding).location.expiring = entry.location.expiring := rfl
  simp [exchange, install, recount, live, expiring]

theorem exchange_total
    (counted : found.any (·.location.live) = true → 0 < (store.partitions home).liveKeyCount target)
    (total : ∀ dbId, store.liveKeyCount dbId = ∑ id, (store.partitions id).liveKeyCount dbId)
    (dbId : Nat) :
    (store.exchange home target sequence index found winner).liveKeyCount dbId =
      ∑ id, ((store.exchange home target sequence index found winner).partitions id).liveKeyCount
        dbId := by
  by_cases same : dbId = target
  · subst same
    have counts : (fun id => ((store.exchange home dbId sequence index found winner).partitions
        id).liveKeyCount dbId) = update (fun id => (store.partitions id).liveKeyCount dbId)
          home (recount ((store.partitions home).liveKeyCount dbId)
            (found.any (·.location.live)) winner.live) := by
      funext id
      by_cases here : id = home
      · subst here
        rw [update_self]
        exact exchange_counts_here.1
      · rw [update_of_ne here]
        exact (exchange_elsewhere fun both => here both.1).2.1
    rw [show ∑ id, ((store.exchange home dbId sequence index found winner).partitions
      id).liveKeyCount dbId = _ from congrArg (Finset.univ.sum ·) counts,
      Finset.sum_update_of_mem (Finset.mem_univ home)]
    have sum := (total dbId).trans (Finset.sum_eq_add_sum_sdiff_singleton_of_mem
      (Finset.mem_univ home) fun id => (store.partitions id).liveKeyCount dbId)
    simp only [exchange, setPartition, update_self, sum]
    cases was : found.any (·.location.live) with
    | false => cases winner.live <;> simp [recount]; omega
    | true =>
      have pos := counted was
      cases winner.live <;> simp [recount]
      omega
  · have counts : ∀ id, ((store.exchange home target sequence index found winner).partitions
        id).liveKeyCount dbId = (store.partitions id).liveKeyCount dbId :=
      fun id => (exchange_elsewhere fun both => same both.2).2.1
    simp only [counts, ← total]
    simp [exchange, setPartition, same]

end WorkerStore

namespace WorkerStore.Rebuilt

variable {store : WorkerStore} {context : RecoveryContext} {epochs : PartitionId → Nat}
  {fed : List RecoveryRecord} {bound : Nat}

/-- The entry of the record's key is exchanged for one that stands among the versions of the key
with the record. -/
theorem exchange (rebuilt : store.Rebuilt context epochs fed bound) (record : RecoveryRecord)
    (sequence : Nat) {left right : List IndexEntry} {found : Option IndexEntry}
    {winner : IndexEntry}
    (before : (store.partitions (context.partitionOf record.key)).indexes record.dbId =
      left ++ found.toList ++ right)
    (foundKey : ∀ entry, found = some entry → entry.key = record.key)
    (apart : ∀ entry ∈ left ++ right, entry.key ≠ record.key) (winnerKey : winner.key = record.key)
    (stands : ∃ held, winner.Stands held (record :: versionsOf fed record.dbId record.key) bound) :
    (store.exchange (context.partitionOf record.key) record.dbId sequence
      (left ++ winner :: right) found winner.location).Rebuilt context epochs (record :: fed)
        bound where
  epoch id := by rw [exchange_epoch, rebuilt.epoch]
  home := by
    intro id dbId entry mem
    rcases (mem_exchange before).mp mem with ⟨⟨rfl, -⟩, rfl⟩ | ⟨old, -⟩
    · rw [winnerKey]
    · exact rebuilt.home id dbId entry old
  distinct := by
    intro id dbId
    by_cases here : id = context.partitionOf record.key ∧ dbId = record.dbId
    · obtain ⟨rfl, rfl⟩ := here
      have old := rebuilt.distinct (context.partitionOf record.key) record.dbId
      rw [before] at old
      rw [exchange_here]
      simp only [map_append, map_cons, winnerKey] at old ⊢
      cases found with
      | some entry =>
        have same := foundKey entry rfl
        simpa [same] using old
      | none =>
        apply nodup_middle.mpr
        rw [nodup_cons]
        constructor
        · intro inside
          rw [← map_append] at inside
          obtain ⟨entry, mem, same⟩ := mem_map.mp inside
          exact apart entry mem same
        · simpa using old
    · rw [(exchange_elsewhere here).1]
      exact rebuilt.distinct id dbId
  stands := by
    intro id dbId entry mem
    rcases (mem_exchange before).mp mem with ⟨⟨rfl, rfl⟩, rfl⟩ | ⟨old, beside⟩
    · rw [winnerKey, versionsOf_cons_self]
      exact stands
    · rw [versionsOf_cons_of_ne]
      · exact rebuilt.stands id dbId entry old
      · rintro ⟨rfl, same⟩
        refine apart entry (beside ⟨?_, rfl⟩) same.symm
        rw [same, rebuilt.home id _ entry old]
  present := by
    intro other mem
    by_cases same : other.key = record.key ∧ other.dbId = record.dbId
    · obtain ⟨key, dbId⟩ := same
      rw [key, dbId]
      exact ⟨winner, (mem_exchange before).mpr (Or.inl ⟨⟨rfl, rfl⟩, rfl⟩), winnerKey⟩
    · have earlier : other ∈ fed := by
        rcases mem_cons.mp mem with rfl | earlier
        · exact absurd ⟨rfl, rfl⟩ same
        · exact earlier
      obtain ⟨entry, inside, key⟩ := rebuilt.present other earlier
      refine ⟨entry, (mem_exchange before).mpr (Or.inr ⟨inside, fun here => ?_⟩), key⟩
      rw [here.1, here.2, before] at inside
      simp only [mem_append, Option.mem_toList] at inside ⊢
      rcases inside with (inLeft | isFound) | inRight
      · exact Or.inl inLeft
      · exact absurd ⟨key.symm.trans (foundKey entry isFound), here.2⟩ same
      · exact Or.inr inRight
  live := by
    intro id dbId
    by_cases here : id = context.partitionOf record.key ∧ dbId = record.dbId
    · obtain ⟨rfl, rfl⟩ := here
      rw [exchange_counts_here.1, exchange_here, rebuilt.live, before,
        countP_exchange (·.location.live) left right found winner]
    · rw [(exchange_elsewhere here).2.1, (exchange_elsewhere here).1, rebuilt.live]
  expiring := by
    intro id dbId
    by_cases here : id = context.partitionOf record.key ∧ dbId = record.dbId
    · obtain ⟨rfl, rfl⟩ := here
      rw [exchange_counts_here.2, exchange_here, rebuilt.expiring, before,
        countP_exchange (·.location.expiring) left right found winner]
    · rw [(exchange_elsewhere here).2.2, (exchange_elsewhere here).1, rebuilt.expiring]
  total := by
    apply exchange_total _ rebuilt.total
    intro live
    rw [rebuilt.live, before, countP_pos_iff]
    cases found with
    | none => simp at live
    | some entry => exact ⟨entry, by simp, by simpa using live⟩

end WorkerStore.Rebuilt

variable (context : RecoveryContext)

/-- The condition on a call: the entry of the record's key has a key that is complete or in the
table of external keys, and with the record's sequence it has its expiry. -/
structure RecoveryContext.Mergeable (store : WorkerStore) (record : RecoveryRecord) : Prop where
  findable : ∀ entry ∈ (store.partitions (context.partitionOf record.key)).indexes record.dbId,
    entry.key = record.key → entry.keyComplete = true ∨ entry.externalKey = some record.key
  steady : ∀ entry ∈ (store.partitions (context.partitionOf record.key)).indexes record.dbId,
    entry.key = record.key → entry.location.mutationSequence = record.sequence →
      entry.location.expireAtMs = record.location.expireAtMs

/-- What a call may store for its key: the record as the first version or as the newer one, or the
entry it finds with the bit it earns. -/
def RecoveryContext.Merges (store : WorkerStore) (feed : Feed) (winner : IndexEntry) : Prop :=
  winner = winnerEntry none feed.record feed.now ∨
    ∃ found ∈ (store.partitions (context.partitionOf feed.record.key)).indexes feed.record.dbId,
      found.key = feed.record.key ∧ (context.candidateNewer found feed.record = .ok true ∧
          winner = winnerEntry (some found) feed.record feed.now ∨
        winner = found.withShielding (found.location.shielding ||
          feed.record.location.shieldedBy found.location feed.now))

/-- What a call leaves: the old entries, and one for the record's key. -/
def WorkerStore.Follows (after : WorkerStore) (context : RecoveryContext) (store : WorkerStore)
    (feed : Feed) : Prop :=
  ∀ id dbId, ∀ entry ∈ (after.partitions id).indexes dbId,
    entry ∈ (store.partitions id).indexes dbId ∨
      dbId = feed.record.dbId ∧ context.Merges store feed entry

/-- What a call does: it merges the record, or it finds no room. -/
def RecoveryContext.Applies (epochs : PartitionId → Nat) (store : WorkerStore) (feed : Feed)
    (fed : List RecoveryRecord) (bound : Nat) : Prop :=
  ∃ after : WorkerStore, after.Rebuilt context epochs (feed.record :: fed) bound ∧
    after.Follows context store feed ∧
    (applyRecoveredRecord context store feed = .ok after ∨ feed.room = false ∧
      applyRecoveredRecord context store feed = .error .capacityExhausted)

theorem WorkerStore.Follows.exchange {context : RecoveryContext} {store : WorkerStore} {feed : Feed}
    {sequence : Nat} {left right : List IndexEntry} {found : Option IndexEntry}
    {winner : IndexEntry}
    (before : (store.partitions (context.partitionOf feed.record.key)).indexes feed.record.dbId =
      left ++ found.toList ++ right) (merges : context.Merges store feed winner) :
    (store.exchange (context.partitionOf feed.record.key) feed.record.dbId sequence
      (left ++ winner :: right) found winner.location).Follows context store feed := by
  intro id dbId entry mem
  rcases (mem_exchange before).mp mem with ⟨⟨-, rfl⟩, rfl⟩ | ⟨old, -⟩
  · exact Or.inr ⟨rfl, merges⟩
  · exact Or.inl old

theorem exists_split_of_find {p : IndexEntry → Bool} {index : List IndexEntry}
    {found : IndexEntry} (search : index.find? p = some found) :
    ∃ left right, index = left ++ found :: right ∧
      ∀ entry, index.set (index.findIdx p) entry = left ++ entry :: right := by
  obtain ⟨ok, left, right, rfl, skipped⟩ := find?_eq_some_iff_append.mp search
  refine ⟨left, right, rfl, fun entry => ?_⟩
  have position : (left ++ found :: right).findIdx p = left.length := by
    rw [findIdx_append]
    have none : left.findIdx p = left.length :=
      findIdx_eq_length.mpr fun entry mem => by simpa using skipped entry mem
    simp [none, findIdx_cons, ok]
  rw [position]
  simp

namespace WorkerStore.Rebuilt

variable {store : WorkerStore} {context : RecoveryContext} {epochs : PartitionId → Nat}
  {fed : List RecoveryRecord} {bound : Nat} {feed : Feed}

variable {entry : IndexEntry}

theorem key_of_isEntryOf (rebuilt : store.Rebuilt context epochs fed bound) {id : PartitionId}
    {dbId : Nat} (mem : entry ∈ (store.partitions id).indexes dbId) {key : Key}
    (ok : context.isEntryOf key entry = true) : entry.key = key := by
  obtain ⟨held, stands⟩ := rebuilt.stands id dbId entry mem
  simp only [isEntryOf, matchesKey, Bool.and_eq_true, Bool.or_eq_true, decide_eq_true_eq] at ok
  obtain ⟨matched, complete | external⟩ := ok
  · simpa [complete] using matched
  · rw [stands.holds.externalKey] at external
    rw [stands.holds.key]
    split at external
    · exact Option.some.inj external
    · contradiction

section

variable (rebuilt : store.Rebuilt context epochs fed bound)

include rebuilt

section

variable (scanned : feed.record.checkpointSnapshot = false)
  (mergeable : context.Mergeable store feed.record)
  (cur : feed.record.replicationEpoch =
    (store.partitions (context.partitionOf feed.record.key)).replicationEpoch)
  (enabled : feed.record.dbId < context.databaseCount)

include scanned mergeable cur enabled

theorem apply_fresh
    (search : ((store.partitions (context.partitionOf feed.record.key)).indexes
      feed.record.dbId).find? (context.isEntryOf feed.record.key) = none) :
    context.Applies epochs store feed fed bound := by
  have unknown : ∀ entry ∈ (store.partitions (context.partitionOf feed.record.key)).indexes
      feed.record.dbId, entry.key ≠ feed.record.key := by
    intro entry mem sameKey
    have missed := find?_eq_none.mp search entry mem
    rcases mergeable.findable entry mem sameKey with complete | external
    · simp [isEntryOf, matchesKey, complete, sameKey] at missed
    · simp [isEntryOf, matchesKey, external, sameKey] at missed
  have first : versionsOf fed feed.record.dbId feed.record.key = [] := by
    apply filter_eq_nil_iff.mpr
    intro other mem same
    rw [decide_eq_true_eq] at same
    obtain ⟨entry, inside, key⟩ := rebuilt.present other mem
    rw [same.1, same.2] at inside
    exact unknown entry inside (key.trans same.2)
  have exchanged := @exchange store context epochs fed bound rebuilt feed.record
    (max (store.partitions (context.partitionOf feed.record.key)).mutationSequence
      feed.record.sequence)
    ((store.partitions (context.partitionOf feed.record.key)).indexes feed.record.dbId) [] none
    (winnerEntry none feed.record feed.now) (by simp) (by simp) (by simpa using unknown) rfl
    ⟨feed.record, by rw [first]; exact winnerEntry_first scanned feed.now bound⟩
  refine ⟨_, exchanged, .exchange (by simp) (Or.inl rfl), ?_⟩
  unfold applyRecoveredRecord
  simp only [cur, ne_eq, not_true_eq_false, if_false, Nat.not_le.mpr enabled, search,
    feed.record.rooted]
  cases room : feed.room with
  | true =>
    apply Or.inl
    simp [WorkerStore.exchange]
  | false =>
    apply Or.inr
    simp

theorem apply_found (clock : feed.now ≤ bound)
    (comparable : ∀ first ∈ feed.record :: versionsOf fed feed.record.dbId feed.record.key,
      ∀ second ∈ feed.record :: versionsOf fed feed.record.dbId feed.record.key,
        first.Comparable second) {found : IndexEntry}
    (search : ((store.partitions (context.partitionOf feed.record.key)).indexes
      feed.record.dbId).find? (context.isEntryOf feed.record.key) = some found) :
    context.Applies epochs store feed fed bound := by
  have mem := mem_of_find?_eq_some search
  have sameKey := rebuilt.key_of_isEntryOf mem (find?_some search)
  obtain ⟨held, stands⟩ := rebuilt.stands _ _ found mem
  rw [sameKey] at stands
  have steady : feed.record.sequence = held.sequence →
      feed.record.location.expireAtMs = held.location.expireAtMs := by
    intro same
    have sequence : found.location.mutationSequence = held.sequence := by
      rw [stands.holds.location]
    have expiry : found.location.expireAtMs = held.location.expireAtMs := by
      rw [stands.holds.location]
    rw [← expiry]
    exact (mergeable.steady found mem sameKey (sequence.trans same.symm)).symm
  obtain ⟨left, right, split, set⟩ := exists_split_of_find search
  have apart : ∀ entry ∈ left ++ right, entry.key ≠ feed.record.key := by
    intro entry inside same
    have nodup := rebuilt.distinct (context.partitionOf feed.record.key) feed.record.dbId
    rw [split, map_append, map_cons, nodup_middle, nodup_cons, ← map_append] at nodup
    apply nodup.1
    rw [sameKey, ← same]
    exact mem_map_of_mem inside
  have exchanged := fun winner : IndexEntry => @exchange store context epochs fed bound rebuilt
    feed.record (max (store.partitions (context.partitionOf feed.record.key)).mutationSequence
      feed.record.sequence) left right (some found) winner (by simpa using split)
    (fun entry same => Option.some.inj same ▸ sameKey) apart
  unfold RecoveryContext.Applies applyRecoveredRecord
  simp only [cur, ne_eq, not_true_eq_false, if_false, Nat.not_le.mpr enabled, search,
    candidateNewer_spec context stands.holds, feed.record.rooted, set]
  have follows := fun {winner} outcome => @Follows.exchange context store feed
    (max (store.partitions (context.partitionOf feed.record.key)).mutationSequence
      feed.record.sequence) left right (some found) winner (by simpa using split)
    (Or.inr ⟨found, mem, sameKey, outcome⟩)
  cases newer : feed.record.newer held with
  | true =>
    refine ⟨_, exchanged (winnerEntry (some found) feed.record feed.now) sameKey
      ⟨feed.record, stands.replaced scanned clock sameKey comparable steady newer⟩,
      follows (Or.inl ⟨by rw [candidateNewer_spec context stands.holds, newer], rfl⟩), ?_⟩
    cases room : feed.room with
    | true =>
      apply Or.inl
      simp [WorkerStore.exchange, bind, Except.bind]
    | false =>
      apply Or.inr
      simp [bind, Except.bind]
  | false =>
    refine ⟨_, exchanged _ (by exact sameKey) ⟨held, stands.kept clock steady newer⟩,
      follows (Or.inr rfl), Or.inl ?_⟩
    rw [exchange_shielding]
    cases shields : feed.record.location.shieldedBy found.location feed.now with
    | true => simp [IndexEntry.withShielding, bind, Except.bind]
    | false =>
      have same : found.withShielding found.location.shielding = found := rfl
      rw [Bool.or_false, same, ← split, update_eq_self]
      simp [bind, Except.bind]

end

end

end WorkerStore.Rebuilt

end Lavik.Storage
