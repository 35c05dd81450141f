import Lavik.Storage.Record
/-!
# Recovery of the key index

The side tables for the LSN, the root, the transaction and the external key of an entry stand in
the entry here. A key over the inline limit is not complete in its entry: a lookup finds candidates
by digest and length and settles them by the table of external keys.
-/

namespace Lavik.Storage

open Function

structure RecoveryRecord where
  key : Key
  dbId : Nat
  txid : Nat
  lsn : Nat
  replicationEpoch : Nat
  location : RecordLocation
  groupedRoot : Option GroupedRoot := none
  extents : List ExtentRef := []
  checkpointSnapshot : Bool := false
  timeless : location.kind ≠ .value → location.expireAtMs = 0 := by decide
  groupedValue : location.grouped = true → location.kind = .value := by decide
  rooted : location.grouped = groupedRoot.isSome := by decide

structure IndexEntry where
  key : Key
  keyComplete : Bool
  location : RecordLocation
  lsn : Option Nat
  groupedRoot : Option GroupedRoot
  txid : Option Nat
  extents : Option (List ExtentRef)
  externalKey : Option Key

structure PartitionStore where
  replicationEpoch : Nat
  mutationSequence : Nat := 0
  indexes : Nat → List IndexEntry := fun _ => []
  liveKeyCount : Nat → Nat := fun _ => 0
  expiringKeyCount : Nat → Nat := fun _ => 0

inductive RecoveryError
  | disabledDatabase
  | revisionMissing
  | rootMissing
  | capacityExhausted
deriving DecidableEq, Repr

/-- What one call reads besides the record: the clock, and whether the index has room for one more
entry. -/
structure Feed where
  record : RecoveryRecord
  now : Nat
  room : Bool := true

abbrev PartitionId := Fin logicalStorageShards

structure RecoveryContext where
  databaseCount : Nat
  partitionOf : Key → PartitionId
  computeDigest : Key → Nat
  checkpointActive : Bool := false

structure WorkerStore where
  partitions : PartitionId → PartitionStore
  liveKeyCount : Nat → Nat := fun _ => 0

namespace RecoveryContext

variable (context : RecoveryContext)

def matchesKey (entry : IndexEntry) (key : Key) : Bool :=
  if entry.keyComplete then entry.key = key
  else entry.key.length = key.length && context.computeDigest entry.key = context.computeDigest key

/-- The candidate loop: a candidate is the entry of the key if its key is complete or if the side
table of external keys says so. -/
def isEntryOf (key : Key) (entry : IndexEntry) : Bool :=
  context.matchesKey entry key && (entry.keyComplete || entry.externalKey = some key)

def currentLsn (entry : IndexEntry) : Nat :=
  entry.lsn.getD (if context.checkpointActive then UInt64.size - 1 else 0)

def equalCommandNewer (entry : IndexEntry) (record : RecoveryRecord) :
    Except RecoveryError Bool :=
  match record.groupedRoot with
  | some incoming =>
    if entry.location.grouped &&
        record.location.mutationSequence = entry.location.mutationSequence then
      match entry.groupedRoot with
      | none => .error .revisionMissing
      | some current =>
        if incoming.revision ≠ current.revision then .ok (current.revision < incoming.revision)
        else .ok (context.currentLsn entry < record.lsn)
    else .ok (context.currentLsn entry < record.lsn)
  | none => .ok (context.currentLsn entry < record.lsn)

def candidateNewer (entry : IndexEntry) (record : RecoveryRecord) : Except RecoveryError Bool := do
  let newer ← context.equalCommandNewer entry record
  return entry.location.mutationSequence < record.location.mutationSequence ||
    record.location.mutationSequence = entry.location.mutationSequence && newer

end RecoveryContext

def RecordLocation.live (location : RecordLocation) : Bool := location.kind = .value

def RecordLocation.expiring (location : RecordLocation) : Bool :=
  location.live && location.expireAtMs ≠ 0

def RecordLocation.shieldedBy (older newer : RecordLocation) (now : Nat) : Bool :=
  older.live && decide (older.mutationSequence < newer.mutationSequence) &&
    outlives older.expireAtMs newer.expireAtMs now

def winnerLocation (found : Option IndexEntry) (record : RecoveryRecord) (now : Nat) :
    RecordLocation :=
  { record.location with
    shielding :=
      match found with
      | none => record.location.shielding
      | some entry =>
        entry.location.shielding || entry.location.shieldedBy record.location now
    txTagged := record.txid ≠ 0 }

def winnerEntry (found : Option IndexEntry) (record : RecoveryRecord) (now : Nat) : IndexEntry where
  key := (found.map IndexEntry.key).getD record.key
  keyComplete := (found.map IndexEntry.keyComplete).getD !record.location.keyExternal
  location := winnerLocation found record now
  lsn := if record.checkpointSnapshot then found.bind IndexEntry.lsn else some record.lsn
  groupedRoot := record.groupedRoot
  txid := if record.txid ≠ 0 then some record.txid else none
  extents := if record.location.external then some record.extents else none
  externalKey := if record.location.keyExternal then some record.key else none

def recount (count : Nat) (was is : Bool) : Nat :=
  if was = is then count else if is then count + 1 else count - 1

def PartitionStore.install (partition : PartitionStore) (dbId : Nat) (index : List IndexEntry)
    (found : Option IndexEntry) (winner : RecordLocation) : PartitionStore :=
  { partition with
    indexes := update partition.indexes dbId index
    liveKeyCount := update partition.liveKeyCount dbId
      (recount (partition.liveKeyCount dbId) (found.any (·.location.live)) winner.live)
    expiringKeyCount := update partition.expiringKeyCount dbId
      (recount (partition.expiringKeyCount dbId) (found.any (·.location.expiring))
        winner.expiring) }

def WorkerStore.setPartition (store : WorkerStore) (id : PartitionId) (partition : PartitionStore)
    (dbId live : Nat) : WorkerStore where
  partitions := update store.partitions id partition
  liveKeyCount := update store.liveKeyCount dbId live

def applyRecoveredRecord (context : RecoveryContext) (store : WorkerStore) (feed : Feed) :
    Except RecoveryError WorkerStore :=
  let record := feed.record
  let id := context.partitionOf record.key
  let partition := store.partitions id
  if record.replicationEpoch ≠ partition.replicationEpoch then .ok store
  else if context.databaseCount ≤ record.dbId then .error .disabledDatabase
  else
    let partition := { partition with
      mutationSequence := max partition.mutationSequence record.location.mutationSequence }
    let index := partition.indexes record.dbId
    let live := store.liveKeyCount record.dbId
    match index.find? (context.isEntryOf record.key) with
    | none =>
      if record.location.grouped ≠ record.groupedRoot.isSome then .error .rootMissing
      else if !feed.room then .error .capacityExhausted
      else
        let winner := winnerEntry none record feed.now
        .ok (store.setPartition id
          (partition.install record.dbId (index ++ [winner]) none winner.location) record.dbId
          (recount live false winner.location.live))
    | some found => do
      let newer ← context.candidateNewer found record
      let position := index.findIdx (context.isEntryOf record.key)
      if newer then
        if record.location.grouped ≠ record.groupedRoot.isSome then .error .rootMissing
        else if !feed.room then .error .capacityExhausted
        else
          let winner := winnerEntry (some found) record feed.now
          .ok (store.setPartition id
            (partition.install record.dbId (index.set position winner) (some found)
              winner.location) record.dbId (recount live found.location.live winner.location.live))
      else if record.location.shieldedBy found.location feed.now then
        let shielded := { found with location := { found.location with shielding := true } }
        .ok (store.setPartition id { partition with
            indexes := update partition.indexes record.dbId
              (index.set position shielded) } record.dbId live)
      else .ok (store.setPartition id partition record.dbId live)

def applyRecoveredRecords (context : RecoveryContext) (store : WorkerStore) (feeds : List Feed) :
    Except RecoveryError WorkerStore :=
  feeds.foldlM (applyRecoveredRecord context) store

end Lavik.Storage
