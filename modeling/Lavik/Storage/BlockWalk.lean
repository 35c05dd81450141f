import Lavik.Storage.BlockCodec
/-!
# The recovery walk over a block

The walk stops with an error on anything that is neither a record nor the zeroed rest of a page,
and when the records do not end at the committed bytes or are not as many as the header counts.
-/

namespace Lavik.Storage

open Base RecordHeader

def nextRecordOffset (block : Memory) (recordOffset committedBytes : Nat) : Option Nat :=
  if leValue (block.slice recordOffset 8) = recordMagic then some recordOffset
  else
    let nextPage := alignDirect (recordOffset + 1)
    if committedBytes < nextPage ||
        !(block.slice recordOffset (nextPage - recordOffset)).all (· = 0) then none
    else some nextPage

inductive ScanError
  | corruptHeader
  | kindMismatch
  | misplacedCommit
  | boundaryMismatch
  /-- The bound on the steps of the model ran out; a walk advances with every step. -/
  | outOfSteps
deriving DecidableEq, Repr

def scanRecords (crc32c : List UInt8 → UInt32) (block : Memory) (header : BlockHeader) :
    Nat → Nat → List (RecordHeader × Key) → Except ScanError (Nat × List (RecordHeader × Key))
  | 0, recordOffset, records =>
    if header.committedBytes.toNat ≤ recordOffset then .ok (recordOffset, records)
    else .error .outOfSteps
  | steps + 1, recordOffset, records =>
    let committedBytes := header.committedBytes.toNat
    if committedBytes ≤ recordOffset then .ok (recordOffset, records)
    else
      match nextRecordOffset block recordOffset committedBytes with
      | none => .error .corruptHeader
      | some next =>
        if next ≠ recordOffset then scanRecords crc32c block header steps next records
        else
          match decodeRecordHeader crc32c
              (block.slice recordOffset (committedBytes - recordOffset)) with
          | none => .error .corruptHeader
          | some (record, key) =>
            if record.allocationEpoch ≠ header.allocationEpoch ||
                committedBytes < recordOffset + record.totalDiskBytes.toNat then
              .error .corruptHeader
            else if decide (header.kind = .transaction) ≠ decide (record.txid ≠ 0) then
              .error .kindMismatch
            else if record.kind = .txCommit ∧ header.kind ≠ .transaction then
              .error .misplacedCommit
            else
              scanRecords crc32c block header steps (recordOffset + record.totalDiskBytes.toNat)
                (records ++ [(record, key)])

def scanBlock (crc32c : List UInt8 → UInt32) (block : Memory) (header : BlockHeader) :
    Except ScanError (List (RecordHeader × Key)) :=
  match scanRecords crc32c block header header.committedBytes.toNat blockHeaderBytes [] with
  | .error failure => .error failure
  | .ok (recordOffset, records) =>
    if recordOffset ≠ header.committedBytes.toNat ∨ records.length ≠ header.recordCount.toNat then
      .error .boundaryMismatch
    else .ok records

/-! ## What an allocation holds -/

structure BlockAllocation where
  blockId : UInt64
  writerId : UInt32
  allocationEpoch : UInt64
  layoutWorkerCount : UInt32
  kind : BlockKind
  txGeneration : UInt64
  named : blockId.toNat ≠ invalidBlockId ∧ blockId.toNat % localBlockIdLimit ≠ 0 := by decide
  laidOut : layoutWorkerCount ≠ 0 ∧ layoutWorkerCount.toNat ≤ logicalStorageShards := by decide
  owned : writerId < layoutWorkerCount := by decide
  /-- Records are written to record blocks, transactions to blocks of a generation. -/
  generation : (kind = .records ∧ txGeneration = 0) ∨
    (kind = .transaction ∧ txGeneration ≠ 0) := by decide

structure AppendedRecord (allocation : BlockAllocation) where
  header : RecordHeader
  key : Key
  payload : List UInt8
  encodable : header.encodable key = true
  bounded : header.kind = .value → header.valueType = .string →
    header.logicalSize.toNat ≤ maxBitmapBytes
  sized : payload.length = header.payloadBytes.toNat
  stamped : header.allocationEpoch = allocation.allocationEpoch
  tagged : allocation.kind = .transaction ↔ header.txid ≠ 0

namespace AppendedRecord

variable {allocation : BlockAllocation} {crc32c : List UInt8 → UInt32}

variable (record : AppendedRecord allocation)

def size : Nat := record.header.totalDiskBytes.toNat

variable (crc32c)

def bytes (record : AppendedRecord allocation) : List UInt8 :=
  record.header.image crc32c record.key ++ (record.payload ++ List.replicate (record.size -
    record.header.headerBytes.toNat - record.header.payloadBytes.toNat) 0)

def decoded (record : AppendedRecord allocation) : RecordHeader × Key :=
  (record.header.summed crc32c record.key, record.header.inlineKey record.key)

theorem length_bytes : (record.bytes crc32c).length = record.size := by
  have framed := record.header.framed_of_encodable record.encodable
  have headerBytes := framed.headerBytes
  have total := framed.totalDiskBytes
  have room := le_alignRecord (record.header.framedBytes record.key.length +
    record.header.payloadBytes.toNat)
  have long : (record.header.tail record.key).length + 72 =
      record.header.framedBytes record.key.length := record.header.length_tail
  have sized := record.sized
  simp only [bytes, size, image, List.length_append, List.length_replicate, length_fixedFields]
  omega

variable {crc32c}

theorem size_mod : record.size % 8 = 0 := by
  rw [size, (record.header.framed_of_encodable record.encodable).totalDiskBytes]
  exact alignRecord_mod _

theorem le_size : 72 ≤ record.size := by
  have total := (record.header.framed_of_encodable record.encodable).totalDiskBytes
  have room := le_alignRecord (record.header.framedBytes record.key.length +
    record.header.payloadBytes.toNat)
  have long : (record.header.tail record.key).length + 72 =
      record.header.framedBytes record.key.length := record.header.length_tail
  unfold size
  omega

end AppendedRecord

theorem alignDirect_bounds (offset : Nat) :
    offset ≤ alignDirect offset ∧ alignDirect offset < offset + 4096 ∧
      alignDirect offset % 4096 = 0 := by
  unfold alignDirect directIoAlignment
  omega

/-- Up to some offset a block holds these records in this order: each starts where the last one
ends, or on the next page behind zeroes. -/
inductive Laid (crc32c : List UInt8 → UInt32) (allocation : BlockAllocation) (block : Memory) :
    Nat → List (AppendedRecord allocation) → Prop
  | start : Laid crc32c allocation block blockHeaderBytes []
  | record {offset : Nat} {records : List (AppendedRecord allocation)}
      {record : AppendedRecord allocation} : Laid crc32c allocation block offset records →
      block.slice offset record.size = record.bytes crc32c →
      Laid crc32c allocation block (offset + record.size) (records ++ [record])
  | padding {offset : Nat} {records : List (AppendedRecord allocation)} :
      Laid crc32c allocation block offset records → offset % 4096 ≠ 0 →
      (∀ address, offset ≤ address → address < alignDirect offset → block address = 0) →
      Laid crc32c allocation block (alignDirect offset) records

namespace Laid

variable {crc32c : List UInt8 → UInt32} {allocation : BlockAllocation} {block other : Memory}
  {offset : Nat} {records : List (AppendedRecord allocation)}

section

variable (laid : Laid crc32c allocation block offset records)

include laid

theorem lower : blockHeaderBytes ≤ offset := by
  induction laid with
  | start => exact le_refl _
  | record _ _ ih => omega
  | padding _ _ _ ih => exact le_trans ih (alignDirect_bounds _).1

theorem aligned : offset % 8 = 0 := by
  induction laid with
  | start => decide
  | @record _ _ record _ _ ih =>
    have size := record.size_mod
    omega
  | @padding offset _ _ _ _ ih =>
    have bounds := alignDirect_bounds offset
    omega

theorem congr (agree : other.Agree block blockHeaderBytes offset) :
    Laid crc32c allocation other offset records := by
  induction laid with
  | start => exact .start
  | record before held ih =>
    apply Laid.record (ih (agree.mono (le_refl _) (by omega)))
    rw [agree.slice_eq before.lower (le_refl _), held]
  | @padding offset _ before inside zeroes ih =>
    have bounds := alignDirect_bounds offset
    apply Laid.padding (ih (agree.mono (le_refl _) bounds.1)) inside
    intro address above below
    rw [agree address (by have := before.lower; omega) below]
    exact zeroes address above below

end

end Laid

section Walk

variable {crc32c : List UInt8 → UInt32} {allocation : BlockAllocation} {block : Memory}
  {header : BlockHeader} {offset : Nat} {record : AppendedRecord allocation}
  {records : List (AppendedRecord allocation)}

theorem nextRecordOffset_record (held : block.slice offset record.size = record.bytes crc32c)
    (committedBytes : Nat) : nextRecordOffset block offset committedBytes = some offset := by
  have long := record.le_size
  have database := (record.header.framed_of_encodable record.encodable).database
  have magic : load 8 0 (record.bytes crc32c ++ []) = recordMagic :=
    (fixedFields_read database _ _).magic
  obtain ⟨more, split⟩ := Nat.exists_eq_add_of_le (show 8 ≤ record.size by omega)
  rw [← held, split, Memory.slice_add, List.append_assoc, load, List.drop_zero,
    List.take_append_of_le_length (by simp), List.take_of_length_le (by simp)] at magic
  rw [nextRecordOffset, if_pos magic]

theorem nextRecordOffset_padding {committedBytes : Nat} (aligned : offset % 8 = 0)
    (inside : offset % 4096 ≠ 0) (room : alignDirect offset ≤ committedBytes)
    (zeroes : ∀ address, offset ≤ address → address < alignDirect offset → block address = 0) :
    nextRecordOffset block offset committedBytes = some (alignDirect offset) := by
  have bounds := alignDirect_bounds offset
  have zeroed : ∀ length, offset + length ≤ alignDirect offset →
      ∀ byte ∈ block.slice offset length, byte = 0 := by
    intro length fits byte mem
    obtain ⟨index, bound, rfl⟩ := List.mem_map.mp mem
    have small := List.mem_range.mp bound
    exact zeroes _ (by omega) (by omega)
  have magic : leValue (block.slice offset 8) ≠ recordMagic := by
    rw [leValue_zeroes (zeroed 8 (by omega))]
    decide
  have rest := zeroed (alignDirect offset - offset) (by omega)
  have same : alignDirect (offset + 1) = alignDirect offset := by
    unfold alignDirect directIoAlignment
    omega
  rw [nextRecordOffset, if_neg magic, same]
  simp only [Nat.not_lt.mpr room, decide_false, Bool.false_or]
  simpa using rest

variable (epoch : header.allocationEpoch = allocation.allocationEpoch)
  (kind : header.kind = allocation.kind)

include epoch kind

theorem scanRecords_record (held : block.slice offset record.size = record.bytes crc32c)
    (room : offset + record.size ≤ header.committedBytes.toNat) (steps : Nat)
    (found : List (RecordHeader × Key)) :
    scanRecords crc32c block header (steps + 1) offset found =
      scanRecords crc32c block header steps (offset + record.size)
        (found ++ [record.decoded crc32c]) := by
  have long := record.le_size
  have decoded : decodeRecordHeader crc32c (block.slice offset
      (header.committedBytes.toNat - offset)) = some (record.decoded crc32c) := by
    obtain ⟨more, split⟩ := Nat.exists_eq_add_of_le (Nat.le_sub_of_add_le' room)
    rw [split, Memory.slice_add, held, AppendedRecord.bytes, List.append_assoc,
      decodeRecordHeader_image record.encodable]
    exact if_pos record.bounded
  have stamped : (record.decoded crc32c).1.allocationEpoch = header.allocationEpoch := by
    rw [epoch]
    exact record.stamped
  have size : (record.decoded crc32c).1.totalDiskBytes.toNat = record.size := rfl
  have tagged : decide (header.kind = .transaction) =
      decide ((record.decoded crc32c).1.txid ≠ 0) := by
    rw [kind]
    exact decide_eq_decide.mpr record.tagged
  have decided : ¬ ((record.decoded crc32c).1.kind = .txCommit ∧ header.kind ≠ .transaction) := by
    rintro ⟨commit, outside⟩
    rw [kind] at outside
    have untagged : record.header.txid = 0 := by
      by_contra tagged
      exact outside (record.tagged.mpr tagged)
    have ok := record.encodable
    have commit : record.header.kind = .txCommit := commit
    simp [encodable, commit, untagged] at ok
  rw [scanRecords]
  simp only [nextRecordOffset_record held, decoded, stamped, size, tagged, ne_eq, not_true,
    if_false, decide_false, Bool.false_or, decide_eq_true_eq]
  rw [if_neg (by omega), if_neg (by omega), if_neg decided]

theorem Laid.scanRecords_eq (laid : Laid crc32c allocation block offset records)
    (below : offset ≤ header.committedBytes.toNat) :
    ∃ steps, steps + blockHeaderBytes ≤ offset ∧ ∀ left,
      scanRecords crc32c block header (left + steps) blockHeaderBytes [] =
        scanRecords crc32c block header left offset (records.map (·.decoded crc32c)) := by
  induction laid with
  | start => exact ⟨0, by omega, fun left => rfl⟩
  | @record offset records record before held ih =>
    have long := record.le_size
    obtain ⟨steps, bound, walked⟩ := ih (by omega)
    refine ⟨steps + 1, by omega, ?_⟩
    intro left
    rw [show left + (steps + 1) = left + 1 + steps by omega, walked,
      scanRecords_record epoch kind held below, List.map_append]
    rfl
  | @padding offset records before inside zeroes ih =>
    have bounds := alignDirect_bounds offset
    obtain ⟨steps, bound, walked⟩ := ih (by omega)
    refine ⟨steps + 1, by omega, ?_⟩
    intro left
    rw [show left + (steps + 1) = left + 1 + steps by omega, walked, scanRecords,
      nextRecordOffset_padding before.aligned inside below zeroes]
    simp only [show alignDirect offset ≠ offset by omega, ne_eq, not_false_iff, if_true]
    rw [if_neg (by omega)]

theorem Laid.scanBlock_eq (laid : Laid crc32c allocation block header.committedBytes.toNat records)
    (counted : header.recordCount.toNat = records.length) :
    scanBlock crc32c block header = .ok (records.map (·.decoded crc32c)) := by
  obtain ⟨steps, bound, walked⟩ := laid.scanRecords_eq epoch kind (le_refl _)
  have finished : ∀ left, scanRecords crc32c block header left header.committedBytes.toNat
      (records.map (·.decoded crc32c)) =
      .ok (header.committedBytes.toNat, records.map (·.decoded crc32c)) := by
    intro left
    cases left <;> simp [scanRecords]
  have enough := walked (header.committedBytes.toNat - steps)
  rw [Nat.sub_add_cancel (by omega), finished] at enough
  simp [scanBlock, enough, counted]

end Walk

end Lavik.Storage
