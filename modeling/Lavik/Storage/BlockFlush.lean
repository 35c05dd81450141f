import Lavik.Base.TransitionSystem
import Lavik.Storage.BlockWalk
/-!
# Appends and flushes of one block allocation

A flush makes records durable in two parts, each ended by an `fdatasync`: first the pages from the
durable bytes up to the padded committed bytes, then the page of the header slot. The first flush of
an allocation also writes the unused slot. An I/O error stops the writer for good. A crash leaves
of the pages written since the last `fdatasync` some old, some new and some torn; a torn header page
fails its checksum.
-/

namespace Lavik.Storage

open Base

/-- A flush under way: the header it writes and, for the statement of what it covers, the records
appended before it began. -/
structure PendingFlush (allocation : BlockAllocation) where
  header : BlockHeader
  records : List (AppendedRecord allocation)

namespace PendingFlush

variable {allocation : BlockAllocation}

def committedBytes (pending : PendingFlush allocation) : Nat := pending.header.committedBytes.toNat

def slot (pending : PendingFlush allocation) : Nat :=
  headerSlot pending.header.headerSequence.toNat

end PendingFlush

inductive FlushPhase (allocation : BlockAllocation)
  | idle
  | data (pending : PendingFlush allocation)
  /-- The header page is being written; the next `fdatasync` makes it durable. -/
  | header (pending : PendingFlush allocation)

structure StagedBlock (allocation : BlockAllocation) where
  staging : Memory
  committedBytes : Nat
  durableBytes : Nat
  recordCount : Nat
  maxLsn : UInt64
  headerSequence : Nat
  phase : FlushPhase allocation
  disk : Memory
  records : List (AppendedRecord allocation)
  completed : Option (PendingFlush allocation)

namespace StagedBlock

variable {allocation : BlockAllocation}

def activated (allocation : BlockAllocation) (media : Memory) : StagedBlock allocation where
  staging := fun _ => 0
  committedBytes := blockHeaderBytes
  durableBytes := blockHeaderBytes
  recordCount := 0
  maxLsn := 0
  headerSequence := 0
  phase := .idle
  disk := media
  records := []
  completed := none

def append (crc32c : List UInt8 → UInt32) (block : StagedBlock allocation)
    (record : AppendedRecord allocation) : StagedBlock allocation :=
  { block with
    staging := block.staging.store block.committedBytes (record.bytes crc32c)
    committedBytes := block.committedBytes + record.size
    recordCount := block.recordCount + 1
    maxLsn := max block.maxLsn record.header.lsn
    records := block.records ++ [record] }

variable (block : StagedBlock allocation)

def nextHeader : BlockHeader where
  blockId := allocation.blockId
  writerId := allocation.writerId
  allocationEpoch := allocation.allocationEpoch
  committedBytes := UInt32.ofNat (alignDirect block.committedBytes)
  recordCount := UInt32.ofNat block.recordCount
  maxLsn := block.maxLsn
  headerSequence := UInt32.ofNat (block.headerSequence + 1)
  layoutWorkerCount := allocation.layoutWorkerCount
  kind := allocation.kind
  txGeneration := if allocation.kind = .transaction then allocation.txGeneration else 0

/-- The start of a flush: the tail is padded with zeroes out to a page, and the header is encoded
into its slot of the staging buffer. -/
def beginFlush (crc32c : List UInt8 → UInt32) (block : StagedBlock allocation) :
    StagedBlock allocation :=
  let padded := alignDirect block.committedBytes
  let header := block.nextHeader
  let zeroed := block.staging.store block.committedBytes
    (List.replicate (padded - block.committedBytes) 0)
  { block with
    staging := zeroed.store (directIoAlignment * headerSlot (block.headerSequence + 1))
      (encodeBlockHeader crc32c header)
    committedBytes := padded
    headerSequence := block.headerSequence + 1
    phase := .data { header, records := block.records } }

variable (pending : PendingFlush allocation)

def writeBegin : Nat :=
  if block.durableBytes = blockHeaderBytes then directIoAlignment * (1 - pending.slot)
  else block.durableBytes

def syncData : StagedBlock allocation :=
  { block with
    disk := block.disk.copy block.staging (block.writeBegin pending) pending.committedBytes
    phase := .header pending }

def syncHeader : StagedBlock allocation :=
  { block with
    disk := block.disk.copy block.staging (directIoAlignment * pending.slot)
      (directIoAlignment * pending.slot + directIoAlignment)
    durableBytes := pending.committedBytes
    phase := .idle
    completed := some pending }

end StagedBlock

inductive BlockStep {allocation : BlockAllocation} (crc32c : List UInt8 → UInt32) :
    StagedBlock allocation → StagedBlock allocation → Prop
  | append {block : StagedBlock allocation} (record : AppendedRecord allocation) :
      block.committedBytes + record.size ≤ storageBlockBytes →
      BlockStep crc32c block (block.append crc32c record)
  | beginFlush {block : StagedBlock allocation} : block.phase = .idle →
      alignDirect block.committedBytes ≠ block.durableBytes →
      BlockStep crc32c block (block.beginFlush crc32c)
  | syncData {block : StagedBlock allocation} {pending : PendingFlush allocation} :
      block.phase = .data pending → BlockStep crc32c block (block.syncData pending)
  | syncHeader {block : StagedBlock allocation} {pending : PendingFlush allocation} :
      block.phase = .header pending → BlockStep crc32c block (block.syncHeader pending)

variable (crc32c : List UInt8 → UInt32)

def blockSystem (allocation : BlockAllocation) (media : Memory) :
    TransitionSystem (StagedBlock allocation) Unit where
  init block := block = .activated allocation media
  step block _ after := BlockStep crc32c block after

/-! ## Crashes -/

/-- What a crash makes of a page that was being written: old, new, or torn. -/
def PageOutcome (old new image : Memory) (page : Nat) : Prop :=
  let bytes := fun memory : Memory => memory.slice (directIoAlignment * page) directIoAlignment
  bytes image = bytes old ∨ bytes image = bytes new ∨
    (page < 2 → decodeBlockHeader crc32c (bytes image) = none)

/-- What a crash leaves of a memory when the pages of a range were being written. -/
structure Torn (old new : Memory) (start stop : Nat) (image : Memory) : Prop where
  below : image.Agree old 0 start
  above : ∀ address, stop ≤ address → image address = old address
  inside : ∀ page, start ≤ directIoAlignment * page → directIoAlignment * page < stop →
    PageOutcome crc32c old new image page

def StagedBlock.CrashImage {allocation : BlockAllocation} (crc32c : List UInt8 → UInt32)
    (block : StagedBlock allocation) (image : Memory) : Prop :=
  match block.phase with
  | .idle => image = block.disk
  | .data pending =>
    Torn crc32c block.disk block.staging (block.writeBegin pending) pending.committedBytes image
  | .header pending =>
    Torn crc32c block.disk block.staging (directIoAlignment * pending.slot)
      (directIoAlignment * pending.slot + directIoAlignment) image

end Lavik.Storage
