import Lavik.Base.Memory
import Lavik.Storage.RecordCodec
/-!
# Blocks on a device

A header write goes to the slot named by the parity of its sequence, and of the slots that decode
the one of the newest allocation and the highest sequence is selected. A flush pads its last page
with zeroes, so a walk skips from a zeroed rest of a page to the next page.
-/

namespace Lavik.Storage

open Base

/-- The first word of a block header. -/
def blockMagic : Nat := 0x3130304b4c42564c

/-- The version of the format. -/
def storageFormatVersion : Nat := 1

/-- The number of block ids of one device. -/
def localBlockIdLimit : Nat := 2 ^ 27

/-- The id that no block has. -/
def invalidBlockId : Nat := 2 ^ 64 - 1

/-- The payload bytes of a full block. -/
def extentPayloadBytes : Nat := storageBlockBytes - blockHeaderBytes

/-- A size rounded up to whole pages. -/
def alignDirect (size : Nat) : Nat :=
  (size + directIoAlignment - 1) / directIoAlignment * directIoAlignment

/-- What a block holds. -/
inductive BlockKind
  | records
  | payloadExtent
  | transaction
  | checkpointIndex
deriving DecidableEq, Repr

/-- The byte of a kind. -/
def BlockKind.code : BlockKind → Nat
  | .records => 1
  | .payloadExtent => 2
  | .transaction => 4
  | .checkpointIndex => 5

/-- The kind of a byte. -/
def BlockKind.ofCode : Nat → Option BlockKind
  | 1 => some .records
  | 2 => some .payloadExtent
  | 4 => some .transaction
  | 5 => some .checkpointIndex
  | _ => none

/-- `BlockHeader`: the header of a block. -/
structure BlockHeader where
  blockId : UInt64
  writerId : UInt32
  allocationEpoch : UInt64
  committedBytes : UInt32
  recordCount : UInt32
  maxLsn : UInt64
  headerSequence : UInt32
  layoutWorkerCount : UInt32
  kind : BlockKind
  extentIndex : UInt32 := 0
  extentPayloadBytes : UInt32 := 0
  extentPayloadChecksum : UInt32 := 0
  txGeneration : UInt64
deriving DecidableEq

namespace BlockHeader

variable (header : BlockHeader)

/-- The fields before the checksum. -/
def frontFields : List UInt8 :=
  leBytes 8 blockMagic ++ (leBytes 8 header.blockId.toNat ++ (leBytes 4 storageFormatVersion ++
    (leBytes 4 blockHeaderBytes ++ (leBytes 4 storageBlockBytes ++
    (leBytes 4 header.writerId.toNat ++ (leBytes 8 header.allocationEpoch.toNat ++
    (leBytes 4 header.committedBytes.toNat ++ (leBytes 4 header.recordCount.toNat ++
    (leBytes 8 header.maxLsn.toNat ++ leBytes 4 header.headerSequence.toNat)))))))))

/-- The fields behind the checksum and the rest of the page. -/
def backFields : List UInt8 :=
  leBytes 4 header.layoutWorkerCount.toNat ++ (leBytes 1 header.kind.code ++ (leBytes 3 0 ++
    (leBytes 4 header.extentIndex.toNat ++ (leBytes 4 header.extentPayloadBytes.toNat ++
    (leBytes 4 header.extentPayloadChecksum.toNat ++ (leBytes 4 0 ++ (leBytes 24 0 ++
    (leBytes 8 header.txGeneration.toNat ++ leBytes 3976 0))))))))

/-- The page of a header with a checksum. -/
def page (checksum : UInt32) : List UInt8 :=
  header.frontFields ++ (leBytes 4 checksum.toNat ++ header.backFields)

/-- The checks of the decoder on the fields of a header. -/
def acceptable : Bool :=
  header.blockId.toNat ≠ invalidBlockId && header.blockId.toNat % localBlockIdLimit ≠ 0 &&
    header.layoutWorkerCount ≠ 0 && header.layoutWorkerCount.toNat ≤ logicalStorageShards &&
    header.writerId < header.layoutWorkerCount &&
    blockHeaderBytes ≤ header.committedBytes.toNat &&
    header.committedBytes.toNat ≤ storageBlockBytes &&
    match header.kind with
    | .records =>
      header.extentIndex = 0 && header.extentPayloadBytes = 0 &&
        header.extentPayloadChecksum = 0 && header.txGeneration = 0
    | .transaction =>
      header.extentIndex = 0 && header.extentPayloadBytes = 0 &&
        header.extentPayloadChecksum = 0 && header.txGeneration ≠ 0
    | .payloadExtent =>
      header.recordCount = 0 && header.extentPayloadBytes ≠ 0 &&
        header.extentPayloadBytes.toNat ≤ Storage.extentPayloadBytes &&
        header.committedBytes.toNat = blockHeaderBytes + header.extentPayloadBytes.toNat &&
        header.txGeneration = 0
    | .checkpointIndex =>
      header.txGeneration ≠ 0 && header.extentPayloadBytes ≠ 0 &&
        header.extentPayloadBytes.toNat ≤ Storage.extentPayloadBytes &&
        header.committedBytes.toNat = blockHeaderBytes + header.extentPayloadBytes.toNat

/-- A later allocation, or a later write of the same one. -/
def newer (other : BlockHeader) : Bool :=
  other.allocationEpoch < header.allocationEpoch ||
    (header.allocationEpoch = other.allocationEpoch && other.headerSequence < header.headerSequence)

end BlockHeader

variable (crc32c : List UInt8 → UInt32)

/-- `EncodeBlockHeader`: the page with its checksum. -/
def encodeBlockHeader (header : BlockHeader) : List UInt8 :=
  header.page (crc32c (header.page 0))

/-- The fields read from a page. -/
def loadBlockHeader (input : List UInt8) (kind : BlockKind) : BlockHeader where
  blockId := UInt64.ofNat (load 8 8 input)
  writerId := UInt32.ofNat (load 4 28 input)
  allocationEpoch := UInt64.ofNat (load 8 32 input)
  committedBytes := UInt32.ofNat (load 4 40 input)
  recordCount := UInt32.ofNat (load 4 44 input)
  maxLsn := UInt64.ofNat (load 8 48 input)
  headerSequence := UInt32.ofNat (load 4 56 input)
  layoutWorkerCount := UInt32.ofNat (load 4 64 input)
  kind := kind
  extentIndex := UInt32.ofNat (load 4 72 input)
  extentPayloadBytes := UInt32.ofNat (load 4 76 input)
  extentPayloadChecksum := UInt32.ofNat (load 4 80 input)
  txGeneration := UInt64.ofNat (load 8 112 input)

/-- `DecodeBlockHeader`: the header of a page that passes every check. -/
def decodeBlockHeader (input : List UInt8) : Option BlockHeader :=
  if load 8 0 input ≠ blockMagic || load 4 16 input ≠ storageFormatVersion ||
      load 4 20 input ≠ blockHeaderBytes || load 4 24 input ≠ storageBlockBytes then none
  else
    match BlockKind.ofCode (load 1 68 input) with
    | none => none
    | some kind =>
      let header := loadBlockHeader input kind
      if load 3 69 input ≠ 0 || load 24 88 input ≠ 0 || !header.acceptable then none
      else if crc32c (input.take 60 ++ leBytes 4 0 ++ input.drop 64) ≠
          UInt32.ofNat (load 4 60 input) then none
      else some header

/-- The newer of two headers that decode. -/
def selectHeader : Option BlockHeader → Option BlockHeader → Option BlockHeader
  | none, second => second
  | some first, none => some first
  | some first, some second => if second.newer first then some second else some first

/-- The page of a header slot. -/
def slotPage (block : Memory) (slot : Nat) : List UInt8 :=
  block.slice (directIoAlignment * slot) directIoAlignment

/-- `DecodeBlockHeaderPages`: the header selected from both slots. -/
def decodeBlockHeaderPages (block : Memory) : Option BlockHeader :=
  selectHeader (decodeBlockHeader crc32c (slotPage block 0))
    (decodeBlockHeader crc32c (slotPage block 1))

/-- The slot of a header write, by the parity of its sequence. -/
def headerSlot (headerSequence : Nat) : Nat := 1 - headerSequence % 2

/-- The byte of a kind reads back. -/
theorem BlockKind.ofCode_code (kind : BlockKind) : BlockKind.ofCode kind.code = some kind := by
  cases kind <;> rfl

/-- The code of a kind is a byte. -/
theorem BlockKind.code_lt (kind : BlockKind) : kind.code < 256 := by
  cases kind <;> decide

namespace BlockHeader

variable {header : BlockHeader}

/-- The checksum is at offset 60. -/
@[simp]
theorem length_frontFields : header.frontFields.length = 60 := by
  simp [frontFields]

/-- What is behind the checksum fills the page. -/
@[simp]
theorem length_backFields : header.backFields.length = 4032 := by
  simp [backFields]

variable (checksum : UInt32)

/-- A header is one page. -/
@[simp]
theorem length_page : (header.page checksum).length = directIoAlignment := by
  simp [page, directIoAlignment]

/-- What loads at the offsets of the format read from a page. -/
structure PageReads (header : BlockHeader) (checksum : UInt32) (input : List UInt8) : Prop where
  magic : load 8 0 input = blockMagic
  blockId : load 8 8 input = header.blockId.toNat
  version : load 4 16 input = storageFormatVersion
  headerBytes : load 4 20 input = blockHeaderBytes
  blockBytes : load 4 24 input = storageBlockBytes
  writerId : load 4 28 input = header.writerId.toNat
  allocationEpoch : load 8 32 input = header.allocationEpoch.toNat
  committedBytes : load 4 40 input = header.committedBytes.toNat
  recordCount : load 4 44 input = header.recordCount.toNat
  maxLsn : load 8 48 input = header.maxLsn.toNat
  headerSequence : load 4 56 input = header.headerSequence.toNat
  checksum : load 4 60 input = checksum.toNat
  layoutWorkerCount : load 4 64 input = header.layoutWorkerCount.toNat
  kind : load 1 68 input = header.kind.code
  reserved : load 3 69 input = 0
  extentIndex : load 4 72 input = header.extentIndex.toNat
  extentPayloadBytes : load 4 76 input = header.extentPayloadBytes.toNat
  extentPayloadChecksum : load 4 80 input = header.extentPayloadChecksum.toNat
  reservedRuntime : load 24 88 input = 0
  txGeneration : load 8 112 input = header.txGeneration.toNat

/-- The page of a header reads as the header. -/
theorem page_read : PageReads header checksum (header.page checksum) := by
  have words := fun word : UInt64 => word.toNat_lt
  have halves := fun half : UInt32 => half.toNat_lt
  constructor <;>
    simp only [page, frontFields, backFields, List.append_assoc, load_leBytes, load_zero,
      Nat.reduceLeDiff, Nat.reduceSub, le_refl, Nat.sub_self, Nat.zero_mod]
  case magic | version | headerBytes | blockBytes => decide
  case kind => exact Nat.mod_eq_of_lt header.kind.code_lt
  case blockId | allocationEpoch | maxLsn | txGeneration => exact Nat.mod_eq_of_lt (words _)
  all_goals exact Nat.mod_eq_of_lt (halves _)

/-- The fields of a page are those of its header. -/
theorem loadBlockHeader_page : loadBlockHeader (header.page checksum) header.kind = header := by
  have reads := header.page_read checksum
  simp only [loadBlockHeader, reads.blockId, reads.writerId, reads.allocationEpoch,
    reads.committedBytes, reads.recordCount, reads.maxLsn, reads.headerSequence,
    reads.layoutWorkerCount, reads.extentIndex, reads.extentPayloadBytes,
    reads.extentPayloadChecksum, reads.txGeneration, UInt64.ofNat_toNat, UInt32.ofNat_toNat]

/-- Zeroing the checksum of a page gives the page that was summed. -/
theorem page_unsummed :
    (header.page checksum).take 60 ++ leBytes 4 0 ++ (header.page checksum).drop 64 =
      header.page 0 := by
  rfl

end BlockHeader

/-- An acceptable header reads back from its page. -/
theorem decode_encodeBlockHeader {header : BlockHeader} (acceptable : header.acceptable = true)
    (crc32c : List UInt8 → UInt32) :
    decodeBlockHeader crc32c (encodeBlockHeader crc32c header) = some header := by
  unfold encodeBlockHeader
  generalize summed : crc32c (header.page 0) = checksum
  have reads := header.page_read checksum
  unfold decodeBlockHeader
  simp only [reads.magic, reads.version, reads.headerBytes, reads.blockBytes, reads.kind,
    BlockKind.ofCode_code, header.loadBlockHeader_page, reads.reserved, reads.reservedRuntime,
    reads.checksum, header.page_unsummed, acceptable, summed, UInt32.ofNat_toNat]
  simp

end Lavik.Storage
