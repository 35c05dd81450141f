import Lavik.Base.Bytes
import Lavik.Storage.Record
/-!
# The durable record header

The encoder and the decoder check a header by two separate lists of conditions. `Crc32c` is a
parameter: what follows uses only that it is a function of the bytes.
-/

namespace Lavik.Storage

open Base List

def recordMagic : Nat := 0x313030434552564c

def storageBlockBytes : Nat := 8 * 1024 * 1024

def directIoAlignment : Nat := 4096

def blockHeaderBytes : Nat := 2 * directIoAlignment

def maxRecordHeaderBytes : Nat := directIoAlignment

def recordHeaderBaseBytes : Nat := 72

def logicalDatabaseCount : Nat := 16

def maxStringBytes : Nat := 512 * 1024 * 1024

def maxBitmapBytes : Nat := maxStringBytes + 8

def alignRecord (size : Nat) : Nat := (size + 7) / 8 * 8

def RecordKind.code : RecordKind → Nat
  | .value => 1
  | .tombstone => 2
  | .txCommit => 3

def RecordKind.ofCode : Nat → Option RecordKind
  | 1 => some .value
  | 2 => some .tombstone
  | 3 => some .txCommit
  | _ => none

inductive ValueType
  | none
  | string
  | list
  | set
  | sortedSet
  | hash
  | stream
deriving DecidableEq, Repr

def ValueType.code : ValueType → Nat
  | .none => 0
  | .string => 1
  | .list => 2
  | .set => 3
  | .sortedSet => 4
  | .hash => 5
  | .stream => 6

def ValueType.ofCode : Nat → Option ValueType
  | 0 => some .none
  | 1 => some .string
  | 2 => some .list
  | 3 => some .set
  | 4 => some .sortedSet
  | 5 => some .hash
  | 6 => some .stream
  | _ => Option.none

structure RecordHeader where
  headerBytes : UInt16
  kind : RecordKind
  dbId : UInt8
  valueType : ValueType
  external : Bool
  keyExternal : Bool
  grouped : Bool
  auxiliaryGroup : Bool
  groupRetired : Bool
  groupIncarnation : UInt64
  groupPrefix : UInt64
  groupPrefixBits : UInt8
  groupBatchTxid : UInt64
  keyBytes : UInt32
  logicalSize : UInt32
  payloadBytes : UInt32
  totalDiskBytes : UInt32
  txid : UInt64
  replicationEpoch : UInt64
  dbEpoch : UInt64
  mutationSequence : UInt64
  expireAtMs : UInt64
  lsn : UInt64
  allocationEpoch : UInt64
  payloadChecksum : UInt32
  headerChecksum : UInt32
deriving DecidableEq

def recordFixedHeaderBytes (hasTxid hasExpiry auxiliaryGroup : Bool) : Nat :=
  recordHeaderBaseBytes + (if hasTxid then 8 else 0) + (if hasExpiry then 8 else 0) +
    if auxiliaryGroup then 32 else 0

def recordHeaderBytes (keyBytes : Nat) (keyExternal hasTxid hasExpiry auxiliaryGroup : Bool) :
    Nat :=
  alignRecord (recordFixedHeaderBytes hasTxid hasExpiry auxiliaryGroup +
    if keyExternal then 0 else keyBytes)

def validRecordKeySize (bytes : Nat) : Bool := bytes ≤ maxStringBytes

namespace RecordHeader

variable (header : RecordHeader)

def hasTxid : Bool := header.txid ≠ 0

def hasExpiry : Bool := header.expireAtMs ≠ 0

def metadata : Nat :=
  header.kind.code + header.dbId.toNat * 2 ^ 2 + header.valueType.code * 2 ^ 6 +
    header.external.toNat * 2 ^ 9 + header.keyExternal.toNat * 2 ^ 10 +
    header.hasTxid.toNat * 2 ^ 11 + header.hasExpiry.toNat * 2 ^ 12 +
    header.grouped.toNat * 2 ^ 13 + header.auxiliaryGroup.toNat * 2 ^ 14

def prefixMask : UInt64 :=
  if header.groupPrefixBits = 0 then 0
  else UInt64.ofNat (2 ^ 64 - 1) <<< (64 - header.groupPrefixBits.toUInt64)

def validGrouped : Bool :=
  let hashed := header.valueType = .hash || header.valueType = .set
  let ordered := header.valueType = .list || header.valueType = .sortedSet
  if (header.grouped || header.auxiliaryGroup) &&
      (header.kind ≠ .value || (!hashed && !ordered) || header.mutationSequence = 0) then false
  else if header.grouped && (header.auxiliaryGroup || header.logicalSize = 0 ||
      (header.external && !header.keyExternal)) then false
  else if !header.auxiliaryGroup then
    header.groupIncarnation = 0 && header.groupPrefix = 0 && header.groupPrefixBits = 0 &&
      !header.groupRetired && header.groupBatchTxid = 0
  else if header.groupBatchTxid ≠ 0 && header.txid = 0 then false
  else if header.groupRetired && header.logicalSize ≠ 0 then false
  else if header.groupIncarnation = 0 || 64 < header.groupPrefixBits || header.expireAtMs ≠ 0 then
    false
  else if ordered && (header.valueType = .list ||
      (header.groupPrefixBits = 0 && header.groupPrefix ≠ 0)) then
    header.groupPrefix ≠ 0 && header.groupPrefixBits = 0
  else header.groupPrefix &&& ~~~header.prefixMask = 0

def framedBytes (keyBytes : Nat) : Nat :=
  recordHeaderBytes keyBytes header.keyExternal header.hasTxid header.hasExpiry
    header.auxiliaryGroup

def encodable (key : Key) : Bool :=
  let headerBytes := header.framedBytes key.length
  let totalDiskBytes := alignRecord (headerBytes + header.payloadBytes.toNat)
  header.validGrouped && validRecordKeySize key.length && key.length = header.keyBytes.toNat &&
    !(header.keyExternal && key.isEmpty) && header.dbId.toNat < logicalDatabaseCount &&
    !(header.kind = .value && header.valueType = .none) &&
    !(header.kind = .tombstone &&
      (header.logicalSize ≠ 0 || header.expireAtMs ≠ 0 || header.valueType ≠ .none ||
        (!header.keyExternal && (header.payloadBytes ≠ 0 || header.external)) ||
        (header.keyExternal && !header.external && header.payloadBytes ≠ header.keyBytes))) &&
    !(header.kind = .txCommit &&
      (header.logicalSize ≠ 0 || header.payloadBytes ≠ 0 || header.external ||
        header.expireAtMs ≠ 0 || header.valueType ≠ .none || header.txid = 0 ||
        header.keyBytes ≠ 0 || header.keyExternal)) &&
    header.replicationEpoch ≠ 0 && header.dbEpoch ≠ 0 &&
    header.headerBytes.toNat = headerBytes && header.totalDiskBytes.toNat = totalDiskBytes &&
    totalDiskBytes ≤ storageBlockBytes - blockHeaderBytes && headerBytes ≤ maxRecordHeaderBytes

def fixedFields (headerChecksum : UInt32) : List UInt8 :=
  leBytes 8 recordMagic ++ (leBytes 4 header.keyBytes.toNat ++
    (leBytes 4 header.logicalSize.toNat ++ (leBytes 4 header.payloadBytes.toNat ++
    (leBytes 2 header.metadata ++ (leBytes 2 0 ++
    (leBytes 8 header.replicationEpoch.toNat ++ (leBytes 8 header.dbEpoch.toNat ++
    (leBytes 8 header.mutationSequence.toNat ++ (leBytes 8 header.lsn.toNat ++
    (leBytes 8 header.allocationEpoch.toNat ++ (leBytes 4 header.payloadChecksum.toNat ++
    leBytes 4 headerChecksum.toNat)))))))))))

/-- The identity of a group: bits 0 to 7 of its third word are the prefix length, bit 8 retires
the identity. -/
def groupFields : List UInt8 :=
  leBytes 8 header.groupIncarnation.toNat ++ (leBytes 8 header.groupPrefix.toNat ++
    (leBytes 8 (header.groupPrefixBits.toNat + header.groupRetired.toNat * 2 ^ 8) ++
    leBytes 8 header.groupBatchTxid.toNat))

def optionalFields : List UInt8 :=
  (if header.hasTxid then leBytes 8 header.txid.toNat else []) ++
    ((if header.hasExpiry then leBytes 8 header.expireAtMs.toNat else []) ++
    if header.auxiliaryGroup then header.groupFields else [])

def inlineKey (key : Key) : Key :=
  if header.keyExternal then [] else key

def tail (key : Key) : List UInt8 :=
  let body := header.optionalFields ++ header.inlineKey key
  body ++ replicate (header.framedBytes key.length - recordHeaderBaseBytes - body.length) 0

def summed (crc32c : List UInt8 → UInt32) (header : RecordHeader) (key : Key) : RecordHeader :=
  { header with headerChecksum := crc32c (header.fixedFields 0 ++ header.tail key) }

def image (crc32c : List UInt8 → UInt32) (header : RecordHeader) (key : Key) : List UInt8 :=
  header.fixedFields (header.summed crc32c key).headerChecksum ++ header.tail key

end RecordHeader

variable (crc32c : List UInt8 → UInt32)

def encodeRecordHeader (header : RecordHeader) (key : Key) : Option (List UInt8) :=
  if header.encodable key then some (header.image crc32c key) else none

def recordMetadataBit (metadata shift : Nat) : Bool := metadata / 2 ^ shift % 2 = 1

def recordHeaderChecksum (input : List UInt8) : UInt32 :=
  crc32c (input.take 68 ++ leBytes 4 0 ++ input.drop 72)

def RecordHeader.acceptable (header : RecordHeader) (hasTxid hasExpiry : Bool) : Bool :=
  header.validGrouped && !(hasTxid && header.txid = 0) &&
    !(hasExpiry && header.expireAtMs = 0) && header.dbId.toNat < logicalDatabaseCount &&
    !(header.kind = .value && header.valueType = .none) &&
    !(header.kind = .value && header.valueType = .string &&
      maxBitmapBytes < header.logicalSize.toNat) &&
    header.replicationEpoch ≠ 0 && header.dbEpoch ≠ 0 &&
    !(header.keyExternal && header.keyBytes = 0) &&
    !(header.kind ≠ .value && (header.logicalSize ≠ 0 || header.expireAtMs ≠ 0 ||
      header.valueType ≠ .none)) &&
    !(header.kind = .tombstone &&
      ((!header.keyExternal && (header.payloadBytes ≠ 0 || header.external)) ||
        (header.keyExternal && !header.external && header.payloadBytes ≠ header.keyBytes))) &&
    !(header.kind = .txCommit && (header.txid = 0 || header.keyBytes ≠ 0 || header.keyExternal))

/-- The fields of a header whose frame has been checked. The offsets of the optional fields
depend on the metadata bits. -/
def loadRecordHeader (input : List UInt8) (kind : RecordKind) (valueType : ValueType)
    (headerBytes totalDiskBytes : Nat) : RecordHeader :=
  let metadata := load 2 20 input
  let hasTxid := recordMetadataBit metadata 11
  let hasExpiry := recordMetadataBit metadata 12
  let auxiliaryGroup := recordMetadataBit metadata 14
  let expiryOffset := 72 + if hasTxid then 8 else 0
  let groupOffset := expiryOffset + if hasExpiry then 8 else 0
  let groupWord := fun offset =>
    if auxiliaryGroup then load 8 (groupOffset + offset) input else 0
  { headerBytes := UInt16.ofNat headerBytes
    kind := kind
    dbId := UInt8.ofNat (metadata / 2 ^ 2 % 2 ^ 4)
    valueType := valueType
    external := recordMetadataBit metadata 9
    keyExternal := recordMetadataBit metadata 10
    grouped := recordMetadataBit metadata 13
    auxiliaryGroup := auxiliaryGroup
    groupRetired := recordMetadataBit (groupWord 16) 8
    groupIncarnation := UInt64.ofNat (groupWord 0)
    groupPrefix := UInt64.ofNat (groupWord 8)
    groupPrefixBits := UInt8.ofNat (groupWord 16 % 2 ^ 8)
    groupBatchTxid := UInt64.ofNat (groupWord 24)
    keyBytes := UInt32.ofNat (load 4 8 input)
    logicalSize := UInt32.ofNat (load 4 12 input)
    payloadBytes := UInt32.ofNat (load 4 16 input)
    totalDiskBytes := UInt32.ofNat totalDiskBytes
    txid := if hasTxid then UInt64.ofNat (load 8 72 input) else 0
    replicationEpoch := UInt64.ofNat (load 8 24 input)
    dbEpoch := UInt64.ofNat (load 8 32 input)
    mutationSequence := UInt64.ofNat (load 8 40 input)
    expireAtMs := if hasExpiry then UInt64.ofNat (load 8 expiryOffset input) else 0
    lsn := UInt64.ofNat (load 8 48 input)
    allocationEpoch := UInt64.ofNat (load 8 56 input)
    payloadChecksum := UInt32.ofNat (load 4 64 input)
    headerChecksum := UInt32.ofNat (load 4 68 input) }

def decodeRecordHeader (input : List UInt8) : Option (RecordHeader × Key) :=
  let metadata := load 2 20 input
  let hasTxid := recordMetadataBit metadata 11
  let hasExpiry := recordMetadataBit metadata 12
  let auxiliaryGroup := recordMetadataBit metadata 14
  let keyExternal := recordMetadataBit metadata 10
  let keyBytes := load 4 8 input
  let fixedHeaderBytes := recordFixedHeaderBytes hasTxid hasExpiry auxiliaryGroup
  let headerBytes := recordHeaderBytes keyBytes keyExternal hasTxid hasExpiry auxiliaryGroup
  let totalDiskBytes := alignRecord (headerBytes + load 4 16 input)
  let groupBits := load 8 (fixedHeaderBytes - 16) input
  if input.length < recordHeaderBaseBytes then none
  else if load 8 0 input ≠ recordMagic then none
  else if metadata / 2 ^ 15 % 2 ≠ 0 then none
  else if !validRecordKeySize keyBytes || maxRecordHeaderBytes < headerBytes ||
      input.length < headerBytes then none
  else if storageBlockBytes - blockHeaderBytes < totalDiskBytes then none
  else if auxiliaryGroup && (2 ^ 9 ≤ groupBits || 64 < groupBits % 2 ^ 8) then none
  else
    match RecordKind.ofCode (metadata % 2 ^ 2), ValueType.ofCode (metadata / 2 ^ 6 % 2 ^ 3) with
    | some kind, some valueType =>
      let header := loadRecordHeader input kind valueType headerBytes totalDiskBytes
      if !header.acceptable hasTxid hasExpiry then none
      else if recordHeaderChecksum crc32c (input.take headerBytes) ≠ header.headerChecksum then none
      else some (header, if keyExternal then [] else (input.drop fixedHeaderBytes).take keyBytes)
    | _, _ => none

/-! ## Reading an encoded header back -/

theorem RecordKind.ofCode_code (kind : RecordKind) : RecordKind.ofCode kind.code = some kind := by
  cases kind <;> rfl

theorem RecordKind.code_lt (kind : RecordKind) : kind.code < 4 := by
  cases kind <;> decide

theorem ValueType.ofCode_code (valueType : ValueType) :
    ValueType.ofCode valueType.code = some valueType := by
  cases valueType <;> rfl

theorem ValueType.code_lt (valueType : ValueType) : valueType.code < 8 := by
  cases valueType <;> decide

theorem le_alignRecord (size : Nat) : size ≤ alignRecord size := by
  unfold alignRecord
  omega

theorem alignRecord_mod (size : Nat) : alignRecord size % 8 = 0 := by
  unfold alignRecord
  omega

namespace RecordHeader

variable {header : RecordHeader} {key : Key}

/-- The metadata word of a header in range: its kind, database, type and six bits read back, and
the reserved bit is clear. -/
structure MetadataReads (header : RecordHeader) (metadata : Nat) : Prop where
  reserved : metadata / 2 ^ 15 % 2 = 0
  kind : metadata % 2 ^ 2 = header.kind.code
  dbId : metadata / 2 ^ 2 % 2 ^ 4 = header.dbId.toNat
  valueType : metadata / 2 ^ 6 % 2 ^ 3 = header.valueType.code
  external : recordMetadataBit metadata 9 = header.external
  keyExternal : recordMetadataBit metadata 10 = header.keyExternal
  hasTxid : recordMetadataBit metadata 11 = header.hasTxid
  hasExpiry : recordMetadataBit metadata 12 = header.hasExpiry
  grouped : recordMetadataBit metadata 13 = header.grouped
  auxiliaryGroup : recordMetadataBit metadata 14 = header.auxiliaryGroup

theorem recordMetadataBit_eq {metadata shift : Nat} {bit : Bool}
    (stored : metadata / 2 ^ shift % 2 = bit.toNat) : recordMetadataBit metadata shift = bit := by
  unfold recordMetadataBit
  rw [stored]
  cases bit <;> rfl

theorem metadata_reads (database : header.dbId.toNat < 16) :
    header.metadata < 2 ^ 15 ∧ MetadataReads header header.metadata := by
  have kindSmall := header.kind.code_lt
  have typeSmall := header.valueType.code_lt
  have bits := fun bit : Bool => Bool.toNat_le bit
  have external := bits header.external
  have keyExternal := bits header.keyExternal
  have hasTxid := bits header.hasTxid
  have hasExpiry := bits header.hasExpiry
  have grouped := bits header.grouped
  have auxiliaryGroup := bits header.auxiliaryGroup
  unfold metadata
  refine ⟨by omega, ?_⟩
  constructor
  case external | keyExternal | hasTxid | hasExpiry | grouped | auxiliaryGroup =>
    apply recordMetadataBit_eq
    omega
  all_goals omega

/-- What the fixed fields spell, in an input that starts with them. -/
structure FixedReads (header : RecordHeader) (headerChecksum : UInt32) (input : List UInt8) :
    Prop where
  magic : load 8 0 input = recordMagic
  keyBytes : load 4 8 input = header.keyBytes.toNat
  logicalSize : load 4 12 input = header.logicalSize.toNat
  payloadBytes : load 4 16 input = header.payloadBytes.toNat
  metadata : load 2 20 input = header.metadata
  replicationEpoch : load 8 24 input = header.replicationEpoch.toNat
  dbEpoch : load 8 32 input = header.dbEpoch.toNat
  mutationSequence : load 8 40 input = header.mutationSequence.toNat
  lsn : load 8 48 input = header.lsn.toNat
  allocationEpoch : load 8 56 input = header.allocationEpoch.toNat
  payloadChecksum : load 4 64 input = header.payloadChecksum.toNat
  headerChecksum : load 4 68 input = headerChecksum.toNat

theorem fixedFields_read (database : header.dbId.toNat < 16) (checksum : UInt32)
    (rest : List UInt8) : FixedReads header checksum (header.fixedFields checksum ++ rest) := by
  have words := fun word : UInt64 => word.toNat_lt
  have halves := fun half : UInt32 => half.toNat_lt
  have packed := (metadata_reads database).1
  constructor <;>
    simp only [fixedFields, append_assoc, load_leBytes, load_zero, Nat.reduceLeDiff,
      Nat.reduceSub, le_refl, Nat.sub_self]
  case magic => decide
  case metadata => apply Nat.mod_eq_of_lt; omega
  case replicationEpoch | dbEpoch | mutationSequence | lsn | allocationEpoch =>
    exact Nat.mod_eq_of_lt (words _)
  all_goals exact Nat.mod_eq_of_lt (halves _)

@[simp]
theorem length_fixedFields (checksum : UInt32) : (header.fixedFields checksum).length = 72 := by
  simp [fixedFields]

theorem length_optionalFields : header.optionalFields.length + 72 =
    recordFixedHeaderBytes header.hasTxid header.hasExpiry header.auxiliaryGroup := by
  unfold optionalFields recordFixedHeaderBytes recordHeaderBaseBytes groupFields
  cases header.hasTxid <;> cases header.hasExpiry <;> cases header.auxiliaryGroup <;> simp

theorem length_tail : (header.tail key).length + 72 = header.framedBytes key.length := by
  have optional := header.length_optionalFields
  have inline : (header.inlineKey key).length = if header.keyExternal then 0 else key.length := by
    unfold inlineKey
    cases header.keyExternal <;> rfl
  have framed : header.optionalFields.length + 72 + (header.inlineKey key).length ≤
      header.framedBytes key.length := by
    rw [inline, optional]
    exact le_alignRecord _
  have fixed : recordHeaderBaseBytes = 72 := rfl
  simp only [tail, length_append, length_replicate]
  omega

theorem tail_append (header : RecordHeader) (key : Key) (rest : List UInt8) :
    ∃ more, header.tail key ++ rest = header.optionalFields ++ more := by
  simp [tail, append_assoc]

theorem load_behind_fixedFields (checksum : UInt32) (width offset : Nat) (rest : List UInt8) :
    load width (72 + offset) (header.fixedFields checksum ++ rest) = load width offset rest := by
  rw [load_skip (by simp), length_fixedFields, Nat.add_sub_cancel_left]

theorem load_txid (stored : header.hasTxid = true) (rest : List UInt8) :
    load 8 0 (header.optionalFields ++ rest) = header.txid.toNat := by
  rw [optionalFields, if_pos stored, append_assoc, load_zero]
  exact Nat.mod_eq_of_lt header.txid.toNat_lt

theorem load_expireAtMs (stored : header.hasExpiry = true) (rest : List UInt8) :
    load 8 (if header.hasTxid then 8 else 0) (header.optionalFields ++ rest) =
      header.expireAtMs.toNat := by
  rw [optionalFields, if_pos stored]
  cases header.hasTxid <;>
    simp only [Bool.false_eq_true, if_true, if_false, nil_append, append_assoc,
      load_leBytes (le_refl 8), Nat.sub_self, load_zero] <;>
    exact Nat.mod_eq_of_lt header.expireAtMs.toNat_lt

theorem load_groupFields (stored : header.auxiliaryGroup = true) (width offset : Nat)
    (rest : List UInt8) :
    load width ((if header.hasTxid then 8 else 0) + (if header.hasExpiry then 8 else 0) + offset)
      (header.optionalFields ++ rest) = load width offset (header.groupFields ++ rest) := by
  have skip : ∀ (bit : Bool) (word position : Nat) (more : List UInt8),
      load width ((if bit then 8 else 0) + position)
        ((if bit then leBytes 8 word else []) ++ more) = load width position more := by
    intro bit word position more
    cases bit
    · simp
    · rw [if_pos rfl, if_pos rfl, load_leBytes (by omega), Nat.add_sub_cancel_left]
  rw [optionalFields, if_pos stored, append_assoc, append_assoc, Nat.add_assoc, skip, skip]

structure GroupReads (header : RecordHeader) (input : List UInt8) : Prop where
  incarnation : load 8 0 input = header.groupIncarnation.toNat
  groupPrefix : load 8 8 input = header.groupPrefix.toNat
  bits : load 8 16 input = header.groupPrefixBits.toNat + header.groupRetired.toNat * 2 ^ 8
  batchTxid : load 8 24 input = header.groupBatchTxid.toNat

theorem groupFields_read (rest : List UInt8) : GroupReads header (header.groupFields ++ rest) := by
  have words := fun word : UInt64 => word.toNat_lt
  have prefixBits := header.groupPrefixBits.toNat_lt
  have retired := Bool.toNat_le header.groupRetired
  constructor <;>
    simp only [groupFields, append_assoc, load_leBytes, load_zero, Nat.reduceLeDiff,
      Nat.reduceSub, le_refl, Nat.sub_self]
  case bits => apply Nat.mod_eq_of_lt; omega
  all_goals exact Nat.mod_eq_of_lt (words _)

/-- The frame the encoder checks: sizes, key and database in range. -/
structure Framed (header : RecordHeader) (key : Key) : Prop where
  grouped : header.validGrouped = true
  keySize : key.length ≤ maxStringBytes
  keyBytes : key.length = header.keyBytes.toNat
  database : header.dbId.toNat < 16
  headerBytes : header.headerBytes.toNat = header.framedBytes key.length
  totalDiskBytes : header.totalDiskBytes.toNat =
    alignRecord (header.framedBytes key.length + header.payloadBytes.toNat)
  fitsBlock : header.totalDiskBytes.toNat ≤ storageBlockBytes - blockHeaderBytes
  fitsPage : header.framedBytes key.length ≤ maxRecordHeaderBytes

theorem framed_of_encodable (ok : header.encodable key = true) : header.Framed key := by
  simp only [encodable, Bool.and_eq_true, decide_eq_true_eq, validRecordKeySize] at ok
  obtain ⟨⟨⟨⟨⟨⟨⟨⟨⟨⟨⟨⟨⟨grouped, keySize⟩, keyBytes⟩, _⟩, database⟩, _⟩, _⟩, _⟩, _⟩, _⟩, headerBytes⟩,
    totalDiskBytes⟩, total⟩, fitsPage⟩ := ok
  constructor
  case fitsBlock =>
    rw [totalDiskBytes]
    exact total
  all_goals assumption

/-- The decoder's limit on the length of a string, which the encoder leaves to its caller. -/
def Bounded (header : RecordHeader) : Prop :=
  header.kind = .value → header.valueType = .string → header.logicalSize.toNat ≤ maxBitmapBytes

theorem acceptable_iff_bounded (ok : header.encodable key = true) (checksum : UInt32) :
    ({ header with headerChecksum := checksum } : RecordHeader).acceptable header.hasTxid
      header.hasExpiry = true ↔ header.Bounded := by
  have valid : ({ header with headerChecksum := checksum } : RecordHeader).validGrouped =
      header.validGrouped := rfl
  have keyEmpty : header.keyBytes = 0 → key = [] := by
    intro zero
    have framed := (framed_of_encodable ok).keyBytes
    rw [zero] at framed
    exact length_eq_zero_iff.mp framed
  simp only [encodable, acceptable, valid, hasTxid, hasExpiry, Bounded] at ok ⊢
  cases kind : header.kind <;> simp_all <;> grind

theorem Framed.ungrouped (framed : header.Framed key) (none : header.auxiliaryGroup = false) :
    header.groupIncarnation = 0 ∧ header.groupPrefix = 0 ∧ header.groupPrefixBits = 0 ∧
      header.groupRetired = false ∧ header.groupBatchTxid = 0 := by
  have valid := framed.grouped
  simp only [validGrouped, none, Bool.not_false, if_true] at valid
  split_ifs at valid
  simpa [and_assoc] using valid

/-- The optional fields read back through the decoder's offsets; fields that are not announced
are zero in a framed header. -/
theorem Framed.loadRecordHeader_eq (framed : header.Framed key) (checksum : UInt32)
    (rest : List UInt8) :
    loadRecordHeader (header.fixedFields checksum ++ (header.tail key ++ rest)) header.kind
      header.valueType (header.framedBytes key.length) header.totalDiskBytes.toNat =
      { header with headerChecksum := checksum } := by
  obtain ⟨rest, split⟩ := header.tail_append key rest
  rw [split]
  have fixed := fixedFields_read framed.database checksum (header.optionalFields ++ rest)
  have packed := (metadata_reads framed.database).2
  have behind := fun width offset =>
    header.load_behind_fixedFields checksum width offset (header.optionalFields ++ rest)
  have txid : (if header.hasTxid then
      UInt64.ofNat (load 8 72 (header.fixedFields checksum ++ (header.optionalFields ++ rest)))
      else 0) = header.txid := by
    cases stored : header.hasTxid with
    | true => rw [if_pos rfl, behind 8 0, load_txid stored, UInt64.ofNat_toNat]
    | false =>
      have zero : header.txid = 0 := by simpa [hasTxid] using stored
      rw [zero, if_neg Bool.false_ne_true]
  have expiry : (if header.hasExpiry then UInt64.ofNat (load 8
    (72 + if header.hasTxid then 8 else 0)
      (header.fixedFields checksum ++ (header.optionalFields ++ rest))) else 0) =
      header.expireAtMs := by
    cases stored : header.hasExpiry with
    | true => rw [if_pos rfl, behind, load_expireAtMs stored, UInt64.ofNat_toNat]
    | false =>
      have zero : header.expireAtMs = 0 := by simpa [hasExpiry] using stored
      rw [zero, if_neg Bool.false_ne_true]
  have group := fun stored offset => header.load_groupFields stored 8 offset rest
  have words := header.groupFields_read rest
  have prefixBits := header.groupPrefixBits.toNat_lt
  have retired := Bool.toNat_le header.groupRetired
  have bit :
    recordMetadataBit (header.groupPrefixBits.toNat + header.groupRetired.toNat * 2 ^ 8) 8 =
      header.groupRetired := recordMetadataBit_eq (by omega)
  have low : (header.groupPrefixBits.toNat + header.groupRetired.toNat * 2 ^ 8) % 2 ^ 8 =
      header.groupPrefixBits.toNat := by omega
  unfold loadRecordHeader
  simp only [fixed.metadata, packed.hasTxid, packed.hasExpiry, packed.auxiliaryGroup, txid, expiry,
    fixed.keyBytes, fixed.logicalSize, fixed.payloadBytes, fixed.replicationEpoch, fixed.dbEpoch,
    fixed.mutationSequence, fixed.lsn, fixed.allocationEpoch, fixed.payloadChecksum,
    fixed.headerChecksum, packed.dbId, packed.external, packed.keyExternal, packed.grouped,
    UInt64.ofNat_toNat, UInt32.ofNat_toNat, UInt8.ofNat_toNat, ← framed.headerBytes,
    UInt16.ofNat_toNat]
  cases stored : header.auxiliaryGroup with
  | true =>
    simp only [if_true, Nat.add_assoc, behind]
    simp only [← Nat.add_assoc, group stored, words.incarnation, words.groupPrefix, words.bits,
      words.batchTxid, bit, low, UInt64.ofNat_toNat, UInt8.ofNat_toNat]
  | false =>
    obtain ⟨incarnation, groupPrefix, bits, retired, batch⟩ := framed.ungrouped stored
    have clear : recordMetadataBit 0 8 = false := by decide
    simp only [Bool.false_eq_true, if_false, incarnation, groupPrefix, bits, retired, batch, clear]
    rfl

theorem recordHeaderChecksum_eq (crc32c : List UInt8 → UInt32) (checksum : UInt32)
    (rest : List UInt8) :
    recordHeaderChecksum crc32c ((header.fixedFields checksum ++ (header.tail key ++ rest)).take
      (header.framedBytes key.length)) = crc32c (header.fixedFields 0 ++ header.tail key) := by
  have cut : ∀ front : List UInt8, front.length = 68 → (front ++ leBytes 4 0).take 68 = front := by
    intro front length
    rw [take_append_of_le_length (by omega), take_of_length_le (by omega)]
  obtain ⟨front, length, split⟩ : ∃ front : List UInt8, front.length = 68 ∧ ∀ checksum : UInt32,
      header.fixedFields checksum = front ++ leBytes 4 checksum.toNat := by
    refine ⟨(header.fixedFields 0).take 68, by simp, fun checksum => ?_⟩
    simp only [fixedFields, ← append_assoc]
    rw [show (0 : UInt32).toNat = 0 from rfl, cut]
    simp
  have long : (header.tail key).length + 72 = header.framedBytes key.length := length_tail
  have whole : (header.fixedFields checksum ++ (header.tail key ++ rest)).take
      (header.framedBytes key.length) = header.fixedFields checksum ++ header.tail key := by
    rw [← append_assoc, take_append_of_le_length, take_of_length_le] <;>
      simp only [length_append, length_fixedFields] <;> omega
  have low : (header.fixedFields checksum ++ header.tail key).take 68 = front := by
    rw [split, append_assoc, take_append_of_le_length (by omega),
      take_of_length_le (by omega)]
  have high : (header.fixedFields checksum ++ header.tail key).drop 72 = header.tail key := by
    simp
  rw [recordHeaderChecksum, whole, low, high, split 0]
  rfl

theorem inlineKey_read (inline : header.keyExternal = false) (checksum : UInt32)
    (rest : List UInt8) :
    ((header.fixedFields checksum ++ (header.tail key ++ rest)).drop (recordFixedHeaderBytes
      header.hasTxid header.hasExpiry header.auxiliaryGroup)).take key.length = key := by
  have length : (header.fixedFields checksum ++ header.optionalFields).length =
      recordFixedHeaderBytes header.hasTxid header.hasExpiry header.auxiliaryGroup := by
    rw [length_append, length_fixedFields, ← length_optionalFields]
    omega
  simp only [tail, inlineKey, inline, Bool.false_eq_true, if_false, append_assoc]
  rw [← append_assoc, ← length, drop_left, take_left]

/-- The decoder's check of the group bits. -/
theorem Framed.groupBits_ok (framed : header.Framed key) (checksum : UInt32) (rest : List UInt8) :
    let bits := load 8 (recordFixedHeaderBytes header.hasTxid header.hasExpiry header.auxiliaryGroup
      - 16) (header.fixedFields checksum ++ (header.tail key ++ rest))
    ¬ (header.auxiliaryGroup && (2 ^ 9 ≤ bits || 64 < bits % 2 ^ 8)) = true := by
  simp only [Bool.and_eq_true, Bool.or_eq_true, decide_eq_true_eq, not_and]
  intro stored
  obtain ⟨rest, split⟩ := header.tail_append key rest
  have offset : recordFixedHeaderBytes header.hasTxid header.hasExpiry header.auxiliaryGroup - 16 =
      72 + ((if header.hasTxid then 8 else 0) + (if header.hasExpiry then 8 else 0) + 16) := by
    simp only [recordFixedHeaderBytes, recordHeaderBaseBytes, stored, if_true]
    omega
  have limit : header.groupPrefixBits.toNat ≤ 64 := by
    have valid := framed.grouped
    by_contra long
    have tooLong : 64 < header.groupPrefixBits := Nat.lt_of_not_le long
    simp [validGrouped, stored, tooLong] at valid
  have retired := Bool.toNat_le header.groupRetired
  rw [split, offset, load_behind_fixedFields, load_groupFields stored,
    (header.groupFields_read rest).bits]
  omega

end RecordHeader

instance RecordHeader.Bounded.decidable (header : RecordHeader) : Decidable header.Bounded :=
  inferInstanceAs (Decidable (_ → _ → _))

/-- A header accepted by the encoder reads back from its bytes, whatever follows them, if it
respects the decoder's length limit; otherwise the decoder refuses it. -/
theorem decodeRecordHeader_image {header : RecordHeader} {key : Key}
    (ok : header.encodable key = true) (crc32c : List UInt8 → UInt32) (rest : List UInt8) :
    decodeRecordHeader crc32c (header.image crc32c key ++ rest) =
      if header.Bounded then some (header.summed crc32c key, header.inlineKey key) else none := by
  unfold RecordHeader.image RecordHeader.summed
  generalize summed : crc32c (header.fixedFields 0 ++ header.tail key) = checksum
  rw [append_assoc]
  have framed := header.framed_of_encodable ok
  have fixed := header.fixedFields_read framed.database checksum (header.tail key ++ rest)
  have packed := (header.metadata_reads framed.database).2
  have long : (header.tail key).length + 72 = header.framedBytes key.length := header.length_tail
  have page := framed.fitsPage
  have fits := framed.fitsBlock
  rw [framed.totalDiskBytes] at fits
  have keySize : validRecordKeySize key.length = true := by
    simpa [validRecordKeySize] using framed.keySize
  have sized : (header.fixedFields checksum ++ (header.tail key ++ rest)).length =
      header.framedBytes key.length + rest.length := by
    simp only [length_append, RecordHeader.length_fixedFields]
    omega
  have framedBytes : recordHeaderBytes key.length header.keyExternal header.hasTxid
      header.hasExpiry header.auxiliaryGroup = header.framedBytes key.length := rfl
  unfold decodeRecordHeader
  simp only [fixed.metadata, packed.hasTxid, packed.hasExpiry, packed.auxiliaryGroup,
    packed.keyExternal, fixed.keyBytes, ← framed.keyBytes, fixed.magic, packed.reserved,
    fixed.payloadBytes, packed.kind, packed.valueType, RecordKind.ofCode_code,
    ValueType.ofCode_code, framedBytes, sized, keySize]
  rw [if_neg (by unfold recordHeaderBaseBytes; omega), if_neg (by simp), if_neg (by simp),
    if_neg (by simpa using page), if_neg (by omega), if_neg (framed.groupBits_ok checksum rest)]
  have accepts := header.acceptable_iff_bounded ok checksum
  rw [← framed.totalDiskBytes, framed.loadRecordHeader_eq, header.recordHeaderChecksum_eq, summed]
  by_cases bounded : header.Bounded
  · rw [accepts.mpr bounded]
    simp only [bounded, Bool.not_true, Bool.false_eq_true, if_false, if_true, ne_eq, not_true]
    cases inline : header.keyExternal with
    | true => simp [RecordHeader.inlineKey, inline]
    | false => simp [RecordHeader.inlineKey, inline, header.inlineKey_read inline]
  · rw [Bool.eq_false_iff.mpr (mt accepts.mp bounded)]
    simp [bounded]

/-- **Writing and reading a header.** The bytes of an accepted header, whatever follows them, decode
to that header with the checksum the encoder wrote, and to its key if it is inline, exactly when a
string value respects the length limit, which only the decoder checks. -/
theorem encoded_header_reads_back_iff (crc32c : List UInt8 → UInt32) {header : RecordHeader}
    {key : Key} {bytes : List UInt8} (encoded : encodeRecordHeader crc32c header key = some bytes) :
    (∀ rest, decodeRecordHeader crc32c (bytes ++ rest) =
      some (header.summed crc32c key, header.inlineKey key)) ↔ header.Bounded := by
  unfold encodeRecordHeader at encoded
  split at encoded
  · next checked =>
    obtain rfl := Option.some.inj encoded
    simp [decodeRecordHeader_image checked]
  · cases encoded

/-- A string whose payload is not stored inline, of a given length. -/
def stringHeader (logicalSize : UInt32) : RecordHeader where
  headerBytes := 72
  kind := .value
  dbId := 0
  valueType := .string
  external := true
  keyExternal := false
  grouped := false
  auxiliaryGroup := false
  groupRetired := false
  groupIncarnation := 0
  groupPrefix := 0
  groupPrefixBits := 0
  groupBatchTxid := 0
  keyBytes := 0
  logicalSize
  payloadBytes := 0
  totalDiskBytes := 72
  txid := 0
  replicationEpoch := 1
  dbEpoch := 1
  mutationSequence := 1
  expireAtMs := 0
  lsn := 1
  allocationEpoch := 1
  payloadChecksum := 0
  headerChecksum := 0

theorem stringHeader_encodable (logicalSize : UInt32) :
    (stringHeader logicalSize).encodable [] = true := by
  simp [RecordHeader.encodable, RecordHeader.validGrouped, stringHeader, validRecordKeySize,
    RecordHeader.framedBytes, RecordHeader.hasTxid, RecordHeader.hasExpiry, recordHeaderBytes,
    recordFixedHeaderBytes, recordHeaderBaseBytes, alignRecord, logicalDatabaseCount,
    storageBlockBytes, blockHeaderBytes, directIoAlignment, maxRecordHeaderBytes]

theorem short_string_header_reads_back :
    ∃ bytes, encodeRecordHeader (fun _ => 0) (stringHeader 5) [] = some bytes ∧
      ∀ rest, decodeRecordHeader (fun _ => 0) (bytes ++ rest) =
        some ((stringHeader 5).summed (fun _ => 0) [], []) :=
  have encoded := if_pos (stringHeader_encodable 5)
  ⟨_, encoded, (encoded_header_reads_back_iff _ encoded).mpr (by decide)⟩

/-- The encoder accepts a string one byte over the limit; the decoder refuses its bytes. -/
theorem long_string_header_is_lost :
    ∃ bytes, encodeRecordHeader (fun _ => 0) (stringHeader 536870921) [] = some bytes ∧
      ∀ rest, decodeRecordHeader (fun _ => 0) (bytes ++ rest) = none := by
  refine ⟨_, if_pos (stringHeader_encodable _), fun rest => ?_⟩
  rw [decodeRecordHeader_image (stringHeader_encodable _), if_neg (by decide)]

end Lavik.Storage
