import Lavik.Storage.BlockFlush
/-!
# A crash during a flush

The invariant says what each phase of a flush has made durable: the data of a header before the
header, and never both slots at once. Until the first flush of the allocation has completed, what is
selected may also be what the block held when it was activated.
-/

namespace Lavik.Storage

open Base Memory StagedBlock PendingFlush BlockHeader

variable {crc32c : List UInt8 → UInt32} {allocation : BlockAllocation} {media image : Memory}
  {block : StagedBlock allocation} {flush older : PendingFlush allocation}

theorem decode_slotPage_zeroes {memory : Memory} {slot : Nat} (zeroes : ∀ address,
    directIoAlignment * slot ≤ address → address < directIoAlignment * slot + directIoAlignment →
      memory address = 0) : decodeBlockHeader crc32c (slotPage memory slot) = none := by
  have magic : load 8 0 (slotPage memory slot) = 0 := by
    apply leValue_zeroes
    intro byte mem
    obtain ⟨index, bound, rfl⟩ := List.mem_map.mp (List.mem_of_mem_drop (List.mem_of_mem_take mem))
    have small := List.mem_range.mp bound
    exact zeroes _ (Nat.le_add_right _ _) (by omega)
  simp [decodeBlockHeader, magic, blockMagic]

namespace PendingFlush

/-- A flush whose header describes the records that a memory holds. -/
structure Covers (crc32c : List UInt8 → UInt32) (flush : PendingFlush allocation)
    (memory : Memory) : Prop where
  laid : Laid crc32c allocation memory flush.committedBytes flush.records
  counted : flush.header.recordCount.toNat = flush.records.length
  epoch : flush.header.allocationEpoch = allocation.allocationEpoch
  kind : flush.header.kind = allocation.kind
  acceptable : flush.header.acceptable = true
  paged : flush.committedBytes % 4096 = 0

theorem Covers.congr {memory other : Memory} (covers : flush.Covers crc32c memory)
    (agree : other.Agree memory blockHeaderBytes flush.committedBytes) :
    flush.Covers crc32c other :=
  { covers with laid := covers.laid.congr agree }

/-- A flush whose header is the one to be selected from a device: the other slot holds no header
or an older one of the allocation. -/
structure Lands (crc32c : List UInt8 → UInt32) (flush : PendingFlush allocation) (disk : Memory) :
    Prop where
  written : decodeBlockHeader crc32c (slotPage disk flush.slot) = some flush.header
  alone : ∀ other, decodeBlockHeader crc32c (slotPage disk (1 - flush.slot)) = some other →
    other.allocationEpoch = flush.header.allocationEpoch ∧
      other.headerSequence < flush.header.headerSequence

theorem slot_le (flush : PendingFlush allocation) : flush.slot ≤ 1 := by
  unfold slot headerSlot
  omega

theorem Lands.selected {disk : Memory} (lands : flush.Lands crc32c disk) :
    decodeBlockHeaderPages crc32c disk = some flush.header := by
  have bound := flush.slot_le
  obtain first | second : flush.slot = 0 ∨ flush.slot = 1 := by omega
  · have written := lands.written
    have alone := lands.alone
    rw [first] at written alone
    rw [decodeBlockHeaderPages, written]
    cases other : decodeBlockHeader crc32c (slotPage disk 1) with
    | none => rfl
    | some stale =>
      obtain ⟨epoch, sequence⟩ := alone stale other
      have notNewer : stale.newer flush.header = false := by
        simp only [newer, epoch, Bool.or_eq_false_iff, Bool.and_eq_false_iff,
          decide_eq_false_iff_not]
        exact ⟨UInt64.lt_irrefl _, Or.inr (UInt32.lt_asymm sequence)⟩
      simp [selectHeader, notNewer]
  · have written := lands.written
    have alone := lands.alone
    rw [second] at written alone
    rw [decodeBlockHeaderPages, written]
    cases other : decodeBlockHeader crc32c (slotPage disk 0) with
    | none => rfl
    | some stale =>
      obtain ⟨epoch, sequence⟩ := alone stale other
      have newer : flush.header.newer stale = true := by
        simp [newer, epoch, sequence]
      simp [selectHeader, newer]

theorem Lands.congr {disk other : Memory} (lands : flush.Lands crc32c disk)
    (agree : other.Agree disk 0 blockHeaderBytes) : flush.Lands crc32c other := by
  have pages : ∀ slot, slot ≤ 1 → slotPage other slot = slotPage disk slot := by
    intro slot bound
    apply agree.slice_eq (Nat.zero_le _)
    unfold blockHeaderBytes directIoAlignment
    omega
  constructor
  · rw [pages _ flush.slot_le]
    exact lands.written
  · rw [pages _ (by omega)]
    exact lands.alone

theorem slot_succ
    (next : older.header.headerSequence.toNat + 1 = flush.header.headerSequence.toNat) :
    older.slot = 1 - flush.slot := by
  unfold slot headerSlot
  omega

end PendingFlush

namespace StagedBlock

def completedSequence (block : StagedBlock allocation) : Nat :=
  match block.completed with
  | none => 0
  | some flush => flush.header.headerSequence.toNat

variable (crc32c)

/-- What holds of a flush under way: its snapshot is in staging, its header in a staging slot. -/
structure InFlight (block : StagedBlock allocation) (flush : PendingFlush allocation) : Prop where
  covers : flush.Covers crc32c block.staging
  appended : flush.records <+: block.records
  sequence : flush.header.headerSequence.toNat = block.completedSequence + 1
  encoded : slotPage block.staging flush.slot = encodeBlockHeader crc32c flush.header
  advanced : block.durableBytes + 4096 ≤ flush.committedBytes
  upper : flush.committedBytes ≤ block.committedBytes

/-- What is durable of the last completed flush: its data, up to the durable bytes. -/
def Settled (block : StagedBlock allocation) : Prop :=
  match block.completed with
  | none => block.durableBytes = blockHeaderBytes
  | some flush => blockHeaderBytes < block.durableBytes ∧
      block.durableBytes = flush.committedBytes ∧
      flush.Covers crc32c block.staging ∧ flush.records <+: block.records ∧
      block.disk.Agree block.staging blockHeaderBytes block.durableBytes

/-- What the header pages hold between flushes and while data is written: the last completed
header, or before the first one what the media held. -/
def HeadersSettled (media : Memory) (block : StagedBlock allocation) : Prop :=
  match block.completed with
  | none => block.disk.Agree media 0 blockHeaderBytes
  | some flush => flush.Lands crc32c block.disk

/-- What the header pages hold while a header is written: the same, with the unused slot cleared
before the first one. -/
def HeadersPrepared (media : Memory) (block : StagedBlock allocation) : Prop :=
  match block.completed with
  | none => slotPage block.disk 0 = slotPage media 0 ∧
      decodeBlockHeader crc32c (slotPage block.disk 1) = none
  | some flush => flush.Lands crc32c block.disk

def Phased (media : Memory) (block : StagedBlock allocation) : Prop :=
  match block.phase with
  | .idle => block.headerSequence = block.completedSequence ∧ block.HeadersSettled crc32c media
  | .data flush => block.headerSequence = block.completedSequence + 1 ∧
      block.InFlight crc32c flush ∧ block.HeadersSettled crc32c media
  | .header flush => block.headerSequence = block.completedSequence + 1 ∧
      block.InFlight crc32c flush ∧ block.HeadersPrepared crc32c media ∧
      block.disk.Agree block.staging blockHeaderBytes flush.committedBytes

structure Sound (media : Memory) (block : StagedBlock allocation) : Prop where
  laid : Laid crc32c allocation block.staging block.committedBytes block.records
  fits : block.committedBytes ≤ storageBlockBytes
  counted : block.recordCount = block.records.length
  dense : blockHeaderBytes + 72 * block.records.length ≤ block.committedBytes
  paged : block.durableBytes % 4096 = 0
  lower : blockHeaderBytes + 4096 * block.completedSequence ≤ block.durableBytes
  upper : block.durableBytes ≤ block.committedBytes
  blank : block.headerSequence ≤ 1 → ∀ address, 4096 ≤ address → address < blockHeaderBytes →
    block.staging address = 0
  settled : block.Settled crc32c
  phased : block.Phased crc32c media

variable {crc32c}

theorem activated_sound : (activated allocation media).Sound crc32c media := by
  constructor
  case laid => exact .start
  case fits | counted | dense | paged | lower | upper =>
    simp [activated, completedSequence, storageBlockBytes, blockHeaderBytes, directIoAlignment]
  case blank =>
    intro _ address _ _
    rfl
  case settled => rfl
  case phased =>
    refine ⟨rfl, ?_⟩
    intro address _ _
    rfl

/-! ## Appends -/

theorem append_agree (crc32c : List UInt8 → UInt32) (record : AppendedRecord allocation)
    {stop : Nat} (below : stop ≤ block.committedBytes) :
    (block.append crc32c record).staging.Agree block.staging 0 stop :=
  store_agree (Or.inl below)

theorem InFlight.append (inFlight : block.InFlight crc32c flush)
    (behind : blockHeaderBytes ≤ block.committedBytes) (record : AppendedRecord allocation) :
    (block.append crc32c record).InFlight crc32c flush := by
  constructor
  case covers =>
    have kept := append_agree crc32c record inFlight.upper
    exact inFlight.covers.congr (kept.mono (Nat.zero_le _) (le_refl _))
  case appended => exact inFlight.appended.trans (List.prefix_append _ _)
  case sequence => exact inFlight.sequence
  case encoded =>
    rw [← inFlight.encoded]
    apply (append_agree crc32c record behind).slice_eq (Nat.zero_le _)
    have bound := flush.slot_le
    unfold blockHeaderBytes directIoAlignment
    omega
  case advanced => exact inFlight.advanced
  case upper => exact le_trans inFlight.upper (Nat.le_add_right _ _)

theorem Settled.mono {next : StagedBlock allocation} (settled : block.Settled crc32c)
    (completed : next.completed = block.completed)
    (durable : next.durableBytes = block.durableBytes) (appended : block.records <+: next.records)
    (kept : next.staging.Agree block.staging blockHeaderBytes block.durableBytes)
    (copied : block.disk.Agree block.staging blockHeaderBytes block.durableBytes →
      next.disk.Agree next.staging blockHeaderBytes block.durableBytes) : next.Settled crc32c := by
  unfold Settled at settled ⊢
  rw [completed, durable]
  split at settled
  · exact settled
  · obtain ⟨advanced, last, covers, before, agree⟩ := settled
    exact ⟨advanced, last, covers.congr (last ▸ kept), before.trans appended, copied agree⟩

section

variable (sound : block.Sound crc32c media)

include sound

theorem Sound.append (record : AppendedRecord allocation)
    (room : block.committedBytes + record.size ≤ storageBlockBytes) :
    (block.append crc32c record).Sound crc32c media := by
  have behind := sound.laid.lower
  constructor
  case laid =>
    have kept := append_agree crc32c record (le_refl block.committedBytes)
    apply Laid.record (sound.laid.congr (kept.mono (Nat.zero_le _) (le_refl _)))
    rw [← record.length_bytes crc32c]
    exact slice_store _ _ _
  case fits => exact room
  case counted => simp [StagedBlock.append, sound.counted]
  case dense =>
    have dense := sound.dense
    have long := record.le_size
    simp only [StagedBlock.append, List.length_append, List.length_singleton]
    omega
  case paged => exact sound.paged
  case lower => exact sound.lower
  case upper => exact le_trans sound.upper (Nat.le_add_right _ _)
  case blank =>
    intro early address above below
    rw [append_agree crc32c record behind address (Nat.zero_le _) below]
    exact sound.blank early address above below
  case settled =>
    have kept := (append_agree crc32c record sound.upper).mono
      (Nat.zero_le blockHeaderBytes) (le_refl _)
    exact sound.settled.mono rfl rfl (List.prefix_append _ _) kept
      fun agree => agree.trans kept.symm
  case phased =>
    have phased := sound.phased
    unfold Phased at phased ⊢
    show match block.phase with | .idle => _ | .data _ => _ | .header _ => _
    cases phase : block.phase with
    | idle =>
      rw [phase] at phased
      exact phased
    | data flush =>
      rw [phase] at phased
      exact ⟨phased.1, phased.2.1.append behind record, phased.2.2⟩
    | header flush =>
      rw [phase] at phased
      obtain ⟨sequence, inFlight, prepared, agree⟩ := phased
      have kept := append_agree crc32c record inFlight.upper
      exact ⟨sequence, inFlight.append behind record, prepared,
        agree.trans (kept.mono (Nat.zero_le _) (le_refl _)).symm⟩

/-! ## The start of a flush -/

theorem Sound.padded_fits : alignDirect block.committedBytes ≤ storageBlockBytes := by
  have fits := sound.fits
  unfold storageBlockBytes at fits ⊢
  unfold alignDirect directIoAlignment
  omega

theorem Sound.nextHeader_fields :
    block.nextHeader.committedBytes.toNat = alignDirect block.committedBytes ∧
      block.nextHeader.recordCount.toNat = block.records.length ∧
      block.nextHeader.headerSequence.toNat = block.headerSequence + 1 := by
  have fits := sound.padded_fits
  have dense := sound.dense
  have lower := sound.lower
  have upper := sound.upper
  have bounds := (alignDirect_bounds block.committedBytes).1
  have sequence : block.headerSequence ≤ block.completedSequence + 1 := by
    have phased := sound.phased
    unfold Phased at phased
    split at phased <;> omega
  unfold storageBlockBytes at fits
  refine ⟨UInt32.toNat_ofNat_of_lt' ?_, ?_, UInt32.toNat_ofNat_of_lt' ?_⟩
  · exact lt_of_le_of_lt fits (by decide)
  · rw [← sound.counted]
    apply UInt32.toNat_ofNat_of_lt'
    rw [sound.counted]
    exact lt_of_le_of_lt (show block.records.length ≤ 8 * 1024 * 1024 by omega) (by decide)
  · exact lt_of_le_of_lt (show block.headerSequence + 1 ≤ 8 * 1024 * 1024 + 2 by omega) (by decide)

theorem Sound.nextHeader_acceptable : block.nextHeader.acceptable = true := by
  have committed := sound.nextHeader_fields.1
  have fits := sound.padded_fits
  have lower := le_trans sound.laid.lower (alignDirect_bounds block.committedBytes).1
  have named := allocation.named
  have laidOut := allocation.laidOut
  have owned := allocation.owned
  unfold acceptable
  rw [committed]
  obtain ⟨records, generation⟩ | ⟨transaction, generation⟩ := allocation.generation
  · simp [nextHeader, records, named, laidOut, owned, fits, lower]
  · simp [nextHeader, transaction, generation, named, laidOut, owned, fits, lower]

end

theorem headerSlot_le (headerSequence : Nat) :
    directIoAlignment * headerSlot headerSequence + directIoAlignment ≤ blockHeaderBytes := by
  unfold headerSlot blockHeaderBytes directIoAlignment
  omega

variable (crc32c)

theorem length_encodeBlockHeader (header : BlockHeader) :
    (encodeBlockHeader crc32c header).length = directIoAlignment :=
  header.length_page _

theorem beginFlush_agree (block : StagedBlock allocation) :
    (block.beginFlush crc32c).staging.Agree block.staging blockHeaderBytes
      block.committedBytes := by
  apply Memory.Agree.trans
  · apply store_agree
    right
    rw [length_encodeBlockHeader]
    exact headerSlot_le _
  · exact store_agree (Or.inl (le_refl _))

theorem beginFlush_slot (block : StagedBlock allocation) :
    slotPage (block.beginFlush crc32c).staging (headerSlot (block.headerSequence + 1)) =
      encodeBlockHeader crc32c block.nextHeader := by
  have stored := slice_store (block.staging.store block.committedBytes
    (List.replicate (alignDirect block.committedBytes - block.committedBytes) 0))
    (directIoAlignment * headerSlot (block.headerSequence + 1))
    (encodeBlockHeader crc32c block.nextHeader)
  rw [length_encodeBlockHeader] at stored
  exact stored

variable {crc32c}

section

variable (sound : block.Sound crc32c media)

include sound

theorem Sound.beginFlush_laid :
    Laid crc32c allocation (block.beginFlush crc32c).staging (alignDirect block.committedBytes)
      block.records := by
  have laid := sound.laid.congr (beginFlush_agree crc32c block)
  by_cases whole : block.committedBytes % 4096 = 0
  · have same : alignDirect block.committedBytes = block.committedBytes := by
      unfold alignDirect directIoAlignment
      omega
    rw [same]
    exact laid
  · apply laid.padding whole
    intro address above below
    have slot := headerSlot_le (block.headerSequence + 1)
    have length := length_encodeBlockHeader crc32c block.nextHeader
    have lower := sound.laid.lower
    have inside : address - block.committedBytes <
        alignDirect block.committedBytes - block.committedBytes := by omega
    simp only [beginFlush]
    rw [store_outside (Or.inr (by omega))]
    simp [store, above, inside]

theorem Sound.beginFlush_settled : (block.beginFlush crc32c).Settled crc32c := by
  have kept := (beginFlush_agree crc32c block).mono (le_refl _) sound.upper
  exact sound.settled.mono rfl rfl (List.prefix_refl _) kept fun agree => agree.trans kept.symm

theorem Sound.beginFlush (idle : block.phase = .idle)
    (news : alignDirect block.committedBytes ≠ block.durableBytes) :
    (block.beginFlush crc32c).Sound crc32c media := by
  have bounds := alignDirect_bounds block.committedBytes
  have upper := sound.upper
  have paged := sound.paged
  have phased := sound.phased
  simp only [Phased, idle] at phased
  obtain ⟨sequence, headers⟩ := phased
  obtain ⟨committed, counted, next⟩ := sound.nextHeader_fields
  constructor
  case laid => exact sound.beginFlush_laid
  case fits => exact sound.padded_fits
  case counted => exact sound.counted
  case dense => exact le_trans sound.dense bounds.1
  case paged => exact sound.paged
  case lower => exact sound.lower
  case upper => exact le_trans sound.upper bounds.1
  case blank =>
    intro early address above below
    have first : block.headerSequence = 0 := Nat.le_zero.mp (Nat.le_of_succ_le_succ early)
    have behind := sound.laid.lower
    have length := length_encodeBlockHeader crc32c block.nextHeader
    unfold StagedBlock.beginFlush
    simp only [first, headerSlot]
    rw [store_outside (Or.inr (by unfold directIoAlignment at length ⊢; omega)),
      store_outside (Or.inl (by omega))]
    exact sound.blank (by omega) address above below
  case settled => exact sound.beginFlush_settled
  case phased =>
    refine ⟨congrArg (· + 1) sequence, ?_, headers⟩
    constructor
    case covers =>
      exact {
        laid := by
          rw [PendingFlush.committedBytes, committed]
          exact sound.beginFlush_laid
        counted := counted
        epoch := rfl
        kind := rfl
        acceptable := sound.nextHeader_acceptable
        paged := by
          rw [PendingFlush.committedBytes, committed]
          exact bounds.2.2 }
    case appended => exact List.prefix_refl _
    case sequence =>
      rw [next, sequence]
      rfl
    case encoded =>
      rw [slot, next]
      exact beginFlush_slot crc32c block
    case advanced =>
      rw [PendingFlush.committedBytes, committed]
      show block.durableBytes + 4096 ≤ _
      omega
    case upper =>
      rw [PendingFlush.committedBytes, committed]
      exact le_refl _

end

/-! ## The end of the data and of the header -/

theorem InFlight.writeBegin_first (inFlight : block.InFlight crc32c flush)
    (settled : block.Settled crc32c) (first : block.completed = none) :
    flush.slot = 0 ∧ block.writeBegin flush = directIoAlignment := by
  have sequence := inFlight.sequence
  simp only [completedSequence, first] at sequence
  have slot : flush.slot = 0 := by
    rw [slot, sequence]
    rfl
  simp only [Settled, first] at settled
  refine ⟨slot, ?_⟩
  rw [writeBegin, if_pos settled, slot, Nat.sub_zero, Nat.mul_one]

theorem Settled.writeBegin_later (settled : block.Settled crc32c)
    (later : block.completed = some older) (flush : PendingFlush allocation) :
    block.writeBegin flush = block.durableBytes := by
  simp only [Settled, later] at settled
  rw [writeBegin, if_neg (ne_of_gt settled.1)]

theorem Settled.agree (settled : block.Settled crc32c) :
    block.disk.Agree block.staging blockHeaderBytes block.durableBytes := by
  unfold Settled at settled
  split at settled
  · intro address above below
    omega
  · exact settled.2.2.2.2

section

variable (sound : block.Sound crc32c media)

include sound

theorem Sound.blank_slot (early : block.headerSequence ≤ 1) :
    decodeBlockHeader crc32c (slotPage block.staging 1) = none := by
  apply decode_slotPage_zeroes
  intro address above below
  apply sound.blank early address above
  unfold blockHeaderBytes
  omega

theorem Sound.syncData_agree (inFlight : block.InFlight crc32c flush) :
    (block.syncData flush).disk.Agree block.staging blockHeaderBytes flush.committedBytes := by
  have begins : block.writeBegin flush ≤ block.durableBytes := by
    have settled := sound.settled
    cases completed : block.completed with
    | none =>
      rw [(inFlight.writeBegin_first settled completed).2]
      simp only [Settled, completed] at settled
      rw [settled]
      decide
    | some older => exact (settled.writeBegin_later completed flush).le
  apply Memory.Agree.append (copy_agree_of sound.settled.agree)
  exact copy_agree_source.mono begins (le_refl _)

theorem Sound.syncData_headers (inFlight : block.InFlight crc32c flush)
    (early : block.completed = none → block.headerSequence ≤ 1)
    (headers : block.HeadersSettled crc32c media) :
    (block.syncData flush).HeadersPrepared crc32c media := by
  unfold HeadersSettled at headers
  show match block.completed with | none => _ | some _ => _
  cases completed : block.completed with
  | none =>
    rw [completed] at headers
    have begins := (inFlight.writeBegin_first sound.settled completed).2
    have advanced := inFlight.advanced
    have settled := sound.settled
    simp only [Settled, completed] at settled
    constructor
    · have kept : (block.syncData flush).disk.Agree media 0 directIoAlignment :=
        (copy_agree (Or.inl begins.ge)).trans (headers.mono (le_refl _) (by decide))
      exact kept.slice_eq (Nat.zero_le _) (by simp)
    · have copied : slotPage (block.syncData flush).disk 1 = slotPage block.staging 1 :=
        copy_agree_source.slice_eq (by omega)
          (by unfold blockHeaderBytes directIoAlignment at *; omega)
      rw [copied]
      exact sound.blank_slot (early completed)
  | some older =>
    rw [completed] at headers
    have settled := sound.settled
    have begins := settled.writeBegin_later completed flush
    simp only [Settled, completed] at settled
    apply headers.congr
    exact copy_agree (Or.inl (by omega))

theorem Sound.syncData (writing : block.phase = .data flush) :
    (block.syncData flush).Sound crc32c media := by
  have phased := sound.phased
  simp only [Phased, writing] at phased
  obtain ⟨sequence, inFlight, headers⟩ := phased
  have early : block.completed = none → block.headerSequence ≤ 1 := by
    intro first
    simp only [completedSequence, first] at sequence
    omega
  refine { sound with settled := ?_, phased := ?_ }
  · exact sound.settled.mono rfl rfl (List.prefix_refl _) (fun _ _ _ => rfl) copy_agree_of
  · exact ⟨sequence, { inFlight with }, sound.syncData_headers inFlight early headers,
      sound.syncData_agree inFlight⟩

end

theorem InFlight.lands (inFlight : block.InFlight crc32c flush) {disk : Memory}
    (settled : block.Settled crc32c) (prepared : block.HeadersPrepared crc32c media)
    (written : slotPage disk flush.slot = slotPage block.staging flush.slot)
    (other : slotPage disk (1 - flush.slot) = slotPage block.disk (1 - flush.slot)) :
    flush.Lands crc32c disk := by
  constructor
  · rw [written, inFlight.encoded]
    exact decode_encodeBlockHeader inFlight.covers.acceptable crc32c
  · intro stale decoded
    rw [other] at decoded
    have sequence := inFlight.sequence
    unfold HeadersPrepared at prepared
    cases completed : block.completed with
    | none =>
      simp only [completedSequence, completed] at sequence
      rw [completed] at prepared
      have slot : flush.slot = 0 := by
        rw [slot, sequence]
        rfl
      rw [slot, prepared.2] at decoded
      cases decoded
    | some older =>
      simp only [completedSequence, completed] at sequence
      rw [completed] at prepared
      rw [← slot_succ sequence.symm, prepared.written] at decoded
      obtain rfl := Option.some.inj decoded
      simp only [Settled, completed] at settled
      obtain ⟨_, _, covers, _⟩ := settled
      refine ⟨covers.epoch.trans inFlight.covers.epoch.symm, ?_⟩
      rw [UInt32.lt_iff_toNat_lt]
      omega

theorem slotPage_other {left right : Memory} {slot : Nat} (bound : slot ≤ 1)
    (below : left.Agree right 0 (directIoAlignment * slot))
    (above : ∀ address, directIoAlignment * slot + directIoAlignment ≤ address →
      left address = right address) : slotPage left (1 - slot) = slotPage right (1 - slot) := by
  obtain rfl | rfl : slot = 0 ∨ slot = 1 := by omega
  · unfold slotPage slice
    apply List.map_congr_left
    intro index _
    exact above _ (by omega)
  · exact below.slice_eq (Nat.zero_le _) (by simp)

theorem Sound.syncHeader (sound : block.Sound crc32c media)
    (writing : block.phase = .header flush) : (block.syncHeader flush).Sound crc32c media := by
  have phased := sound.phased
  simp only [Phased, writing] at phased
  obtain ⟨sequence, inFlight, prepared, agree⟩ := phased
  have lower := sound.lower
  have advanced := inFlight.advanced
  have landed : flush.header.headerSequence.toNat = block.completedSequence + 1 :=
    inFlight.sequence
  refine { sound with
    paged := inFlight.covers.paged
    upper := inFlight.upper
    lower := ?_
    settled := ⟨?_, rfl, inFlight.covers, inFlight.appended, copy_agree_of agree⟩
    phased := ⟨?_, ?_⟩ }
  · show blockHeaderBytes + 4096 * flush.header.headerSequence.toNat ≤ flush.committedBytes
    omega
  · show blockHeaderBytes < flush.committedBytes
    omega
  · show block.headerSequence = flush.header.headerSequence.toNat
    omega
  · apply inFlight.lands sound.settled prepared
    · exact copy_agree_source.slice_eq (le_refl _) (le_refl _)
    · apply slotPage_other flush.slot_le (copy_agree (Or.inl (le_refl _)))
      intro address above
      exact if_neg (by omega)

theorem reachable_sound (reached : (blockSystem crc32c allocation media).Reachable block) :
    block.Sound crc32c media := by
  apply TransitionSystem.Reachable.invariant _ _ reached
  · rintro _ rfl
    exact activated_sound
  · rintro before _ after - sound step
    cases step with
    | append record room => exact sound.append record room
    | beginFlush idle news => exact sound.beginFlush idle news
    | syncData writing => exact sound.syncData writing
    | syncHeader writing => exact sound.syncHeader writing

/-! ## Recovery after a crash -/

def inFlight (block : StagedBlock allocation) : Option (PendingFlush allocation) :=
  match block.phase with
  | .idle => none
  | .data flush => some flush
  | .header flush => some flush

/-- What recovery makes of a flush: its header is selected, the data below its committed bytes is
what was staged, and the walk yields the records appended before it. -/
structure Recovers (crc32c : List UInt8 → UInt32) (block : StagedBlock allocation)
    (image : Memory) (flush : PendingFlush allocation) : Prop where
  selected : decodeBlockHeaderPages crc32c image = some flush.header
  intact : image.Agree block.staging blockHeaderBytes flush.header.committedBytes.toNat
  walked : scanBlock crc32c image flush.header = .ok (flush.records.map (·.decoded crc32c))
  counted : flush.records.length = flush.header.recordCount.toNat
  appended : flush.records <+: block.records

theorem recovers_of_covers (covers : flush.Covers crc32c block.staging)
    (appended : flush.records <+: block.records) (lands : flush.Lands crc32c image)
    (intact : image.Agree block.staging blockHeaderBytes flush.committedBytes) :
    block.Recovers crc32c image flush where
  selected := lands.selected
  intact := intact
  walked := (covers.congr intact).laid.scanBlock_eq covers.epoch covers.kind covers.counted
  counted := covers.counted.symm
  appended := appended

theorem slot_of_selected {header : BlockHeader}
    (selected : decodeBlockHeaderPages crc32c image = some header) :
    ∃ slot, slot ≤ 1 ∧ decodeBlockHeader crc32c (slotPage image slot) = some header := by
  unfold decodeBlockHeaderPages at selected
  cases first : decodeBlockHeader crc32c (slotPage image 0) with
  | none =>
    rw [first] at selected
    exact ⟨1, le_refl _, selected⟩
  | some zeroth =>
    rw [first] at selected
    cases second : decodeBlockHeader crc32c (slotPage image 1) with
    | none =>
      rw [second] at selected
      exact ⟨0, Nat.zero_le _, first.trans selected⟩
    | some other =>
      rw [second] at selected
      simp only [selectHeader] at selected
      split at selected
      · exact ⟨1, le_refl _, second.trans selected⟩
      · exact ⟨0, Nat.zero_le _, first.trans selected⟩

/-- Recovery selects nothing, or a header that the block held when it was activated. -/
def SelectsMedia (crc32c : List UInt8 → UInt32) (media image : Memory) : Prop :=
  ∀ header, decodeBlockHeaderPages crc32c image = some header →
    ∃ slot, slot ≤ 1 ∧ decodeBlockHeader crc32c (slotPage media slot) = some header

theorem selectsMedia_of_pages (pages : ∀ slot, slot ≤ 1 →
    slotPage image slot = slotPage media slot ∨
      decodeBlockHeader crc32c (slotPage image slot) = none) : SelectsMedia crc32c media image := by
  intro header selected
  obtain ⟨slot, bound, decoded⟩ := slot_of_selected selected
  refine ⟨slot, bound, ?_⟩
  obtain same | none := pages slot bound
  · rw [← same]
    exact decoded
  · rw [none] at decoded
    cases decoded

theorem Sound.completed_recovers (sound : block.Sound crc32c media)
    (completed : block.completed = some flush) (lands : flush.Lands crc32c block.disk)
    (kept : image.Agree block.disk 0 block.durableBytes) : block.Recovers crc32c image flush := by
  have settled := sound.settled
  simp only [Settled, completed] at settled
  obtain ⟨advanced, durable, covers, appended, agree⟩ := settled
  apply recovers_of_covers covers appended (lands.congr (kept.mono (le_refl _) advanced.le))
  rw [← durable]
  exact (kept.mono (Nat.zero_le _) (le_refl _)).trans agree

/-- What a crash can lead to: the last completed flush or the one under way is recovered, or none
has completed and nothing of the allocation is selected. -/
def Survives (crc32c : List UInt8 → UInt32) (media : Memory) (block : StagedBlock allocation)
    (image : Memory) : Prop :=
  (∃ flush, (block.completed = some flush ∨ block.inFlight = some flush) ∧
    block.Recovers crc32c image flush) ∨
  (block.completed = none ∧ SelectsMedia crc32c media image)

section

variable (sound : block.Sound crc32c media)

include sound

theorem Sound.survives_idle (headers : block.HeadersSettled crc32c media) :
    block.Survives crc32c media block.disk := by
  unfold HeadersSettled at headers
  cases completed : block.completed with
  | none =>
    rw [completed] at headers
    refine Or.inr ⟨completed, selectsMedia_of_pages ?_⟩
    intro slot bound
    left
    apply headers.slice_eq (Nat.zero_le _)
    unfold blockHeaderBytes directIoAlignment
    omega
  | some flush =>
    rw [completed] at headers
    exact Or.inl ⟨flush, Or.inl completed, sound.completed_recovers completed headers
      fun _ _ _ => rfl⟩

/-- A crash while data is written: it is not below what a header on the device covers, and the
slot that a first flush clears holds at most what it held. -/
theorem Sound.survives_data (writing : block.phase = .data flush)
    (torn : Torn crc32c block.disk block.staging
      (block.writeBegin flush) flush.committedBytes image) : block.Survives crc32c media image := by
  have phased := sound.phased
  simp only [Phased, writing] at phased
  obtain ⟨sequence, inFlight, headers⟩ := phased
  unfold HeadersSettled at headers
  cases completed : block.completed with
  | none =>
    rw [completed] at headers
    have begins := (inFlight.writeBegin_first sound.settled completed).2
    have advanced := inFlight.advanced
    have settled := sound.settled
    simp only [Settled, completed] at settled
    have media1 : slotPage block.disk 1 = slotPage media 1 :=
      headers.slice_eq (Nat.zero_le _) (by decide)
    refine Or.inr ⟨completed, selectsMedia_of_pages ?_⟩
    intro slot bound
    obtain rfl | rfl : slot = 0 ∨ slot = 1 := by omega
    · left
      have below : image.Agree block.disk 0 directIoAlignment := begins ▸ torn.below
      exact (below.trans (headers.mono (le_refl _) (by decide))).slice_eq (Nat.zero_le _) (by simp)
    · obtain old | new | lost := torn.inside 1 (by rw [begins]; decide)
        (by unfold blockHeaderBytes directIoAlignment at *; omega)
      · left
        exact Eq.trans old media1
      · right
        rw [show slotPage image 1 = slotPage block.staging 1 from new]
        simp only [completedSequence, completed] at sequence
        exact sound.blank_slot (by omega)
      · right
        exact lost (by decide)
  | some older =>
    rw [completed] at headers
    have begins := sound.settled.writeBegin_later completed flush
    refine Or.inl ⟨older, Or.inl completed, sound.completed_recovers completed headers ?_⟩
    exact begins ▸ torn.below

theorem Sound.survives_unwritten (inFlight : block.InFlight crc32c flush)
    (prepared : block.HeadersPrepared crc32c media)
    (other : slotPage image (1 - flush.slot) = slotPage block.disk (1 - flush.slot))
    (unwritten : slotPage image flush.slot = slotPage block.disk flush.slot ∨
      decodeBlockHeader crc32c (slotPage image flush.slot) = none)
    (data : image.Agree block.staging blockHeaderBytes flush.committedBytes) :
    block.Survives crc32c media image := by
  have sequence := inFlight.sequence
  have settled := sound.settled
  unfold HeadersPrepared at prepared
  unfold Settled at settled
  cases completed : block.completed with
  | none =>
    rw [completed] at prepared
    rw [(inFlight.writeBegin_first sound.settled completed).1] at other unwritten
    refine Or.inr ⟨completed, selectsMedia_of_pages ?_⟩
    intro slot bound
    obtain rfl | rfl : slot = 0 ∨ slot = 1 := by omega
    · rw [← prepared.1]
      exact unwritten
    · right
      rw [show slotPage image 1 = slotPage block.disk 1 from other]
      exact prepared.2
  | some older =>
    simp only [completedSequence, completed] at sequence
    rw [completed] at prepared settled
    obtain ⟨advanced, durable, covers, appended, agree⟩ := settled
    have bound := flush.slot_le
    have turn := slot_succ sequence.symm
    have back : 1 - older.slot = flush.slot := by omega
    have below := inFlight.advanced
    have lands : older.Lands crc32c image := by
      constructor
      · rw [turn, other, ← turn]
        exact prepared.written
      · intro stale decoded
        rw [back] at decoded
        obtain same | none := unwritten
        · rw [same, ← back] at decoded
          exact prepared.alone stale decoded
        · rw [none] at decoded
          cases decoded
    exact Or.inl ⟨older, Or.inl completed, recovers_of_covers covers appended lands
      (data.mono (le_refl _) (by omega))⟩

theorem Sound.survives_header (writing : block.phase = .header flush)
    (torn : Torn crc32c block.disk block.staging
      (directIoAlignment * flush.slot) (directIoAlignment * flush.slot + directIoAlignment) image) :
    block.Survives crc32c media image := by
  have phased := sound.phased
  simp only [Phased, writing] at phased
  obtain ⟨sequence, inFlight, prepared, agree⟩ := phased
  have underWay : block.inFlight = some flush := by
    unfold StagedBlock.inFlight
    rw [writing]
  have bound := flush.slot_le
  have other := slotPage_other bound torn.below torn.above
  have data : image.Agree block.staging blockHeaderBytes flush.committedBytes := by
    intro address above below
    rw [torn.above address (by unfold blockHeaderBytes directIoAlignment at *; omega)]
    exact agree address above below
  obtain old | new | lost := torn.inside flush.slot (le_refl _) (by unfold directIoAlignment; omega)
  · exact sound.survives_unwritten inFlight prepared other (Or.inl old) data
  · have lands := inFlight.lands sound.settled prepared new other
    exact Or.inl ⟨flush, Or.inr underWay,
      recovers_of_covers inFlight.covers inFlight.appended lands data⟩
  · exact sound.survives_unwritten inFlight prepared other (Or.inr (lost (by omega))) data

end

end StagedBlock

/-- After a crash at any point of any run of appends and flushes of an allocation, whatever
combination of the pages being written is left, recovery selects the header of the last completed
flush or of the one under way, finds the data below its committed bytes intact and walks exactly
the records appended before that flush, as many as the header counts. Only while no flush has
completed may it select nothing, or a header that the block held when it was activated. -/
theorem crash_recovers_flush (reached : (blockSystem crc32c allocation media).Reachable block)
    (crashed : block.CrashImage crc32c image) : block.Survives crc32c media image := by
  have sound := StagedBlock.reachable_sound reached
  have phased := sound.phased
  unfold StagedBlock.CrashImage at crashed
  unfold StagedBlock.Phased at phased
  cases phase : block.phase with
  | idle =>
    rw [phase] at crashed phased
    rw [crashed]
    exact sound.survives_idle phased.2
  | data flush =>
    rw [phase] at crashed
    exact sound.survives_data phase crashed
  | header flush =>
    rw [phase] at crashed
    exact sound.survives_header phase crashed

/-! ## The first flush of an allocation -/

def smallHeader : RecordHeader where
  headerBytes := 80
  kind := .value
  dbId := 0
  valueType := .string
  external := false
  keyExternal := false
  grouped := false
  auxiliaryGroup := false
  groupRetired := false
  groupIncarnation := 0
  groupPrefix := 0
  groupPrefixBits := 0
  groupBatchTxid := 0
  keyBytes := 1
  logicalSize := 1
  payloadBytes := 1
  totalDiskBytes := 88
  txid := 0
  replicationEpoch := 1
  dbEpoch := 1
  mutationSequence := 1
  expireAtMs := 0
  lsn := 1
  allocationEpoch := 3
  payloadChecksum := 0
  headerChecksum := 0

def thirdEpoch : BlockAllocation where
  blockId := 1
  writerId := 0
  allocationEpoch := 3
  layoutWorkerCount := 1
  kind := .records
  txGeneration := 0

def smallRecord : AppendedRecord thirdEpoch where
  header := smallHeader
  key := [107]
  payload := [118]
  encodable := by decide
  bounded := by decide
  sized := by decide
  stamped := by decide
  tagged := by decide

def staleHeader : BlockHeader where
  blockId := 1
  writerId := 0
  allocationEpoch := 2
  committedBytes := 8193
  recordCount := 0
  maxLsn := 0
  headerSequence := 1
  layoutWorkerCount := 1
  kind := .checkpointIndex
  extentPayloadBytes := 1
  txGeneration := 1

def blankMedia : Memory := fun _ => 0

variable (crc32c)

def staleMedia : Memory :=
  blankMedia.store 0 (encodeBlockHeader crc32c staleHeader)

def firstFlush (media : Memory) : StagedBlock thirdEpoch :=
  ((activated thirdEpoch media).append crc32c smallRecord).beginFlush crc32c

variable {crc32c}

theorem blockSystem_next {next : StagedBlock allocation}
    (reached : (blockSystem crc32c allocation media).Reachable block)
    (step : BlockStep crc32c block next) : (blockSystem crc32c allocation media).Reachable next :=
  @TransitionSystem.Reachable.next _ _ (blockSystem crc32c allocation media) _ _ () reached step

variable (crc32c)

theorem firstFlush_reachable (media : Memory) :
    (blockSystem crc32c thirdEpoch media).Reachable (firstFlush crc32c media) := by
  have started : (blockSystem crc32c thirdEpoch media).Reachable (activated thirdEpoch media) :=
    .start rfl
  have appended := blockSystem_next started (.append smallRecord
    (show blockHeaderBytes + smallRecord.size ≤ storageBlockBytes by decide))
  exact blockSystem_next appended (.beginFlush rfl
    (show alignDirect (blockHeaderBytes + smallRecord.size) ≠ blockHeaderBytes by decide))

theorem firstFlush_lost (media : Memory) : (firstFlush crc32c media).CrashImage crc32c media where
  below _ _ _ := rfl
  above _ _ := rfl
  inside _ _ _ := Or.inl rfl

theorem staleMedia_selected :
    decodeBlockHeaderPages crc32c (staleMedia crc32c) = some staleHeader := by
  have length := length_encodeBlockHeader crc32c staleHeader
  have first : slotPage (staleMedia crc32c) 0 = encodeBlockHeader crc32c staleHeader := by
    have stored := slice_store blankMedia 0 (encodeBlockHeader crc32c staleHeader)
    rw [length] at stored
    exact stored
  have second : decodeBlockHeader crc32c (slotPage (staleMedia crc32c) 1) = none := by
    apply decode_slotPage_zeroes
    intro address above below
    exact store_outside (Or.inr (by omega))
  rw [decodeBlockHeaderPages, first, second, decode_encodeBlockHeader (by decide)]
  rfl

variable {crc32c}

/-- A crash in the first flush of an allocation may leave no header at all, or one of an earlier
allocation, to be selected: not that of any flush. -/
theorem first_flush_selects_neither :
    (∃ block : StagedBlock thirdEpoch,
      (blockSystem (fun _ => 0) thirdEpoch blankMedia).Reachable block ∧
      block.CrashImage (fun _ => 0) blankMedia ∧
      decodeBlockHeaderPages (fun _ => 0) blankMedia = none) ∧ ∃ block : StagedBlock thirdEpoch,
      (blockSystem (fun _ => 0) thirdEpoch (staleMedia fun _ => 0)).Reachable block ∧
      block.CrashImage (fun _ => 0) (staleMedia fun _ => 0) ∧
      decodeBlockHeaderPages (fun _ => 0) (staleMedia fun _ => 0) = some staleHeader ∧
      ∀ flush, (block.completed = some flush ∨ block.inFlight = some flush) →
        flush.header ≠ staleHeader := by
  constructor
  · refine ⟨firstFlush (fun _ => 0) blankMedia, firstFlush_reachable _ _, firstFlush_lost _ _, ?_⟩
    have blank := fun slot => @decode_slotPage_zeroes (fun _ => 0) blankMedia slot fun _ _ _ => rfl
    rw [decodeBlockHeaderPages, blank 0, blank 1]
    rfl
  · refine ⟨firstFlush (fun _ => 0) (staleMedia fun _ => 0), firstFlush_reachable _ _,
      firstFlush_lost _ _, staleMedia_selected _, ?_⟩
    rintro flush (completed | underWay)
    · cases completed
    · cases underWay
      intro same
      have kinds := congrArg kind same
      cases kinds

def unsummed : List UInt8 → UInt32 := fun _ => 0

/-- A second flush of the allocation, whose data is durable and whose header is being written. -/
def secondFlush : StagedBlock thirdEpoch :=
  let pending : PendingFlush thirdEpoch :=
    { header := ((activated thirdEpoch blankMedia).append unsummed smallRecord).nextHeader
      records := [smallRecord] }
  let first := ((firstFlush unsummed blankMedia).syncData pending).syncHeader pending
  let again := first.append unsummed smallRecord
  (again.beginFlush unsummed).syncData
    { header := again.nextHeader, records := [smallRecord, smallRecord] }

theorem secondFlush_reachable :
    (blockSystem unsummed thirdEpoch blankMedia).Reachable secondFlush := by
  have written := blockSystem_next (firstFlush_reachable unsummed blankMedia) (.syncData rfl)
  have synced := blockSystem_next written (.syncHeader rfl)
  have appended := blockSystem_next synced (.append smallRecord (by decide))
  exact blockSystem_next (blockSystem_next appended (.beginFlush rfl (by decide))) (.syncData rfl)

/-- Of the second header only the magic reached the device. The first flush or the second one is
recovered, with the record of the first. -/
theorem torn_second_flush_recovers :
    ∃ (block : StagedBlock thirdEpoch) (image : Memory),
      (blockSystem unsummed thirdEpoch blankMedia).Reachable block ∧
      block.CrashImage unsummed image ∧
      slotPage image 1 ≠ slotPage block.disk 1 ∧ slotPage image 1 ≠ slotPage block.staging 1 ∧
      ∃ flush, (block.completed = some flush ∨ block.inFlight = some flush) ∧
        [smallRecord] <+: flush.records ∧ block.Recovers unsummed image flush := by
  let image := secondFlush.disk.copy secondFlush.staging directIoAlignment (directIoAlignment + 8)
  have version : load 4 16 (slotPage image 1) = 0 := by decide +kernel
  have crashed : Torn unsummed secondFlush.disk secondFlush.staging directIoAlignment
      (directIoAlignment + directIoAlignment) image := by
    constructor
    · exact copy_agree (Or.inl (le_refl _))
    · intro address above
      exact if_neg (by unfold directIoAlignment at *; omega)
    · intro page lower upper
      obtain rfl : page = 1 := by
        unfold directIoAlignment at lower upper
        omega
      right
      right
      intro _
      have lost : decodeBlockHeader unsummed (slotPage image 1) = none := by
        simp [decodeBlockHeader, version, storageFormatVersion]
      exact lost
  refine ⟨secondFlush, image, secondFlush_reachable, crashed, by decide +kernel,
    by decide +kernel, ?_⟩
  obtain ⟨flush, named, recovers⟩ | ⟨none, -⟩ := crash_recovers_flush secondFlush_reachable crashed
  · refine ⟨flush, named, ?_, recovers⟩
    obtain completed | underWay := named
    · cases completed
      exact List.prefix_refl _
    · cases underWay
      exact List.prefix_append [smallRecord] [smallRecord]
  · cases none

end Lavik.Storage
