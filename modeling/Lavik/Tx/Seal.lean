import Mathlib.Algebra.Group.Nat.Defs
import Mathlib.Data.List.Infix
import Mathlib.Order.Fin.Basic
import Lavik.Tx.Transaction
/-!
# Sealing a transaction

Keys and lock references of all shards lie end to end in two vectors, and a shard remembers its
part in 16-bit fields. Nothing bounds the vectors: a part past the reach of such a field is cut off
or belongs to another shard. The fields are exact under the condition `Fits`, and only then.
-/

namespace Lavik.Tx

open Base List KeyRef UInt16

structure TxKey where
  digest : UInt64
  fp : LockFp
  argIndex : UInt32
  mode : LockMode
  db : Fin logicalDatabaseCount
deriving DecidableEq, Repr

structure KeyArgument where
  owner : UInt32
  db : Fin logicalDatabaseCount
  digest : UInt64
  argIndex : UInt32
  mode : LockMode
deriving DecidableEq, Repr

structure ShardData where
  shardId : UInt16
  keyBegin : UInt16
  keyCount : UInt16
  lockBegin : UInt16
  lockCount : UInt16
deriving DecidableEq, Repr

structure KeyVectors where
  keys : List TxKey := []
  owners : List UInt16 := []
  lockRefs : List KeyRef := []
  shards : List ShardData := []
deriving DecidableEq, Repr

def fingerprintOf (digest : UInt64) : LockFp := digest

def KeyArgument.key (argument : KeyArgument) : TxKey :=
  ⟨argument.digest, fingerprintOf argument.digest, argument.argIndex, argument.mode, argument.db⟩

def TxKey.slot (key : TxKey) : Slot := (key.db, key.fp)

def firstOccurrences {α : Type} [DecidableEq α] (items : List α) : List α :=
  items.foldl (fun distinct item => if item ∈ distinct then distinct else distinct ++ [item]) []

namespace KeyVectors

def addKey (vectors : KeyVectors) (argument : KeyArgument) : KeyVectors :=
  { vectors with
    keys := vectors.keys ++ [argument.key]
    owners := vectors.owners ++ [argument.owner.toUInt16] }

def keysOf (vectors : KeyVectors) (owner : UInt16) : List TxKey :=
  ((vectors.owners.zip vectors.keys).filter (·.1 = owner)).map Prod.snd

end KeyVectors

/-- The inner loop of the deduplication: a reference of the same entry takes the stronger mode, a
new entry goes to the end. -/
def mergeRef : List KeyRef → TxKey → List KeyRef
  | [], key => [⟨key.fp, key.mode, key.db⟩]
  | ref :: refs, key =>
    if ref.fp = key.fp ∧ ref.db = key.db then
      { ref with mode := if key.mode = .exclusive then .exclusive else ref.mode } :: refs
    else ref :: mergeRef refs key

def mergeRefFrom (start : Nat) (refs : List KeyRef) (key : TxKey) : List KeyRef :=
  refs.take start ++ mergeRef (refs.drop start) key

structure Grouping where
  grouped : List TxKey := []
  lockRefs : List KeyRef := []
  shards : List ShardData := []

def KeyVectors.sealShard (vectors : KeyVectors) (grouping : Grouping) (owner : UInt16) :
    Grouping :=
  let keyBegin := ofNat grouping.grouped.length
  let grouped := grouping.grouped ++ vectors.keysOf owner
  let keyCount := ofNat (grouped.length - keyBegin.toNat)
  let lockBegin := ofNat grouping.lockRefs.length
  let lockRefs :=
    (grouped.drop keyBegin.toNat).foldl (mergeRefFrom lockBegin.toNat) grouping.lockRefs
  let lockCount := ofNat (lockRefs.length - lockBegin.toNat)
  { grouped, lockRefs
    shards := grouping.shards ++ [⟨owner, keyBegin, keyCount, lockBegin, lockCount⟩] }

namespace KeyVectors

variable (vectors : KeyVectors)

def sealKeys : KeyVectors :=
  let grouping := (firstOccurrences vectors.owners).foldl vectors.sealShard {}
  { vectors with
    keys := grouping.grouped
    lockRefs := grouping.lockRefs
    shards := grouping.shards }

def slice (shard : ShardData) : List TxKey :=
  (vectors.keys.drop shard.keyBegin.toNat).take shard.keyCount.toNat

def lockSpan (shard : ShardData) : List KeyRef :=
  (vectors.lockRefs.drop shard.lockBegin.toNat).take shard.lockCount.toNat

end KeyVectors

variable (arguments : List KeyArgument)

def added : KeyVectors := arguments.foldl KeyVectors.addKey {}

def sealed : KeyVectors := (added arguments).sealKeys

/-! ## What sealing is for -/

def keysFor (owner : Nat) : List TxKey :=
  (arguments.filter (·.owner.toNat = owner)).map KeyArgument.key

/-- A lock set is exactly that of some keys: one reference for each entry, exclusive if some
occurrence is. -/
structure LocksFor (keys : List TxKey) (refs : List KeyRef) : Prop where
  distinct : (refs.map slot).Nodup
  named : ∀ slot, slot ∈ refs.map KeyRef.slot ↔ slot ∈ keys.map TxKey.slot
  exclusive : ∀ ref ∈ refs, ref.mode = .exclusive ↔
    ∃ key ∈ keys, key.slot = ref.slot ∧ key.mode = .exclusive

/-- The shards are the owners, each once; every shard has exactly its keys in argument order and
their lock set. -/
structure Partitions (arguments : List KeyArgument) (vectors : KeyVectors) : Prop where
  distinct : (vectors.shards.map fun shard => shard.shardId.toNat).Nodup
  owners : ∀ owner, owner ∈ vectors.shards.map (fun shard => shard.shardId.toNat) ↔
    owner ∈ arguments.map fun argument => argument.owner.toNat
  slices : ∀ shard ∈ vectors.shards, vectors.slice shard = keysFor arguments shard.shardId.toNat
  locks : ∀ shard ∈ vectors.shards,
    LocksFor (keysFor arguments shard.shardId.toNat) (vectors.lockSpan shard)

def ownersInOrder : List Nat :=
  firstOccurrences (arguments.map fun argument => argument.owner.toNat)

/-- Every owner is a 16-bit number, and so are the number of keys of the owners before it and the
number of its own keys. -/
structure Fits (arguments : List KeyArgument) : Prop where
  owner : ∀ argument ∈ arguments, argument.owner.toNat < 2 ^ 16
  begins : ∀ front owner back, ownersInOrder arguments = front ++ owner :: back →
    (front.flatMap (keysFor arguments)).length < 2 ^ 16
  counts : ∀ argument ∈ arguments, (keysFor arguments argument.owner.toNat).length < 2 ^ 16

/-! ## First occurrences -/

section FirstOccurrences

variable {α β : Type} [DecidableEq α] [DecidableEq β]

theorem firstOccurrences_concat (items : List α) (item : α) :
    firstOccurrences (items ++ [item]) =
      if item ∈ firstOccurrences items then firstOccurrences items
      else firstOccurrences items ++ [item] := by
  rw [firstOccurrences, foldl_append]
  rfl

variable {items : List α}

theorem mem_firstOccurrences {item : α} : item ∈ firstOccurrences items ↔ item ∈ items := by
  induction items using reverseRecOn with
  | nil => simp [firstOccurrences]
  | append_singleton items last ih =>
    rw [firstOccurrences_concat]
    split
    · rename_i present
      simp only [mem_append, mem_singleton, ih]
      constructor
      · exact .inl
      · rintro (earlier | rfl)
        · exact earlier
        · exact ih.mp present
    · simp only [mem_append, ih]

theorem nodup_firstOccurrences (items : List α) : (firstOccurrences items).Nodup := by
  induction items using reverseRecOn with
  | nil => exact nodup_nil
  | append_singleton items last ih =>
    rw [firstOccurrences_concat]
    split
    · exact ih
    rename_i absent
    exact nodup_append.mpr ⟨ih, nodup_singleton last, by
      rintro item present other mem rfl
      exact absent (mem_singleton.mp mem ▸ present)⟩

theorem firstOccurrences_map {image : α → β}
    (apart : ∀ a ∈ items, ∀ b ∈ items, image a = image b → a = b) :
    firstOccurrences (items.map image) = (firstOccurrences items).map image := by
  induction items using reverseRecOn with
  | nil => rfl
  | append_singleton items last ih =>
    have earlier := ih fun a inA b inB => apart a (by simp [inA]) b (by simp [inB])
    have present : image last ∈ (firstOccurrences items).map image ↔
        last ∈ firstOccurrences items := by
      constructor
      · intro mem
        obtain ⟨other, inside, same⟩ := mem_map.mp mem
        have sameItem := apart other (by simp [mem_firstOccurrences.mp inside]) last (by simp) same
        exact sameItem ▸ inside
      · exact mem_map_of_mem
    rw [map_append, map_singleton, firstOccurrences_concat, firstOccurrences_concat, earlier]
    by_cases mem : last ∈ firstOccurrences items
    · rw [if_pos (present.mpr mem), if_pos mem]
    · rw [if_neg fun image => mem (present.mp image), if_neg mem, map_append, map_singleton]

end FirstOccurrences

/-! ## Lock sets -/

theorem mergeRef_cons (ref : KeyRef) (refs : List KeyRef) (key : TxKey) :
    mergeRef (ref :: refs) key = if ref.slot = key.slot then
      { ref with mode := if key.mode = .exclusive then .exclusive else ref.mode } :: refs
    else ref :: mergeRef refs key := by
  simp [mergeRef, slot, TxKey.slot, and_comm]

variable (refs : List KeyRef)

theorem slots_mergeRef (key : TxKey) :
    (mergeRef refs key).map slot = if key.slot ∈ refs.map slot then refs.map slot
      else refs.map slot ++ [key.slot] := by
  induction refs with
  | nil => rfl
  | cons ref refs ih =>
    rw [mergeRef_cons]
    by_cases same : ref.slot = key.slot
    · simp [← same, slot]
    · rw [if_neg same, map_cons, ih]
      simp only [map_cons, mem_cons, Ne.symm same, false_or]
      split <;> rfl

/-- A reference after a merge is an old one of another entry, or the key's, whose mode is the
stronger one. -/
theorem mem_mergeRef {refs : List KeyRef} {key : TxKey}
    (nodup : (refs.map slot).Nodup) {ref : KeyRef} (mem : ref ∈ mergeRef refs key) :
    (ref ∈ refs ∧ ref.slot ≠ key.slot) ∨ (ref.slot = key.slot ∧ (ref.mode = .exclusive ↔
      key.mode = .exclusive ∨ ∃ old ∈ refs, old.slot = key.slot ∧ old.mode = .exclusive)) := by
  induction refs with
  | nil =>
    obtain rfl := mem_singleton.mp mem
    exact .inr ⟨rfl, by simp⟩
  | cons head refs ih =>
    rw [map_cons, nodup_cons] at nodup
    rw [mergeRef_cons] at mem
    by_cases same : head.slot = key.slot
    · -- no other reference names the entry
      have alone : ∀ old ∈ refs, old.slot ≠ key.slot := fun old inside eq =>
        nodup.1 (same.trans eq.symm ▸ mem_map_of_mem inside)
      rw [if_pos same] at mem
      rcases mem_cons.mp mem with rfl | later
      · refine .inr ⟨same, ?_⟩
        have rest : ¬ ∃ old ∈ refs, old.slot = key.slot ∧ old.mode = .exclusive :=
          fun ⟨old, inside, eq, _⟩ => alone old inside eq
        by_cases writes : key.mode = .exclusive
        · simp [writes]
        · simp only [mem_cons, or_and_right, exists_or, exists_eq_left, rest]
          simp [writes, same]
      · exact .inl ⟨mem_cons_of_mem _ later, alone ref later⟩
    · rw [if_neg same] at mem
      rcases mem_cons.mp mem with rfl | later
      · exact .inl ⟨mem_cons_self, same⟩
      · rcases ih nodup.2 later with ⟨old, apart⟩ | own
        · exact .inl ⟨mem_cons_of_mem _ old, apart⟩
        · exact .inr (by simpa [same] using own)

def locksOf (keys : List TxKey) : List KeyRef := keys.foldl mergeRef []

theorem locksOf_concat (keys : List TxKey) (key : TxKey) :
    locksOf (keys ++ [key]) = mergeRef (locksOf keys) key := by
  simp [locksOf, foldl_append]

theorem locksFor_locksOf (keys : List TxKey) : LocksFor keys (locksOf keys) := by
  induction keys using reverseRecOn with
  | nil => exact ⟨nodup_nil, fun _ => Iff.rfl, fun _ mem => absurd mem not_mem_nil⟩
  | append_singleton keys key ih =>
    rw [locksOf_concat]
    refine ⟨?_, ?_, ?_⟩
    · rw [slots_mergeRef]
      split
      · exact ih.distinct
      rename_i absent
      exact nodup_append.mpr ⟨ih.distinct, nodup_singleton _, by
        rintro slot present other mem rfl
        exact absent (mem_singleton.mp mem ▸ present)⟩
    · intro slot
      rw [slots_mergeRef, map_append, mem_append, map_singleton, mem_singleton, ← ih.named slot]
      split
      · rename_i present
        constructor
        · exact .inl
        · rintro (earlier | rfl)
          · exact earlier
          · exact present
      · simp
    · intro ref mem
      simp only [mem_append, mem_singleton, or_and_right, exists_or, exists_eq_left]
      rcases mem_mergeRef ih.distinct mem with ⟨old, apart⟩ | ⟨same, mode⟩
      · simpa [Ne.symm apart] using ih.exclusive ref old
      · rw [mode, same, or_comm]
        refine or_congr ⟨?_, ?_⟩ (by simp)
        · rintro ⟨old, inside, slot, exclusive⟩
          exact slot ▸ (ih.exclusive old inside).mp exclusive
        · rintro ⟨found, present, slot, writes⟩
          have named := (ih.named found.slot).mpr (mem_map_of_mem present)
          obtain ⟨old, inside, eq⟩ := mem_map.mp named
          exact ⟨old, inside, eq.trans slot,
            (ih.exclusive old inside).mpr ⟨found, present, eq.symm, writes⟩⟩

theorem length_mergeRef_le (key : TxKey) : (mergeRef refs key).length ≤ refs.length + 1 := by
  induction refs with
  | nil => exact Nat.le_refl _
  | cons ref refs ih =>
    rw [mergeRef]
    split
    · simp
    · simpa using ih

theorem length_locksOf_le (keys : List TxKey) : (locksOf keys).length ≤ keys.length := by
  induction keys using reverseRecOn with
  | nil => exact Nat.le_refl _
  | append_singleton keys key ih =>
    have grown := length_mergeRef_le (locksOf keys) key
    rw [locksOf_concat, length_append, length_singleton]
    omega

theorem foldl_mergeRefFrom (keys : List TxKey) :
    keys.foldl (mergeRefFrom refs.length) refs = refs ++ locksOf keys := by
  induction keys using reverseRecOn with
  | nil => simp [locksOf]
  | append_singleton keys key ih =>
    rw [foldl_append, foldl_cons, foldl_nil, ih]
    simp [mergeRefFrom, locksOf, foldl_append]

/-! ## The loop over the owners -/

theorem vectors_added :
    (added arguments).keys = arguments.map KeyArgument.key ∧
      (added arguments).owners = arguments.map (·.owner.toUInt16) := by
  induction arguments using reverseRecOn with
  | nil => exact ⟨rfl, rfl⟩
  | append_singleton arguments argument ih =>
    have step : added (arguments ++ [argument]) = (added arguments).addKey argument := by
      simp [added]
    simp only [step, KeyVectors.addKey, ih.1, ih.2, map_append, map_singleton, and_self]

namespace KeyVectors

def shardAt (vectors : KeyVectors) (grouping : Grouping) (owner : UInt16) : ShardData :=
  let keyBegin := ofNat grouping.grouped.length
  let lockBegin := ofNat grouping.lockRefs.length
  let next := vectors.sealShard grouping owner
  ⟨owner, keyBegin, ofNat (next.grouped.length - keyBegin.toNat),
    lockBegin, ofNat (next.lockRefs.length - lockBegin.toNat)⟩

variable (vectors : KeyVectors)

theorem shards_sealShard (grouping : Grouping) (owner : UInt16) :
    (vectors.sealShard grouping owner).shards =
      grouping.shards ++ [vectors.shardAt grouping owner] := rfl

theorem grouped_loop (owners : List UInt16) :
    (owners.foldl vectors.sealShard {}).grouped = owners.flatMap vectors.keysOf := by
  induction owners using reverseRecOn with
  | nil => rfl
  | append_singleton owners owner ih =>
    rw [foldl_append, flatMap_append, flatMap_singleton, ← ih]
    rfl

theorem shardIds_loop (owners : List UInt16) :
    (owners.foldl vectors.sealShard {}).shards.map ShardData.shardId = owners := by
  induction owners using reverseRecOn with
  | nil => rfl
  | append_singleton owners owner ih =>
    rw [foldl_append, foldl_cons, foldl_nil, shards_sealShard, map_append, ih]
    rfl

variable {owners : List UInt16}

theorem mem_shards_loop {shard : ShardData} :
    shard ∈ (owners.foldl vectors.sealShard {}).shards ↔
      ∃ front owner back, owners = front ++ owner :: back ∧
        shard = vectors.shardAt (front.foldl vectors.sealShard {}) owner := by
  induction owners using reverseRecOn with
  | nil =>
    constructor
    · exact fun mem => absurd mem not_mem_nil
    · rintro ⟨front, owner, back, split, -⟩
      simp at split
  | append_singleton owners last ih =>
    rw [foldl_append, foldl_cons, foldl_nil, shards_sealShard, mem_append, mem_singleton, ih]
    constructor
    · rintro (⟨front, owner, back, rfl, made⟩ | made)
      · exact ⟨front, owner, back ++ [last], by simp, made⟩
      · exact ⟨owners, last, [], rfl, made⟩
    · rintro ⟨front, owner, back, split, made⟩
      rcases eq_nil_or_concat back with rfl | ⟨middle, final, rfl⟩
      · obtain ⟨rfl, same⟩ := append_inj' split rfl
        obtain rfl : last = owner := by simpa using same
        exact .inr made
      left
      have shape : owners ++ [last] = (front ++ owner :: middle) ++ [final] := by
        simpa using split
      exact ⟨front, owner, middle, (append_inj' shape rfl).1, made⟩

def locksAt (owner : UInt16) : List KeyRef := locksOf (vectors.keysOf owner)

theorem length_locksAt_le (owners : List UInt16) :
    (owners.flatMap vectors.locksAt).length ≤ (owners.flatMap vectors.keysOf).length := by
  induction owners with
  | nil => exact Nat.le_refl _
  | cons owner owners ih =>
    have own := length_locksOf_le (vectors.keysOf owner)
    simp only [flatMap_cons, length_append, locksAt] at ih ⊢
    omega

theorem lockRefs_loop (reach : ∀ front owner back, owners = front ++ owner :: back →
      (front.flatMap vectors.keysOf).length < 2 ^ 16) :
    (owners.foldl vectors.sealShard {}).lockRefs = owners.flatMap vectors.locksAt := by
  induction owners using reverseRecOn with
  | nil => rfl
  | append_singleton owners owner ih =>
    have before := ih fun front middle back split =>
      reach front middle (back ++ [owner]) (by simp [split])
    have keysReach := reach owners owner [] rfl
    have locksReach := (length_locksAt_le vectors owners).trans_lt keysReach
    have grouped := grouped_loop vectors owners
    rw [foldl_append, foldl_cons, foldl_nil, flatMap_append, flatMap_singleton]
    simp only [sealShard, grouped, before, toNat_ofNat', Nat.mod_eq_of_lt keysReach,
      Nat.mod_eq_of_lt locksReach, drop_left]
    exact foldl_mergeRefFrom _ _

theorem lock_shardAt {front : List UInt16} {owner : UInt16}
    (reach : ∀ first middle last, front ++ [owner] = first ++ middle :: last →
      (first.flatMap vectors.keysOf).length < 2 ^ 16)
      (own : (vectors.keysOf owner).length < 2 ^ 16) :
    (vectors.shardAt (front.foldl vectors.sealShard {}) owner).lockBegin.toNat =
        (front.flatMap vectors.locksAt).length ∧
      (vectors.shardAt (front.foldl vectors.sealShard {}) owner).lockCount.toNat =
        (vectors.locksAt owner).length := by
  have before : (front.foldl vectors.sealShard {}).lockRefs = front.flatMap vectors.locksAt :=
    lockRefs_loop vectors fun first middle last split =>
      reach first middle (last ++ [owner]) (by simp [split])
  have after := lockRefs_loop vectors reach
  rw [foldl_append, foldl_cons, foldl_nil, flatMap_append, flatMap_singleton] at after
  have locksReach := (length_locksAt_le vectors front).trans_lt (reach front owner [] rfl)
  have ownReach : (vectors.locksAt owner).length < 2 ^ 16 :=
    (length_locksOf_le (vectors.keysOf owner)).trans_lt own
  simp only [shardAt, before, after, length_append, toNat_ofNat']
  omega

end KeyVectors

/-! ## The partition -/

section Partition

variable {arguments : List KeyArgument}

def shardOwners (arguments : List KeyArgument) : List UInt16 :=
  firstOccurrences (added arguments).owners

section Narrow

variable (narrow : ∀ argument ∈ arguments, argument.owner.toNat < 2 ^ 16)

include narrow

theorem keysOf_added (owner : UInt16) :
    (added arguments).keysOf owner = keysFor arguments owner.toNat := by
  obtain ⟨keys, owners⟩ := vectors_added arguments
  rw [KeyVectors.keysOf, keys, owners, keysFor]
  clear keys owners
  induction arguments with
  | nil => rfl
  | cons argument rest ih =>
    have tail := ih fun other inside => narrow other (mem_cons_of_mem _ inside)
    have bound := narrow argument mem_cons_self
    have same : argument.owner.toUInt16 = owner ↔ argument.owner.toNat = owner.toNat := by
      rw [← UInt16.toNat_inj, UInt32.toNat_toUInt16, Nat.mod_eq_of_lt bound]
    simp only [map_cons, zip_cons_cons, filter_cons, same]
    split
    · simpa using tail
    · exact tail

theorem mem_keysOf {owner : UInt16} {key : TxKey} (mem : key ∈ (added arguments).keysOf owner) :
    ∃ argument ∈ arguments, argument.owner.toNat = owner.toNat ∧ argument.key = key := by
  rw [keysOf_added narrow owner, keysFor] at mem
  obtain ⟨argument, kept, same⟩ := mem_map.mp mem
  obtain ⟨inside, owns⟩ := mem_filter.mp kept
  exact ⟨argument, inside, of_decide_eq_true owns, same⟩

theorem map_shardOwners : (shardOwners arguments).map UInt16.toNat = ownersInOrder arguments := by
  rw [shardOwners, (vectors_added arguments).2,
    ← firstOccurrences_map fun _ _ _ _ => UInt16.toNat_inj.mp, map_map, ownersInOrder]
  congr 1
  refine map_congr_left fun argument inside => ?_
  exact (UInt32.toNat_toUInt16 _).trans (Nat.mod_eq_of_lt (narrow argument inside))

theorem flatMap_keysOf (owners : List UInt16) :
    owners.flatMap (added arguments).keysOf =
      (owners.map toNat).flatMap (keysFor arguments) := by
  rw [flatMap_map]
  exact flatMap_congr fun owner _ => keysOf_added narrow owner

end Narrow

theorem mem_shards_sealed {shard : ShardData} :
    shard ∈ (sealed arguments).shards ↔
      ∃ front owner back, shardOwners arguments = front ++ owner :: back ∧
        shard = (added arguments).shardAt (front.foldl (added arguments).sealShard {}) owner :=
  KeyVectors.mem_shards_loop _

theorem slice_shardAt (arguments : List KeyArgument) (front : List UInt16) (owner : UInt16) :
    (sealed arguments).slice
        ((added arguments).shardAt (front.foldl (added arguments).sealShard {}) owner) =
      (((shardOwners arguments).flatMap (added arguments).keysOf).drop
        ((front.flatMap (added arguments).keysOf).length % 2 ^ 16)).take
        (((added arguments).keysOf owner).length % 2 ^ 16) := by
  have keys : (sealed arguments).keys = (shardOwners arguments).flatMap (added arguments).keysOf :=
    KeyVectors.grouped_loop _ _
  have count : ∀ grouping, ((added arguments).shardAt grouping owner).keyCount.toNat =
      ((added arguments).keysOf owner).length % 2 ^ 16 := by
    simp only [KeyVectors.shardAt, KeyVectors.sealShard, length_append, toNat_ofNat']
    omega
  simp only [KeyVectors.slice, keys, count]
  simp only [KeyVectors.shardAt, toNat_ofNat', KeyVectors.grouped_loop]

theorem part_of_flatMap {α β : Type} (part : α → List β) (front : List α) (item : α)
    (back : List α) :
    (((front ++ item :: back).flatMap part).drop (front.flatMap part).length).take
      (part item).length = part item := by
  rw [flatMap_append, drop_left, flatMap_cons, take_left]

theorem Fits.partitions (fits : Fits arguments) : Partitions arguments (sealed arguments) := by
  have order := map_shardOwners fits.owner
  have ids : (sealed arguments).shards.map (fun shard => shard.shardId.toNat) =
      ownersInOrder arguments := by
    rw [← order, ← (added arguments).shardIds_loop (shardOwners arguments), map_map]
    rfl
  have reach : ∀ front owner back, shardOwners arguments = front ++ owner :: back →
      (front.flatMap (added arguments).keysOf).length < 2 ^ 16 := by
    intro front owner back split
    rw [flatMap_keysOf fits.owner front]
    exact fits.begins (front.map toNat) owner.toNat (back.map toNat)
      (by rw [← order, split, map_append, map_cons])
  have counts : ∀ owner ∈ shardOwners arguments,
      ((added arguments).keysOf owner).length < 2 ^ 16 := by
    intro owner present
    have mem : owner.toNat ∈ ownersInOrder arguments := order ▸ mem_map_of_mem present
    obtain ⟨argument, inside, same⟩ := mem_map.mp (mem_firstOccurrences.mp mem)
    rw [keysOf_added fits.owner owner, ← same]
    exact fits.counts argument inside
  refine ⟨?_, ?_, ?_, ?_⟩
  · rw [ids]
    exact nodup_firstOccurrences _
  · intro owner
    rw [ids]
    exact mem_firstOccurrences
  · intro shard mem
    obtain ⟨front, owner, back, split, rfl⟩ := mem_shards_sealed.mp mem
    have before := Nat.mod_eq_of_lt (reach front owner back split)
    have own := Nat.mod_eq_of_lt (counts owner (by rw [split]; simp))
    rw [slice_shardAt, before, own, split, part_of_flatMap]
    exact keysOf_added fits.owner owner
  · intro shard mem
    obtain ⟨front, owner, back, split, rfl⟩ := mem_shards_sealed.mp mem
    have reachHere : ∀ first middle last, front ++ [owner] = first ++ middle :: last →
        (first.flatMap (added arguments).keysOf).length < 2 ^ 16 := by
      intro first middle last part
      have whole : shardOwners arguments = (front ++ [owner]) ++ back := by simpa using split
      exact reach first middle (last ++ back) (by rw [whole, part]; simp)
    obtain ⟨lockBegin, lockCount⟩ := (added arguments).lock_shardAt reachHere
      (counts owner (by rw [split]; simp))
    have refs : (sealed arguments).lockRefs =
        (shardOwners arguments).flatMap (added arguments).locksAt :=
      KeyVectors.lockRefs_loop _ reach
    rw [KeyVectors.lockSpan, lockBegin, lockCount, refs, split, part_of_flatMap]
    have locks := locksFor_locksOf ((added arguments).keysOf owner)
    rw [keysOf_added fits.owner owner] at locks
    rw [KeyVectors.locksAt, keysOf_added fits.owner owner]
    exact locks

/-- Sealing partitions the keys only if the fields can hold every offset and length. A key
belongs to one owner, as the callers have it from the hash of the key. -/
theorem Partitions.fits
    (owned : ∀ a ∈ arguments, ∀ b ∈ arguments, a.key = b.key → a.owner = b.owner)
    (partitions : Partitions arguments (sealed arguments)) : Fits arguments := by
  have narrow : ∀ argument ∈ arguments, argument.owner.toNat < 2 ^ 16 := by
    intro argument inside
    obtain ⟨shard, -, same⟩ := mem_map.mp
      ((partitions.owners argument.owner.toNat).mpr (mem_map_of_mem inside))
    exact same ▸ shard.shardId.toNat_lt
  have order := map_shardOwners narrow
  -- The slice of the shard made for an owner, through the truncated fields.
  have sliced : ∀ front owner back, shardOwners arguments = front ++ owner :: back →
      (((shardOwners arguments).flatMap (added arguments).keysOf).drop
        ((front.flatMap (added arguments).keysOf).length % 2 ^ 16)).take
        (((added arguments).keysOf owner).length % 2 ^ 16) = (added arguments).keysOf owner := by
    intro front owner back split
    have made := partitions.slices _ (mem_shards_sealed.mpr ⟨front, owner, back, split, rfl⟩)
    rw [slice_shardAt] at made
    exact made.trans (keysOf_added narrow owner).symm
  refine ⟨narrow, ?_, ?_⟩
  · intro frontIds ownerId backIds split
    obtain ⟨front, rest, splitOwners, frontMap, restMap⟩ :=
      map_eq_append_iff.mp (order.trans split)
    obtain ⟨owner, back, rfl, ownerMap, -⟩ := map_eq_cons_iff.mp restMap
    rw [← frontMap, ← flatMap_keysOf narrow front]
    have made := sliced front owner back splitOwners
    by_contra! far
    -- The slice would begin inside the part of an earlier owner, with a key of that owner.
    have ne : (added arguments).keysOf owner ≠ [] := by
      have mem : ownerId ∈ ownersInOrder arguments := split ▸ by simp
      obtain ⟨argument, inside, same⟩ := mem_map.mp (mem_firstOccurrences.mp mem)
      rw [keysOf_added narrow owner, ownerMap, ← same]
      exact ne_nil_of_mem (mem_map_of_mem (mem_filter.mpr ⟨inside, by simp⟩))
    obtain ⟨key, keys, first⟩ := exists_cons_of_ne_nil ne
    have lower : (front.flatMap (added arguments).keysOf).length % 2 ^ 16 <
        (front.flatMap (added arguments).keysOf).length :=
      (Nat.mod_lt _ (by decide)).trans_le far
    have earlier : key ∈ front.flatMap (added arguments).keysOf := by
      have head := congrArg head? made
      rw [first, head?_take, head?_drop, splitOwners, flatMap_append,
        getElem?_append_left lower] at head
      split at head
      · exact absurd head.symm (Option.some_ne_none key)
      · exact mem_of_getElem? head
    obtain ⟨other, ahead, key_other⟩ := mem_flatMap.mp earlier
    have own : key ∈ (added arguments).keysOf owner := first ▸ mem_cons_self
    obtain ⟨a, inA, ownerA, keyA⟩ := mem_keysOf narrow key_other
    obtain ⟨b, inB, ownerB, keyB⟩ := mem_keysOf narrow own
    have sameOwner : other = owner := by
      rw [← UInt16.toNat_inj, ← ownerA, ← ownerB, owned a inA b inB (keyA.trans keyB.symm)]
    have nodup : (front ++ owner :: back).Nodup := splitOwners ▸ nodup_firstOccurrences _
    exact (nodup_append.mp nodup).2.2 other ahead owner mem_cons_self sameOwner
  · intro argument inside
    have mem : argument.owner.toNat ∈ (shardOwners arguments).map toNat :=
      order ▸ mem_firstOccurrences.mpr (mem_map_of_mem inside)
    obtain ⟨owner, present, same⟩ := mem_map.mp mem
    obtain ⟨front, back, split⟩ := append_of_mem present
    have short := congrArg length (sliced front owner back split)
    rw [length_take] at short
    rw [← same, ← keysOf_added narrow owner]
    omega

/-- A transaction is partitioned by `Seal` exactly when its offsets and lengths fit in 16 bits. -/
theorem seal_partitions_iff_fits (arguments : List KeyArgument) :
    (Fits arguments → Partitions arguments (sealed arguments)) ∧
      ((∀ a ∈ arguments, ∀ b ∈ arguments, a.key = b.key → a.owner = b.owner) →
        Partitions arguments (sealed arguments) → Fits arguments) :=
  ⟨Fits.partitions, Partitions.fits⟩

def repeatedKey : KeyArgument := ⟨0, (0 : Fin 16), 7, 1, .exclusive⟩

/-- A key of one worker, a key of another, and the first key again, to be read. -/
def twoOwners : List KeyArgument :=
  [repeatedKey, ⟨1, (0 : Fin 16), 9, 2, .shared⟩,
    { repeatedKey with argIndex := 3, mode := .shared }]

theorem twoOwners_fits : Fits twoOwners := by
  refine ⟨by decide, fun front owner back split => ?_, by decide⟩
  have order : ownersInOrder twoOwners = [0, 1] := by decide
  rw [order] at split
  obtain _ | ⟨first, _ | ⟨second, front⟩⟩ := front
  · decide
  · cases split
    decide
  · exact absurd (congrArg length split) (by simp)

theorem two_owners_are_partitioned :
    (sealed twoOwners).shards = [⟨0, 0, 2, 0, 1⟩, ⟨1, 2, 1, 1, 1⟩] ∧
      Partitions twoOwners (sealed twoOwners) :=
  ⟨by decide, (seal_partitions_iff_fits twoOwners).1 twoOwners_fits⟩

/-- One more key on one worker than a 16-bit count can say: the slice has none of them. -/
theorem crowded_shard_is_not_partitioned :
    ¬ Partitions (List.replicate (2 ^ 16) repeatedKey)
      (sealed (List.replicate (2 ^ 16) repeatedKey)) := by
  intro partitions
  have listed : repeatedKey ∈ replicate (2 ^ 16) repeatedKey :=
    mem_replicate.mpr ⟨by decide, rfl⟩
  obtain ⟨shard, made, id⟩ := mem_map.mp ((partitions.owners 0).mpr (mem_map_of_mem listed))
  have length := congrArg length (partitions.slices shard made)
  rw [id, keysFor, filter_replicate_of_pos (by decide), KeyVectors.slice, length_take, length_map,
    length_replicate] at length
  have count := shard.keyCount.toNat_lt
  omega

/-- The lock set that sealed vectors give a shard: none if the transaction has no key there. -/
def KeyVectors.locksOn (vectors : KeyVectors) (owner : Nat) : List KeyRef :=
  (vectors.shards.find? (·.shardId.toNat = owner)).elim [] vectors.lockSpan

theorem Fits.locksOn (fits : Fits arguments) (owner : Nat) :
    LocksFor (keysFor arguments owner) ((sealed arguments).locksOn owner) := by
  have partitions := fits.partitions
  unfold KeyVectors.locksOn
  cases found : (sealed arguments).shards.find? (·.shardId.toNat = owner) with
  | some shard =>
    have named : shard.shardId.toNat = owner := by simpa using find?_some found
    exact named ▸ partitions.locks shard (mem_of_find?_eq_some found)
  | none =>
    have absent : owner ∉ arguments.map (·.owner.toNat) := by
      rw [← partitions.owners]
      simpa using found
    have none : keysFor arguments owner = [] := by simpa [keysFor] using absent
    exact none ▸ locksFor_locksOf []

/-- For two transactions whose offsets and lengths fit in 16 bits, the lock sets that `Seal` gives a
shard conflict exactly when one transaction writes an entry there that the other names. -/
theorem sealed_locks_conflict_iff {others : List KeyArgument} (left : Fits arguments)
    (right : Fits others) (owner : Nat) :
    Conflict ((sealed arguments).locksOn owner) ((sealed others).locksOn owner) ↔
      ∃ key ∈ keysFor arguments owner, ∃ other ∈ keysFor others owner, key.slot = other.slot ∧
        (key.mode = .exclusive ∨ other.mode = .exclusive) := by
  obtain ⟨-, mine, writes⟩ := left.locksOn owner
  obtain ⟨-, theirs, overwrites⟩ := right.locksOn owner
  simp only [mem_map] at mine theirs
  constructor
  · rintro ⟨_, a, inLeft, b, inRight, rfl, same, mode | mode⟩
    · obtain ⟨key, mem, here, write⟩ := (writes a inLeft).mp mode
      obtain ⟨other, known, there⟩ := (theirs _).mp ⟨b, inRight, same⟩
      exact ⟨key, mem, other, known, here.trans there.symm, .inl write⟩
    · obtain ⟨other, known, there, write⟩ := (overwrites b inRight).mp mode
      obtain ⟨key, mem, here⟩ := (mine _).mp ⟨a, inLeft, same.symm⟩
      exact ⟨key, mem, other, known, here.trans there.symm, .inr write⟩
  · rintro ⟨key, mem, other, known, same, modes⟩
    obtain ⟨a, inLeft, here⟩ := (mine _).mpr ⟨key, mem, rfl⟩
    obtain ⟨b, inRight, there⟩ := (theirs _).mpr ⟨other, known, same.symm⟩
    refine ⟨_, a, inLeft, b, inRight, here, there, modes.imp (fun mode => ?_) fun mode => ?_⟩
    · exact (writes a inLeft).mpr ⟨key, mem, here.symm, mode⟩
    · exact (overwrites b inRight).mpr ⟨other, known, same.symm.trans there.symm, mode⟩

theorem writers_of_one_key_conflict :
    Conflict ((sealed twoOwners).locksOn 0) ((sealed twoOwners).locksOn 0) :=
  (sealed_locks_conflict_iff twoOwners_fits twoOwners_fits 0).mpr
    ⟨_, mem_cons_self, _, mem_cons_self, rfl, .inl rfl⟩

end Partition

end Lavik.Tx
