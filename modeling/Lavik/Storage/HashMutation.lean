import Lavik.Storage.GroupedHash
import Lavik.Storage.RecordCodec
/-!
# Mutations of a grouped hash

A mutation is planned over copies of the groups its fields are routed to. Groups that changed are
written again, and a group over the target size is split at one more bit of the digest and retired.
-/

namespace Lavik.Storage

open Base

def compactHeaderBytes : Nat := 32

def hashGroupPayloadLimit : Nat := 2 * maxStringBytes - 48

structure HashEntry where
  field : List UInt8
  value : List UInt8
deriving DecidableEq, Repr

structure HashGroupSnapshot where
  incarnation : Nat
  id : HashGroupId := {}
  retired : Bool := false
  entries : List HashEntry := []
deriving DecidableEq, Repr

def appendHashEntrySize (encodedBytes fieldBytes valueBytes maxBytes : Nat) : StatusOr Nat := do
  refuseIf (maxBytes < 8 ∨ maxStringBytes < fieldBytes ∨ maxStringBytes < valueBytes ∨
      maxBytes - 8 < encodedBytes ∨ maxBytes - encodedBytes - 8 < fieldBytes ∨
      maxBytes - encodedBytes - 8 - fieldBytes < valueBytes)
    .outOfRange "Hash field or value exceeds encoding limits"
  .ok (encodedBytes + 8 + fieldBytes + valueBytes)

def payloadBytes (entries : List HashEntry) : StatusOr Nat := do
  refuseIf (maxU32 < entries.length) .outOfRange "Hash group contains too many fields"
  entries.foldlM (fun bytes entry =>
      appendHashEntrySize bytes entry.field.length entry.value.length hashGroupPayloadLimit)
    (if entries = [] then 0 else compactHeaderBytes)

section Digest

variable (digestOf : DigestSeed → List UInt8 → UInt64)

def validateEntries (seed : Option DigestSeed) (id : HashGroupId) :
    List (List UInt8) → List HashEntry → StatusOr Unit
  | _, [] => .ok ()
  | fields, entry :: rest => do
    refuseIf (entry.field ∈ fields) .invalidArgument "duplicate field in Hash group"
    refuseIf (seed.any (fun seed => !id.contains (digestOf seed entry.field)) = true)
      .invalidArgument "field is outside its Hash group"
    validateEntries seed id (entry.field :: fields) rest

def validateFields (group : HashGroupSnapshot) (seed : Option DigestSeed) : StatusOr Unit := do
  refuseIf (group.incarnation = 0 ∨ group.id.valid = false ∨
      (group.retired = true ∧ group.entries ≠ []))
    .invalidArgument "invalid Hash group identity or state"
  validateEntries digestOf seed group.id [] group.entries

/-! ## Splitting -/

def branchBit (id : HashGroupId) : UInt64 := 1 <<< UInt64.ofNat (64 - (id.bits.toNat + 1))

def leftHalf (seed : DigestSeed) (current : HashGroupSnapshot) : HashGroupSnapshot where
  incarnation := current.incarnation
  id := ⟨current.id.prefixWord, current.id.bits + 1⟩
  entries := current.entries.filter fun entry =>
    digestOf seed entry.field &&& branchBit current.id = 0

def rightHalf (seed : DigestSeed) (current : HashGroupSnapshot) : HashGroupSnapshot where
  incarnation := current.incarnation
  id := ⟨current.id.prefixWord ||| branchBit current.id, current.id.bits + 1⟩
  entries := current.entries.filter fun entry =>
    digestOf seed entry.field &&& branchBit current.id ≠ 0

def keepLeaf (current : HashGroupSnapshot) : StatusOr (List HashGroupSnapshot) := do
  let _ ← payloadBytes current.entries
  .ok [current]

def isLeaf (targetBytes : Nat) (current : HashGroupSnapshot) : Bool :=
  (payloadBytes current.entries).toOption.any (· ≤ targetBytes) || current.entries.length ≤ 1

/-- The loop over the pending groups. `depth` is how many bits are left, 64 less those of the group;
the lower half is taken from the stack first. -/
def splitPending (seed : DigestSeed) (targetBytes : Nat) :
    Nat → HashGroupSnapshot → StatusOr (List HashGroupSnapshot)
  | 0, current => keepLeaf current
  | depth + 1, current =>
    if isLeaf targetBytes current then keepLeaf current
    else do
      let lower ← splitPending seed targetBytes depth (leftHalf digestOf seed current)
      let upper ← splitPending seed targetBytes depth (rightHalf digestOf seed current)
      .ok (lower ++ upper)

def checkEntries (entries : List HashEntry) : StatusOr Unit :=
  entries.forM fun entry => do
    let _ ← appendHashEntrySize compactHeaderBytes entry.field.length entry.value.length
      hashGroupPayloadLimit
    .ok ()

def splitHashGroup (group : HashGroupSnapshot) (seed : DigestSeed) (targetBytes : Nat) :
    StatusOr (List HashGroupSnapshot) := do
  refuseIf (targetBytes < compactHeaderBytes ∨ group.retired = true)
    .invalidArgument "invalid Hash group split request"
  validateFields digestOf group (some seed)
  checkEntries group.entries
  splitPending digestOf seed targetBytes (64 - group.id.bits.toNat) group

def groupHashValue (entries : List HashEntry) (incarnation : Nat) (seed : DigestSeed)
    (targetBytes : Nat) : StatusOr (List HashGroupSnapshot) := do
  refuseIf (entries = []) .invalidArgument "an empty Hash is a key tombstone"
  splitHashGroup digestOf { incarnation, entries } seed targetBytes

/-! ## Planning -/

inductive HashGroupMutationKind
  | set
  | setIfAbsent
  | delete
deriving DecidableEq, Repr

structure LoadedHashGroup where
  sequence : Nat
  snapshot : HashGroupSnapshot
deriving DecidableEq, Repr

structure HashGroupMutationPlan where
  root : GroupedHashRoot
  expectedSequence : Nat
  affectedFields : Nat := 0
  changed : Bool := false
  deleteKey : Bool := false
  writes : List HashGroupSnapshot := []
deriving DecidableEq

variable (dir : HashGroupDirectory)

def loadGroup (groups : OrderedMap HashGroupId HashGroupSnapshot) (loaded : LoadedHashGroup) :
    StatusOr (OrderedMap HashGroupId HashGroupSnapshot) := do
  refuseIf (loaded.snapshot.retired = true ∨ loaded.snapshot.incarnation ≠ dir.root.incarnation ∨
      (dir.groups.get loaded.snapshot.id.prefixWord).any (fun current =>
        current.id = loaded.snapshot.id ∧ loaded.sequence = current.sequence ∧
          loaded.snapshot.entries.length = current.fieldCount.toNat) = false ∨
      (groups.get loaded.snapshot.id).isSome = true)
    .failedPrecondition "stale or duplicate loaded Hash group"
  validateFields digestOf loaded.snapshot (some dir.root.seed)
  .ok (groups.set loaded.snapshot.id loaded.snapshot)

def assignValue (field value : List UInt8) : List HashEntry → List HashEntry
  | [] => []
  | entry :: rest =>
    if entry.field = field then { entry with value } :: rest
    else entry :: assignValue field value rest

variable (kind : HashGroupMutationKind)

/-- What one field does to the entries of its group: the new entries if they change, and whether a
field was added or removed. -/
def mutateEntries (field value : List UInt8) (entries : List HashEntry) :
    Option (List HashEntry × Bool) :=
  match kind, entries.find? (·.field = field) with
  | .delete, some _ => some (entries.eraseP (·.field = field), true)
  | .delete, none => none
  | _, none => some (entries ++ [⟨field, value⟩], true)
  | .set, some entry =>
    if entry.value ≠ value then some (assignValue field value entries, false) else none
  | .setIfAbsent, some _ => none

structure Scratch where
  groups : OrderedMap HashGroupId HashGroupSnapshot
  changed : OrderedMap HashGroupId Unit := .empty
  affected : Nat := 0

variable (scratch : Scratch)

def Scratch.mutate (kind : HashGroupMutationKind) (field value : List UInt8) (id : HashGroupId)
    (group : HashGroupSnapshot) : Scratch :=
  match mutateEntries kind field value group.entries with
  | none => scratch
  | some (entries, counted) =>
    { groups := scratch.groups.set id { group with entries }
      changed := scratch.changed.set id ()
      affected := if counted then scratch.affected + 1 else scratch.affected }

def mutateField (operand : List UInt8 × List UInt8) : StatusOr Scratch := do
  refuseIf (maxStringBytes < operand.1.length ∨
      (kind ≠ .delete ∧ maxStringBytes < operand.2.length))
    .outOfRange "Hash field or value exceeds Redis limit"
  match dir.find digestOf operand.1 with
  | none => .error ⟨.dataLoss, "grouped Hash directory has no field route"⟩
  | some selected =>
    match scratch.groups.get selected.id with
    | none => .error ⟨.failedPrecondition, "mutation is missing an affected Hash group"⟩
    | some group => .ok (scratch.mutate kind operand.1 operand.2 selected.id group)

def operands (fields values : List (List UInt8)) : List (List UInt8 × List UInt8) :=
  if kind = .delete then fields.map (·, []) else fields.zip values

def writeReplacements (id : HashGroupId) (replacements : List HashGroupSnapshot)
    (plan : HashGroupMutationPlan) : StatusOr HashGroupMutationPlan :=
  if 1 < replacements.length then do
    refuseIf (maxU32 - plan.root.groupCount.toNat < replacements.length - 1)
      .outOfRange "grouped Hash directory exceeds storage limit"
    .ok { plan with
      root := { plan.root with
        groupCount := plan.root.groupCount + UInt32.ofNat (replacements.length - 1) }
      writes := plan.writes ++
        { incarnation := plan.root.incarnation, id, retired := true } :: replacements }
  else .ok { plan with writes := plan.writes ++ replacements }

def planGroup (groups : OrderedMap HashGroupId HashGroupSnapshot) (targetBytes : Nat)
    (plan : HashGroupMutationPlan) (changed : HashGroupId × Unit) :
    StatusOr HashGroupMutationPlan :=
  match groups.get changed.1 with
  | none => .ok plan
  | some group => do
    let replacements ← splitHashGroup digestOf group dir.root.seed targetBytes
    writeReplacements changed.1 replacements plan

def countFields (plan : HashGroupMutationPlan) : StatusOr HashGroupMutationPlan :=
  if kind = .delete then
    .ok { plan with root := { plan.root with
      fieldCount := plan.root.fieldCount - UInt64.ofNat plan.affectedFields } }
  else do
    refuseIf (maxU32 - plan.root.fieldCount.toNat < plan.affectedFields)
      .outOfRange "grouped Hash cardinality exceeds storage limit"
    .ok { plan with root := { plan.root with
      fieldCount := plan.root.fieldCount + UInt64.ofNat plan.affectedFields } }

def planWrites (targetBytes : Nat) (plan : HashGroupMutationPlan) :
    StatusOr HashGroupMutationPlan :=
  if plan.root.fieldCount = 0 then
    .ok { plan with deleteKey := true, root := { plan.root with groupCount := 0 } }
  else scratch.changed.entries.foldlM (planGroup digestOf dir scratch.groups targetBytes) plan

def planHashGroupMutation (loadedGroups : List LoadedHashGroup) (kind : HashGroupMutationKind)
    (fields values : List (List UInt8)) (targetBytes : Nat) : StatusOr HashGroupMutationPlan := do
  refuseIf ((kind ≠ .delete ∧ fields.length ≠ values.length) ∨ (kind = .delete ∧ values ≠ []) ∨
      targetBytes < compactHeaderBytes)
    .invalidArgument "invalid grouped Hash mutation operands"
  let groups ← loadedGroups.foldlM (loadGroup digestOf dir) .empty
  let scratch ← (operands kind fields values).foldlM (mutateField digestOf dir kind) { groups }
  let plan : HashGroupMutationPlan :=
    { root := dir.root
      expectedSequence := dir.sequence
      affectedFields := scratch.affected
      changed := decide (scratch.changed.entries ≠ []) }
  if plan.changed = false then .ok plan
  else do
    let counted ← countFields kind plan
    planWrites digestOf dir scratch targetBytes counted

end Digest

end Lavik.Storage
