import Mathlib.Data.Prod.Lex
import Mathlib.Data.Vector.Basic
import Lavik.Base.Latest
import Lavik.Base.Status
import Lavik.Base.WordRange
/-!
# Directory of a grouped hash

Every group owns the fields whose seeded digest starts with its high bits, and the directory routes
a field to its group by the floor of its digest. Updates never look at the routes they do not touch:
they keep a field count and the width of all routes by differences, and look for overlaps next to
the changed groups only.
-/

namespace Lavik.Storage

open Base

abbrev DigestSeed := List.Vector UInt8 16

def maxU32 : Nat := 0xffffffff

structure HashGroupId where
  prefixWord : UInt64 := 0
  bits : UInt8 := 0
deriving DecidableEq, Repr

namespace HashGroupId

variable (id : HashGroupId)

def toPair : UInt64 ×ₗ UInt8 := toLex (id.prefixWord, id.bits)

theorem toPair_injective : Function.Injective toPair := by
  intro left right same
  have words : (left.prefixWord, left.bits) = (right.prefixWord, right.bits) := same
  cases left
  cases right
  simp_all

instance linearOrder : LinearOrder HashGroupId :=
  letI := uint8Order
  LinearOrder.lift' toPair toPair_injective

def valid : Bool :=
  id.bits ≤ 64 && id.prefixWord &&& ~~~highMask id.bits.toNat = 0

def contains (hash : UInt64) : Bool :=
  id.valid && hash &&& highMask id.bits.toNat = id.prefixWord

def last : UInt64 :=
  if id.valid then id.prefixWord ||| ~~~highMask id.bits.toNat else 0

end HashGroupId

structure GroupedHashRoot where
  incarnation : Nat
  seed : DigestSeed
  fieldCount : UInt64
  groupCount : UInt32
  revision : Nat
deriving DecidableEq

def GroupedHashRoot.valid (root : GroupedHashRoot) : Bool :=
  root.incarnation ≠ 0 && root.revision ≠ 0 && root.groupCount ≠ 0 && root.fieldCount ≠ 0 &&
    root.fieldCount.toNat ≤ maxU32

theorem GroupedHashRoot.valid_iff {root : GroupedHashRoot} :
    root.valid = true ↔ root.incarnation ≠ 0 ∧ root.revision ≠ 0 ∧ root.groupCount ≠ 0 ∧
      root.fieldCount ≠ 0 ∧ root.fieldCount.toNat ≤ maxU32 := by
  simp [valid, and_assoc]

structure RecoveredHashGroup where
  incarnation : Nat
  id : HashGroupId
  sequence : Nat
  lsn : Nat
  txid : Nat
  batchTxid : Nat
  fieldCount : UInt64
  retired : Bool
deriving DecidableEq, Repr

inductive RoutingUpdate
  | insert
  | retire
  | erase
deriving DecidableEq, Repr

/-- Whether `TryReserveMemory` grants the nodes of an update of one group. Other workers reserve
from the same budget, so every answer is possible. -/
abbrev RoutingMemory := RoutingUpdate → HashGroupId → Bool

def reserved {Map : Type} (memory : RoutingMemory) (update : RoutingUpdate) (id : HashGroupId)
    (updated : Map) : StatusOr Map :=
  if memory update id then .ok updated
  else .error ⟨.resourceExhausted, "OOM group routing exceeds maxmemory"⟩

structure HashGroupDirectory where
  root : GroupedHashRoot
  sequence : Nat
  commandSequence : Nat
  groups : OrderedMap UInt64 RecoveredHashGroup
  retired : OrderedMap HashGroupId RecoveredHashGroup

namespace HashGroupDirectory

/-! ## Recovery -/

variable (memory : RoutingMemory) (dir : HashGroupDirectory) (root : GroupedHashRoot)

/-- The candidates of another incarnation, of a later revision, or of a transaction or a command
batch that did not commit. -/
def excluded (committed : List Nat) (candidate : RecoveredHashGroup) : Bool :=
  candidate.incarnation ≠ root.incarnation || root.revision < candidate.sequence ||
    (candidate.txid ≠ 0 && !committed.contains candidate.txid) ||
    (candidate.batchTxid ≠ 0 && !committed.contains candidate.batchTxid)

def checkCandidate (candidate : RecoveredHashGroup) : StatusOr Unit :=
  refuseIf (candidate.id.valid = false ∨ candidate.sequence = 0 ∨
      (candidate.retired = true ∧ candidate.fieldCount ≠ 0) ∨ maxU32 < candidate.fieldCount.toNat)
    .dataLoss "invalid recovered Hash group metadata"

/-- The winner of an identity has the highest sequence, then the highest LSN. Copies of one version
must agree on what they hold. -/
def winnerReader (committed : List Nat) :
    LatestReader RecoveredHashGroup HashGroupId (Nat ×ₗ Nat) Status where
  identity := RecoveredHashGroup.id
  version := fun candidate => toLex (candidate.sequence, candidate.lsn)
  skips := excluded root committed
  check := checkCandidate
  conflicts := fun candidate previous =>
    candidate.sequence = previous.sequence &&
      (candidate.fieldCount ≠ previous.fieldCount || candidate.retired ≠ previous.retired)
  conflict := ⟨.dataLoss, "conflicting Hash group relocation copies"⟩

structure Routes where
  groups : OrderedMap UInt64 RecoveredHashGroup
  retired : OrderedMap HashGroupId RecoveredHashGroup
  count : UInt64

def addRoute (routes : Routes) (id : HashGroupId) (candidate : RecoveredHashGroup) :
    StatusOr Routes := do
  refuseIf (root.fieldCount - routes.count < candidate.fieldCount ∨
      (routes.groups.get id.prefixWord).isSome = true)
    .dataLoss "overlapping Hash groups or invalid count"
  let groups ← reserved memory .insert id (routes.groups.set id.prefixWord candidate)
  .ok { routes with groups, count := routes.count + candidate.fieldCount }

def addWinner (routes : Routes) (winner : HashGroupId × RecoveredHashGroup) : StatusOr Routes :=
  if winner.2.retired then do
    let retired ← reserved memory .retire winner.1 (routes.retired.set winner.1 winner.2)
    .ok { routes with retired }
  else addRoute memory root routes winner.1 winner.2

def lastHash : UInt64 := 0xffffffffffffffff

def checkRoutes : UInt64 → Bool → List (UInt64 × RecoveredHashGroup) → StatusOr Unit
  | _, complete, [] =>
    refuseIf (complete = false) .dataLoss "grouped Hash routing is incomplete"
  | next, complete, (start, candidate) :: rest => do
    refuseIf (complete = true ∨ start ≠ next) .dataLoss "grouped Hash routing has gaps or overlaps"
    if candidate.id.last = lastHash then checkRoutes next true rest
    else checkRoutes (candidate.id.last + 1) false rest

def recover (rootSequence : Nat) (candidates : List RecoveredHashGroup) (committed : List Nat) :
    StatusOr HashGroupDirectory := do
  refuseIf (root.valid = false ∨ rootSequence = 0) .dataLoss "invalid grouped Hash recovery root"
  let winners ← (winnerReader root committed).collect candidates
  let routes ← winners.entries.foldlM (addWinner memory root) ⟨.empty, .empty, 0⟩
  refuseIf (routes.count ≠ root.fieldCount ∨ routes.groups.size ≠ root.groupCount.toNat)
    .dataLoss "grouped Hash recovery aggregate mismatch"
  checkRoutes 0 false routes.groups.entries
  .ok ⟨root, root.revision, rootSequence, routes.groups, routes.retired⟩

/-! ## Lookup -/

def findHash (hash : UInt64) : Option RecoveredHashGroup :=
  match dir.groups.floor hash with
  | some (_, group) => if group.id.contains hash then some group else none
  | none => none

def find (digestOf : DigestSeed → List UInt8 → UInt64) (dir : HashGroupDirectory)
    (field : List UInt8) : Option RecoveredHashGroup :=
  dir.findHash (digestOf dir.root.seed field)

/-! ## Updates -/

structure Staged where
  groups : OrderedMap UInt64 RecoveredHashGroup
  retired : OrderedMap HashGroupId RecoveredHashGroup
  writes : OrderedMap HashGroupId RecoveredHashGroup
  count : UInt64
  coverage : BitVec 128

def rangeCoverage (id : HashGroupId) : BitVec 128 := 1#128 <<< (64 - id.bits.toNat)

variable (staged : Staged)

def releaseRoute (change : RecoveredHashGroup) : StatusOr Staged :=
  match dir.groups.get change.id.prefixWord with
  | none => do
    refuseIf (change.retired = true) .dataLoss "retiring a non-current Hash group"
    .ok staged
  | some current =>
    if current.id = change.id then do
      let groups ← reserved memory .erase change.id (staged.groups.erase change.id.prefixWord)
      .ok { staged with
        groups := groups
        count := staged.count - current.fieldCount
        coverage := staged.coverage - rangeCoverage change.id }
    else do
      refuseIf (change.retired = true) .dataLoss "retiring a non-current Hash group"
      .ok staged

def recordRetirement (change : RecoveredHashGroup) : StatusOr Staged :=
  if change.retired then do
    let retired ← reserved memory .retire change.id (staged.retired.set change.id change)
    .ok { staged with retired }
  else .ok staged

def stageChange (change : RecoveredHashGroup) : StatusOr Staged := do
  refuseIf (change.id.valid = false ∨ change.incarnation ≠ root.incarnation ∨
      change.sequence ≠ root.revision ∨ maxU32 < change.fieldCount.toNat ∨
      (change.retired = true ∧ change.fieldCount ≠ 0) ∨ (staged.writes.get change.id).isSome = true)
    .dataLoss "invalid grouped directory mutation record"
  let released ← releaseRoute memory dir
    { staged with writes := staged.writes.set change.id change } change
  recordRetirement memory released change

def placeRoute (id : HashGroupId) (change : RecoveredHashGroup) : StatusOr Staged := do
  refuseIf ((staged.retired.get id).isSome = true) .dataLoss "resurrecting a retired Hash group"
  refuseIf ((staged.groups.floor id.prefixWord).any (fun floor =>
      decide (id.prefixWord ≤ floor.2.id.last)) = true)
    .dataLoss "group update overlaps an earlier route"
  let groups ← reserved memory .insert id (staged.groups.set id.prefixWord change)
  refuseIf ((groups.after id.prefixWord).any (fun after => decide (after.1 ≤ id.last)) = true)
    .dataLoss "group update overlaps a later route"
  .ok { staged with
    groups := groups
    count := staged.count + change.fieldCount
    coverage := staged.coverage + rangeCoverage id }

def placeChange (write : HashGroupId × RecoveredHashGroup) : StatusOr Staged :=
  if write.2.retired then .ok staged else placeRoute memory staged write.1 write.2

def apply (sequence : Nat) (changes : List RecoveredHashGroup) : StatusOr HashGroupDirectory := do
  refuseIf (root.valid = false ∨ root.incarnation ≠ dir.root.incarnation ∨
      root.seed ≠ dir.root.seed ∨ sequence < dir.commandSequence ∨
      root.revision ≤ dir.sequence ∨ changes = [])
    .failedPrecondition "invalid grouped directory update"
  let staged ← changes.foldlM (stageChange memory dir root)
    ⟨dir.groups, dir.retired, .empty, dir.root.fieldCount, 1#128 <<< 64⟩
  let placed ← staged.writes.entries.foldlM (placeChange memory) staged
  refuseIf (placed.count ≠ root.fieldCount ∨ placed.groups.size ≠ root.groupCount.toNat ∨
      placed.coverage ≠ 1#128 <<< 64)
    .dataLoss "group directory update has gaps or count mismatch"
  .ok ⟨root, root.revision, sequence, placed.groups, placed.retired⟩

end HashGroupDirectory

end Lavik.Storage
