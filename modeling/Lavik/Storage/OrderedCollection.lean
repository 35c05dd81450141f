import Lavik.Storage.GroupedHash
import Lavik.Storage.RecordCodec
/-!
# Ordered collections

A large List or Sorted Set is kept in pages that are linked in both directions. Recovery takes the
latest committed record of every page and has to meet every page that is not retired exactly once.
A Sorted Set may carry a grouped hash from its members to their scores.
-/

namespace Lavik.Storage

open Base

/-! ## Scores -/

abbrev Score := UInt64

namespace Score

def magnitude (score : Score) : UInt64 := score &&& 0x7fffffffffffffff

def isNan (score : Score) : Bool := 0x7ff0000000000000 < score.magnitude

def rank (score : Score) : Int :=
  if score >>> 63 = 0 then score.magnitude.toNat else -score.magnitude.toNat

def less (left right : Score) : Bool := !left.isNan && !right.isNan && left.rank < right.rank

def same (left right : Score) : Bool := !left.isNan && !right.isNan && left.rank = right.rank

end Score

/-! ## Roots, entries and pages -/

inductive OrderedCollectionKind
  | list
  | sortedSet
deriving DecidableEq, Repr

structure OrderedCollectionEntry where
  value : List UInt8
  score : Score := 0
deriving DecidableEq, Repr, Inhabited

def orderedEntryLess (left right : OrderedCollectionEntry) : Bool :=
  left.score.less right.score || (left.score.same right.score && decide (left.value < right.value))

structure OrderedCollectionRoot where
  kind : OrderedCollectionKind
  incarnation : Nat
  itemCount : Nat
  firstGroup : Nat
  lastGroup : Nat
  nextGroupId : Nat
  groupCount : Nat
  revision : Nat := 0
  memberIndex : Option GroupedHashRoot := none
deriving DecidableEq

def OrderedCollectionRoot.validMembers (root : OrderedCollectionRoot) : Bool :=
  root.memberIndex.all fun members =>
    root.kind = .sortedSet && members.incarnation = root.incarnation &&
      members.fieldCount.toNat = root.itemCount && members.revision ≠ 0 &&
      members.revision ≤ root.revision

def OrderedCollectionRoot.valid (root : OrderedCollectionRoot) : Bool :=
  root.validMembers && root.incarnation ≠ 0 && root.itemCount ≠ 0 && root.itemCount ≤ maxU32 &&
    root.groupCount ≠ 0 && root.groupCount ≤ root.itemCount && root.firstGroup ≠ 0 &&
    root.lastGroup ≠ 0 && root.firstGroup < root.nextGroupId &&
    root.lastGroup < root.nextGroupId &&
    (root.groupCount = 1 ↔ root.firstGroup = root.lastGroup)

structure OrderedGroupSnapshot where
  kind : OrderedCollectionKind
  incarnation : Nat
  id : Nat
  previous : Nat := 0
  next : Nat := 0
  retired : Bool := false
  entries : List OrderedCollectionEntry := []
deriving DecidableEq, Repr

structure RecoveredOrderedGroup where
  incarnation : Nat
  id : Nat
  previous : Nat
  next : Nat
  sequence : Nat
  lsn : Nat
  txid : Nat
  batchTxid : Nat
  itemCount : Nat
  recordToken : Nat
  retired : Bool
  minScore : Score
  maxScore : Score
deriving DecidableEq, Repr, Inhabited

def sameMetadata (left right : RecoveredOrderedGroup) : Bool :=
  left.previous = right.previous && left.next = right.next && left.itemCount = right.itemCount &&
    left.retired = right.retired && left.minScore = right.minScore && left.maxScore = right.maxScore

structure OrderedGroupDirectory where
  root : OrderedCollectionRoot
  sequence : Nat
  commandSequence : Nat
  groups : List RecoveredOrderedGroup
  retired : List RecoveredOrderedGroup
  ids : List (Nat × Nat)
  ends : List Nat
  members : Option HashGroupDirectory

namespace OrderedGroupDirectory

/-! ## Recovery -/

variable (root : OrderedCollectionRoot)

/-- Candidates that recovery passes over: another incarnation, a later revision, or a transaction
that is not committed. -/
def excluded (rootSequence : Nat) (committed : List Nat) (candidate : RecoveredOrderedGroup) :
    Bool :=
  candidate.incarnation ≠ root.incarnation || rootSequence < candidate.sequence ||
    (candidate.txid ≠ 0 && !committed.contains candidate.txid) ||
    (candidate.batchTxid ≠ 0 && !committed.contains candidate.batchTxid)

def checkCandidate (candidate : RecoveredOrderedGroup) : StatusOr Unit :=
  refuseIf (candidate.id = 0 ∨ root.nextGroupId ≤ candidate.id ∨ candidate.sequence = 0 ∨
      candidate.lsn = 0 ∨ candidate.recordToken = 0 ∨ (if candidate.retired
        then candidate.itemCount ≠ 0 ∨ candidate.previous ≠ 0 ∨ candidate.next ≠ 0
        else candidate.itemCount = 0) ∨
      candidate.minScore.isNan = true ∨ candidate.maxScore.isNan = true ∨
      candidate.maxScore.less candidate.minScore = true)
    .dataLoss "invalid recovered ordered page"

/-- The winner of a page has the highest sequence, then the highest LSN. Copies of one version must
have the same metadata. -/
def winnerReader (rootSequence : Nat) (committed : List Nat) :
    LatestReader RecoveredOrderedGroup Nat (Nat ×ₗ Nat) Status where
  identity := RecoveredOrderedGroup.id
  version := fun candidate => toLex (candidate.sequence, candidate.lsn)
  skips := excluded root rootSequence committed
  check := checkCandidate root
  conflicts := fun candidate previous =>
    candidate.sequence = previous.sequence && !sameMetadata candidate previous
  conflict := ⟨.dataLoss, "conflicting ordered page relocation"⟩

variable (winners : OrderedMap Nat RecoveredOrderedGroup)

def activeWinners : OrderedMap Nat RecoveredOrderedGroup :=
  winners.entries.foldl (fun active winner =>
    if winner.2.retired then active.erase winner.1 else active) winners

def retiredWinners : List RecoveredOrderedGroup :=
  (winners.entries.filter fun winner => winner.2.retired).map Prod.snd

structure Walk where
  left : OrderedMap Nat RecoveredOrderedGroup
  previous : Nat := 0
  count : Nat := 0
  groups : List RecoveredOrderedGroup := []
  ids : List (Nat × Nat) := []
  ends : List Nat := []

def Walk.meet (walk : Walk) (page : RecoveredOrderedGroup) : Walk where
  left := walk.left.erase page.id
  previous := page.id
  count := walk.count + page.itemCount
  groups := walk.groups ++ [page]
  ids := walk.ids ++ [(page.id, walk.groups.length)]
  ends := walk.ends ++ [walk.count + page.itemCount]

def brokenChain : Status := ⟨.dataLoss, "broken ordered page chain or count"⟩

/-- The loop over the links. Every page that is met is erased, so the pages that are left bound the
walk. -/
def follow (root : OrderedCollectionRoot) : Nat → Nat → Walk → StatusOr Walk
  | 0, id, walk => if id = 0 then .ok walk else .error brokenChain
  | bound + 1, id, walk =>
    if id = 0 then .ok walk
    else
      match walk.left.get id with
      | none => .error brokenChain
      | some page => do
        refuseIf (page.previous ≠ walk.previous ∨ root.itemCount - walk.count < page.itemCount)
          .dataLoss "broken ordered page chain or count"
        refuseIf (root.kind = .sortedSet ∧
            walk.groups.getLast?.any (fun back => page.minScore.less back.maxScore) = true)
          .dataLoss "unordered recovered Sorted Set score bounds"
        follow root bound page.next (walk.meet page)

def sortIds (ids : List (Nat × Nat)) : List (Nat × Nat) :=
  ids.mergeSort fun left right => left.1 < right.1 || (left.1 = right.1 && left.2 ≤ right.2)

def recover (rootSequence : Nat) (candidates : List RecoveredOrderedGroup) (committed : List Nat)
    (commandSequence : Nat) (members : Option HashGroupDirectory) :
    StatusOr OrderedGroupDirectory := do
  refuseIf (members.map HashGroupDirectory.root ≠ root.memberIndex)
    .dataLoss "Sorted Set member directory/root mismatch"
  refuseIf (root.valid = false ∨ rootSequence = 0 ∨
      (root.revision ≠ 0 ∧ root.revision ≠ rootSequence))
    .dataLoss "invalid ordered root recovery identity"
  let winners ← (winnerReader root rootSequence committed).collect candidates
  let active := activeWinners winners
  refuseIf (active.size ≠ root.groupCount) .dataLoss "ordered root/page count mismatch"
  let walk ← follow root active.size root.firstGroup { left := active }
  refuseIf (walk.left.entries ≠ [] ∨ walk.previous ≠ root.lastGroup ∨ walk.count ≠ root.itemCount)
    .dataLoss "disconnected ordered pages or aggregate mismatch"
  .ok
    { root := { root with revision := rootSequence }
      sequence := rootSequence
      commandSequence := if commandSequence = 0 then rootSequence else commandSequence
      groups := walk.groups
      retired := retiredWinners winners
      ids := sortIds walk.ids
      ends := walk.ends
      members := members }

/-! ## Lookup -/

def find (dir : OrderedGroupDirectory) (id : Nat) : Option RecoveredOrderedGroup :=
  match dir.ids.find? (fun item => id ≤ item.1) with
  | none => none
  | some found => if found.1 = id then dir.groups[found.2]? else none

def findRecord (dir : OrderedGroupDirectory) (id : Nat) : Option RecoveredOrderedGroup :=
  match dir.find id with
  | some active => some active
  | none =>
    match dir.retired.find? (fun item => id ≤ item.id) with
    | none => none
    | some found => if found.id = id then some found else none

structure Position where
  groupIndex : Nat
  offset : Nat
deriving DecidableEq, Repr, Inhabited

def findRank (dir : OrderedGroupDirectory) (rank : Nat) : Option Position :=
  if dir.root.itemCount ≤ rank then none
  else
    let index := dir.ends.findIdx (rank < ·)
    some ⟨index, rank - if index = 0 then 0 else dir.ends.getD (index - 1) 0⟩

/-! ## Updates -/

def settled (item : RecoveredOrderedGroup) : RecoveredOrderedGroup :=
  { item with txid := 0, batchTxid := 0 }

def appendChanges (dir : OrderedGroupDirectory) (revision : Nat) :
    List Nat → List RecoveredOrderedGroup → StatusOr (List RecoveredOrderedGroup)
  | _, [] => .ok []
  | ids, item :: rest => do
    refuseIf (item.sequence ≠ revision ∨ item.id ∈ ids ∨
        ((dir.findRecord item.id).any RecoveredOrderedGroup.retired = true ∧ item.retired = false))
      .dataLoss "invalid ordered changed page identity"
    let appended ← appendChanges dir revision (item.id :: ids) rest
    .ok (settled item :: appended)

def applyMembers (memory : RoutingMemory) (members : Option HashGroupDirectory)
    (memberIndex : Option GroupedHashRoot) (commandSequence : Nat)
    (memberChanges : List RecoveredHashGroup) : StatusOr (Option HashGroupDirectory) := do
  refuseIf (memberIndex.isSome ≠ members.isSome)
    .failedPrecondition "cannot change member index format"
  match members, memberIndex with
  | some current, some index =>
    if current.root ≠ index then do
      let updated ← current.apply memory index commandSequence memberChanges
      .ok (some updated)
    else do
      refuseIf (memberChanges ≠ []) .dataLoss "member writes without a new member revision"
      .ok members
  | _, _ => do
    refuseIf (memberChanges ≠ []) .dataLoss "member writes without a new member revision"
    .ok members

def apply (memory : RoutingMemory) (dir : OrderedGroupDirectory)
    (root : OrderedCollectionRoot) (revision : Nat) (changed : List RecoveredOrderedGroup)
    (commandSequence : Nat) (memberChanges : List RecoveredHashGroup) :
    StatusOr OrderedGroupDirectory := do
  refuseIf (root.kind ≠ dir.root.kind ∨ root.incarnation ≠ dir.root.incarnation ∨
      revision ≤ dir.sequence ∨ commandSequence < dir.commandSequence ∨
      root.nextGroupId < dir.root.nextGroupId)
    .failedPrecondition "stale ordered directory update"
  let appended ← appendChanges dir revision [] changed
  let members ← applyMembers memory dir.members root.memberIndex commandSequence memberChanges
  recover root revision (dir.groups.map settled ++ dir.retired.map settled ++ appended) []
    commandSequence members

end OrderedGroupDirectory

end Lavik.Storage
