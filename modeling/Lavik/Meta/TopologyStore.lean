import Mathlib.Data.Fintype.Basic
import Lavik.Base.AssocMap
import Lavik.Meta.Commands
/-!
# The topology store

Every operation validates before it changes anything. The authority of a group is its term and the
grant active in it; only `beginGroupTerm` and `activateAuthority` change it.
-/

namespace Lavik.Meta

open Base

def maxGroups : Nat := 512

def maxSlotRangeCount : Nat := 16384

def maxClusterFailureSummaryBytes : Nat := 512

inductive ClusterLifecycle where
  | uninitialized
  | creating
  | created
  | provisioningFailed
deriving DecidableEq

structure ClusterLifecycleState where
  state : ClusterLifecycle := .uninitialized
  rootOperationId : Identity := zeroes 16
  genesisCommitIndex : UInt64 := 0
  failureSummary : String := ""
deriving DecidableEq

structure GroupRecord where
  owner : String := ""
  groupTerm : UInt64 := 0
  populationManifestRevision : UInt64 := 0
  populationManifestDigest : Hash256 := zeroes 32
  partitionReplicationEpoch : UInt64 := 0
deriving DecidableEq

structure MemberState where
  assignmentId : Identity
  role : NodeRole
deriving DecidableEq

structure GroupState where
  record : GroupRecord := {}
  authorityActive : Bool := false
  activationActionId : Option Identity := none
  failoverTransition : Option FailoverTransition := none
  revision : UInt64 := 0
  members : AssocMap String MemberState := []
deriving DecidableEq

@[ext] structure ActiveAuthority where
  owner : String
  activationActionId : Option Identity
deriving DecidableEq

structure GroupAuthority where
  groupTerm : UInt64 := 0
  grant : Option ActiveAuthority := none
deriving DecidableEq

def GroupState.authority (group : GroupState) : GroupAuthority where
  groupTerm := group.record.groupTerm
  grant := if group.authorityActive then some ⟨group.record.owner, group.activationActionId⟩
    else none

@[ext] structure TopologyStore where
  groups : AssocMap String GroupState := []
  groupOfNode : AssocMap String String := []
  lastAssignmentByNode : AssocMap String Identity := []
  slots : Fin slotCount → String := fun _ => ""
  topologyEpoch : UInt64 := 0
  clusterLifecycle : ClusterLifecycleState := {}

namespace TopologyStore

variable (store : TopologyStore) (groupId : String)

def checkGroupId : Except String Unit :=
  require (groupId != "" && groupId.utf8ByteSize ≤ maxGroupIdBytes) "group_id empty or over cap"

def checkNodeId (nodeId : String) : Except String Unit :=
  require (nodeId != "" && nodeId.utf8ByteSize ≤ nodeIdBytes) "node_id empty or over cap"

def checkNextTopologyEpoch (current newEpoch : UInt64) : Except String Unit :=
  require (current != maxU64 && newEpoch == current + 1)
    s!"new_topology_epoch must be exactly current+1 ({current})"

def knownGroup : Except String GroupState :=
  match store.groups.get groupId with
  | some group => .ok group
  | none => .error s!"unknown group {groupId}"

def setGroup (group : GroupState) : TopologyStore :=
  { store with groups := store.groups.set groupId group }

def printable (text : String) : Bool :=
  text.toUTF8.toList.all fun byte => 0x20 ≤ byte && byte ≤ 0x7e

/-! ## Cluster lifecycle -/

def lifecycleValid (lifecycle : ClusterLifecycleState) : Bool :=
  match lifecycle.state with
  | .uninitialized =>
    isZero lifecycle.rootOperationId && lifecycle.genesisCommitIndex == 0 &&
      lifecycle.failureSummary == ""
  | .creating | .created =>
    !isZero lifecycle.rootOperationId && lifecycle.genesisCommitIndex != 0 &&
      lifecycle.failureSummary == ""
  | .provisioningFailed =>
    !isZero lifecycle.rootOperationId && lifecycle.genesisCommitIndex != 0 &&
      lifecycle.failureSummary != "" &&
      lifecycle.failureSummary.utf8ByteSize ≤ maxClusterFailureSummaryBytes &&
      printable lifecycle.failureSummary

variable (rootOperationId : Identity)

def beginClusterCreate (genesisCommitIndex : UInt64) : Except String TopologyStore := do
  require (!isZero rootOperationId) "cluster create root operation id is zero"
  require (genesisCommitIndex != 0) "cluster Genesis commit index is zero"
  let lifecycle := store.clusterLifecycle
  if lifecycle.state ≠ .uninitialized ∧ lifecycle.rootOperationId = rootOperationId ∧
      lifecycle.genesisCommitIndex = genesisCommitIndex ∧ lifecycleValid lifecycle then .ok store
  else do
    require (lifecycle.state == .uninitialized) "cluster has already accepted creation"
    .ok { store with clusterLifecycle := { lifecycle with
      state := .creating, rootOperationId, genesisCommitIndex } }

def completeClusterCreate : Except String TopologyStore :=
  let lifecycle := store.clusterLifecycle
  if lifecycle.state = .created ∧ lifecycle.rootOperationId = rootOperationId ∧
      lifecycle.failureSummary = "" then .ok store
  else do
    require (lifecycle.state == .creating && lifecycle.rootOperationId == rootOperationId)
      "cluster create completion does not match the active root"
    .ok { store with clusterLifecycle := { lifecycle with
      state := .created, failureSummary := "" } }

def failClusterCreate (failureSummary : String) : Except String TopologyStore := do
  require (failureSummary != "" &&
      failureSummary.utf8ByteSize ≤ maxClusterFailureSummaryBytes && printable failureSummary)
    "cluster failure summary is empty, unsafe, or over cap"
  let lifecycle := store.clusterLifecycle
  if lifecycle.state = .provisioningFailed ∧ lifecycle.rootOperationId = rootOperationId ∧
      lifecycle.failureSummary = failureSummary then .ok store
  else do
    require (lifecycle.state == .creating && lifecycle.rootOperationId == rootOperationId)
      "cluster create failure does not match the active root"
    .ok { store with clusterLifecycle := { lifecycle with
      state := .provisioningFailed, failureSummary } }

/-! ## Groups, membership and slots -/

def createGroup (cmd : CreateGroup) : Except String TopologyStore := do
  checkGroupId cmd.groupId
  match store.groups.get cmd.groupId with
  | some group =>
    if group.revision = 1 ∧ group.members = [] ∧ group.record = {} ∧
        store.topologyEpoch = cmd.newTopologyEpoch then .ok store
    else .error s!"group {cmd.groupId} already exists"
  | none =>
    checkNextTopologyEpoch store.topologyEpoch cmd.newTopologyEpoch
    require (store.groups.length < maxGroups) "group cap reached"
    .ok { store.setGroup cmd.groupId { revision := 1 } with
      topologyEpoch := cmd.newTopologyEpoch }

def checkUnassigned (cmd : AssignNodeToGroup) : Except String Unit :=
  match store.groupOfNode.get cmd.nodeId with
  | none => .ok ()
  | some prior =>
    if prior = cmd.groupId then
      .error s!"node already a member of {cmd.groupId} with another role"
    else .error s!"node already a member of {prior} (one-node-one-group)"

def assignNodeToGroup (cmd : AssignNodeToGroup) : Except String TopologyStore := do
  checkGroupId cmd.groupId
  checkNodeId cmd.nodeId
  require (!isZero cmd.assignmentId) "assignment_id must not be zero"
  let group ← store.knownGroup cmd.groupId
  if group.members.get cmd.nodeId = some ⟨cmd.assignmentId, cmd.role⟩ ∧
      group.revision = cmd.expectedRevision + 1 ∧
      store.topologyEpoch = cmd.newTopologyEpoch then .ok store
  else do
    require (group.revision == cmd.expectedRevision)
      s!"expected_revision CAS conflict on {cmd.groupId}"
    store.checkUnassigned cmd
    require (store.lastAssignmentByNode.get cmd.nodeId != some cmd.assignmentId)
      "remove/re-add must use a new assignment_id"
    require (group.members.length < maxNodes) "group member cap reached"
    checkNextTopologyEpoch store.topologyEpoch cmd.newTopologyEpoch
    .ok { store.setGroup cmd.groupId { group with
            members := group.members.set cmd.nodeId ⟨cmd.assignmentId, cmd.role⟩
            revision := cmd.expectedRevision + 1 } with
      groupOfNode := store.groupOfNode.set cmd.nodeId cmd.groupId
      lastAssignmentByNode := store.lastAssignmentByNode.set cmd.nodeId cmd.assignmentId
      topologyEpoch := cmd.newTopologyEpoch }

def removeNodeFromGroup (cmd : RemoveNodeFromGroup) : Except String TopologyStore := do
  checkGroupId cmd.groupId
  checkNodeId cmd.nodeId
  let group ← store.knownGroup cmd.groupId
  if group.members.get cmd.nodeId = none ∧ group.revision = cmd.expectedRevision + 1 ∧
      store.topologyEpoch = cmd.newTopologyEpoch then .ok store
  else do
    require (group.revision == cmd.expectedRevision)
      s!"expected_revision CAS conflict on {cmd.groupId}"
    require (group.members.get cmd.nodeId).isSome s!"node not a member of {cmd.groupId}"
    checkNextTopologyEpoch store.topologyEpoch cmd.newTopologyEpoch
    .ok { store.setGroup cmd.groupId { group with
            members := group.members.erase cmd.nodeId
            revision := cmd.expectedRevision + 1 } with
      groupOfNode := store.groupOfNode.erase cmd.nodeId
      topologyEpoch := cmd.newTopologyEpoch }

def checkRange (range : SlotAssignment) : Except String Unit := do
  require (range.firstSlot ≤ range.lastSlot && range.lastSlot.toNat < slotCount)
    "slot range out of bounds"
  checkGroupId range.groupId

def rangesApart (ranges : List SlotAssignment) : Bool :=
  let sorted := ranges.mergeSort fun left right => left.firstSlot ≤ right.firstSlot
  (sorted.zip sorted.tail).all fun neighbours => neighbours.1.lastSlot < neighbours.2.firstSlot

def slotMap (ranges : List SlotAssignment) (slot : Fin slotCount) : String :=
  ranges.foldl (fun owner range =>
    if range.firstSlot.toNat ≤ slot.val ∧ slot.val ≤ range.lastSlot.toNat then range.groupId
    else owner) ""

def setSlotMap (cmd : SetSlotMap) : Except String TopologyStore := do
  require (cmd.ranges.length ≤ maxSlotRangeCount) "slot map field count over cap"
  cmd.ranges.forM checkRange
  require (rangesApart cmd.ranges) "overlapping slot ranges"
  if store.topologyEpoch = cmd.newTopologyEpoch ∧ slotMap cmd.ranges = store.slots then
    .ok store
  else do
    checkNextTopologyEpoch store.topologyEpoch cmd.newTopologyEpoch
    cmd.ranges.forM fun range => require (store.groups.get range.groupId).isSome
      s!"slot range references unknown group {range.groupId}"
    .ok { store with
      slots := slotMap cmd.ranges
      topologyEpoch := cmd.newTopologyEpoch }

def advancesByAtMostOne (expected next : UInt64) : Bool :=
  next == expected || (expected != maxU64 && next == expected + 1)

def setGroupReplicationState (cmd : SetGroupReplicationState) :
    Except String TopologyStore := do
  checkGroupId cmd.groupId
  let group ← store.knownGroup cmd.groupId
  let record := group.record
  if record.populationManifestRevision = cmd.newPopulationManifestRevision ∧
      record.populationManifestDigest = cmd.newPopulationManifestDigest ∧
      record.partitionReplicationEpoch = cmd.newPartitionReplicationEpoch ∧
      store.topologyEpoch = cmd.newTopologyEpoch then .ok store
  else do
    require (record.populationManifestRevision == cmd.expectedPopulationManifestRevision &&
        record.populationManifestDigest == cmd.expectedPopulationManifestDigest &&
        record.partitionReplicationEpoch == cmd.expectedPartitionReplicationEpoch)
      "group replication-state CAS conflict"
    require (advancesByAtMostOne cmd.expectedPopulationManifestRevision
        cmd.newPopulationManifestRevision &&
        advancesByAtMostOne cmd.expectedPartitionReplicationEpoch cmd.newPartitionReplicationEpoch)
      "group replication fields must stay unchanged or advance by one"
    require ((cmd.expectedPopulationManifestRevision == 0) ==
          isZero cmd.expectedPopulationManifestDigest && (cmd.newPopulationManifestRevision == 0) ==
          isZero cmd.newPopulationManifestDigest)
      "manifest revision zero must have the zero digest and vice versa"
    require (!(cmd.newPopulationManifestRevision == cmd.expectedPopulationManifestRevision &&
        cmd.newPopulationManifestDigest != cmd.expectedPopulationManifestDigest))
      "manifest digest cannot change without a revision advance"
    require (!(cmd.newPopulationManifestRevision == cmd.expectedPopulationManifestRevision &&
        cmd.newPartitionReplicationEpoch == cmd.expectedPartitionReplicationEpoch))
      "group replication update has no effect"
    checkNextTopologyEpoch store.topologyEpoch cmd.newTopologyEpoch
    .ok { store.setGroup cmd.groupId { group with record := { record with
            populationManifestRevision := cmd.newPopulationManifestRevision
            populationManifestDigest := cmd.newPopulationManifestDigest
            partitionReplicationEpoch := cmd.newPartitionReplicationEpoch } } with
      topologyEpoch := cmd.newTopologyEpoch }

def populationManifestInUse (manifestDigest : Hash256) : Bool :=
  store.groups.any fun entry => entry.2.record.populationManifestRevision != 0 &&
    entry.2.record.populationManifestDigest == manifestDigest

def validateTopologyEpoch (newTopologyEpoch : UInt64) : Except String Unit :=
  if newTopologyEpoch = store.topologyEpoch then .ok ()
  else checkNextTopologyEpoch store.topologyEpoch newTopologyEpoch

def setTopologyEpoch (newTopologyEpoch : UInt64) : Except String TopologyStore := do
  store.validateTopologyEpoch newTopologyEpoch
  .ok { store with topologyEpoch := newTopologyEpoch }

/-! ## Failover transitions -/

variable (expected : FailoverTransitionRef)

def checkTransitionRef : Except String Unit :=
  require (!isZero expected.transitionId && expected.revision != 0)
    "invalid failover transition reference"

def installFailoverTransition (transition : FailoverTransition) (committedIndex : UInt64) :
    Except String TopologyStore := do
  let group ← store.knownGroup groupId
  require (committedIndex != 0) "failover transition revision is zero"
  let installed := { transition with revision := committedIndex }
  validateFailoverTransition installed
  if group.failoverTransition = some installed then .ok store
  else do
    require group.failoverTransition.isNone "group already has a failover transition"
    .ok (store.setGroup groupId { group with failoverTransition := some installed })

def checkReplacement (current : Option FailoverTransition) (expected : FailoverTransitionRef)
    (installed : FailoverTransition) : Except String Unit :=
  match current with
  | none => .error "group has no active failover transition"
  | some current => do
    require (current.transitionId == expected.transitionId &&
      current.revision == expected.revision) "stale failover transition reference"
    require (current.revision < installed.revision)
      "failover transition revision must strictly increase"
    require (current.recoveryDeadlineUnixMs.isNone ||
        installed.recoveryDeadlineUnixMs == current.recoveryDeadlineUnixMs)
      "failover recovery deadline is immutable"

def replaceFailoverTransition (replacement : FailoverTransition) (committedIndex : UInt64) :
    Except String TopologyStore := do
  let group ← store.knownGroup groupId
  checkTransitionRef expected
  require (committedIndex != 0) "failover transition revision is zero"
  let installed := { replacement with revision := committedIndex }
  require (installed.transitionId == expected.transitionId)
    "failover replacement cannot change transition identity"
  validateFailoverTransition installed
  if group.failoverTransition = some installed then .ok store
  else do
    checkReplacement group.failoverTransition expected installed
    .ok (store.setGroup groupId { group with failoverTransition := some installed })

def clearFailoverTransition : Except String TopologyStore := do
  let group ← store.knownGroup groupId
  checkTransitionRef expected
  match group.failoverTransition with
  | none => .ok store
  | some current => do
    require (current.transitionId == expected.transitionId &&
      current.revision == expected.revision) "stale failover transition reference"
    .ok (store.setGroup groupId { group with failoverTransition := none })

/-! ## Terms and grants -/

/-- `MetaTopologyStore::BeginGroupTerm`: the next term starts without a grant. A replay finds the
new term still without one. -/
def beginGroupTerm (cmd : BeginGroupTerm) : Except String TopologyStore :=
  match store.groups.get cmd.groupId with
  | none => .error "unknown group"
  | some group => do
    require (cmd.expectedTerm != maxU64 && cmd.newTerm == cmd.expectedTerm + 1)
      "new term must be exactly expected term + 1"
    if group.record.groupTerm ≠ cmd.expectedTerm then
      if group.record.groupTerm = cmd.newTerm ∧ group.authorityActive = false then .ok store
      else .error "expected term does not match current term"
    else .ok (store.setGroup cmd.groupId { group with
      record := { group.record with groupTerm := cmd.newTerm }
      authorityActive := false
      activationActionId := none })

def checkActivate (group : GroupState) (cmd : ActivateAuthority) (action : Option Identity) :
    Except String Unit := do
  require (cmd.expectedTerm != 0 && group.record.groupTerm == cmd.expectedTerm)
    "authority requires the current nonzero term"
  require (cmd.newOwner != "" && cmd.newOwner.utf8ByteSize ≤ nodeIdBytes) "invalid authority owner"
  require (!group.authorityActive || (group.record.owner == cmd.newOwner &&
      group.activationActionId == action))
    "group term already has an active grant"

def validateActivate (cmd : ActivateAuthority) (action : Option Identity) :
    Except String GroupState := do
  require (action.all fun id => !isZero id) "failover activation action id is zero"
  match store.groups.get cmd.groupId with
  | none => .error "unknown group"
  | some group => do
    checkActivate group cmd action
    .ok group

def activateAuthority (cmd : ActivateAuthority) (action : Option Identity) :
    Except String TopologyStore := do
  let group ← store.validateActivate cmd action
  .ok (store.setGroup cmd.groupId { group with
    record := { group.record with owner := cmd.newOwner }
    authorityActive := true
    activationActionId := action })

def authorityFor : Option GroupAuthority :=
  (store.groups.get groupId).map GroupState.authority

/-- The authority of a group, where a group not created yet is at term zero without a grant: the
state its creation gives it. -/
def authority : GroupAuthority :=
  (store.authorityFor groupId).getD {}

end TopologyStore

/-! ## What operations do to authority -/

namespace GroupAuthority

def Keeps (before after : GroupAuthority) : Prop := after = before

/-- The term advanced by one and no grant is active in it, or nothing happened. -/
def Fences (before after : GroupAuthority) : Prop :=
  after = before ∨
    (before.groupTerm ≠ maxU64 ∧ after = { groupTerm := before.groupTerm + 1, grant := none })

/-- A grant was given in the current term, which had none, or nothing happened. -/
def Grants (before after : GroupAuthority) : Prop :=
  after = before ∨ (before.grant = none ∧ ∃ grant, after = { before with grant := some grant })

/-- What one committed command may do to the authority of a group: advance the term by one, which
clears the grant, and then give a grant in a term without one. -/
def Moves (before after : GroupAuthority) : Prop :=
  ∃ middle, before.Fences middle ∧ middle.Grants after

variable {before after : GroupAuthority}

theorem Keeps.moves (kept : before.Keeps after) : before.Moves after :=
  ⟨before, .inl rfl, .inl kept⟩

theorem Fences.moves (fenced : before.Fences after) : before.Moves after :=
  ⟨after, fenced, .inl rfl⟩

theorem Grants.moves (granted : before.Grants after) : before.Moves after :=
  ⟨before, .inl rfl, granted⟩

end GroupAuthority

namespace TopologyStore

variable {store : TopologyStore} {groupId : String}

theorem authority_of_get {group : GroupState} (found : store.groups.get groupId = some group) :
    store.authority groupId = group.authority := by
  simp [authority, authorityFor, found]

theorem authority_congr {after : TopologyStore}
    (same : after.groups.get groupId = store.groups.get groupId) :
    after.authority groupId = store.authority groupId := by
  simp [authority, authorityFor, same]

end TopologyStore

end Lavik.Meta
