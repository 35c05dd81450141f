import Lavik.Meta.OperationStore
import Lavik.Meta.Stores
import Lavik.Meta.TopologyStore
/-!
# The aggregate of the stores

The facts that span stores and the rollback of a refused command: a command that changes several
records in turn keeps the records it may touch, and a refusal writes them back.
-/

namespace Lavik.Meta

open Base

@[ext] structure Stores where
  identity : IdentityStore := {}
  topology : TopologyStore := {}
  policy : PolicyStore := {}
  operation : OperationStore := {}
  populationManifest : PopulationManifestStore := {}
  audit : AuditStore := {}

/-- The codecs, the size of a snapshot of the stores and the audit summary of a command, which is
a function of the command and its log index alone. -/
structure Environment extends Formats where
  snapshotBytes : Stores → Nat
  summary : Command → UInt64 → String

/-! ## Cross-store facts -/

def clusterCreateOperationKind : String := "cluster-create-workflow-v1"

def clusterCreateV1GroupOperationKind : String := "cluster-create-v1"

def membershipOperationKind : String := "meta-membership-workflow-v1"

def failoverOperationKind : String := "failover"

def failoverCompletedResult : String := "failover-completed"

def clusterCreatedResult : String := "cluster-created"

def automaticFailoverPreemptionReason : String := "preempted by automatic uncontrolled failover"

def maxProjectedDirectives : Nat := 4096

def maxFullDesiredStateBytes : Nat := 512 * 1024 * 1024

def hexDigit (value : UInt8) : Char :=
  Char.ofNat (if value < 10 then 0x30 + value.toNat else 0x57 + value.toNat)

def hexBytes (bytes : List UInt8) : String :=
  String.ofList (bytes.flatMap fun byte => [hexDigit (byte / 16), hexDigit (byte % 16)])

namespace GroupState

variable (group : GroupState)

def isMember (nodeId : String) : Bool := (group.members.get nodeId).isSome

def hasAssignment (nodeId : String) (assignmentId : Identity) : Bool :=
  (group.members.get nodeId).any (·.assignmentId = assignmentId)

def recipients : List String := group.members.map Prod.fst

def anchoredConfiguration (expected : GroupAnchor) : Bool :=
  group.revision == expected.membershipRevision &&
    group.record.populationManifestRevision == expected.populationManifestRevision &&
    group.record.populationManifestDigest == expected.populationManifestDigest &&
    group.record.partitionReplicationEpoch == expected.partitionReplicationEpoch

def anchoredOwner (expected : GroupAnchor) : Bool :=
  group.record.owner == expected.ownerNodeId &&
    group.hasAssignment expected.ownerNodeId expected.ownerAssignmentId

end GroupState

namespace Stores

variable (stores : Stores) (groupId : String)

def findGroup : Option GroupState :=
  stores.topology.groups.get groupId

def validateDirectiveAnchor (directive : DirectiveSpec) : Except String Unit := do
  require (stores.identity.isActiveNode directive.recipientNodeId &&
      stores.identity.isActiveNode directive.targetNodeId &&
      (directive.initializesEmpty || stores.identity.isActiveNode directive.sourceNodeId))
    "directive recipient, source, or target is not active"
  match stores.findGroup directive.groupId with
  | none => .error "directive group does not exist"
  | some group => do
    require group.authority.grant.isSome "directive group has no active authority"
    require (group.hasAssignment directive.targetNodeId directive.assignmentId &&
        (directive.initializesEmpty ||
          group.hasAssignment directive.sourceNodeId directive.sourceAssignmentId))
      "directive membership or assignment is stale"
    require (group.record.groupTerm == directive.groupTerm) "directive authority anchor is stale"
    require (group.record.populationManifestRevision == directive.populationManifestRevision &&
        group.record.populationManifestDigest == directive.populationManifestDigest &&
        group.record.partitionReplicationEpoch == directive.partitionReplicationEpoch)
      "directive population identity is stale"

def staleDirectives (record : OperationRecord) : List CurrentDirective :=
  record.currentDirectives.filter fun current =>
    !(stores.validateDirectiveAnchor current.spec).isOk

def staleKeys : List TerminalReceiptKey :=
  stores.operation.liveOperations.flatMap fun record =>
    (stores.staleDirectives record).map fun current =>
      ⟨record.operationId, current.spec.directiveId, current.spec.attemptId,
        current.directiveRevision⟩

def invalidateStaleCurrentDirectives : Stores :=
  { stores with operation := stores.operation.invalidateCurrentDirectives stores.staleKeys }

def allDirectivesAnchored : Bool :=
  stores.operation.liveOperations.all fun record => (stores.staleDirectives record).isEmpty

def chargeDirective (used : AssocMap String (Nat × Nat)) (spec : DirectiveSpec) :
    Except String (AssocMap String (Nat × Nat)) := do
  let (count, bytes) := (used.get spec.recipientNodeId).getD (0, 0)
  require (count < maxProjectedDirectives) "current directives exceeds its entry cap"
  let charged := bytes + spec.payload.length + spec.groupId.utf8ByteSize + 1024
  require (charged ≤ maxFullDesiredStateBytes / 2) "current directives exceeds its byte budget"
  .ok (used.set spec.recipientNodeId (count + 1, charged))

def validateAffectedNodeControls (formats : Formats) (recipients : List String)
    (stores : Stores) : Except String Unit :=
  if recipients = [] then .ok ()
  else do
    require (stores.policy.hasCurrent formats authorityLeasePolicyId)
      "node control requires the Authority Lease policy"
    let active := stores.operation.liveOperations.filter fun record =>
      !record.lifecycle.isTerminal
    let specs := active.flatMap fun record => record.currentDirectives.map CurrentDirective.spec
    let _ ← (specs.filter fun spec => spec.recipientNodeId ∈ recipients).foldlM chargeDirective []
    .ok ()

def nodeHoldsActiveGrant (nodeId : String) : Bool :=
  (stores.topology.groupOfNode.get nodeId).any fun groupId =>
    (stores.topology.authorityFor groupId).any fun authority =>
      authority.grant.any (·.owner = nodeId)

def groupHasActiveGrant : Bool :=
  (stores.topology.authorityFor groupId).any (·.grant.isSome)

def groupHasActiveFailover : Bool :=
  (stores.findGroup groupId).any (·.failoverTransition.isSome)

def allowsFailover : Bool :=
  stores.topology.clusterLifecycle.state == .created

def validateCandidate (group : GroupState) (action : FailoverCandidateAction) :
    Except String Unit := do
  require (stores.identity.isActiveNode action.candidate.nodeId)
    "failover candidate is not an active node"
  require (group.hasAssignment action.candidate.nodeId action.candidate.assignmentId)
    "failover candidate membership or assignment is stale"

def hasDataClusterArtifacts : Bool :=
  !stores.identity.nodes.isEmpty || !stores.topology.groups.isEmpty ||
    !stores.populationManifest.documents.isEmpty ||
    stores.operation.liveOperations.any fun record =>
      record.kind == clusterCreateOperationKind || record.kind == clusterCreateV1GroupOperationKind

end Stores

/-! ## Consistency of a decoded aggregate -/

namespace OperationRecord

def failoverIntent (record : OperationRecord) (formats : Formats) (groupId : String) :
    Option FailoverOperationIntent :=
  if record.kind = failoverOperationKind ∧ record.intentHash = formats.sha256 record.intent then
    (formats.decodeFailoverOperationIntent record.intent).filter (·.groupId = groupId)
  else none

def pristineFailover (record : OperationRecord) (formats : Formats) : Bool :=
  record.kind == failoverOperationKind && record.lifecycle == .submitted &&
    record.revision == 0 && record.intentHash == formats.sha256 record.intent &&
    record.kindPhaseBlob.isEmpty && record.currentDirectives.isEmpty &&
    record.terminalReceipts.isEmpty && isZero record.replicationHistoryId

def failoverShape (record : OperationRecord) (formats : Formats) : Bool :=
  (formats.decodeFailoverOperationIntent record.intent).isSome &&
    record.intentHash == formats.sha256 record.intent &&
    isZero record.replicationHistoryId && record.kindPhaseBlob.isEmpty &&
    record.currentDirectives.isEmpty && record.terminalReceipts.isEmpty &&
    !record.dataLossPossible &&
    match record.lifecycle with
    | .submitted => record.revision == 0 && record.terminalResult == ""
    | .completed => record.revision == 1 && record.terminalResult == failoverCompletedResult
    | .aborted => record.revision == 1 && record.terminalResult != ""
    | .running => false

def matchesLifecycle (root : OperationRecord) (formats : Formats)
    (lifecycle : ClusterLifecycleState) : Bool :=
  root.operationId == lifecycle.rootOperationId && root.kind == clusterCreateOperationKind &&
    root.operationSeq == lifecycle.genesisCommitIndex &&
    root.intentHash == formats.sha256 root.intent &&
    match formats.decodeClusterCreateRequest root.intent with
    | .ok intentRoot => intentRoot == lifecycle.rootOperationId
    | .error _ => false

end OperationRecord

namespace Stores

variable (stores : Stores) (formats : Formats)

def terminalRootsAgree (expected : OperationLifecycle) : Bool :=
  let lifecycle := stores.topology.clusterLifecycle
  let resultAgrees (result : String) := expected != .completed || result == clusterCreatedResult
  (stores.operation.findOperation lifecycle.rootOperationId).all (fun root =>
      root.matchesLifecycle formats lifecycle && root.lifecycle == expected &&
        resultAgrees root.terminalResult) &&
    (stores.operation.findArchived lifecycle.rootOperationId).all (fun root =>
      root.operationSeq == lifecycle.genesisCommitIndex && root.terminalLifecycle == expected &&
        resultAgrees root.terminalResult) &&
    stores.operation.liveOperations.all fun record =>
      record.kind != clusterCreateOperationKind ||
        (record.operationId == lifecycle.rootOperationId && record.lifecycle.isTerminal)

def lifecycleConsistent : Bool :=
  let lifecycle := stores.topology.clusterLifecycle
  match lifecycle.state with
  | .uninitialized => true
  | .creating =>
    (stores.operation.findOperation lifecycle.rootOperationId).any (fun root =>
      root.matchesLifecycle formats lifecycle && !root.lifecycle.isTerminal) &&
    (stores.operation.liveOperations.filter (·.kind = clusterCreateOperationKind)).length == 1
  | .created =>
    stores.terminalRootsAgree formats .completed && stores.policy.hasAllCurrent formats
  | .provisioningFailed => stores.terminalRootsAgree formats .aborted

variable (groupId : String) (group : GroupState)

def controlledConsistent (transition : FailoverTransition) : Bool :=
  group.record.groupTerm != maxU64 && transition.targetTerm == group.record.groupTerm + 1 &&
    group.authority.grant.isSome &&
    transition.candidateAction.any (fun action =>
      action.domain.sourceGroupTerm == group.record.groupTerm &&
        action.domain.sourceNodeId == group.record.owner &&
        group.hasAssignment action.domain.sourceNodeId action.domain.sourceAssignmentId) &&
    transition.controlled.any fun controlled =>
      (stores.operation.findOperation controlled.operationId).any fun record =>
        record.pristineFailover formats && record.operationSeq < transition.revision &&
          (record.failoverIntent formats groupId).any
            (·.absoluteDeadlineUnixMs = controlled.absoluteDeadlineUnixMs)

def transitionConsistent (transition : FailoverTransition) : Bool :=
  stores.allowsFailover && (validateFailoverTransition transition).isOk &&
    group.record.owner != "" && stores.identity.isActiveNode group.record.owner &&
    group.isMember group.record.owner && group.record.groupTerm != 0 &&
    (match transition.mode with
      | .controlled => stores.controlledConsistent formats groupId group transition
      | .uncontrolled =>
        transition.targetTerm == group.record.groupTerm && group.authority.grant.isNone) &&
    transition.candidateAction.all fun action => (stores.validateCandidate group action).isOk

def groupConsistent : Bool :=
  group.members.all (fun entry => stores.identity.isActiveNode entry.1) &&
    (group.record.populationManifestRevision == 0 ||
      stores.populationManifest.contains group.record.populationManifestDigest) &&
    group.failoverTransition.all (stores.transitionConsistent formats groupId group) &&
    group.authority.grant.all fun grant => group.record.groupTerm != 0 && grant.owner != "" &&
      stores.identity.isActiveNode grant.owner && group.isMember grant.owner

def transitions : List FailoverTransition :=
  stores.topology.groups.filterMap fun entry => entry.2.failoverTransition

def operationConsistent (record : OperationRecord) : Bool :=
  (record.kind != failoverOperationKind || record.failoverShape formats) &&
    (record.lifecycle.isTerminal || record.currentDirectives.all fun current =>
      (stores.validateDirectiveAnchor current.spec).isOk &&
        (current.spec.populationManifestRevision == 0 ||
          stores.populationManifest.contains current.spec.populationManifestDigest))

def aggregateConsistent : Bool :=
  stores.lifecycleConsistent formats &&
    stores.topology.groups.all (fun entry => stores.groupConsistent formats entry.1 entry.2) &&
    (stores.transitions.map FailoverTransition.transitionId).Nodup &&
    ((stores.transitions.filter (·.mode = .controlled)).filterMap fun transition =>
      transition.controlled.map ControlledFailover.operationId).Nodup &&
    stores.operation.liveOperations.all (stores.operationConsistent formats)

end Stores

/-! ## Rollback -/

structure Rollback where
  topologyEpoch : UInt64
  lifecycle : ClusterLifecycleState
  activeCount : Nat
  group : Option (String × GroupState)
  operations : AssocMap Identity (Option OperationRecord)

namespace Rollback

def watchOperation (rollback : Rollback) (stores : Stores) (id : Identity) : Rollback :=
  if (rollback.operations.get id).isSome then rollback
  else { rollback with
    operations := rollback.operations.set id (stores.operation.findOperation id) }

def start (stores : Stores) (groupId : Option String) (operationId : Option Identity) :
    Rollback :=
  let rollback : Rollback := {
    topologyEpoch := stores.topology.topologyEpoch
    lifecycle := stores.topology.clusterLifecycle
    activeCount := stores.operation.activeCount
    group := groupId.bind fun id => (stores.findGroup id).map (id, ·)
    operations := [] }
  match operationId with
  | none => rollback
  | some id => rollback.watchOperation stores id

def restoreOperation (operation : OperationStore)
    (watched : Identity × Option OperationRecord) : OperationStore :=
  match watched.2, operation.live.get watched.1 with
  | some before, _ => operation.setLive watched.1 before
  | none, some current => { operation with
      live := operation.live.erase watched.1
      liveBySeq := operation.liveBySeq.erase current.operationSeq }
  | none, none => operation

def restore (rollback : Rollback) (stores : Stores) : Stores :=
  let topology := match rollback.group with
    | none => stores.topology
    | some (groupId, group) => stores.topology.setGroup groupId group
  { stores with
    topology := { topology with
      topologyEpoch := rollback.topologyEpoch
      clusterLifecycle := rollback.lifecycle }
    operation := { rollback.operations.foldl restoreOperation stores.operation with
      activeCount := rollback.activeCount } }

end Rollback

structure Guarded where
  stores : Stores
  rollback : Rollback

namespace Guarded

def topology (operation : TopologyStore → Except String TopologyStore) (guarded : Guarded) :
    Attempt Guarded Guarded :=
  Attempt.step (fun current => (operation current.stores.topology).map fun topology =>
    { current with stores := { current.stores with topology } }) guarded

def journal (operation : OperationStore → Except String OperationStore) (guarded : Guarded) :
    Attempt Guarded Guarded :=
  Attempt.step (fun current => (operation current.stores.operation).map fun operation =>
    { current with stores := { current.stores with operation } }) guarded

def check (checked : Stores → Except String Unit) (guarded : Guarded) : Attempt Guarded Guarded :=
  Attempt.check (fun current => checked current.stores) guarded

/-- `InvalidateStaleCurrentDirectives` under the guard: every operation that loses a directive is
watched first. -/
def invalidateStale (guarded : Guarded) : Guarded where
  stores := guarded.stores.invalidateStaleCurrentDirectives
  rollback := (guarded.stores.operation.liveOperations.filter fun record =>
      !(guarded.stores.staleDirectives record).isEmpty).foldl
    (fun rollback record => rollback.watchOperation guarded.stores record.operationId)
    guarded.rollback

def settle : Attempt Guarded Guarded → Stores × Verdict
  | .ok guarded => (guarded.stores, .accepted)
  | .error (text, guarded) => (guarded.rollback.restore guarded.stores, .rejected text)

end Guarded

end Lavik.Meta
