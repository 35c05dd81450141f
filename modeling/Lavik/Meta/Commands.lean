import Mathlib.Data.Vector.Basic
import Lavik.Base.Checked
/-!
# Committed commands

Everything in a command is an absolute value chosen by the proposer, and the state machine decides
it against its own stores. The envelope (request id and actor) is kept beside the body. A failover
transition is the durable election state of one group.
-/

namespace Lavik.Meta

open Base

/-! ## Scalars and caps -/

/-- The 16-byte identities: requests, operations, assignments, attempts, directives, transitions
and candidate actions. -/
abbrev Identity := List.Vector UInt8 16

abbrev Hash256 := List.Vector UInt8 32

abbrev Incarnation := List.Vector UInt8 20

def isZero {size : Nat} (value : List.Vector UInt8 size) : Bool := value.toList.all (· == 0)

def zeroes (size : Nat) : List.Vector UInt8 size := List.Vector.replicate size 0

def nodeIdBytes : Nat := 40

def maxGroupIdBytes : Nat := 64

def maxNodes : Nat := 4096

def maxPayloadBytes : Nat := 256 * 1024

def maxFailoverFlowCount : UInt32 := 1024

def slotCount : Nat := 16384

def maxU64 : UInt64 := 0xffffffffffffffff

theorem toNat_add_one {value : UInt64} (bounded : value ≠ maxU64) :
    (value + 1).toNat = value.toNat + 1 := by
  have below := value.toNat_lt
  have apart : value.toNat ≠ 2 ^ 64 - 1 := fun full => bounded (UInt64.toNat_inj.mp full)
  rw [UInt64.toNat_add, UInt64.toNat_one]
  omega

def isCanonicalNodeId (value : String) : Bool :=
  value.utf8ByteSize == nodeIdBytes &&
    value.toList.all fun ch => ('0' ≤ ch && ch ≤ '9') || ('a' ≤ ch && ch ≤ 'f')

structure ActorContext where
  principal : String
  readableTime : String
deriving DecidableEq

inductive NodeRole where
  | primary
  | replica
deriving DecidableEq

inductive AuditPolicy where
  | disabled
  | boundedRotate
  | strictExport
deriving DecidableEq

/-! ## Failover transitions -/

inductive FailoverMode where
  | controlled
  | uncontrolled
deriving DecidableEq

inductive FailoverLoss where
  | none
  | unknown
deriving DecidableEq

structure FailoverCandidate where
  nodeId : String
  assignmentId : Identity
  bootId : Incarnation
deriving DecidableEq

structure FailoverCompatibilityDomain where
  sourceGroupTerm : UInt64 := 0
  sourceNodeId : String := ""
  sourceAssignmentId : Identity := zeroes 16
  sourceBootId : Incarnation := zeroes 20
  sourceHistoryId : Incarnation := zeroes 20
  flowCount : UInt32 := 0
deriving DecidableEq

structure FailoverAuthorization where
  authorizedRevision : UInt64
  lossIfCutover : FailoverLoss
deriving DecidableEq

structure FailoverCandidateAction where
  actionId : Identity
  candidate : FailoverCandidate
  domain : FailoverCompatibilityDomain
  authorization : Option FailoverAuthorization
  operatorRecovery : Bool
deriving DecidableEq

structure ControlledFailover where
  operationId : Identity
  absoluteDeadlineUnixMs : UInt64
deriving DecidableEq

structure FailoverTransition where
  transitionId : Identity
  revision : UInt64
  mode : FailoverMode
  targetTerm : UInt64
  candidateAction : Option FailoverCandidateAction
  controlled : Option ControlledFailover
  recoveryDeadlineUnixMs : Option UInt64
deriving DecidableEq

structure FailoverTransitionRef where
  transitionId : Identity
  revision : UInt64
deriving DecidableEq

def validateFailoverCandidate (candidate : FailoverCandidate) : Except String Unit :=
  require (isCanonicalNodeId candidate.nodeId && !isZero candidate.assignmentId &&
    !isZero candidate.bootId) "invalid failover candidate identity"

def validateFailoverDomain (domain : FailoverCompatibilityDomain) : Except String Unit :=
  require (domain.sourceGroupTerm != 0 && isCanonicalNodeId domain.sourceNodeId &&
    !isZero domain.sourceAssignmentId && !isZero domain.sourceBootId &&
    !isZero domain.sourceHistoryId && domain.flowCount != 0 &&
    domain.flowCount ≤ maxFailoverFlowCount) "invalid failover compatibility domain"

def validateFailoverAuthorization (authorization : FailoverAuthorization) : Except String Unit :=
  require (authorization.authorizedRevision != 0) "invalid failover authorization"

def validateFailoverAction (action : FailoverCandidateAction) : Except String Unit := do
  require (!isZero action.actionId) "failover action id is zero"
  validateFailoverCandidate action.candidate
  if action.operatorRecovery then
    require (action.domain = {} ∧ action.authorization.all (·.lossIfCutover = .unknown))
      "operator recovery cannot claim a source frontier or lossless cutover"
  else validateFailoverDomain action.domain
  match action.authorization with
  | some authorization => validateFailoverAuthorization authorization
  | none => .ok ()

def validateFailoverDeadline (deadlineUnixMs : UInt64) : Except String Unit :=
  require (deadlineUnixMs != 0 && deadlineUnixMs ≤ 0x7fffffffffffffff)
    "invalid failover absolute deadline"

variable (transition : FailoverTransition)

def validateTransitionAction : Except String Unit :=
  match transition.candidateAction with
  | none => .ok ()
  | some action => do
    validateFailoverAction action
    require (action.domain.sourceGroupTerm < transition.targetTerm)
      "failover source term must precede the target term"
    require (action.authorization.all (·.authorizedRevision ≤ transition.revision))
      "failover authorization revision exceeds transition revision"
    require (!(transition.mode == .uncontrolled && !action.operatorRecovery &&
        action.authorization.any (·.lossIfCutover = .unknown) &&
        transition.recoveryDeadlineUnixMs.isNone))
      "uncontrolled authorization has no recovery cutoff"

def validateTransitionMode : Except String Unit :=
  match transition.mode, transition.controlled, transition.candidateAction with
  | .controlled, some controlled, some action => do
    require (!isZero controlled.operationId) "controlled failover operation id is zero"
    validateFailoverDeadline controlled.absoluteDeadlineUnixMs
    require (!action.operatorRecovery && action.candidate.nodeId != action.domain.sourceNodeId)
      "controlled failover candidate must differ from source"
    require (action.authorization.all (·.lossIfCutover = .none))
      "controlled failover authorization must be lossless"
  | .controlled, _, _ => .error "controlled failover requires operation and candidate action"
  | .uncontrolled, some _, _ =>
    .error "uncontrolled failover cannot reference a controlled operation"
  | .uncontrolled, none, _ => .ok ()

def validateFailoverTransition : Except String Unit := do
  require (!isZero transition.transitionId && transition.revision != 0 &&
    transition.targetTerm != 0) "invalid failover transition identity"
  validateTransitionAction transition
  match transition.recoveryDeadlineUnixMs with
  | none => .ok ()
  | some deadline => do
    require (transition.mode == .uncontrolled)
      "only uncontrolled failover may collect recovery events"
    validateFailoverDeadline deadline
  validateTransitionMode transition

/-! ## Identity and topology commands -/

structure RegisterNode where
  nodeId : String
  principal : String
  endpoints : List String
  role : NodeRole
deriving DecidableEq

structure UpdateNode where
  nodeId : String
  expectedRevision : UInt64
  endpoints : List String
  newTopologyEpoch : UInt64
deriving DecidableEq

structure RetireNode where
  nodeId : String
  expectedRevision : UInt64
deriving DecidableEq

structure CreateGroup where
  groupId : String
  newTopologyEpoch : UInt64
deriving DecidableEq

structure AssignNodeToGroup where
  groupId : String
  nodeId : String
  assignmentId : Identity
  role : NodeRole
  expectedRevision : UInt64
  newTopologyEpoch : UInt64
deriving DecidableEq

structure RemoveNodeFromGroup where
  groupId : String
  nodeId : String
  expectedRevision : UInt64
  newTopologyEpoch : UInt64
deriving DecidableEq

structure SlotAssignment where
  firstSlot : UInt16
  lastSlot : UInt16
  groupId : String
deriving DecidableEq

structure SetSlotMap where
  ranges : List SlotAssignment
  newTopologyEpoch : UInt64
deriving DecidableEq

structure SetGroupReplicationState where
  groupId : String
  expectedPopulationManifestRevision : UInt64
  expectedPopulationManifestDigest : Hash256
  newPopulationManifestRevision : UInt64
  newPopulationManifestDigest : Hash256
  expectedPartitionReplicationEpoch : UInt64
  newPartitionReplicationEpoch : UInt64
  newTopologyEpoch : UInt64
deriving DecidableEq

structure BeginGroupTerm where
  groupId : String
  expectedTerm : UInt64
  newTerm : UInt64
deriving DecidableEq

structure ActivateAuthority where
  groupId : String
  expectedTerm : UInt64
  newOwner : String
  newTopologyEpoch : UInt64
deriving DecidableEq

/-! ## Failover commands -/

structure GroupAnchor where
  ownerNodeId : String
  ownerAssignmentId : Identity
  membershipRevision : UInt64
  groupTerm : UInt64
  populationManifestRevision : UInt64
  populationManifestDigest : Hash256
  partitionReplicationEpoch : UInt64
deriving DecidableEq

structure BeginControlledFailover where
  groupId : String
  transitionId : Identity
  targetTerm : UInt64
  candidateAction : FailoverCandidateAction
  operationId : Identity
  expectedOperationRevision : UInt64
  absoluteDeadlineUnixMs : UInt64
  expected : GroupAnchor
deriving DecidableEq

inductive AutomaticFailoverReason where
  | manual
  | sessionMissing
  | heartbeatExpired
  | draining
  | storageUnready
  | populationUnready
deriving DecidableEq

def AutomaticFailoverReason.name : AutomaticFailoverReason → String
  | .manual => "manual"
  | .sessionMissing => "session_missing"
  | .heartbeatExpired => "heartbeat_expired"
  | .draining => "draining"
  | .storageUnready => "storage_unready"
  | .populationUnready => "population_unready"

structure BeginUncontrolledFailover where
  groupId : String
  transitionId : Identity
  targetTerm : UInt64
  candidateAction : Option FailoverCandidateAction
  triggerReason : AutomaticFailoverReason
  suspectDurationMs : UInt64
  preemptedOperationId : Option Identity
  expectedPreemptedOperationRevision : Option UInt64
  expected : GroupAnchor
deriving DecidableEq

structure SetUncontrolledCandidate where
  groupId : String
  expectedTransition : FailoverTransitionRef
  candidateAction : Option FailoverCandidateAction
deriving DecidableEq

structure StartCandidateRecovery where
  groupId : String
  expectedTransition : FailoverTransitionRef
  actionId : Identity
  recoveryDeadlineUnixMs : UInt64
deriving DecidableEq

structure AuthorizeFailoverPrepare where
  groupId : String
  expectedTransition : FailoverTransitionRef
  actionId : Identity
  lossIfCutover : FailoverLoss
deriving DecidableEq

structure AbortControlledFailover where
  operationId : Identity
  expectedOperationRevision : UInt64
  groupId : String
  expectedTransition : Option FailoverTransitionRef
  reason : String
deriving DecidableEq

structure DegradeControlledFailover where
  operationId : Identity
  expectedOperationRevision : UInt64
  groupId : String
  expectedTransition : FailoverTransitionRef
  expectedCandidateAction : Option FailoverCandidateAction
  retainCandidateAction : Bool
  reason : String
deriving DecidableEq

inductive CommitVariant where
  | controlled (operationId : Identity) (expectedOperationRevision : UInt64)
  | uncontrolled (lossIfCutover : FailoverLoss)
deriving DecidableEq

structure CommitFailover where
  variant : CommitVariant
  groupId : String
  expectedTransition : FailoverTransitionRef
  actionId : Identity
  authorizedRevision : UInt64
  expectedCandidate : FailoverCandidate
  expected : GroupAnchor
  newTopologyEpoch : UInt64
deriving DecidableEq

/-! ## Operation commands -/

abbrev Blob := List UInt8

structure SubmitOperation where
  operationId : Identity
  kind : String
  intent : Blob
  intentHash : Hash256
  replicationHistoryId : Incarnation
deriving DecidableEq

structure DirectiveSpec where
  directiveId : Identity
  attemptId : Identity
  recipientNodeId : String
  targetNodeId : String
  targetBootId : Incarnation
  assignmentId : Identity
  sourceNodeId : String
  sourceAssignmentId : Identity
  sourceBootId : Incarnation
  sourceReplicationHistoryId : Incarnation
  groupId : String
  groupTerm : UInt64
  populationManifestRevision : UInt64
  populationManifestDigest : Hash256
  partitionReplicationEpoch : UInt64
  kind : String
  payload : Blob
deriving DecidableEq

structure TransitionOperationPhase where
  operationId : Identity
  expectedRevision : UInt64
  kindPhaseBlob : Blob
  currentDirectives : List DirectiveSpec
deriving DecidableEq

inductive DirectiveResultStatus where
  | succeeded
  | failed
  | rejected
deriving DecidableEq

structure TerminalReceiptKey where
  operationId : Identity
  directiveId : Identity
  attemptId : Identity
  directiveRevision : UInt64
deriving DecidableEq

structure CommitDirectiveResult where
  key : TerminalReceiptKey
  recipientNodeId : String
  recipientBootId : Incarnation
  assignmentId : Identity
  status : DirectiveResultStatus
  result : String
deriving DecidableEq

structure CompleteOperation where
  operationId : Identity
  expectedRevision : UInt64
  result : String
  dataLossPossible : Bool
deriving DecidableEq

structure AbortOperation where
  operationId : Identity
  expectedRevision : UInt64
  reason : String
deriving DecidableEq

structure PopulationManifestEntry where
  partitionId : UInt32
  logicalEpoch : UInt64
deriving DecidableEq

structure PutPopulationManifest where
  manifestDigest : Hash256
  entries : List PopulationManifestEntry
deriving DecidableEq

structure PutPolicy where
  policyId : String
  version : UInt64
  content : Blob
deriving DecidableEq

structure BindMetaMember where
  serverId : UInt32
  principal : String
  dataControlEndpoint : String
  ctlEndpoint : Option String
deriving DecidableEq

inductive Command where
  | registerNode (cmd : RegisterNode)
  | updateNode (cmd : UpdateNode)
  | retireNode (cmd : RetireNode)
  | createGroup (cmd : CreateGroup)
  | assignNodeToGroup (cmd : AssignNodeToGroup)
  | removeNodeFromGroup (cmd : RemoveNodeFromGroup)
  | setSlotMap (cmd : SetSlotMap)
  | beginGroupTerm (cmd : BeginGroupTerm)
  | activateAuthority (cmd : ActivateAuthority)
  | fenceGroup (cmd : BeginGroupTerm)
  | putPolicy (cmd : PutPolicy)
  | submitOperation (cmd : SubmitOperation)
  | transitionOperationPhase (cmd : TransitionOperationPhase)
  | completeOperation (cmd : CompleteOperation)
  | abortOperation (cmd : AbortOperation)
  | archiveOperations (operationSeqs : List UInt64)
  | pruneAudit (throughLogIndex : UInt64)
  | pruneOperationArchive (operationSeqs : List UInt64)
  | bindMetaMember (cmd : BindMetaMember)
  | retireMetaMember (serverId : UInt32)
  | setGroupReplicationState (cmd : SetGroupReplicationState)
  | setAuditPolicy (policy : AuditPolicy) (attestation : Blob)
  | putPopulationManifest (cmd : PutPopulationManifest)
  | prunePopulationManifest (manifestDigest : Hash256)
  | commitDirectiveResult (cmd : CommitDirectiveResult)
  | pruneTerminalReceipts (receipts : List TerminalReceiptKey)
  | beginControlledFailover (cmd : BeginControlledFailover)
  | beginUncontrolledFailover (cmd : BeginUncontrolledFailover)
  | setUncontrolledCandidate (cmd : SetUncontrolledCandidate)
  | authorizeFailoverPrepare (cmd : AuthorizeFailoverPrepare)
  | abortControlledFailover (cmd : AbortControlledFailover)
  | degradeControlledFailover (cmd : DegradeControlledFailover)
  | commitFailover (cmd : CommitFailover)
  | startCandidateRecovery (cmd : StartCandidateRecovery)
deriving DecidableEq

structure CommittedCommand where
  requestId : Identity
  actor : ActorContext
  body : Command
deriving DecidableEq

end Lavik.Meta
