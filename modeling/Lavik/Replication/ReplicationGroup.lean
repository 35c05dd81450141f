import Mathlib.Algebra.Group.Nat.Defs
import Mathlib.Data.Prod.Lex
import Lavik.Base.Status
/-!
# The population proof of a replication group

Every physical partition is reset and handed off, the function catalog and the flow cuts are
recorded, storage is promoted, and only then is the population ready. `ReplicationGroup` keeps the
evidence of the active attempt, the directive version and the attempts accepted in this boot.
-/

namespace Lavik.Replication

open Base

def replicationPartitionCount : Nat := 16384

def maxMemoryWorkers : Nat := 1024

abbrev Partition := Fin replicationPartitionCount

structure PopulationManifestId where
  bytes : List UInt8
deriving DecidableEq, Repr

def PopulationManifestId.isEmpty (id : PopulationManifestId) : Bool := id.bytes.all (· = 0)

structure PopulationManifest where
  logicalEpochs : Partition → Nat
  id : PopulationManifestId

structure RebuildIdentity where
  groupId : String
  assignmentId : String
  term : Nat
  directiveRevision : Nat
  authorityId : String
  sourceNodeId : String
  sourceAssignmentId : String
  sourceBootId : String
  sourceHistoryId : String
  targetNodeId : String
  targetBootId : String
  targetHistoryId : String
  operationId : String
  directiveId : String
  attemptId : String
  manifestRevision : Nat
  manifestId : PopulationManifestId
  partitionReplicationEpoch : Nat
deriving DecidableEq, Repr

structure RebuildDirective where
  identity : RebuildIdentity
  flowCount : Nat := 0
  safeSourceActive : Bool := false
deriving DecidableEq, Repr

inductive GroupState
  | notReady
  | rebuilding
  | ready
  | failedStopped
deriving DecidableEq, Repr

structure ReadyToken where
  identity : RebuildIdentity
  cutVector : List Nat
deriving DecidableEq, Repr

structure ResetAuthorization where
  identity : RebuildIdentity
deriving DecidableEq, Repr

abbrev AttemptKey := String × String

namespace RebuildIdentity

variable (identity : RebuildIdentity)

def attemptKey : AttemptKey :=
  (identity.operationId, identity.attemptId)

def version : Nat ×ₗ Nat :=
  toLex (identity.term, identity.directiveRevision)

def sameDirectiveRevisionScope (left right : RebuildIdentity) : Bool :=
  { left with attemptId := right.attemptId } = right

def newerThan (candidate accepted : RebuildIdentity) : Bool :=
  candidate.term > accepted.term ||
    (candidate.term = accepted.term && candidate.directiveRevision > accepted.directiveRevision)

def sourceFields : List String :=
  [identity.sourceNodeId, identity.sourceAssignmentId, identity.sourceBootId,
    identity.sourceHistoryId]

def validate (sourceLess : Bool) : StatusOr Unit := do
  refuseIf (identity.groupId = "" ∨ identity.assignmentId = "" ∨ identity.authorityId = "" ∨
      identity.targetNodeId = "" ∨ identity.targetBootId = "" ∨ identity.operationId = "" ∨
      identity.directiveId = "" ∨ identity.attemptId = "")
    .invalidArgument "population identity fields must all be nonempty"
  refuseIf (sourceLess ∧ ((∃ field ∈ identity.sourceFields, field ≠ "") ∨
      identity.targetHistoryId = ""))
    .invalidArgument "empty population must bind target history and have no source"
  refuseIf (¬ sourceLess ∧ ((∃ field ∈ identity.sourceFields, field = "") ∨
      identity.targetHistoryId ≠ ""))
    .invalidArgument "rebuild must bind every source field and no target history"
  refuseIf (identity.term = 0) .invalidArgument "rebuild term must be nonzero"
  refuseIf (identity.directiveRevision = 0) .invalidArgument
    "rebuild directive revision must be nonzero"
  refuseIf (identity.manifestRevision = 0) .invalidArgument
    "population manifest revision must be nonzero"
  refuseIf identity.manifestId.isEmpty .invalidArgument "population manifest ID must be nonzero"

end RebuildIdentity

structure ReplicationGroup where
  localNodeId : String
  localBootId : String
  state : GroupState := .notReady
  lastDirective : Option RebuildDirective := none
  usedAttempts : List AttemptKey := []
  currentDirective : Option RebuildDirective := none
  desiredLogicalEpochs : Partition → Nat := fun _ => 0
  targetLocalEpochs : Partition → Nat := fun _ => 0
  partitionHandoffs : Partition → Bool := fun _ => false
  partitionResetCount : Nat := 0
  partitionHandoffCount : Nat := 0
  flowCutVector : Option (List Nat) := none
  functionCatalogComplete : Bool := false
  storagePromoted : Bool := false
  readyToken : Option ReadyToken := none
  switchedParent : Option ReadyToken := none
  switchedParentBoundary : List Nat := []

namespace ReplicationGroup

variable (group : ReplicationGroup)

variable (directive : RebuildDirective)

def ActiveRetry : Prop :=
  group.state = .rebuilding ∧ group.currentDirective = some directive

instance ActiveRetry.decidable (group : ReplicationGroup) (directive : RebuildDirective) :
    Decidable (group.ActiveRetry directive) := inferInstanceAs (Decidable (_ ∧ _))

variable (manifest : PopulationManifest)

def validateDirective (sourceLess : Bool) : StatusOr Unit := do
  refuseIf (group.state = .failedStopped) .failedPrecondition
    "replication group is failure-latched for this boot"
  directive.identity.validate sourceLess
  refuseIf (group.localNodeId = "" ∨ group.localBootId = "") .failedPrecondition
    "replication group local node identity is invalid"
  refuseIf (directive.identity.targetNodeId ≠ group.localNodeId ∨
      directive.identity.targetBootId ≠ group.localBootId) .failedPrecondition
    "rebuild directive belongs to a different target boot"
  refuseIf (directive.identity.manifestId ≠ manifest.id) .failedPrecondition
    "rebuild directive does not match the supplied manifest"
  refuseIf (sourceLess ∧ (directive.flowCount ≠ 0 ∨ directive.safeSourceActive)) .invalidArgument
    "empty population cannot carry source-flow authorization"
  refuseIf (¬ sourceLess ∧ (directive.flowCount = 0 ∨ maxMemoryWorkers < directive.flowCount))
    .invalidArgument "rebuild flow count must be within the supported worker domain"
  refuseIf (¬ sourceLess ∧ ¬ directive.safeSourceActive) .failedPrecondition
    "destructive reset requires a safely active source"
  refuseIf (∃ accepted ∈ group.lastDirective,
      accepted.identity.groupId ≠ directive.identity.groupId) .failedPrecondition
    "this node is already assigned to another replication group"

def validateVersion : StatusOr Unit := do
  refuseIf (group.state = .rebuilding ∧ ¬ ∃ current ∈ group.currentDirective,
      directive.identity.newerThan current.identity) .failedPrecondition
    "another rebuild attempt is already active"
  refuseIf (group.state = .ready ∧ ∃ accepted ∈ group.lastDirective,
      ¬ directive.identity.newerThan accepted.identity) .failedPrecondition
    "the ready population already completed this directive version"
  refuseIf (∃ accepted ∈ group.lastDirective, directive.identity.term < accepted.identity.term)
    .failedPrecondition "stale rebuild term"
  refuseIf (∃ accepted ∈ group.lastDirective, directive.identity.term = accepted.identity.term ∧
      directive.identity.directiveRevision < accepted.identity.directiveRevision)
    .failedPrecondition "stale rebuild directive revision"
  refuseIf (∃ accepted ∈ group.lastDirective, directive.identity.term = accepted.identity.term ∧
      directive.identity.directiveRevision = accepted.identity.directiveRevision ∧
      (¬ directive.identity.sameDirectiveRevisionScope accepted.identity ∨
        directive.flowCount ≠ accepted.flowCount ∨
        directive.safeSourceActive ≠ accepted.safeSourceActive)) .failedPrecondition
    "rebuild directive conflicts with the accepted revision"
  refuseIf (directive.identity.attemptKey ∈ group.usedAttempts) .failedPrecondition
    "rebuild attempt identity was already used in this boot"

def validatePopulation (sourceLess : Bool) : StatusOr Unit := do
  group.validateDirective directive manifest sourceLess
  if group.ActiveRetry directive then .ok () else group.validateVersion directive

def start : ReplicationGroup :=
  { group with
    lastDirective :=
      if ∀ accepted ∈ group.lastDirective, directive.identity.newerThan accepted.identity then
        some directive
      else group.lastDirective
    usedAttempts := directive.identity.attemptKey :: group.usedAttempts
    currentDirective := some directive
    desiredLogicalEpochs := manifest.logicalEpochs
    targetLocalEpochs := fun _ => 0
    partitionHandoffs := fun _ => false
    partitionResetCount := 0
    partitionHandoffCount := 0
    flowCutVector := none
    functionCatalogComplete := false
    storagePromoted := false
    readyToken := none
    switchedParent := none
    switchedParentBoundary := []
    state := .rebuilding }

def discardCurrentProof : ReplicationGroup :=
  { group with
    currentDirective := none
    desiredLogicalEpochs := fun _ => 0
    targetLocalEpochs := fun _ => 0
    partitionHandoffs := fun _ => false
    partitionResetCount := 0
    partitionHandoffCount := 0
    flowCutVector := none
    functionCatalogComplete := false
    storagePromoted := false
    readyToken := none
    state := .notReady }

def validateCurrent (identity : RebuildIdentity) : StatusOr Unit := do
  refuseIf (group.state ≠ .rebuilding ∨ group.currentDirective = none) .failedPrecondition
    "no matching rebuild attempt is active"
  refuseIf (∃ current ∈ group.currentDirective, current.identity ≠ identity) .failedPrecondition
    "stale or mismatched rebuild identity"

def validateResetAuthorization (authorization : ResetAuthorization) :
    StatusOr Unit := group.validateCurrent authorization.identity

def flowCount (group : ReplicationGroup) : Nat :=
  (group.currentDirective.map RebuildDirective.flowCount).getD 0

def CutProofComplete : Prop :=
  group.partitionResetCount = replicationPartitionCount ∧
    group.partitionHandoffCount = replicationPartitionCount ∧
    group.functionCatalogComplete ∧ (group.flowCount = 0 ∨ group.flowCutVector ≠ none)

instance CutProofComplete.decidable (group : ReplicationGroup) :
    Decidable group.CutProofComplete := inferInstanceAs (Decidable (_ ∧ _))

/-- The identity is the one of the attempt or of the ready population. -/
def Holds (identity : RebuildIdentity) : Prop :=
  (group.state = .rebuilding ∧ ∃ current ∈ group.currentDirective, current.identity = identity) ∨
    (group.state = .ready ∧ ∃ token ∈ group.readyToken, token.identity = identity)

instance Holds.decidable (group : ReplicationGroup) (identity : RebuildIdentity) :
    Decidable (group.Holds identity) := inferInstanceAs (Decidable (_ ∨ _))

def commitHistoryProof (parent : ReadyToken) (child : RebuildDirective)
    (requiredParent childOrigin : List Nat) : ReplicationGroup :=
  { group with
    usedAttempts := child.identity.attemptKey :: group.usedAttempts
    switchedParent := some parent
    switchedParentBoundary := requiredParent
    lastDirective := some child
    currentDirective := some child
    flowCutVector := some childOrigin
    readyToken := some ⟨child.identity, childOrigin⟩ }

end ReplicationGroup

/-! ## Operations -/

inductive Operation
  | beginRebuild (directive : RebuildDirective) (manifest : PopulationManifest)
  | beginEmptyPopulation (identity : RebuildIdentity) (manifest : PopulationManifest)
  | recordPartitionReset (identity : RebuildIdentity) (partitionId targetLocalEpoch : Nat)
  | recordPartitionHandoff (identity : RebuildIdentity)
      (partitionId logicalEpoch targetLocalEpoch : Nat)
  | recordFlowCutVector (identity : RebuildIdentity) (stableNextLsns : List Nat)
  | markFunctionCatalogComplete (identity : RebuildIdentity)
  | markStoragePromoted (identity : RebuildIdentity)
  | recoverPopulation (identity : RebuildIdentity) (frontier : List Nat)
  | switchHistory (parent : ReadyToken) (child : RebuildDirective) (manifest : PopulationManifest)
      (actualParent requiredParent childOrigin : List Nat)
  | bindLocalSourceHistory (population : ReadyToken) (source : RebuildDirective)
      (manifest : PopulationManifest) (sourceCut : List Nat)
  | publishReady (identity : RebuildIdentity)
  | abort (identity : RebuildIdentity)
  | invalidateProof (identity : RebuildIdentity)
  | failStop (identity : RebuildIdentity)

/-- What an accepted call did. A call that begins or repeats an attempt returns the authorization
of its identity; one that makes a population ready returns its token. -/
inductive Event
  | began (directive : RebuildDirective) (manifest : PopulationManifest)
  | retried (directive : RebuildDirective)
  | partitionReset (identity : RebuildIdentity) (partition : Partition) (epoch : Nat)
  | partitionHandoff (identity : RebuildIdentity) (partition : Partition) (logicalEpoch epoch : Nat)
  | flowCut (identity : RebuildIdentity) (cuts : List Nat)
  | catalogComplete (identity : RebuildIdentity)
  | storagePromoted (identity : RebuildIdentity)
  | recovered (token : ReadyToken)
  | switched (child : RebuildDirective) (token : ReadyToken)
  | repeated (token : ReadyToken)
  | published (token : ReadyToken)
  | aborted (identity : RebuildIdentity)
  | invalidated (identity : RebuildIdentity)
  | failStopped (identity : RebuildIdentity)

namespace ReplicationGroup

variable (group : ReplicationGroup)

def beginPopulation (directive : RebuildDirective) (manifest : PopulationManifest)
    (sourceLess : Bool) : StatusOr (ReplicationGroup × Event) := do
  group.validatePopulation directive manifest sourceLess
  if group.ActiveRetry directive then
    return (group, .retried directive)
  refuseIf (group.state = .rebuilding) .failedPrecondition
    "active rebuild must be retired before supersession"
  return (group.start directive manifest, .began directive manifest)

variable (identity : RebuildIdentity)

def recordPartitionReset (partitionId targetLocalEpoch : Nat) :
    StatusOr (ReplicationGroup × Event) := do
  group.validateCurrent identity
  if inside : partitionId < replicationPartitionCount then
    let partition : Partition := ⟨partitionId, inside⟩
    refuseIf (targetLocalEpoch = 0) .invalidArgument "target-local reset epoch must be nonzero"
    let saved := group.targetLocalEpochs partition
    if saved = targetLocalEpoch then
      return (group, .partitionReset identity partition targetLocalEpoch)
    refuseIf (saved ≠ 0) .failedPrecondition "a partition reset epoch cannot be rewritten"
    return ({ group with
      targetLocalEpochs := Function.update group.targetLocalEpochs partition targetLocalEpoch
      partitionResetCount := group.partitionResetCount + 1 },
      .partitionReset identity partition targetLocalEpoch)
  else .error ⟨.invalidArgument, "physical reset partition is out of range"⟩

def recordPartitionHandoff (partitionId logicalEpoch targetLocalEpoch : Nat) :
    StatusOr (ReplicationGroup × Event) := do
  group.validateCurrent identity
  if inside : partitionId < replicationPartitionCount then
    let partition : Partition := ⟨partitionId, inside⟩
    refuseIf (targetLocalEpoch = 0) .invalidArgument "target-local handoff epoch must be nonzero"
    refuseIf (group.targetLocalEpochs partition = 0) .failedPrecondition
      "partition handoff requires a completed destructive reset"
    refuseIf (targetLocalEpoch ≠ group.targetLocalEpochs partition) .failedPrecondition
      "partition handoff does not match the saved target-local epoch"
    refuseIf (logicalEpoch ≠ group.desiredLogicalEpochs partition) .failedPrecondition
      "partition handoff does not match the saved manifest epoch"
    let event := Event.partitionHandoff identity partition logicalEpoch targetLocalEpoch
    if group.partitionHandoffs partition then
      return (group, event)
    return ({ group with
      partitionHandoffs := Function.update group.partitionHandoffs partition true
      partitionHandoffCount := group.partitionHandoffCount + 1 }, event)
  else .error ⟨.invalidArgument, "physical handoff partition is out of range"⟩

def recordFlowCutVector (stableNextLsns : List Nat) : StatusOr (ReplicationGroup × Event) := do
  group.validateCurrent identity
  refuseIf (group.flowCount = 0) .failedPrecondition "empty population has no source flow cut"
  refuseIf (stableNextLsns.length ≠ group.flowCount) .invalidArgument
    "full-sync cut vector does not match the rebuild flow count"
  refuseIf (0 ∈ stableNextLsns) .invalidArgument "full-sync stable next-LSNs must be nonzero"
  if group.flowCutVector = some stableNextLsns then
    return (group, .flowCut identity stableNextLsns)
  refuseIf (group.flowCutVector ≠ none) .failedPrecondition
    "the full-sync cut vector cannot be rewritten"
  return ({ group with flowCutVector := some stableNextLsns }, .flowCut identity stableNextLsns)

def markFunctionCatalogComplete : StatusOr (ReplicationGroup × Event) := do
  group.validateCurrent identity
  return ({ group with functionCatalogComplete := true }, .catalogComplete identity)

def markStoragePromoted : StatusOr (ReplicationGroup × Event) := do
  group.validateCurrent identity
  refuseIf (¬ group.CutProofComplete) .failedPrecondition
    "storage promotion requires complete manifest, catalog, and flow cuts"
  return ({ group with storagePromoted := true }, .storagePromoted identity)

def recoverPopulation (frontier : List Nat) : StatusOr (ReplicationGroup × Event) := do
  refuseIf (group.state ≠ .notReady ∨ identity.targetNodeId ≠ group.localNodeId ∨
      identity.targetBootId ≠ group.localBootId ∨ identity.groupId = "" ∨
      identity.assignmentId = "" ∨ identity.term = 0 ∨ frontier = [] ∨ 0 ∈ frontier)
    .failedPrecondition "recovered population is incomplete or already installed"
  return ({ group with
    lastDirective := some { identity, flowCount := frontier.length }
    readyToken := some ⟨identity, frontier⟩
    state := .ready }, .recovered ⟨identity, frontier⟩)

def SameAnchors (old next : RebuildIdentity) : Prop :=
  old.groupId = next.groupId ∧ old.assignmentId = next.assignmentId ∧
    old.targetNodeId = next.targetNodeId ∧ old.targetBootId = next.targetBootId ∧
    old.manifestRevision = next.manifestRevision ∧ old.manifestId = next.manifestId ∧
    old.partitionReplicationEpoch = next.partitionReplicationEpoch

instance SameAnchors.decidable (old next : RebuildIdentity) : Decidable (SameAnchors old next) :=
  inferInstanceAs (Decidable (_ ∧ _))

def Regressed (cut proof : List Nat) : Prop := ∃ pair ∈ cut.zip proof, pair.1 < pair.2

instance Regressed.decidable (cut proof : List Nat) : Decidable (Regressed cut proof) :=
  inferInstanceAs (Decidable (∃ pair ∈ cut.zip proof, pair.1 < pair.2))

def SwitchRepeated (parent : ReadyToken) (child : RebuildDirective)
    (requiredParent childOrigin : List Nat) : Prop :=
  group.readyToken = some ⟨child.identity, childOrigin⟩ ∧ group.switchedParent = some parent ∧
    group.switchedParentBoundary = requiredParent

instance SwitchRepeated.decidable (group : ReplicationGroup) (parent : ReadyToken)
    (child : RebuildDirective) (requiredParent childOrigin : List Nat) :
    Decidable (group.SwitchRepeated parent child requiredParent childOrigin) :=
  inferInstanceAs (Decidable (_ ∧ _))

def switchHistory (parent : ReadyToken) (child : RebuildDirective) (manifest : PopulationManifest)
    (actualParent requiredParent childOrigin : List Nat) : StatusOr (ReplicationGroup × Event) := do
  refuseIf (actualParent = [] ∨ 1024 < actualParent.length ∨ actualParent ≠ requiredParent ∨
      0 ∈ actualParent ∨ childOrigin = [] ∨ childOrigin.length ≠ child.flowCount ∨
      0 ∈ childOrigin) .failedPrecondition
    "history switch has no exact complete parent boundary or child origin"
  refuseIf (group.state ≠ .ready ∨ group.readyToken = none) .failedPrecondition
    "history switch requires a complete current Ready population"
  if group.SwitchRepeated parent child requiredParent childOrigin then
    return (group, .repeated ⟨child.identity, childOrigin⟩)
  refuseIf (group.readyToken ≠ some parent) .failedPrecondition
    "history switch parent proof is stale"
  refuseIf (¬ SameAnchors parent.identity child.identity ∨
      child.identity.term ≤ parent.identity.term ∨
      child.identity.sourceHistoryId = parent.identity.sourceHistoryId ∨
      child.identity.sourceHistoryId = parent.identity.targetHistoryId) .failedPrecondition
    "history switch changed population anchors or did not enter a child domain"
  refuseIf (parent.cutVector ≠ [] ∧ actualParent.length ≠ parent.cutVector.length)
    .failedPrecondition "history switch parent layout differs from Ready proof"
  refuseIf (parent.cutVector ≠ [] ∧ Regressed actualParent parent.cutVector) .failedPrecondition
    "history switch regressed below its population cut"
  group.validatePopulation child manifest false
  return (group.commitHistoryProof parent child requiredParent childOrigin,
    .switched child ⟨child.identity, childOrigin⟩)

def bindLocalSourceHistory (population : ReadyToken) (source : RebuildDirective)
    (manifest : PopulationManifest) (sourceCut : List Nat) :
    StatusOr (ReplicationGroup × Event) := do
  refuseIf (group.state ≠ .ready ∨ group.readyToken ≠ some population ∨
      ¬ SameAnchors population.identity source.identity ∨
      source.identity.term < population.identity.term ∨
      source.identity.sourceNodeId ≠ group.localNodeId ∨
      source.identity.sourceBootId ≠ group.localBootId ∨
      source.identity.sourceAssignmentId ≠ source.identity.assignmentId ∨
      sourceCut = [] ∨ sourceCut.length ≠ source.flowCount ∨ 0 ∈ sourceCut) .failedPrecondition
    "local source binding requires the current complete local population and source cut"
  refuseIf (population.identity.sourceHistoryId = source.identity.sourceHistoryId ∧
      population.cutVector.length ≠ sourceCut.length) .failedPrecondition
    "local source layout changed within one history"
  refuseIf (population.identity.sourceHistoryId = source.identity.sourceHistoryId ∧
      Regressed sourceCut population.cutVector) .failedPrecondition
    "local source cut regressed below its population proof"
  group.validatePopulation source manifest false
  return (group.commitHistoryProof population source sourceCut sourceCut,
    .switched source ⟨source.identity, sourceCut⟩)

def publishReady : StatusOr (ReplicationGroup × Event) :=
  match group.state, group.readyToken with
  | .ready, some token =>
    if token.identity = identity then .ok (group, .repeated token)
    else .error ⟨.failedPrecondition, "ready population belongs to a different rebuild identity"⟩
  | _, _ => do
    group.validateCurrent identity
    refuseIf (¬ group.CutProofComplete ∨ ¬ group.storagePromoted) .failedPrecondition
      "rebuild proof is incomplete and cannot publish readiness"
    let token : ReadyToken := ⟨identity, group.flowCutVector.getD []⟩
    return ({ group with readyToken := some token, state := .ready }, .published token)

def abort : StatusOr (ReplicationGroup × Event) := do
  refuseIf (group.state = .failedStopped) .failedPrecondition
    "replication group is failure-latched for this boot"
  group.validateCurrent identity
  return (group.discardCurrentProof, .aborted identity)

def invalidateProof : StatusOr (ReplicationGroup × Event) := do
  refuseIf (group.state = .failedStopped) .failedPrecondition
    "replication group is failure-latched for this boot"
  refuseIf (¬ group.Holds identity) .failedPrecondition
    "population proof belongs to a different rebuild identity"
  return (group.discardCurrentProof, .invalidated identity)

def failStop : StatusOr (ReplicationGroup × Event) := do
  refuseIf (¬ group.Holds identity) .failedPrecondition
    "failure latch belongs to a different rebuild identity"
  return ({ group with readyToken := none, state := .failedStopped }, .failStopped identity)

def perform : Operation → StatusOr (ReplicationGroup × Event)
  | .beginRebuild directive manifest => group.beginPopulation directive manifest false
  | .beginEmptyPopulation identity manifest => group.beginPopulation { identity } manifest true
  | .recordPartitionReset identity partition epoch =>
    group.recordPartitionReset identity partition epoch
  | .recordPartitionHandoff identity partition logicalEpoch epoch =>
    group.recordPartitionHandoff identity partition logicalEpoch epoch
  | .recordFlowCutVector identity cuts => group.recordFlowCutVector identity cuts
  | .markFunctionCatalogComplete identity => group.markFunctionCatalogComplete identity
  | .markStoragePromoted identity => group.markStoragePromoted identity
  | .recoverPopulation identity frontier => group.recoverPopulation identity frontier
  | .switchHistory parent child manifest actual required origin =>
    group.switchHistory parent child manifest actual required origin
  | .bindLocalSourceHistory population source manifest cut =>
    group.bindLocalSourceHistory population source manifest cut
  | .publishReady identity => group.publishReady identity
  | .abort identity => group.abort identity
  | .invalidateProof identity => group.invalidateProof identity
  | .failStop identity => group.failStop identity

end ReplicationGroup

end Lavik.Replication
