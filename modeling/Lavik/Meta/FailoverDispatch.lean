import Lavik.Meta.TopologyDispatch
/-!
# Failover commands

Begin installs a transition (an uncontrolled one fences first), the middle commands replace it
under its revision, and a commit cuts over or the request is aborted or degraded. Each command first
recognises its own effect and then checks every anchor it names.
-/

namespace Lavik.Meta

open Base Guarded

variable (formats : Formats) (stores : Stores)

def validateControlledOperation (operationId : Identity) (expectedRevision : UInt64)
    (groupId : String) (deadline : UInt64) : Except String Unit :=
  match stores.operation.findOperation operationId with
  | none => .error "unknown controlled failover operation"
  | some record => do
    require (record.pristineFailover formats && record.revision == expectedRevision)
      "controlled failover operation is not pristine Submitted state"
    require ((formats.decodeFailoverOperationIntent record.intent).any fun intent =>
        intent.groupId == groupId && intent.absoluteDeadlineUnixMs == deadline)
      "controlled failover operation intent or deadline mismatch"

def controlledDomainMatches (expected : GroupAnchor) (action : FailoverCandidateAction) : Bool :=
  action.domain.sourceGroupTerm == expected.groupTerm &&
    action.domain.sourceNodeId == expected.ownerNodeId &&
    action.domain.sourceAssignmentId == expected.ownerAssignmentId

def validateBeginAnchors (controlled : Bool) (targetTerm : UInt64) (expected : GroupAnchor)
    (candidate : Option FailoverCandidateAction) (group : GroupState) : Except String Unit := do
  require group.failoverTransition.isNone "group already has a failover transition"
  require (expected.groupTerm != maxU64 && targetTerm == expected.groupTerm + 1)
    "failover target term must be exactly current term plus one"
  require (group.anchoredOwner expected && group.record.groupTerm == expected.groupTerm &&
    group.anchoredConfiguration expected) "failover group anchor is stale"
  require (stores.identity.isActiveNode expected.ownerNodeId) "failover owner is not an active node"
  require group.authority.grant.isSome "failover grant anchor is stale"
  require (group.authority.grant.all (·.owner = expected.ownerNodeId))
    "failover authority does not match the active grant"
  match candidate with
  | none => .ok ()
  | some action => do
    require (!controlled || controlledDomainMatches expected action)
      "controlled failover compatibility domain does not match the owner anchor"
    stores.validateCandidate group action

def controlledTransitionFrom (cmd : BeginControlledFailover) (revision : UInt64) :
    FailoverTransition where
  transitionId := cmd.transitionId
  revision := revision
  mode := .controlled
  targetTerm := cmd.targetTerm
  candidateAction := some cmd.candidateAction
  controlled := some ⟨cmd.operationId, cmd.absoluteDeadlineUnixMs⟩
  recoveryDeadlineUnixMs := none

def uncontrolledTransitionFrom (cmd : BeginUncontrolledFailover) (revision : UInt64) :
    FailoverTransition where
  transitionId := cmd.transitionId
  revision := revision
  mode := .uncontrolled
  targetTerm := cmd.targetTerm
  candidateAction := cmd.candidateAction
  controlled := none
  recoveryDeadlineUnixMs := none

def beginControlledPresent (cmd : BeginControlledFailover) (logIndex : UInt64) : Bool :=
  stores.allowsFailover && (stores.findGroup cmd.groupId).any fun group =>
    group.failoverTransition == some (controlledTransitionFrom cmd logIndex) &&
      group.anchoredOwner cmd.expected &&
      group.record.groupTerm == cmd.expected.groupTerm &&
      group.anchoredConfiguration cmd.expected &&
      group.authority.grant.any (·.owner = cmd.expected.ownerNodeId) &&
      (stores.validateCandidate group cmd.candidateAction).isOk &&
      (validateControlledOperation formats stores cmd.operationId
        cmd.expectedOperationRevision cmd.groupId cmd.absoluteDeadlineUnixMs).isOk &&
      stores.aggregateConsistent formats

variable (groupId : String) (logIndex : UInt64)

def dispatchBeginControlled (cmd : BeginControlledFailover) : Stores × Verdict :=
  if !stores.allowsFailover then refuse stores "failover requires cluster lifecycle Created"
  else if beginControlledPresent formats stores cmd logIndex then replayed stores
  else
    let transition := controlledTransitionFrom cmd logIndex
    let checks := do
      let group ← stores.topology.knownGroup cmd.groupId
      validateControlledOperation formats stores cmd.operationId
        cmd.expectedOperationRevision cmd.groupId cmd.absoluteDeadlineUnixMs
      validateBeginAnchors stores true cmd.targetTerm cmd.expected (some cmd.candidateAction) group
      validateFailoverTransition transition
      .ok group
    afterChecks stores checks fun group => settle do
      let guarded : Guarded :=
        ⟨stores, .start stores (some cmd.groupId) (some cmd.operationId)⟩
      let guarded ← guarded.topology (·.installFailoverTransition cmd.groupId transition logIndex)
      projectControls formats group.recipients guarded

def preemptableControlledRequests : List OperationRecord :=
  (stores.operation.liveOperations.filter fun record =>
      record.pristineFailover formats && (record.failoverIntent formats groupId).isSome).mergeSort
    fun left right => left.operationSeq < right.operationSeq ||
      (left.operationSeq == right.operationSeq &&
        left.operationId.toList ≤ right.operationId.toList)

variable (cmd : BeginUncontrolledFailover)

def validatePreemption : Except String Unit :=
  match cmd.preemptedOperationId, cmd.expectedPreemptedOperationRevision with
  | none, none => .ok ()
  | some id, some revision => do
    require (cmd.triggerReason != .manual)
      "manual uncontrolled failover cannot preempt a controlled request"
    match stores.operation.findOperation id with
    | none => .error "preempted controlled failover operation CAS mismatch"
    | some record => do
      require (record.pristineFailover formats && record.revision == revision)
        "preempted controlled failover operation CAS mismatch"
      require (record.failoverIntent formats cmd.groupId).isSome
        "preempted controlled failover operation targets another group"
  | _, _ => .error "preempted operation id and expected revision must be paired"

def preemptedPresent (id : Identity) : Bool :=
  cmd.expectedPreemptedOperationRevision.any fun revision => revision != maxU64 &&
    (stores.operation.findOperation id).any fun record =>
      (record.failoverIntent formats cmd.groupId).isSome &&
        record.lifecycle == .aborted && record.revision == revision + 1 &&
        record.terminalResult == automaticFailoverPreemptionReason && !record.dataLossPossible

def preemptionPresent : Bool :=
  if cmd.triggerReason = .manual then
    cmd.preemptedOperationId.isNone && cmd.expectedPreemptedOperationRevision.isNone
  else
    cmd.preemptedOperationId.all (preemptedPresent formats stores cmd) &&
      (preemptableControlledRequests formats stores cmd.groupId).isEmpty

def beginUncontrolledPresent (logIndex : UInt64) : Bool :=
  stores.allowsFailover && (stores.findGroup cmd.groupId).any fun group =>
    group.failoverTransition == some (uncontrolledTransitionFrom cmd logIndex) &&
      group.anchoredOwner cmd.expected && group.record.groupTerm == cmd.targetTerm &&
      group.anchoredConfiguration cmd.expected && group.authority.grant.isNone &&
      cmd.candidateAction.all (fun action => (stores.validateCandidate group action).isOk) &&
      preemptionPresent formats stores cmd && stores.allDirectivesAnchored &&
      stores.aggregateConsistent formats

def preempt (guarded : Guarded) (record : OperationRecord) : Attempt Guarded Guarded :=
  let watched := { guarded with
    rollback := guarded.rollback.watchOperation guarded.stores record.operationId }
  watched.journal (·.abortOperation
    ⟨record.operationId, record.revision, automaticFailoverPreemptionReason⟩)

def dispatchBeginUncontrolled : Stores × Verdict :=
  if !stores.allowsFailover then refuse stores "failover requires cluster lifecycle Created"
  else if cmd.triggerReason ≠ .manual ∧ cmd.candidateAction.isSome then
    refuse stores "automatic uncontrolled failover begin must be candidate-less"
  else if beginUncontrolledPresent formats stores cmd logIndex then replayed stores
  else
    let transition := uncontrolledTransitionFrom cmd logIndex
    let checks := do
      validatePreemption formats stores cmd
      let group ← stores.topology.knownGroup cmd.groupId
      validateBeginAnchors stores false cmd.targetTerm cmd.expected cmd.candidateAction group
      validateFailoverTransition transition
      .ok group
    afterChecks stores checks fun group => settle do
      let guarded : Guarded := ⟨stores, .start stores (some cmd.groupId) none⟩
      let guarded ← guarded.topology
        (·.beginGroupTerm ⟨cmd.groupId, cmd.expected.groupTerm, cmd.targetTerm⟩)
      let guarded ← guarded.topology (·.installFailoverTransition cmd.groupId transition logIndex)
      let requests := if cmd.triggerReason = .manual then []
        else preemptableControlledRequests formats guarded.stores cmd.groupId
      let guarded ← requests.foldlM preempt guarded
      projectControls formats group.recipients guarded.invalidateStale

variable (transition : FailoverTransition)

def transitionMatches (expected : FailoverTransitionRef) : Bool :=
  transition.transitionId == expected.transitionId && transition.revision == expected.revision

def replaceTransition (group : GroupState) (expected : FailoverTransitionRef)
    (replacement : FailoverTransition) (logIndex : UInt64) : Stores × Verdict :=
  settle do
    let guarded : Guarded := ⟨stores, .start stores (some groupId) none⟩
    let guarded ← guarded.topology
      (·.replaceFailoverTransition groupId expected replacement logIndex)
    projectControls formats group.recipients guarded

def installedTransition : Option (GroupState × FailoverTransition) :=
  (stores.findGroup groupId).bind fun group => group.failoverTransition.map (group, ·)

def checkSetCandidate (cmd : SetUncontrolledCandidate) (group : GroupState)
    (current : FailoverTransition) : Except String Unit := do
  require (transitionMatches current cmd.expectedTransition && current.mode == .uncontrolled)
    "uncontrolled failover transition CAS mismatch"
  match cmd.candidateAction with
  | none => require current.candidateAction.isSome "uncontrolled failover candidate is absent"
  | some action => do
    require (current.candidateAction.all (·.actionId ≠ action.actionId))
      "replacement failover action id must be fresh"
    stores.validateCandidate group action

def dispatchSetCandidate (cmd : SetUncontrolledCandidate) : Stores × Verdict :=
  if !stores.allowsFailover then refuse stores "failover requires cluster lifecycle Created"
  else if logIndex ≤ cmd.expectedTransition.revision then
    refuse stores "candidate replacement revision must advance"
  else match installedTransition stores cmd.groupId with
  | none => refuse stores "uncontrolled failover transition is absent"
  | some (group, current) =>
    if current.transitionId = cmd.expectedTransition.transitionId ∧
        current.revision = logIndex ∧ current.mode = .uncontrolled ∧
        current.candidateAction = cmd.candidateAction ∧
        current.targetTerm = group.record.groupTerm ∧ group.authority.grant = none ∧
        (validateFailoverTransition current).isOk ∧ stores.aggregateConsistent formats then
      replayed stores
    else
      let replacement := { current with
        revision := logIndex, candidateAction := cmd.candidateAction }
      let checks := do
        checkSetCandidate stores cmd group current
        validateFailoverTransition replacement
      afterChecks stores checks fun _ =>
        replaceTransition formats stores cmd.groupId group cmd.expectedTransition
          replacement logIndex

def dispatchStartRecovery (cmd : StartCandidateRecovery) : Stores × Verdict :=
  if !stores.allowsFailover || logIndex ≤ cmd.expectedTransition.revision then
    refuse stores "recovery requires Created lifecycle and advancing revision"
  else match installedTransition stores cmd.groupId with
  | none => refuse stores "recovery requires a fenced failover transition"
  | some (group, current) =>
    if group.authority.grant.isSome then
      refuse stores "recovery requires a fenced failover transition"
    else if !(current.mode == .uncontrolled && current.candidateAction.any fun action =>
        action.actionId == cmd.actionId && !action.operatorRecovery &&
          action.authorization.isNone) then
      refuse stores "recovery requires an unauthorized uncontrolled action"
    else if current.transitionId = cmd.expectedTransition.transitionId ∧
        current.revision = logIndex ∧
        current.recoveryDeadlineUnixMs = some cmd.recoveryDeadlineUnixMs ∧
        stores.aggregateConsistent formats then
      replayed stores
    else
      let replacement := { current with
        revision := logIndex, recoveryDeadlineUnixMs := some cmd.recoveryDeadlineUnixMs }
      let checks := do
        require (transitionMatches current cmd.expectedTransition &&
            current.recoveryDeadlineUnixMs.isNone)
          "recovery cutoff is already fixed or transition CAS is stale"
        validateFailoverTransition replacement
      afterChecks stores checks fun _ =>
        replaceTransition formats stores cmd.groupId group cmd.expectedTransition
          replacement logIndex

def authorized (current : FailoverTransition) (authorization : FailoverAuthorization)
    (revision : UInt64) : FailoverTransition :=
  { current with
    revision
    candidateAction := current.candidateAction.map fun action =>
      { action with authorization := some authorization } }

def lossFits (mode : FailoverMode) (loss : FailoverLoss) : Bool :=
  match mode with
  | .controlled => loss == .none
  | .uncontrolled => loss == .unknown

def checkAuthorize (cmd : AuthorizeFailoverPrepare) (current : FailoverTransition) :
    Except String Unit := do
  require (transitionMatches current cmd.expectedTransition &&
      current.candidateAction.any (·.actionId = cmd.actionId))
    "failover authorization CAS mismatch"
  require (current.candidateAction.all (·.authorization.isNone))
    "failover action is already authorized"
  require (!(current.mode == .uncontrolled && current.candidateAction.any (!·.operatorRecovery) &&
      current.recoveryDeadlineUnixMs.isNone))
    "uncontrolled prepare requires recovery start"
  require (lossFits current.mode cmd.lossIfCutover)
    "authorization loss does not match failover mode"

def dispatchAuthorize (cmd : AuthorizeFailoverPrepare) : Stores × Verdict :=
  if !stores.allowsFailover then refuse stores "failover requires cluster lifecycle Created"
  else if logIndex ≤ cmd.expectedTransition.revision then
    refuse stores "authorization revision must advance"
  else match installedTransition stores cmd.groupId with
  | none => refuse stores "failover transition is absent"
  | some (group, current) =>
    let authorization : FailoverAuthorization := ⟨logIndex, cmd.lossIfCutover⟩
    if current.transitionId = cmd.expectedTransition.transitionId ∧ current.revision = logIndex ∧
        (current.candidateAction.any fun action => action.actionId == cmd.actionId &&
          action.authorization == some authorization) ∧
        (validateFailoverTransition current).isOk ∧ stores.aggregateConsistent formats then
      replayed stores
    else
      let replacement := authorized current authorization logIndex
      let checks := do
        checkAuthorize cmd current
        validateFailoverTransition replacement
      afterChecks stores checks fun _ =>
        replaceTransition formats stores cmd.groupId group cmd.expectedTransition
          replacement logIndex

def controlledBy (operationId : Identity) : Bool :=
  transition.mode == .controlled && transition.controlled.any (·.operationId = operationId)

def abortedPresent (operationId : Identity) (expectedRevision : UInt64) (groupId reason : String) :
    Bool :=
  (stores.operation.findOperation operationId).any fun record =>
    (record.failoverIntent formats groupId).isSome && expectedRevision != maxU64 &&
      record.lifecycle == .aborted && record.revision == expectedRevision + 1 &&
      record.terminalResult == reason && !record.dataLossPossible

def abortPresent (cmd : AbortControlledFailover) : Bool :=
  abortedPresent formats stores cmd.operationId cmd.expectedOperationRevision
      cmd.groupId cmd.reason &&
    (match cmd.expectedTransition with
      | none => (installedTransition stores cmd.groupId).all fun installed =>
          !controlledBy installed.2 cmd.operationId
      | some _ => (stores.findGroup cmd.groupId).any (·.failoverTransition.isNone)) &&
    stores.aggregateConsistent formats

def checkAbort (cmd : AbortControlledFailover) : Except String Unit :=
  match (stores.operation.findOperation cmd.operationId).filter fun record =>
      record.pristineFailover formats && record.revision == cmd.expectedOperationRevision with
  | none => .error "controlled failover operation CAS mismatch"
  | some record =>
    match record.failoverIntent formats cmd.groupId with
    | none => .error "controlled failover operation CAS mismatch"
    | some intent =>
      match cmd.expectedTransition with
      | none => require ((installedTransition stores cmd.groupId).all fun installed =>
            !controlledBy installed.2 cmd.operationId)
          "pre-Begin abort cannot clear an installed controlled transition"
      | some expected => require ((installedTransition stores cmd.groupId).any fun installed =>
            transitionMatches installed.2 expected && controlledBy installed.2 cmd.operationId &&
              installed.2.controlled.any (·.absoluteDeadlineUnixMs = intent.absoluteDeadlineUnixMs))
          "post-Begin controlled transition CAS mismatch"

def dispatchAbortControlled (cmd : AbortControlledFailover) : Stores × Verdict :=
  if !stores.allowsFailover then refuse stores "failover requires cluster lifecycle Created"
  else if abortPresent formats stores cmd then replayed stores
  else afterChecks stores (checkAbort formats stores cmd) fun _ => settle do
    let guarded : Guarded :=
      ⟨stores, .start stores (some cmd.groupId) (some cmd.operationId)⟩
    let guarded ← guarded.journal (·.abortOperation
      ⟨cmd.operationId, cmd.expectedOperationRevision, cmd.reason⟩)
    let guarded ← match cmd.expectedTransition with
      | none => .ok guarded
      | some expected => guarded.topology (·.clearFailoverTransition cmd.groupId expected)
    projectControls formats
      (((stores.findGroup cmd.groupId).map GroupState.recipients).getD []) guarded

def retainedAction (cmd : DegradeControlledFailover) : Option FailoverCandidateAction :=
  if cmd.retainCandidateAction then cmd.expectedCandidateAction else none

def degradedPresent (cmd : DegradeControlledFailover) : Bool :=
  (installedTransition stores cmd.groupId).any fun (group, current) =>
    current.transitionId == cmd.expectedTransition.transitionId &&
      current.revision == logIndex && current.mode == .uncontrolled &&
      current.controlled.isNone && current.candidateAction == retainedAction cmd &&
      group.record.groupTerm == current.targetTerm && group.authority.grant.isNone &&
      stores.allDirectivesAnchored && (validateFailoverTransition current).isOk &&
      stores.aggregateConsistent formats

def checkDegrade (cmd : DegradeControlledFailover) :
    Except String (GroupState × FailoverTransition) :=
  match (stores.operation.findOperation cmd.operationId).filter fun record =>
      record.pristineFailover formats && record.revision == cmd.expectedOperationRevision with
  | none => .error "controlled failover operation CAS mismatch"
  | some record =>
    match record.failoverIntent formats cmd.groupId with
    | none => .error "controlled failover operation intent mismatch"
    | some intent =>
      match installedTransition stores cmd.groupId with
      | none => .error "controlled failover transition is absent"
      | some (group, current) => do
        require (transitionMatches current cmd.expectedTransition &&
            controlledBy current cmd.operationId && current.controlled.any
              (·.absoluteDeadlineUnixMs = intent.absoluteDeadlineUnixMs) &&
            current.candidateAction == cmd.expectedCandidateAction &&
            group.record.groupTerm != maxU64 &&
            current.targetTerm == group.record.groupTerm + 1 && group.authority.grant.isSome)
          "controlled failover degrade CAS mismatch"
        .ok (group, current)

def dispatchDegrade (cmd : DegradeControlledFailover) : Stores × Verdict :=
  if !stores.allowsFailover then refuse stores "failover requires cluster lifecycle Created"
  else if logIndex ≤ cmd.expectedTransition.revision then
    refuse stores "degrade revision must advance"
  else if abortedPresent formats stores cmd.operationId cmd.expectedOperationRevision
        cmd.groupId cmd.reason &&
      degradedPresent formats stores logIndex cmd then replayed stores
  else afterChecks stores (checkDegrade formats stores cmd) fun (group, current) =>
    settle do
      let guarded : Guarded :=
        ⟨stores, .start stores (some cmd.groupId) (some cmd.operationId)⟩
      let guarded ← guarded.topology
        (·.beginGroupTerm ⟨cmd.groupId, group.record.groupTerm, current.targetTerm⟩)
      let replacement := { current with
        revision := logIndex
        mode := .uncontrolled
        controlled := none
        candidateAction := retainedAction cmd }
      let guarded ← guarded.check fun _ => validateFailoverTransition replacement
      let guarded ← guarded.topology (·.replaceFailoverTransition cmd.groupId
        cmd.expectedTransition replacement logIndex)
      let guarded ← guarded.journal (·.abortOperation
        ⟨cmd.operationId, cmd.expectedOperationRevision, cmd.reason⟩)
      projectControls formats group.recipients guarded.invalidateStale

namespace CommitFailover

def isControlled (cmd : CommitFailover) : Bool :=
  match cmd.variant with
  | .controlled .. => true
  | .uncontrolled _ => false

def targetTerm (cmd : CommitFailover) : UInt64 :=
  if cmd.isControlled then cmd.expected.groupTerm + 1 else cmd.expected.groupTerm

def operationId (cmd : CommitFailover) : Option Identity :=
  match cmd.variant with
  | .controlled id _ => some id
  | .uncontrolled _ => none

end CommitFailover

def completedPresent :
    CommitVariant → Bool
  | .uncontrolled _ => true
  | .controlled operationId expectedRevision =>
    (stores.operation.findOperation operationId).any fun record =>
      (record.failoverIntent formats groupId).isSome && record.lifecycle == .completed &&
        expectedRevision != maxU64 && record.revision == expectedRevision + 1 &&
        record.terminalResult == failoverCompletedResult && !record.dataLossPossible

def commitPresent (cmd : CommitFailover) : Bool :=
  stores.allowsFailover && !(cmd.isControlled && cmd.expected.groupTerm == maxU64) &&
    (stores.findGroup cmd.groupId).any fun group =>
      group.failoverTransition.isNone && group.record.owner == cmd.expectedCandidate.nodeId &&
        group.hasAssignment cmd.expectedCandidate.nodeId cmd.expectedCandidate.assignmentId &&
        group.hasAssignment cmd.expected.ownerNodeId cmd.expected.ownerAssignmentId &&
        group.anchoredConfiguration cmd.expected &&
        group.record.groupTerm == cmd.targetTerm &&
        stores.topology.topologyEpoch == cmd.newTopologyEpoch &&
        group.authority.grant == some ⟨cmd.expectedCandidate.nodeId, some cmd.actionId⟩ &&
        stores.allDirectivesAnchored &&
        completedPresent formats stores cmd.groupId cmd.variant &&
        stores.aggregateConsistent formats

def checkCommitAction (cmd : CommitFailover) (action : FailoverCandidateAction) :
    Except String Unit :=
  match action.authorization with
  | none => .error "failover commit action CAS mismatch"
  | some authorization => do
    require (action.actionId == cmd.actionId && action.candidate == cmd.expectedCandidate &&
        authorization.authorizedRevision == cmd.authorizedRevision)
      "failover commit action CAS mismatch"
    match cmd.variant with
    | .controlled .. =>
      require (authorization.lossIfCutover == .none) "controlled failover commit must be lossless"
    | .uncontrolled lossIfCutover =>
      require (authorization.lossIfCutover == lossIfCutover)
        "uncontrolled failover loss result does not match authorization"

def checkCommitAuthority (cmd : CommitFailover) (group : GroupState)
    (transition : FailoverTransition) : Except String Unit :=
  match cmd.variant with
  | .controlled operationId expectedRevision =>
    match transition.controlled with
    | none => .error "controlled failover current authority is stale"
    | some controlled => do
      require (controlled.operationId == operationId &&
          transition.targetTerm == cmd.expected.groupTerm + 1 &&
          group.authority.grant.any (·.owner = cmd.expected.ownerNodeId))
        "controlled failover current authority is stale"
      validateControlledOperation formats stores operationId expectedRevision cmd.groupId
        controlled.absoluteDeadlineUnixMs
  | .uncontrolled _ =>
    require (transition.targetTerm == cmd.expected.groupTerm && group.authority.grant.isNone)
      "uncontrolled failover is not fenced in its target term"

def validateCommitPrestate (cmd : CommitFailover) (group : GroupState)
    (transition : FailoverTransition) : Except String Unit := do
  require (transitionMatches transition cmd.expectedTransition &&
      transition.mode == if cmd.isControlled then .controlled else .uncontrolled)
    "failover commit transition CAS mismatch"
  match transition.candidateAction with
  | none => .error "failover commit transition CAS mismatch"
  | some action => checkCommitAction cmd action
  require (group.anchoredOwner cmd.expected && group.hasAssignment cmd.expectedCandidate.nodeId
        cmd.expectedCandidate.assignmentId &&
      stores.identity.isActiveNode cmd.expectedCandidate.nodeId &&
      group.anchoredConfiguration cmd.expected && group.record.groupTerm == cmd.expected.groupTerm)
    "failover commit group anchor is stale"
  checkCommitAuthority formats stores cmd group transition

def commitFence (cmd : CommitFailover) (targetTerm : UInt64) (guarded : Guarded) :
    Attempt Guarded Guarded :=
  if cmd.isControlled then guarded.topology (·.beginGroupTerm
    ⟨cmd.groupId, cmd.expected.groupTerm, targetTerm⟩)
  else .ok guarded

def commitComplete (variant : CommitVariant) (guarded : Guarded) : Attempt Guarded Guarded :=
  match variant with
  | .uncontrolled _ => .ok guarded
  | .controlled operationId expectedRevision => guarded.journal (·.completeOperation
      ⟨operationId, expectedRevision, failoverCompletedResult, false⟩)

/-- `ApplyFailoverCommit`: a controlled commit fences the old owner and grants the candidate in
one step; an uncontrolled one grants the candidate in the term its Begin fenced. -/
def dispatchCommitFailover (cmd : CommitFailover) : Stores × Verdict :=
  if !stores.allowsFailover then refuse stores "failover requires cluster lifecycle Created"
  else if commitPresent formats stores cmd then replayed stores
  else match installedTransition stores cmd.groupId with
  | none => refuse stores "failover commit transition is absent"
  | some (group, transition) =>
    afterChecks stores (validateCommitPrestate formats stores cmd group transition) fun _ =>
      settle do
        let guarded : Guarded :=
          ⟨stores, .start stores (some cmd.groupId) cmd.operationId⟩
        let guarded ← commitFence cmd transition.targetTerm guarded
        let guarded ← guarded.topology (authorityActivationKernel stores.identity
          ⟨cmd.groupId, transition.targetTerm, cmd.expectedCandidate.nodeId,
            cmd.newTopologyEpoch⟩ (some cmd.actionId))
        let guarded ← guarded.topology
          (·.clearFailoverTransition cmd.groupId cmd.expectedTransition)
        let guarded ← commitComplete cmd.variant guarded
        projectControls formats group.recipients guarded.invalidateStale

end Lavik.Meta
