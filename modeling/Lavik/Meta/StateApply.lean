import Lavik.Base.TransitionSystem
import Lavik.Meta.FailoverDispatch
/-!
# Applying committed commands

`applyCommitted` decides one committed command against the stores. The dispatch functions of the
operation journal are here; the others are in the modules above. After an accepted command the
directives that lost their anchor are dropped, and every command is written to the audit window.
-/

namespace Lavik.Meta

open Base

/-! ## Operations -/

variable (formats : Formats) (stores : Stores)

def clusterCreatePresent (operationId : Identity) (logIndex : UInt64) : Bool :=
  let lifecycle := stores.topology.clusterLifecycle
  let live (accepts : OperationRecord → Bool) :=
    (stores.operation.findOperation operationId).any fun record =>
      record.matchesLifecycle formats lifecycle && accepts record
  let archived (terminal : OperationLifecycle) (accepts : String → Bool) :=
    (stores.operation.findArchived operationId).any fun summary =>
      summary.operationSeq == logIndex && summary.terminalLifecycle == terminal &&
        accepts summary.terminalResult
  lifecycle.rootOperationId == operationId && lifecycle.genesisCommitIndex == logIndex &&
    match lifecycle.state with
    | .uninitialized => false
    | .creating => live fun record => !record.lifecycle.isTerminal
    | .created =>
      live (fun record => record.lifecycle == .completed &&
        record.terminalResult == clusterCreatedResult) ||
        archived .completed (· == clusterCreatedResult)
    | .provisioningFailed =>
      live (fun record => record.lifecycle == .aborted) || archived .aborted fun _ => true

variable (cmd : SubmitOperation)

def submittedFailover : Except String (Option String) :=
  if cmd.kind ≠ failoverOperationKind then .ok none
  else do
    require stores.allowsFailover "failover submission requires cluster lifecycle Created"
    match formats.decodeFailoverOperationIntent cmd.intent with
    | none => .error "failover submission requires canonical request-only intent"
    | some intent => do
      require (cmd.intentHash == formats.sha256 cmd.intent && isZero cmd.replicationHistoryId)
        "failover submission requires canonical request-only intent"
      .ok (some intent.groupId)

def checkCreation : Except String Unit :=
  match formats.decodeClusterCreateRequest cmd.intent with
  | .error text => .error s!"invalid canonical cluster-create intent: {text}"
  | .ok intentRoot => do
    require (intentRoot == cmd.operationId) "cluster-create intent root id mismatch"
    require (cmd.intentHash == formats.sha256 cmd.intent) "cluster-create intent hash mismatch"

def checkSubmit (logIndex : UInt64) : Except String Unit := do
  let creation := cmd.kind == clusterCreateOperationKind
  let lifecycle := stores.topology.clusterLifecycle
  let failoverGroup ← submittedFailover formats stores cmd
  require (creation || lifecycle.state == .uninitialized ||
    lifecycle.rootOperationId != cmd.operationId)
    "operation id is permanently reserved by ClusterCreate"
  if creation then checkCreation formats cmd else .ok ()
  if stores.operation.operationKnown cmd.operationId then
    require (!creation || clusterCreatePresent formats stores cmd.operationId logIndex)
      "cluster-create replay does not match the complete Genesis effect"
  else do
    require (failoverGroup.all fun groupId => !stores.groupHasActiveFailover groupId)
      "controlled submission conflicts with active failover transition"
    require (!((creation || cmd.kind == membershipOperationKind) && (lifecycle.state == .creating ||
          stores.operation.hasActiveKind membershipOperationKind)))
      "another durable Meta membership/creation workflow is active"
    require (!creation || lifecycle.state == .uninitialized) "cluster has already accepted creation"
    require (!creation || !stores.hasDataClusterArtifacts)
      "cluster creation requires pristine unreserved state"

variable (logIndex : UInt64)

def dispatchSubmitOperation (cmd : SubmitOperation) (actor : ActorContext) :
    Option (Stores × Verdict) :=
  match checkSubmit formats stores cmd logIndex with
  | .error text => some (refuse stores text)
  | .ok _ =>
    (stores.operation.submitOperation cmd actor logIndex).map fun outcome =>
      Guarded.settle do
        let guarded : Guarded := ⟨stores, .start stores none (some cmd.operationId)⟩
        let guarded ← guarded.journal fun _ => outcome
        if cmd.kind = clusterCreateOperationKind then
          guarded.topology (·.beginClusterCreate cmd.operationId logIndex)
        else .ok guarded

variable (cmd : TransitionOperationPhase)

def checkTransition : Except String Unit :=
  match stores.operation.findOperation cmd.operationId with
  | none => .ok ()
  | some record => do
    require (record.kind != failoverOperationKind)
      "failover operations do not use generic phase transitions"
    cmd.currentDirectives.forM fun directive => do
      require (!directive.initializesEmpty || directive.payload ==
          (hexBytes record.replicationHistoryId.toList).toUTF8.toList)
        "empty-population target history is not operation-bound"
      stores.validateDirectiveAnchor directive

def affectedRecipients : List String :=
  let installed := ((stores.operation.findOperation cmd.operationId).map
    OperationRecord.currentDirectives).getD []
  installed.map (·.spec.recipientNodeId) ++ cmd.currentDirectives.map DirectiveSpec.recipientNodeId

def dispatchTransitionPhase : Stores × Verdict :=
  let transition (operation : OperationStore) :=
    operation.transitionOperationPhase formats.rebuildRequestOk cmd logIndex
  if stores.operation.transitionAlreadyApplied cmd then
    fromStatus stores (stores.onOperation (transition stores.operation))
  else afterChecks stores (checkTransition stores cmd) fun _ => Guarded.settle do
    let guarded : Guarded := ⟨stores, .start stores none (some cmd.operationId)⟩
    let guarded ← guarded.journal transition
    projectControls formats (affectedRecipients stores cmd) guarded

def isCreationRoot (operationId : Identity) : Bool :=
  (stores.operation.findOperation operationId).any (·.kind = clusterCreateOperationKind) ||
    (stores.topology.clusterLifecycle.state != .uninitialized &&
      stores.topology.clusterLifecycle.rootOperationId == operationId)

/-- The checks both ends of a cluster creation share: the live root matches the lifecycle, and the
two halves of a replay agree. -/
def checkCreationEnd (operationId : Identity) (operationPresent : OperationRecord → Bool)
    (lifecyclePresent : Bool) (further : Bool) (mismatch furtherText halves : String) :
    Except String Unit :=
  match (stores.operation.findOperation operationId).filter fun record =>
      record.matchesLifecycle formats stores.topology.clusterLifecycle with
  | none => .error mismatch
  | some record => do
    require further furtherText
    require (operationPresent record == lifecyclePresent) halves

def dispatchCompleteOperation (cmd : CompleteOperation) : Stores × Verdict :=
  let lifecycle := stores.topology.clusterLifecycle
  if (stores.operation.findOperation cmd.operationId).any (·.kind = failoverOperationKind) then
    refuse stores "failover operations require typed completion"
  else if !isCreationRoot stores cmd.operationId then
    fromStatus stores (stores.onOperation (stores.operation.completeOperation cmd))
  else if cmd.result ≠ clusterCreatedResult then
    refuse stores "cluster-create root requires result cluster-created"
  else
    let checks := checkCreationEnd formats stores cmd.operationId
      (fun record => record.lifecycle == .completed && cmd.expectedRevision != maxU64 &&
        record.revision == cmd.expectedRevision + 1 &&
        record.terminalResult == cmd.result &&
        record.dataLossPossible == cmd.dataLossPossible)
      (lifecycle.state == .created && lifecycle.rootOperationId == cmd.operationId &&
        lifecycle.failureSummary == "")
      (stores.policy.hasAllCurrent formats)
      "cluster-create completion root anchor mismatch"
      "cluster-create completion requires all current global Policies"
      "cluster-create completion replay halves do not agree"
    afterChecks stores checks fun _ => Guarded.settle do
      let guarded : Guarded := ⟨stores, .start stores none (some cmd.operationId)⟩
      let guarded ← guarded.journal (·.completeOperation cmd)
      guarded.topology (·.completeClusterCreate cmd.operationId)

def clusterFailureSummary (operationId : Identity) : String :=
  "cluster-create provisioning failed; root-operation=" ++ hexBytes operationId.toList

def dispatchAbortOperation (cmd : AbortOperation) : Stores × Verdict :=
  let lifecycle := stores.topology.clusterLifecycle
  let summary := clusterFailureSummary cmd.operationId
  if (stores.operation.findOperation cmd.operationId).any (·.kind = failoverOperationKind) then
    refuse stores "failover operations require typed abort"
  else if !isCreationRoot stores cmd.operationId then
    fromStatus stores (stores.onOperation (stores.operation.abortOperation cmd))
  else
    let checks := checkCreationEnd formats stores cmd.operationId
      (fun record => record.lifecycle == .aborted && cmd.expectedRevision != maxU64 &&
        record.revision == cmd.expectedRevision + 1 &&
        record.terminalResult == cmd.reason)
      (lifecycle.state == .provisioningFailed &&
        lifecycle.rootOperationId == cmd.operationId && lifecycle.failureSummary == summary)
      true
      "cluster-create abort root anchor mismatch"
      ""
      "cluster-create abort replay halves do not agree"
    afterChecks stores checks fun _ => Guarded.settle do
      let guarded : Guarded := ⟨stores, .start stores none (some cmd.operationId)⟩
      let guarded ← guarded.journal (·.abortOperation cmd)
      guarded.topology (·.failClusterCreate cmd.operationId summary)

def checkResultAnchor (cmd : CommitDirectiveResult) : Except String Unit :=
  if (stores.operation.findTerminalReceipt cmd.key).isSome then .ok ()
  else match (stores.operation.findOperation cmd.key.operationId).bind fun record =>
      record.currentDirectives.find? (·.named cmd.key) with
  | none => .ok ()
  | some current => stores.validateDirectiveAnchor current.spec

def dispatchCommitDirectiveResult (cmd : CommitDirectiveResult) : Stores × Verdict :=
  fromStatus stores do
    checkResultAnchor stores cmd
    stores.onOperation (stores.operation.commitDirectiveResult cmd logIndex)

/-! ## The state machine -/

variable (env : Environment)

def dispatch (stores : Stores) (logIndex : UInt64) (actor : ActorContext) :
    Command → Option (Stores × Verdict)
  | .registerNode cmd => some (fromStatus stores
      (stores.onIdentity (stores.identity.registerNode env.toFormats cmd)))
  | .updateNode cmd => some (dispatchUpdateNode env.toFormats stores cmd)
  | .retireNode cmd => some (dispatchRetireNode stores cmd)
  | .createGroup cmd => some (fromStatus stores
      (stores.onTopology (stores.topology.createGroup cmd)))
  | .assignNodeToGroup cmd => some (dispatchAssign stores cmd)
  | .removeNodeFromGroup cmd => some (dispatchRemove stores cmd)
  | .setSlotMap cmd => some (dispatchSetSlotMap stores cmd)
  | .beginGroupTerm cmd => some (dispatchBeginGroupTerm env.toFormats stores cmd
      "group term change is blocked by an active failover transition")
  | .activateAuthority cmd => some (dispatchActivateAuthority env.toFormats stores cmd)
  | .fenceGroup cmd => some (dispatchBeginGroupTerm env.toFormats stores cmd
      "fencing is blocked by an active failover transition")
  | .putPolicy cmd => some (fromStatus stores
      ((stores.policy.putPolicy env.toFormats cmd).map fun policy => { stores with policy }))
  | .submitOperation cmd => dispatchSubmitOperation env.toFormats stores logIndex cmd actor
  | .transitionOperationPhase cmd =>
    some (dispatchTransitionPhase env.toFormats stores logIndex cmd)
  | .completeOperation cmd => some (dispatchCompleteOperation env.toFormats stores cmd)
  | .abortOperation cmd => some (dispatchAbortOperation env.toFormats stores cmd)
  | .archiveOperations seqs => some (fromStatus stores
      (stores.onOperation (stores.operation.archiveOperations seqs)))
  | .pruneAudit through => some (fromStatus stores
      ((stores.audit.pruneThrough through).map fun audit => { stores with audit }))
  | .pruneOperationArchive seqs => some (fromStatus stores
      (stores.onOperation (stores.operation.pruneArchive seqs)))
  | .bindMetaMember cmd => some (fromStatus stores
      (stores.onIdentity (stores.identity.bindMetaMember env.toFormats cmd)))
  | .retireMetaMember serverId => some (fromStatus stores
      (stores.onIdentity (stores.identity.retireMetaMember serverId)))
  | .setGroupReplicationState cmd => some (dispatchSetGroupReplicationState stores cmd)
  | .setAuditPolicy policy _ => some (fromStatus stores
      ((stores.audit.setPolicy policy).map fun audit => { stores with audit }))
  | .putPopulationManifest cmd => some (dispatchPutPopulationManifest env stores cmd)
  | .prunePopulationManifest digest => some (dispatchPrunePopulationManifest stores digest)
  | .commitDirectiveResult cmd =>
    some (dispatchCommitDirectiveResult stores logIndex cmd)
  | .pruneTerminalReceipts receipts => some (fromStatus stores
      (stores.onOperation (stores.operation.pruneTerminalReceipts receipts)))
  | .beginControlledFailover cmd =>
    some (dispatchBeginControlled env.toFormats stores logIndex cmd)
  | .beginUncontrolledFailover cmd =>
    some (dispatchBeginUncontrolled env.toFormats stores logIndex cmd)
  | .setUncontrolledCandidate cmd =>
    some (dispatchSetCandidate env.toFormats stores logIndex cmd)
  | .authorizeFailoverPrepare cmd =>
    some (dispatchAuthorize env.toFormats stores logIndex cmd)
  | .abortControlledFailover cmd =>
    some (dispatchAbortControlled env.toFormats stores cmd)
  | .degradeControlledFailover cmd =>
    some (dispatchDegrade env.toFormats stores logIndex cmd)
  | .commitFailover cmd => some (dispatchCommitFailover env.toFormats stores cmd)
  | .startCandidateRecovery cmd =>
    some (dispatchStartRecovery env.toFormats stores logIndex cmd)

def Command.changesAuditPolicy : Command → Bool
  | .setAuditPolicy .. => true
  | _ => false

def Verdict.recorded : Verdict → Verdict
  | .accepted => .accepted
  | .rejected detail => .rejected (if maxAuditDetailBytes < detail.utf8ByteSize then
      "rejection detail exceeded the audit cap" else detail)

def auditRecord (logIndex : UInt64) (cmd : CommittedCommand) (verdict : Verdict) : AuditRecord where
  logIndex := logIndex
  actorPrincipal := cmd.actor.principal
  commandSummary :=
    if maxAuditSummaryBytes < (env.summary cmd.body logIndex).utf8ByteSize then
      "command summary exceeded the audit cap"
    else env.summary cmd.body logIndex
  verdict := verdict.recorded
  readableTime := cmd.actor.readableTime

def reconcile : Verdict → Stores
  | .accepted => stores.invalidateStaleCurrentDirectives
  | .rejected _ => stores

def applyCommitted (stores : Stores) (logIndex : UInt64) (cmd : CommittedCommand) :
    Option (Stores × Verdict) :=
  if logIndex = 0 then
    some (refuse stores "raft log index 0 is not a committed entry")
  else if maxPrincipalBytes < cmd.actor.principal.utf8ByteSize ∨
      maxAuditReadableTimeBytes < cmd.actor.readableTime.utf8ByteSize then
    some (refuse stores "actor context exceeds the audit record caps")
  else do
    let (decided, verdict) ← dispatch env stores logIndex cmd.actor cmd.body
    let after := reconcile decided verdict
    let audit ← after.audit.append (auditRecord env logIndex cmd verdict)
      cmd.body.changesAuditPolicy
    some ({ after with audit }, verdict)

/-! ## Runs -/

structure MetaState where
  stores : Stores := {}
  lastIndex : UInt64 := 0

def metaSystem : TransitionSystem MetaState (UInt64 × CommittedCommand) where
  init state := state = {}
  step state label after := state.lastIndex < label.1 ∧ after.lastIndex = label.1 ∧
    ∃ verdict, applyCommitted env state.stores label.1 label.2 = some (after.stores, verdict)

def applyLog (env : Environment) : MetaState → List (UInt64 × CommittedCommand) → Option MetaState
  | state, [] => some state
  | state, (index, cmd) :: rest =>
    if state.lastIndex < index then
      match applyCommitted env state.stores index cmd with
      | some (stores, _) => applyLog env ⟨stores, index⟩ rest
      | none => none
    else none

theorem applyLog_run {env : Environment} {state after : MetaState}
    {log : List (UInt64 × CommittedCommand)} (applied : applyLog env state log = some after) :
    (metaSystem env).Run state log after := by
  induction log generalizing state with
  | nil =>
    cases applied
    exact .nil _
  | cons label rest ih =>
    obtain ⟨index, cmd⟩ := label
    unfold applyLog at applied
    split at applied
    · rename_i increasing
      cases done : applyCommitted env state.stores index cmd with
      | none => simp [done] at applied
      | some decided =>
        obtain ⟨stores, verdict⟩ := decided
        simp only [done] at applied
        exact .cons ⟨increasing, rfl, verdict, done⟩ (ih applied)
    · cases applied

def permissive : Environment where
  sha256 _ := zeroes 32
  decodeFailoverOperationIntent _ := none
  decodeClusterCreateRequest _ := .error ""
  rebuildRequestOk _ := false
  canonicalDigest _ := zeroes 32
  validateRegisteredDocument _ _ := .ok ()
  validateDataEndpoints _ := .ok ()
  validateDataNodePrincipal _ _ := .ok ()
  metaMemberPrincipal _ _ := true
  canonicalDataControlEndpoint text := .ok text
  canonicalAdminEndpoint text := .ok text
  validateActiveMetaDirectory _ := .ok ()
  snapshotBytes _ := 0
  summary _ _ := ""

def repeated (byte : UInt8) : Identity := ⟨List.replicate 16 byte, rfl⟩

def unattributed (body : Command) : CommittedCommand := ⟨zeroes 16, ⟨"", ""⟩, body⟩

def firstGrant : List (UInt64 × CommittedCommand) :=
  let entry (body : Command) : CommittedCommand := ⟨zeroes 16, ⟨"", ""⟩, body⟩
  [(1, entry (.registerNode ⟨"n", "p", ["e"], .primary⟩)), (2, entry (.createGroup ⟨"g", 1⟩)),
    (3, entry (.assignNodeToGroup ⟨"g", "n", ⟨1 :: List.replicate 15 0, rfl⟩, .primary, 1, 2⟩)),
    (4, entry (.putPolicy ⟨authorityLeasePolicyId, 1, [1]⟩)),
    (5, entry (.beginGroupTerm ⟨"g", 0, 1⟩)), (6, entry (.activateAuthority ⟨"g", 1, "n", 3⟩))]

end Lavik.Meta
