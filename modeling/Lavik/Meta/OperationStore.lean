import Mathlib.Data.List.Dedup
import Lavik.Base.AssocMap
import Lavik.Meta.Commands
/-!
# The operation store

Live records by client-chosen id and by the log index that submitted them, and summaries of
archived ones. A live record moves through its lifecycle under a revision that every phase change
must name.
-/

namespace Lavik.Meta

open Base

def maxActiveOperations : Nat := 4096

def maxArchivedOperationSummaries : Nat := 65536

def maxTerminalReceiptsPerOperation : Nat := 1024

def maxTerminalReceiptPrunesPerCommand : Nat := 1024

def maxDirectivesPerOperation : Nat := 1024

def maxDirectiveKindBytes : Nat := 64

def maxOperationKindBytes : Nat := 64

def maxAbortReasonBytes : Nat := 1024

/-! ## Directives -/

def directiveRebuild : String := "rebuild"

def directiveAuthorizeSource : String := "authorize-source"

def directiveRevokeSources : String := "revoke-sources"

def directiveInitializeEmptyPopulation : String := "initialize-empty-population"

namespace DirectiveSpec

variable (directive : DirectiveSpec)

def isPopulation : Bool :=
  directive.kind == directiveRebuild || directive.kind == directiveInitializeEmptyPopulation

def isSource : Bool :=
  directive.kind == directiveAuthorizeSource || directive.kind == directiveRevokeSources

def initializesEmpty : Bool :=
  directive.kind == directiveInitializeEmptyPopulation

def recipientBoot : Option Incarnation :=
  if directive.isPopulation ∧ directive.recipientNodeId = directive.targetNodeId then
    some directive.targetBootId
  else if directive.isSource ∧ directive.recipientNodeId = directive.sourceNodeId then
    some directive.sourceBootId
  else none

def recipientMatchesKind : Bool :=
  if directive.isPopulation then directive.recipientNodeId == directive.targetNodeId
  else directive.isSource && directive.recipientNodeId == directive.sourceNodeId

def sourceValid : Bool :=
  if directive.initializesEmpty then
    directive.sourceNodeId == String.ofList (List.replicate nodeIdBytes '0') &&
      isZero directive.sourceAssignmentId && isZero directive.sourceBootId &&
      isZero directive.sourceReplicationHistoryId
  else
    isCanonicalNodeId directive.sourceNodeId && !isZero directive.sourceAssignmentId &&
      !isZero directive.sourceBootId && !isZero directive.sourceReplicationHistoryId

def isHexByte (byte : UInt8) : Bool :=
  (0x30 ≤ byte && byte ≤ 0x39) || (0x61 ≤ byte && byte ≤ 0x66)

def payloadValid (rebuildRequestOk : Blob → Bool) : Bool :=
  if directive.initializesEmpty then
    directive.payload.length == 40 && directive.payload.all isHexByte
  else if directive.kind = directiveRebuild ∨ directive.kind = directiveAuthorizeSource then
    rebuildRequestOk directive.payload
  else directive.payload.isEmpty

def wellFormed (rebuildRequestOk : Blob → Bool) : Bool :=
  (directive.isPopulation || directive.isSource) &&
    !isZero directive.directiveId && !isZero directive.attemptId &&
    isCanonicalNodeId directive.recipientNodeId && isCanonicalNodeId directive.targetNodeId &&
    !isZero directive.targetBootId && !isZero directive.assignmentId && directive.sourceValid &&
    directive.groupId != "" && directive.groupId.utf8ByteSize ≤ maxGroupIdBytes &&
    directive.groupTerm != 0 &&
    (directive.populationManifestRevision == 0) == isZero directive.populationManifestDigest &&
    directive.kind.utf8ByteSize ≤ maxDirectiveKindBytes &&
    directive.payload.length ≤ maxPayloadBytes && directive.payloadValid rebuildRequestOk &&
    directive.recipientMatchesKind

end DirectiveSpec

/-! ## Records -/

inductive OperationLifecycle where
  | submitted
  | running
  | completed
  | aborted
deriving DecidableEq

def OperationLifecycle.isTerminal (lifecycle : OperationLifecycle) : Bool :=
  lifecycle == .completed || lifecycle == .aborted

structure CurrentDirective where
  spec : DirectiveSpec
  directiveRevision : UInt64
deriving DecidableEq

def CurrentDirective.named (current : CurrentDirective) (key : TerminalReceiptKey) : Bool :=
  current.spec.directiveId == key.directiveId && current.spec.attemptId == key.attemptId &&
    current.directiveRevision == key.directiveRevision

structure TerminalReceipt where
  key : TerminalReceiptKey
  recipientNodeId : String
  recipientBootId : Incarnation
  assignmentId : Identity
  status : DirectiveResultStatus
  result : String
  committedIndex : UInt64
deriving DecidableEq

structure OperationRecord where
  operationId : Identity
  operationSeq : UInt64
  kind : String
  intent : Blob
  intentHash : Hash256
  replicationHistoryId : Incarnation
  lifecycle : OperationLifecycle := .submitted
  kindPhaseBlob : Blob := []
  currentDirectives : List CurrentDirective := []
  terminalReceipts : List TerminalReceipt := []
  revision : UInt64 := 0
  terminalResult : String := ""
  dataLossPossible : Bool := false
  actor : ActorContext
deriving DecidableEq

structure OperationArchiveSummary where
  operationId : Identity
  operationSeq : UInt64
  intentHash : Hash256
  actor : ActorContext
  terminalLifecycle : OperationLifecycle
  terminalResult : String
  dataLossPossible : Bool
  terminalReceipts : List TerminalReceipt
deriving DecidableEq

@[ext] structure OperationStore where
  live : AssocMap Identity OperationRecord := []
  liveBySeq : AssocMap UInt64 Identity := []
  archived : AssocMap Identity OperationArchiveSummary := []
  archivedBySeq : AssocMap UInt64 Identity := []
  activeCount : Nat := 0

namespace OperationStore

variable (store : OperationStore) (id : Identity)

def findOperation : Option OperationRecord :=
  store.live.get id

def findArchived : Option OperationArchiveSummary :=
  store.archived.get id

def operationKnown : Bool :=
  (store.live.get id).isSome || (store.archived.get id).isSome

def liveOperations : List OperationRecord := store.live.map Prod.snd

def hasActiveKind (kind : String) : Bool :=
  store.liveOperations.any fun record => record.kind == kind && !record.lifecycle.isTerminal

def populationManifestInUse (digest : Hash256) : Bool :=
  store.liveOperations.any fun record => !record.lifecycle.isTerminal &&
    record.currentDirectives.any fun current =>
      current.spec.populationManifestRevision != 0 &&
        current.spec.populationManifestDigest == digest

def findTerminalReceipt (key : TerminalReceiptKey) : Option TerminalReceipt :=
  let among (receipts : List TerminalReceipt) := receipts.find? (·.key = key)
  ((store.live.get key.operationId).bind fun record => among record.terminalReceipts) <|>
    (store.archived.get key.operationId).bind fun summary => among summary.terminalReceipts

def setLive (record : OperationRecord) : OperationStore :=
  { store with live := store.live.set id record }

/-- `SubmitOperation`: `none` when the store aborts the process because the log index of a new
operation is zero or taken. -/
def submitOperation (cmd : SubmitOperation) (actor : ActorContext) (operationSeq : UInt64) :
    Option (Except String OperationStore) :=
  if cmd.kind = "" ∨ maxOperationKindBytes < cmd.kind.utf8ByteSize then
    some (.error "operation kind is empty or exceeds its cap")
  else if maxPayloadBytes < cmd.intent.length then
    some (.error "operation intent exceeds its cap")
  else match store.live.get cmd.operationId, store.archived.get cmd.operationId with
  | some record, _ =>
    if record.intentHash = cmd.intentHash ∧ record.intent = cmd.intent then some (.ok store)
    else some (.error "operation id reused with a different intent")
  | none, some summary =>
    if summary.intentHash = cmd.intentHash then some (.ok store)
    else some (.error "operation id reused with a different intent")
  | none, none =>
    if operationSeq = 0 ∨ (store.liveBySeq.get operationSeq).isSome ∨
        (store.archivedBySeq.get operationSeq).isSome then none
    else if maxActiveOperations ≤ store.activeCount then
      some (.error "max_active_operations reached")
    else if maxActiveOperations + maxArchivedOperationSummaries ≤ store.live.length then
      some (.error "live operation record bound reached; archive terminal operations")
    else some (.ok { store.setLive cmd.operationId {
          operationId := cmd.operationId
          operationSeq
          kind := cmd.kind
          intent := cmd.intent
          intentHash := cmd.intentHash
          replicationHistoryId := cmd.replicationHistoryId
          actor } with
        liveBySeq := store.liveBySeq.set operationSeq cmd.operationId
        activeCount := store.activeCount + 1 })

def liveRecord : Except String OperationRecord :=
  match store.live.get id with
  | some record => .ok record
  | none =>
    if (store.archived.get id).isSome then .error "operation is archived (already terminal)"
    else .error "unknown operation id"

variable (record : OperationRecord)

def checkRevision (expectedRevision : UInt64) : Except String Unit := do
  require (!record.lifecycle.isTerminal) "operation is terminal"
  require (record.revision == expectedRevision) "expected_revision mismatch"

def transitionApplied (cmd : TransitionOperationPhase) : Bool :=
  record.lifecycle == .running && record.revision == cmd.expectedRevision + 1 &&
    record.kindPhaseBlob == cmd.kindPhaseBlob &&
    record.currentDirectives.map CurrentDirective.spec == cmd.currentDirectives

def transitionAlreadyApplied (cmd : TransitionOperationPhase) : Bool :=
  cmd.expectedRevision != maxU64 && (store.live.get cmd.operationId).any (transitionApplied · cmd)

def mutatingTargets (directives : List DirectiveSpec) : List (String × Identity) :=
  (directives.filter DirectiveSpec.isPopulation).map fun directive =>
    (directive.targetNodeId, directive.assignmentId)

def checkEach (rebuildRequestOk : Blob → Bool) (before : List DirectiveSpec) :
    List DirectiveSpec → Except String Unit
  | [] => .ok ()
  | directive :: rest => do
    require (directive.wellFormed rebuildRequestOk && before.all fun earlier =>
        earlier.directiveId != directive.directiveId && earlier.attemptId != directive.attemptId)
      "invalid or duplicate current directive"
    require (!directive.isPopulation ||
        (directive.targetNodeId, directive.assignmentId) ∉ mutatingTargets before)
      "multiple storage-mutating directives for one assignment"
    checkEach rebuildRequestOk (directive :: before) rest

def checkDirectives (rebuildRequestOk : Blob → Bool) (cmd : TransitionOperationPhase) :
    Except String Unit := do
  checkEach rebuildRequestOk [] cmd.currentDirectives
  require (store.live.all fun other =>
      other.1 == cmd.operationId || other.2.lifecycle.isTerminal ||
        (mutatingTargets (other.2.currentDirectives.map CurrentDirective.spec)).all fun target =>
          target ∉ mutatingTargets cmd.currentDirectives)
    "storage-mutating directive conflicts with another operation"

def installed (directives : List DirectiveSpec) (committedIndex : UInt64) : List CurrentDirective :=
  directives.map fun desired =>
    match record.currentDirectives.find? (·.spec.directiveId = desired.directiveId) with
    | some old => ⟨desired, if old.spec = desired then old.directiveRevision else committedIndex⟩
    | none => ⟨desired, committedIndex⟩

def transitionOperationPhase (rebuildRequestOk : Blob → Bool) (cmd : TransitionOperationPhase)
    (committedIndex : UInt64) : Except String OperationStore := do
  let record ← store.liveRecord cmd.operationId
  require (cmd.expectedRevision != maxU64) "expected_revision overflow"
  if transitionApplied record cmd then .ok store
  else do
    checkRevision record cmd.expectedRevision
    require (cmd.kindPhaseBlob.length ≤ maxPayloadBytes) "kind_phase_blob exceeds its cap"
    require (committedIndex != 0 && cmd.currentDirectives.length ≤ maxDirectivesPerOperation)
      "invalid directive transition index/count"
    store.checkDirectives rebuildRequestOk cmd
    .ok (store.setLive cmd.operationId { record with
      lifecycle := .running
      kindPhaseBlob := cmd.kindPhaseBlob
      currentDirectives := installed record cmd.currentDirectives committedIndex
      revision := cmd.expectedRevision + 1 })

def terminated (lifecycle : OperationLifecycle) (result : String) (dataLossPossible : Bool)
    (revision : UInt64) : OperationRecord :=
  { record with
    lifecycle
    currentDirectives := []
    terminalResult := result
    dataLossPossible
    revision }

def completeOperation (cmd : CompleteOperation) : Except String OperationStore := do
  let record ← store.liveRecord cmd.operationId
  require (cmd.expectedRevision != maxU64) "expected_revision overflow"
  if record.lifecycle = .completed ∧ record.revision = cmd.expectedRevision + 1 ∧
      record.terminalResult = cmd.result ∧
      record.dataLossPossible = cmd.dataLossPossible then .ok store
  else do
    checkRevision record cmd.expectedRevision
    require (cmd.result.utf8ByteSize ≤ maxPayloadBytes) "terminal result exceeds its cap"
    .ok { store.setLive cmd.operationId (terminated record .completed cmd.result
        cmd.dataLossPossible (cmd.expectedRevision + 1)) with
      activeCount := store.activeCount - 1 }

def abortOperation (cmd : AbortOperation) : Except String OperationStore := do
  let record ← store.liveRecord cmd.operationId
  require (cmd.expectedRevision != maxU64) "expected_revision overflow"
  if record.lifecycle = .aborted ∧ record.revision = cmd.expectedRevision + 1 ∧
      record.terminalResult = cmd.reason then .ok store
  else do
    checkRevision record cmd.expectedRevision
    require (cmd.reason.utf8ByteSize ≤ maxAbortReasonBytes) "abort reason exceeds its cap"
    .ok { store.setLive cmd.operationId (terminated record .aborted cmd.reason false
        (cmd.expectedRevision + 1)) with
      activeCount := store.activeCount - 1 }

/-! ## Results, archive and pruning -/

def receiptMatches (receipt : TerminalReceipt) (cmd : CommitDirectiveResult) : Bool :=
  receipt.recipientNodeId == cmd.recipientNodeId &&
    receipt.recipientBootId == cmd.recipientBootId &&
    receipt.assignmentId == cmd.assignmentId && receipt.status == cmd.status &&
    receipt.result == cmd.result

variable (cmd : CommitDirectiveResult)

def resultValid (committedIndex : UInt64) : Bool :=
  committedIndex != 0 && !isZero cmd.key.operationId && !isZero cmd.key.directiveId &&
    !isZero cmd.key.attemptId && cmd.key.directiveRevision != 0 &&
    cmd.recipientNodeId.utf8ByteSize == nodeIdBytes && !isZero cmd.recipientBootId &&
    !isZero cmd.assignmentId && cmd.result.utf8ByteSize ≤ maxPayloadBytes

def trackedDirective : Except String (OperationRecord × CurrentDirective) :=
  match store.live.get cmd.key.operationId with
  | none => .error "directive result is no longer tracked"
  | some record =>
    if record.lifecycle.isTerminal then .error "directive result is no longer tracked"
    else match record.currentDirectives.find? (·.named cmd.key) with
    | none => .error "directive result is no longer tracked"
    | some current => .ok (record, current)

def commitDirectiveResult (committedIndex : UInt64) : Except String OperationStore :=
  match store.findTerminalReceipt cmd.key with
  | some existing => do
    require (receiptMatches existing cmd)
      "directive result conflicts with committed terminal receipt"
    .ok store
  | none => do
    require (resultValid cmd committedIndex) "invalid directive result"
    let (record, current) ← store.trackedDirective cmd
    require (current.spec.recipientBoot == some cmd.recipientBootId &&
        current.spec.recipientNodeId == cmd.recipientNodeId &&
        current.spec.assignmentId == cmd.assignmentId)
      "directive result recipient anchor mismatch"
    require (record.terminalReceipts.length < maxTerminalReceiptsPerOperation)
      "terminal receipt cap reached"
    require (record.revision != maxU64) "operation revision exhausted"
    .ok (store.setLive cmd.key.operationId { record with
      terminalReceipts := record.terminalReceipts ++ [{
        key := cmd.key
        recipientNodeId := cmd.recipientNodeId
        recipientBootId := cmd.recipientBootId
        assignmentId := cmd.assignmentId
        status := cmd.status
        result := cmd.result
        committedIndex }]
      revision := record.revision + 1 })

/-- What `InvalidateCurrentDirectives` does to one record: the named directives go, and the
revision moves unless it is exhausted. -/
def invalidated (stale : CurrentDirective → Bool) : OperationRecord :=
  if record.lifecycle.isTerminal ∨ record.currentDirectives.all (!stale ·) then record
  else { record with
    currentDirectives := record.currentDirectives.filter (!stale ·)
    revision := if record.revision = maxU64 then record.revision else record.revision + 1 }

def invalidateCurrentDirectives (keys : List TerminalReceiptKey) : OperationStore :=
  { store with live := store.live.map fun entry => (entry.1, invalidated entry.2 fun current =>
      keys.any fun key => key.operationId == entry.1 && current.named key) }

def archivable (store : OperationStore) (seqs : List UInt64) :
    Except String (List (Identity × OperationRecord)) :=
  match seqs with
  | [] => .ok []
  | seq :: rest =>
    if (store.archivedBySeq.get seq).isSome then store.archivable rest
    else match (store.liveBySeq.get seq).bind fun id => (store.live.get id).map (id, ·) with
    | none => .error "archive references an unknown operation_seq"
    | some (id, record) => do
      require record.lifecycle.isTerminal "non-terminal operations are not archivable"
      let others ← store.archivable rest
      .ok ((id, record) :: others)

def archiveOne (entry : Identity × OperationRecord) : OperationStore :=
  let (id, record) := entry
  { store with
    live := store.live.erase id
    liveBySeq := store.liveBySeq.erase record.operationSeq
    archivedBySeq := store.archivedBySeq.set record.operationSeq id
    archived := store.archived.set id {
      operationId := record.operationId
      operationSeq := record.operationSeq
      intentHash := record.intentHash
      actor := record.actor
      terminalLifecycle := record.lifecycle
      terminalResult := record.terminalResult
      dataLossPossible := record.dataLossPossible
      terminalReceipts := record.terminalReceipts } }

def distinctSeqs (seqs : List UInt64) : List UInt64 := (seqs.mergeSort (· ≤ ·)).dedup

def archiveOperations (operationSeqs : List UInt64) : Except String OperationStore := do
  let entries ← store.archivable (distinctSeqs operationSeqs)
  require (store.archived.length + entries.length ≤ maxArchivedOperationSummaries)
    "archive summary cap reached"
  .ok (entries.foldl archiveOne store)

def pruneArchive (operationSeqs : List UInt64) : Except String OperationStore := do
  let seqs := distinctSeqs operationSeqs
  require (seqs.length ≤ maxArchivedOperationSummaries) "too many archive seqs to prune"
  .ok (seqs.foldl (fun store seq =>
    match store.archivedBySeq.get seq with
    | none => store
    | some id => { store with
        archived := store.archived.erase id
        archivedBySeq := store.archivedBySeq.erase seq }) store)

def checkPrunable (key : TerminalReceiptKey) : Except String Unit := do
  require (!isZero key.operationId && !isZero key.directiveId && !isZero key.attemptId &&
    key.directiveRevision != 0) "invalid terminal receipt key"
  require (!(store.live.get key.operationId).any fun record =>
      record.terminalReceipts.any (·.key = key) && !record.lifecycle.isTerminal)
    "active operation terminal receipts cannot be pruned"

def pruneReceipt (key : TerminalReceiptKey) : OperationStore :=
  let kept (receipts : List TerminalReceipt) := receipts.filter (·.key ≠ key)
  { store with
    live := match store.live.get key.operationId with
      | none => store.live
      | some record => store.live.set key.operationId
          { record with terminalReceipts := kept record.terminalReceipts }
    archived := match store.archived.get key.operationId with
      | none => store.archived
      | some summary => store.archived.set key.operationId
          { summary with terminalReceipts := kept summary.terminalReceipts } }

def pruneTerminalReceipts (receipts : List TerminalReceiptKey) : Except String OperationStore := do
  require (receipts.length ≤ maxTerminalReceiptPrunesPerCommand)
    "too many terminal receipts to prune"
  receipts.forM store.checkPrunable
  .ok (receipts.foldl pruneReceipt store)

end OperationStore

end Lavik.Meta
