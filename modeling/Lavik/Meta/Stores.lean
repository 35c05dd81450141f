import Lavik.Base.AssocMap
import Lavik.Meta.Commands
/-!
# Identity, manifest, policy and audit stores

What the stores compute from bytes and texts (hashes, document and endpoint syntax, the size of a
directory frame) enters through `Formats`.
-/

namespace Lavik.Meta

open Base

/-! ## Records -/

structure NodeRecord where
  principal : String
  endpoints : List String
  role : NodeRole
  revision : UInt64
  retired : Bool
deriving DecidableEq

structure MetaMemberRecord where
  serverId : UInt32
  principal : String
  dataControlEndpoint : String
  ctlEndpoint : Option String
  retired : Bool
deriving DecidableEq

structure FailoverOperationIntent where
  groupId : String
  absoluteDeadlineUnixMs : UInt64
deriving DecidableEq

structure Formats where
  sha256 : Blob → Hash256
  decodeFailoverOperationIntent : Blob → Option FailoverOperationIntent
  decodeClusterCreateRequest : Blob → Except String Identity
  rebuildRequestOk : Blob → Bool
  canonicalDigest : List PopulationManifestEntry → Hash256
  validateRegisteredDocument : String → Blob → Except String Unit
  validateDataEndpoints : List String → Except String Unit
  validateDataNodePrincipal : String → String → Except String Unit
  metaMemberPrincipal : String → UInt32 → Bool
  canonicalDataControlEndpoint : String → Except String String
  canonicalAdminEndpoint : String → Except String String
  validateActiveMetaDirectory : List MetaMemberRecord → Except String Unit

/-! ## Identity store -/

def maxEndpointsPerNode : Nat := 2

def maxEndpointBytes : Nat := 256

structure IdentityStore where
  nodes : AssocMap String NodeRecord := []
  nodeIdByPrincipal : AssocMap String String := []
  metaMembers : AssocMap UInt32 MetaMemberRecord := []
  metaServerIdByPrincipal : AssocMap String UInt32 := []

namespace IdentityStore

def checkNodeFields (nodeId : String) (endpoints : List String) : Except String Unit := do
  require (nodeId != "" && nodeId.utf8ByteSize ≤ nodeIdBytes) "node_id empty or over cap"
  require (endpoints.length ≤ maxEndpointsPerNode) "too many endpoints"
  require (endpoints.all fun endpoint => endpoint.utf8ByteSize ≤ maxEndpointBytes)
    "endpoint over cap"

variable (store : IdentityStore)

def isActiveNode (nodeId : String) : Bool :=
  (store.nodes.get nodeId).any fun record => !record.retired

variable (formats : Formats)

def registerNode (cmd : RegisterNode) : Except String IdentityStore := do
  checkNodeFields cmd.nodeId cmd.endpoints
  formats.validateDataEndpoints cmd.endpoints
  formats.validateDataNodePrincipal cmd.nodeId cmd.principal
  match store.nodes.get cmd.nodeId with
  | some record =>
    if record = ⟨cmd.principal, cmd.endpoints, cmd.role, 1, false⟩ then .ok store
    else .error s!"node_id {cmd.nodeId} already registered"
  | none => do
    require (store.nodeIdByPrincipal.get cmd.principal).isNone
      "principal already bound to another node_id"
    require (store.nodes.length < maxNodes) "registered node cap reached"
    .ok { store with
      nodes := store.nodes.set cmd.nodeId ⟨cmd.principal, cmd.endpoints, cmd.role, 1, false⟩
      nodeIdByPrincipal := store.nodeIdByPrincipal.set cmd.principal cmd.nodeId }

def knownNode (nodeId : String) : Except String NodeRecord :=
  match store.nodes.get nodeId with
  | some record => .ok record
  | none => .error s!"unknown node_id {nodeId}"

def updateNode (cmd : UpdateNode) : Except String IdentityStore := do
  checkNodeFields cmd.nodeId cmd.endpoints
  formats.validateDataEndpoints cmd.endpoints
  let record ← store.knownNode cmd.nodeId
  if record.retired = false ∧ record.revision = cmd.expectedRevision + 1 ∧
      record.endpoints = cmd.endpoints then .ok store
  else do
    require (!record.retired) s!"node {cmd.nodeId} is retired"
    require (record.revision == cmd.expectedRevision)
      s!"expected_revision CAS conflict on {cmd.nodeId}"
    .ok { store with nodes := store.nodes.set cmd.nodeId { record with
      endpoints := cmd.endpoints, revision := cmd.expectedRevision + 1 } }

def retireNode (cmd : RetireNode) : Except String IdentityStore := do
  require (cmd.nodeId != "" && cmd.nodeId.utf8ByteSize ≤ nodeIdBytes) "node_id empty or over cap"
  let record ← store.knownNode cmd.nodeId
  if record.retired ∧ record.revision = cmd.expectedRevision + 1 then .ok store
  else do
    require (!record.retired) s!"node {cmd.nodeId} already retired"
    require (record.revision == cmd.expectedRevision)
      s!"expected_revision CAS conflict on {cmd.nodeId}"
    .ok { store with nodes := store.nodes.set cmd.nodeId { record with
      retired := true, revision := cmd.expectedRevision + 1 } }

def members : List MetaMemberRecord := store.metaMembers.map Prod.snd

/-- The branch of `Apply(BindMetaMember)` for a server id that is bound already: only a missing ctl
endpoint may still be added. -/
def rebindMetaMember (cmd : BindMetaMember) (record : MetaMemberRecord) (endpoint : String)
    (ctlEndpoint : Option String) : Except String IdentityStore := do
  require (!record.retired && record.principal == cmd.principal &&
    record.dataControlEndpoint == endpoint) "meta server_id already bound"
  if record.ctlEndpoint = ctlEndpoint then .ok store
  else do
    require (record.ctlEndpoint.isNone && ctlEndpoint.isSome) "meta ctl endpoint is immutable"
    formats.validateActiveMetaDirectory (store.members.map fun member =>
      if member.serverId = record.serverId then { member with ctlEndpoint } else member)
    .ok { store with
      metaMembers := store.metaMembers.set cmd.serverId { record with ctlEndpoint } }

def bindMetaMember (cmd : BindMetaMember) : Except String IdentityStore := do
  require (cmd.serverId != 0 && cmd.serverId ≤ 0x7fffffff) "meta server_id must be a positive int"
  require (cmd.dataControlEndpoint != "" && cmd.dataControlEndpoint.utf8ByteSize ≤ maxEndpointBytes)
    "data_control_endpoint is empty or exceeds its cap"
  require (formats.metaMemberPrincipal cmd.principal cmd.serverId)
    "Meta member principal does not match its server id"
  let endpoint ← formats.canonicalDataControlEndpoint cmd.dataControlEndpoint
  let ctlEndpoint ← cmd.ctlEndpoint.mapM formats.canonicalAdminEndpoint
  match store.metaMembers.get cmd.serverId with
  | some record => store.rebindMetaMember formats cmd record endpoint ctlEndpoint
  | none => do
    require ((store.nodeIdByPrincipal.get cmd.principal).isNone &&
      (store.metaServerIdByPrincipal.get cmd.principal).isNone) "principal already bound"
    require (store.metaMembers.length < maxNodes) "meta member cap reached"
    let record := ⟨cmd.serverId, cmd.principal, endpoint, ctlEndpoint, false⟩
    formats.validateActiveMetaDirectory (store.members ++ [record])
    .ok { store with
      metaMembers := store.metaMembers.set cmd.serverId record
      metaServerIdByPrincipal :=
        store.metaServerIdByPrincipal.set cmd.principal cmd.serverId }

def retireMetaMember (serverId : UInt32) : Except String IdentityStore :=
  match store.metaMembers.get serverId with
  | none => .error "unknown meta server_id"
  | some record => .ok { store with
      metaMembers := store.metaMembers.set serverId { record with retired := true } }

end IdentityStore

/-! ## Population manifests -/

def maxPopulationManifestEntries : Nat := slotCount

structure PopulationManifestStore where
  documents : AssocMap Hash256 (List PopulationManifestEntry) := []

namespace PopulationManifestStore

def isCanonical (entries : List PopulationManifestEntry) : Bool :=
  (entries.zip entries.tail).all fun neighbours =>
    neighbours.1.partitionId < neighbours.2.partitionId

def entriesInDomain (entries : List PopulationManifestEntry) : Bool :=
  entries.all fun entry => entry.partitionId.toNat < slotCount && entry.logicalEpoch != 0

def contains (store : PopulationManifestStore) (digest : Hash256) : Bool :=
  (store.documents.get digest).isSome

def put (store : PopulationManifestStore) (formats : Formats) (cmd : PutPopulationManifest) :
    Except String PopulationManifestStore := do
  require (cmd.entries.length ≤ maxPopulationManifestEntries)
    "population manifest entry cap exceeded"
  require (isCanonical cmd.entries) "population manifest entries must be strictly sorted"
  require (entriesInDomain cmd.entries)
    "population manifest contains an out-of-range partition or zero logical epoch"
  require (formats.canonicalDigest cmd.entries == cmd.manifestDigest)
    "population manifest digest mismatch"
  match store.documents.get cmd.manifestDigest with
  | some entries =>
    require (entries == cmd.entries) "population manifest digest collision"
    .ok store
  | none => .ok { documents := store.documents.set cmd.manifestDigest cmd.entries }

def prune (store : PopulationManifestStore) (digest : Hash256) : PopulationManifestStore :=
  { documents := store.documents.erase digest }

end PopulationManifestStore

/-! ## Policies -/

def maxPolicyIdBytes : Nat := 128

def maxPolicyVersionsPerPolicy : Nat := 32

def maxPolicyTotalBytes : Nat := 16 * 1024 * 1024

def automaticUncontrolledFailoverPolicyId : String := "lavik.automatic-uncontrolled-failover-v1"

def authorityLeasePolicyId : String := "lavik.authority-lease-v1"

def candidateRecoveryPolicyId : String := "lavik.candidate-recovery-v1"

structure PolicyStore where
  policies : AssocMap String (List (UInt64 × Blob)) := []
  totalContentBytes : Nat := 0

namespace PolicyStore

def versions (store : PolicyStore) (policyId : String) : List (UInt64 × Blob) :=
  (store.policies.get policyId).getD []

def hasCurrent (store : PolicyStore) (formats : Formats) (policyId : String) : Bool :=
  match (store.versions policyId).getLast? with
  | none => false
  | some (_, content) => (formats.validateRegisteredDocument policyId content).isOk

def hasAllCurrent (store : PolicyStore) (formats : Formats) : Bool :=
  store.hasCurrent formats automaticUncontrolledFailoverPolicyId &&
    store.hasCurrent formats authorityLeasePolicyId &&
    store.hasCurrent formats candidateRecoveryPolicyId

def checkNextVersion (versions : List (UInt64 × Blob)) (version : UInt64) : Except String Unit :=
  match versions.getLast? with
  | none => require (version == 1) "first policy version must be 1"
  | some (current, _) => require (current != maxU64 && version == current + 1)
      "policy version must be exactly current + 1"

def putPolicy (store : PolicyStore) (formats : Formats) (cmd : PutPolicy) :
    Except String PolicyStore := do
  require (cmd.policyId != "" && cmd.policyId.utf8ByteSize ≤ maxPolicyIdBytes)
    "policy_id empty or over cap"
  require (cmd.content != [] && cmd.content.length ≤ maxPayloadBytes)
    "policy content empty or over cap"
  formats.validateRegisteredDocument cmd.policyId cmd.content
  let versions := store.versions cmd.policyId
  match versions.find? (·.1 = cmd.version) with
  | some (_, content) =>
    require (content == cmd.content) "policy version already has different raw content"
    .ok store
  | none => do
    checkNextVersion versions cmd.version
    let full := versions.length = maxPolicyVersionsPerPolicy
    let evicted := if full then (versions.head?.map fun entry => entry.2.length).getD 0 else 0
    let totalContentBytes := store.totalContentBytes - evicted + cmd.content.length
    require (totalContentBytes ≤ maxPolicyTotalBytes) "policy total byte cap reached"
    .ok {
      policies := store.policies.set cmd.policyId
        ((if full then versions.tail else versions) ++ [(cmd.version, cmd.content)])
      totalContentBytes }

end PolicyStore

/-! ## Audit -/

def maxPrincipalBytes : Nat := 256

def maxAuditReadableTimeBytes : Nat := 128

def maxAuditSummaryBytes : Nat := 2048

def maxAuditDetailBytes : Nat := 2048

def maxAuditWindowRecords : Nat := 65536

inductive Verdict where
  | accepted
  | rejected (detail : String)
deriving DecidableEq

structure AuditRecord where
  logIndex : UInt64
  actorPrincipal : String
  commandSummary : String
  verdict : Verdict
  readableTime : String
deriving DecidableEq

structure AuditStore where
  windowCapacity : Nat := maxAuditWindowRecords
  policy : AuditPolicy := .boundedRotate
  window : List AuditRecord := []
  prunedFloor : UInt64 := 0
  droppedTotal : UInt64 := 0
  droppedThrough : UInt64 := 0

namespace AuditStore

def rotated (store : AuditStore) : AuditStore :=
  match store.window with
  | oldest :: rest =>
    if store.windowCapacity ≤ store.window.length then
      { store with
        window := rest
        droppedThrough := oldest.logIndex
        droppedTotal := store.droppedTotal + 1 }
    else store
  | [] => store

def append (store : AuditStore) (record : AuditRecord) (forceRecord : Bool) : Option AuditStore :=
  match store.window.find? (·.logIndex = record.logIndex) with
  | some existing => if existing = record then some store else none
  | none =>
    if store.window.getLast?.any (record.logIndex ≤ ·.logIndex) then none
    else if record.logIndex ≤ store.prunedFloor then none
    else if store.policy = .disabled ∧ forceRecord = false then some store
    else if store.windowCapacity ≤ store.window.length ∧ store.policy = .strictExport then none
    else some { store.rotated with window := store.rotated.window ++ [record] }

def setPolicy (store : AuditStore) (policy : AuditPolicy) : Except String AuditStore := do
  require (!(policy == .strictExport && store.policy != .strictExport &&
      store.windowCapacity ≤ store.window.length))
    "strict-export requires one free slot for its policy-change record"
  .ok { store with policy }

def pruneThrough (store : AuditStore) (through : UInt64) : Except String AuditStore :=
  if through ≤ store.prunedFloor then .ok store
  else do
    require (store.window.any (·.logIndex = through))
      "prune watermark must name a record in the window"
    .ok { store with
      window := store.window.filter fun record => through < record.logIndex
      prunedFloor := through }

end AuditStore

end Lavik.Meta
