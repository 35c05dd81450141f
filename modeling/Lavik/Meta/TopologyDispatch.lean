import Lavik.Meta.Aggregate
/-!
# Identity, topology and authority commands

A dispatch function either refuses and leaves the stores, or returns the changed stores; commands
that change several records run under the rollback guard. A replayed command finds its own effect
and is accepted without changing anything.
-/

namespace Lavik.Meta

open Base

variable (stores : Stores)

def refuse (text : String) : Stores × Verdict := (stores, .rejected text)

def replayed : Stores × Verdict := (stores, .accepted)

def fromStatus (outcome : Except String Stores) : Stores × Verdict :=
  match outcome with
  | .ok after => (after, .accepted)
  | .error text => refuse stores text

def afterChecks {Value : Type} (checks : Except String Value)
    (continuation : Value → Stores × Verdict) : Stores × Verdict :=
  match checks with
  | .ok value => continuation value
  | .error text => refuse stores text

namespace Stores

def onIdentity (outcome : Except String IdentityStore) : Except String Stores :=
  outcome.map fun identity => { stores with identity }

def onTopology (outcome : Except String TopologyStore) : Except String Stores :=
  outcome.map fun topology => { stores with topology }

def onOperation (outcome : Except String OperationStore) : Except String Stores :=
  outcome.map fun operation => { stores with operation }

end Stores

/-! ## Identity and topology -/

/-- The identity store is written before the epoch is taken: a refusal of the epoch would
leave the endpoints changed. -/
def dispatchUpdateNode (formats : Formats) (stores : Stores) (cmd : UpdateNode) :
    Stores × Verdict :=
  let identityPresent := (stores.identity.nodes.get cmd.nodeId).any fun record =>
    !record.retired && cmd.expectedRevision != maxU64 &&
      record.revision == cmd.expectedRevision + 1 && record.endpoints == cmd.endpoints
  let topologyPresent := stores.topology.topologyEpoch == cmd.newTopologyEpoch
  let checks := do
    require (identityPresent == topologyPresent) "UpdateNode replay halves do not agree"
    stores.topology.validateTopologyEpoch cmd.newTopologyEpoch
    stores.identity.updateNode formats cmd
  afterChecks stores checks fun identity =>
    let written : Stores := { stores with identity }
    fromStatus written (written.onTopology (stores.topology.setTopologyEpoch cmd.newTopologyEpoch))

def dispatchRetireNode (cmd : RetireNode) : Stores × Verdict :=
  fromStatus stores do
    require (stores.topology.groupOfNode.get cmd.nodeId).isNone
      s!"node {cmd.nodeId} still holds group membership"
    stores.onIdentity (stores.identity.retireNode cmd)

def checkAssign (cmd : AssignNodeToGroup) : Except String Unit := do
  require (stores.identity.isActiveNode cmd.nodeId)
    s!"node {cmd.nodeId} is not a registered active node"
  match stores.topology.groupOfNode.get cmd.nodeId with
  | some current =>
    require (current == cmd.groupId)
      s!"node {cmd.nodeId} already a member of {current} (one-node-one-group)"
  | none =>
    require (!stores.nodeHoldsActiveGrant cmd.nodeId) s!"node {cmd.nodeId} holds an active grant"
  require ((stores.findGroup cmd.groupId).all fun target => target.failoverTransition.isNone ||
      (cmd.expectedRevision != maxU64 && target.revision == cmd.expectedRevision + 1 &&
        stores.topology.topologyEpoch == cmd.newTopologyEpoch &&
        target.members.get cmd.nodeId == some ⟨cmd.assignmentId, cmd.role⟩))
    "group membership change is blocked by an active failover transition"

def dispatchAssign (cmd : AssignNodeToGroup) : Stores × Verdict :=
  fromStatus stores do
    checkAssign stores cmd
    stores.onTopology (stores.topology.assignNodeToGroup cmd)

def checkRemove (cmd : RemoveNodeFromGroup) : Except String Unit := do
  require ((stores.topology.authorityFor cmd.groupId).all fun authority =>
      authority.grant.all (·.owner ≠ cmd.nodeId))
    s!"node {cmd.nodeId} owns the active grant of {cmd.groupId}"
  require ((stores.findGroup cmd.groupId).all fun target => target.failoverTransition.isNone ||
      (!target.isMember cmd.nodeId && cmd.expectedRevision != maxU64 &&
        target.revision == cmd.expectedRevision + 1 &&
        stores.topology.topologyEpoch == cmd.newTopologyEpoch))
    "group membership change is blocked by an active failover transition"

def dispatchRemove (cmd : RemoveNodeFromGroup) : Stores × Verdict :=
  fromStatus stores do
    checkRemove stores cmd
    stores.onTopology (stores.topology.removeNodeFromGroup cmd)

def checkSlotRanges (before : List SlotAssignment) : List SlotAssignment → Except String Unit
  | [] => .ok ()
  | range :: rest => do
    require (range.firstSlot ≤ range.lastSlot && range.lastSlot.toNat < slotCount)
      "slot range out of bounds"
    require (before.all fun earlier => earlier.groupId == "" ||
      earlier.lastSlot < range.firstSlot || range.lastSlot < earlier.firstSlot)
      "overlapping slot ranges"
    checkSlotRanges (range :: before) rest

def affectedGroups (ranges : List SlotAssignment) : List String :=
  let affected := (List.finRange slotCount).flatMap fun slot =>
    let before := stores.topology.slots slot
    let after := TopologyStore.slotMap ranges slot
    if before = after then [] else [before, after].filter (· ≠ "")
  affected.dedup.mergeSort (· ≤ ·)

def validateSlotMapAuthorityTransition (cmd : SetSlotMap) : Except String Unit := do
  checkSlotRanges [] cmd.ranges
  (affectedGroups stores cmd.ranges).forM fun groupId => do
    require (!stores.groupHasActiveFailover groupId)
      s!"slot ownership change for group {groupId} is blocked by its active failover transition"
    require (!stores.groupHasActiveGrant groupId)
      s!"slot ownership change for group {groupId} requires its active grant to be fenced first"

def dispatchSetSlotMap (cmd : SetSlotMap) : Stores × Verdict :=
  fromStatus stores do
    validateSlotMapAuthorityTransition stores cmd
    stores.onTopology (stores.topology.setSlotMap cmd)

def dispatchSetGroupReplicationState (cmd : SetGroupReplicationState) : Stores × Verdict :=
  fromStatus stores do
    require ((stores.findGroup cmd.groupId).all fun group => group.failoverTransition.isNone ||
        (group.record.populationManifestRevision == cmd.newPopulationManifestRevision &&
          group.record.populationManifestDigest == cmd.newPopulationManifestDigest &&
          group.record.partitionReplicationEpoch == cmd.newPartitionReplicationEpoch &&
          stores.topology.topologyEpoch == cmd.newTopologyEpoch))
      "group replication-state change is blocked by an active failover transition"
    require (cmd.newPopulationManifestRevision == 0 ||
        stores.populationManifest.contains cmd.newPopulationManifestDigest)
      "population manifest digest is not committed"
    stores.onTopology (stores.topology.setGroupReplicationState cmd)

def maxSnapshotBytes : Nat := 512 * 1024 * 1024

def maximumAuditSnapshotGrowth : Nat :=
  8 + (4 + maxPrincipalBytes) + (4 + maxAuditSummaryBytes) + 1 + (4 + maxAuditDetailBytes) +
    (4 + maxAuditReadableTimeBytes) + 32

def checkManifestBudget (env : Environment) (stores : Stores) (cmd : PutPopulationManifest) :
    Except String Unit :=
  if stores.populationManifest.contains cmd.manifestDigest then .ok ()
  else do
    require (cmd.entries.length ≤ maxPopulationManifestEntries)
      "population manifest entry cap exceeded"
    require (env.snapshotBytes stores + (32 + 4 + 12 * cmd.entries.length) +
        maximumAuditSnapshotGrowth ≤ maxSnapshotBytes)
      "population manifest exceeds the remaining snapshot byte budget"

def dispatchPutPopulationManifest (env : Environment) (stores : Stores)
    (cmd : PutPopulationManifest) : Stores × Verdict :=
  fromStatus stores do
    checkManifestBudget env stores cmd
    let populationManifest ← stores.populationManifest.put env.toFormats cmd
    .ok { stores with populationManifest }

def dispatchPrunePopulationManifest (digest : Hash256) : Stores × Verdict :=
  fromStatus stores do
    require (!stores.topology.populationManifestInUse digest)
      "population manifest is referenced by a group"
    require (!stores.operation.populationManifestInUse digest)
      "population manifest is referenced by a live operation"
    .ok { stores with populationManifest := stores.populationManifest.prune digest }

/-! ## Terms and grants -/

def projectControls (formats : Formats) (recipients : List String) (guarded : Guarded) :
    Attempt Guarded Guarded :=
  guarded.check (Stores.validateAffectedNodeControls formats recipients)

/-- `Dispatch(BeginGroupTerm)` and `Dispatch(FenceGroup)`, which differ in the text of one
refusal. -/
def dispatchBeginGroupTerm (formats : Formats) (stores : Stores) (cmd : BeginGroupTerm)
    (blocked : String) : Stores × Verdict :=
  if stores.groupHasActiveFailover cmd.groupId then refuse stores blocked
  else Guarded.settle do
    let guarded : Guarded := ⟨stores, .start stores (some cmd.groupId) none⟩
    let guarded ← guarded.topology (·.beginGroupTerm cmd)
    projectControls formats
      (((guarded.stores.findGroup cmd.groupId).map GroupState.recipients).getD [])
      guarded.invalidateStale

def activateEffectPresent (topology : TopologyStore) (cmd : ActivateAuthority)
    (authority : GroupAuthority) (action : Option Identity) : Bool :=
  authority.grant == some ⟨cmd.newOwner, action⟩ && authority.groupTerm == cmd.expectedTerm &&
    topology.topologyEpoch == cmd.newTopologyEpoch

/-- `ApplyAuthorityActivationKernel`. The grant is the one-shot marker of its term: only the whole
effect counts as a replay. -/
def authorityActivationKernel (identity : IdentityStore) (cmd : ActivateAuthority)
    (action : Option Identity) (topology : TopologyStore) : Except String TopologyStore := do
  let group ← topology.knownGroup cmd.groupId
  let present := activateEffectPresent topology cmd group.authority action
  require (group.authority.grant.isNone || present)
    "group term already has a different authority effect"
  let _ ← topology.validateActivate cmd action
  if present then .ok ()
  else do
    TopologyStore.checkNextTopologyEpoch topology.topologyEpoch cmd.newTopologyEpoch
    require (group.isMember cmd.newOwner)
      s!"new owner {cmd.newOwner} is not a member of {cmd.groupId}"
    require (identity.isActiveNode cmd.newOwner)
      s!"new owner {cmd.newOwner} is not a registered active node"
  let activated ← topology.activateAuthority cmd action
  activated.setTopologyEpoch cmd.newTopologyEpoch

def dispatchActivateAuthority (formats : Formats) (stores : Stores) (cmd : ActivateAuthority) :
    Stores × Verdict :=
  let group := stores.findGroup cmd.groupId
  if group.any fun view => view.failoverTransition.isSome &&
      !activateEffectPresent stores.topology cmd view.authority none then
    refuse stores "authority activation is blocked by an active failover transition"
  else Guarded.settle do
    let guarded : Guarded := ⟨stores, .start stores (some cmd.groupId) none⟩
    let guarded ← guarded.topology (authorityActivationKernel stores.identity cmd none)
    projectControls formats ((group.map GroupState.recipients).getD []) guarded.invalidateStale

end Lavik.Meta
