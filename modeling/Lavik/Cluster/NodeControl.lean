import Lavik.Base.Status
import Lavik.Base.TransitionSystem
import Lavik.Cluster.Authority
/-!
# The control installer of a Data node

`NodeControlInstaller` is the one writer of a node's serving state and leases. Most transitions
await drains and replication actions, so another may run at every such point. An input below is one
segment that does not suspend; what an awaited action answers, the clock and whether retired
requests are in flight come with the input.
-/

namespace Lavik.Cluster

open Base

/-! ## Messages and desired state -/

abbrev MonotonicTime := Int

abbrev MonotonicDuration := Int

def maxTime : MonotonicTime := 2 ^ 63 - 1

abbrev Sha256Digest := List.Vector UInt8 32

abbrev ControlId := Option (List.Vector UInt8 16)

structure ProjectionBasis where
  controlRevision : UInt64
deriving DecidableEq

structure PreparedMemberAssignment where
  nodeId : Option NodeId
  assignmentId : AssignmentId
deriving DecidableEq

structure PreparedReplicationEndpoint where
  nodeId : Option NodeId
  host : String
  port : UInt16
  tlsPort : UInt16
deriving DecidableEq

structure PreparedGroupControlIdentity where
  groupId : String
  groupTerm : UInt64
  manifestRevision : UInt64
  manifestDigest : Sha256Digest
  partitionReplicationEpoch : UInt64
  members : List PreparedMemberAssignment
deriving DecidableEq

inductive PreparedFailoverMode
  | controlled
  | uncontrolled
deriving DecidableEq

inductive PreparedFailoverLoss
  | none
  | unknown
deriving DecidableEq

structure PreparedFailoverCandidate where
  nodeId : Option NodeId
  assignmentId : AssignmentId
  bootId : Option NodeId
deriving DecidableEq

structure PreparedFailoverCompatibilityDomain where
  sourceGroupTerm : UInt64
  sourceNodeId : Option NodeId
  sourceAssignmentId : AssignmentId
  sourceBootId : Option NodeId
  sourceHistoryId : Option NodeId
  flowCount : UInt32
deriving DecidableEq

structure PreparedFailoverAuthorization where
  authorizedRevision : UInt64
  lossIfCutover : PreparedFailoverLoss
deriving DecidableEq

structure PreparedFailoverAction where
  actionId : ControlId
  candidate : PreparedFailoverCandidate
  domain : PreparedFailoverCompatibilityDomain
  authorization : Option PreparedFailoverAuthorization
  operatorRecovery : Bool
deriving DecidableEq

structure PreparedFailoverTransition where
  transitionId : ControlId
  revision : UInt64
  mode : PreparedFailoverMode
  targetTerm : UInt64
  candidateAction : Option PreparedFailoverAction
  recoveryDeadlineUnixMs : Option UInt64
deriving DecidableEq

structure PopulationManifestEntry where
  partitionId : UInt32
  logicalEpoch : UInt64
deriving DecidableEq

structure DesiredClusterControl where
  identity : PreparedGroupControlIdentity
  owner : Option PreparedMemberAssignment
  grantActive : Bool
  activationActionId : Option ControlId := none
  failoverTransition : Option PreparedFailoverTransition := none
  ownerEndpoint : Option PreparedReplicationEndpoint := none
  manifestEntries : List PopulationManifestEntry := []
  steadyReplicationEnabled : Bool := false
  populationTransitionExpected : Bool := false
  memberEndpoints : List PreparedReplicationEndpoint := []
deriving DecidableEq

structure PreparedFullState where
  servingState : Option ServingState
  authorityLeaseDurationMs : UInt32
  desiredClusterControls : List DesiredClusterControl

inductive AuthorityKind
  | leaseGrant
  | fence
deriving DecidableEq

structure AuthorityMessage where
  kind : AuthorityKind
  session : SessionIdentity
  projection : ProjectionBasis
  anchor : AuthorityAnchor
  sentAt : MonotonicTime
  grantedDuration : MonotonicDuration
deriving DecidableEq

structure PopulationReadiness where
  groupId : String
  assignmentId : AssignmentId
  groupTerm : UInt64
  manifestRevision : UInt64
  manifestDigest : Sha256Digest
  partitionReplicationEpoch : UInt64
deriving DecidableEq

def saturatingLeaseDeadline (message : AuthorityMessage) : MonotonicTime :=
  if maxTime - message.sentAt ≤ message.grantedDuration then maxTime
  else message.sentAt + message.grantedDuration

def leaseExpiryRecheck : MonotonicDuration := 25000000

def leaseExpiryRecheckInterval (grant : MonotonicDuration) : MonotonicDuration :=
  min (max (grant.tdiv 4) 1) leaseExpiryRecheck

def toHexString {size : Nat} : Option (List.Vector UInt8 size) → String
  | none => ""
  | some bytes => String.ofList (bytes.toList.flatMap fun byte =>
      [Nat.digitChar (byte.toNat / 16), Nat.digitChar (byte.toNat % 16)])

/-! ## Serving states the installer builds -/

def anchorFor (group : GroupView) : AuthorityAnchor :=
  ⟨group.groupId, group.assignmentId, group.groupTerm⟩

namespace ServingState

variable (state : ServingState)

def self : Option NodeDescriptor := state.selfNodeIndex.bind state.nodeAt

def sameLocalAssignment (group : GroupView) : Bool :=
  state.selfNodeIndex = some group.primaryNodeIndex

def localMember (group : GroupView) : Bool :=
  state.sameLocalAssignment group || state.selfNodeIndex.any (· ∈ group.replicaNodeIndices)

end ServingState

structure GroupMutation where
  apply : GroupView → GroupView
  groupId_eq : ∀ group, (apply group).groupId = group.groupId
  primary_eq : ∀ group, (apply group).primaryNodeIndex = group.primaryNodeIndex

variable (state : ServingState)

/-- `RebuildState`: every semantic field is preserved but those of the groups that are mutated. The
builder cannot refuse the result, because what it checks is kept. -/
def ServingState.rebuild (mutation : GroupMutation) : ServingState where
  nodes := state.nodes
  groups := state.groups.map mutation.apply
  selfNodeIndex := state.selfNodeIndex
  topologyEpoch := state.topologyEpoch
  slotToGroup slot := (state.slotToGroup slot).map (Fin.cast (List.length_map _).symm)
  named := by
    intro group listed
    obtain ⟨source, present, rfl⟩ := List.mem_map.mp listed
    rw [mutation.groupId_eq]
    exact state.named source present
  distinct := by
    have same : (state.groups.map mutation.apply).map GroupView.groupId =
        state.groups.map GroupView.groupId := by
      rw [List.map_map]
      exact List.map_congr_left fun group _ => mutation.groupId_eq group
    rw [same]
    exact state.distinct
  primaries := by
    intro group listed
    obtain ⟨source, present, rfl⟩ := List.mem_map.mp listed
    rw [mutation.primary_eq]
    exact state.primaries source present

def ServingState.withStorageReady (ready : Bool) : ServingState :=
  state.rebuild
    { apply := fun group => { group with storageReady := ready }
      groupId_eq := fun _ => rfl
      primary_eq := fun _ => rfl }

def ServingState.withFence (anchor : AuthorityAnchor) : ServingState :=
  state.rebuild
    { apply := fun group =>
        if group.groupId ≠ anchor.groupId then group
        else { group with
          assignmentId := anchor.assignmentId, groupTerm := anchor.groupTerm, granted := false }
      groupId_eq := fun group => by split <;> rfl
      primary_eq := fun group => by split <;> rfl }

def ServingState.withCarriedReadiness (carried : List String) : ServingState :=
  state.rebuild
    { apply := fun group =>
        if group.groupId ∈ carried then { group with populationReady := true } else group
      groupId_eq := fun group => by split <;> rfl
      primary_eq := fun group => by split <;> rfl }

def findControlIdentity (controls : List DesiredClusterControl) (groupId : String) :
    Option PreparedGroupControlIdentity :=
  (controls.find? (·.identity.groupId = groupId)).map DesiredClusterControl.identity

def PreparedGroupControlIdentity.findMemberAssignment (control : PreparedGroupControlIdentity)
    (nodeId : NodeId) : Option PreparedMemberAssignment :=
  control.members.find? (·.nodeId = some nodeId)

structure BootLocalPopulationAnchor where
  groupId : String
  localNodeId : NodeId
  localAssignmentId : AssignmentId
  ownerNodeId : NodeId
  ownerAssignmentId : AssignmentId
  groupTerm : UInt64
  manifestRevision : UInt64
  manifestDigest : Sha256Digest
  partitionReplicationEpoch : UInt64
deriving DecidableEq

def populationAnchorFor (group : GroupView) (controls : List DesiredClusterControl) :
    Option BootLocalPopulationAnchor := do
  let self ← state.self
  let owner ← state.nodeAt group.primaryNodeIndex
  guard (state.localMember group)
  let control ← findControlIdentity controls group.groupId
  let localMember ← control.findMemberAssignment self.nodeId
  let ownerMember ← control.findMemberAssignment owner.nodeId
  guard (ownerMember.assignmentId = group.assignmentId)
  return {
    groupId := group.groupId
    localNodeId := self.nodeId
    localAssignmentId := localMember.assignmentId
    ownerNodeId := owner.nodeId
    ownerAssignmentId := ownerMember.assignmentId
    groupTerm := control.groupTerm
    manifestRevision := control.manifestRevision
    manifestDigest := control.manifestDigest
    partitionReplicationEpoch := control.partitionReplicationEpoch }

/-! ## The installer -/

structure RejectThrough where
  assignmentId : AssignmentId := none
  groupTerm : UInt64 := 0
deriving DecidableEq

structure LeaseExpirySchedule where
  session : SessionIdentity
  anchor : AuthorityAnchor
  deadline : MonotonicTime
  recheckInterval : MonotonicDuration
  timerGeneration : Nat := 1
  active : Bool := true
deriving DecidableEq

structure PinnedGrant where
  desired : Option DesiredClusterControl
  generation : Nat
deriving DecidableEq

inductive GrantStage
  | expiring
  | activating (pinned : PinnedGrant)
  | enabling (pinned : PinnedGrant)
  | admitting (pinned : PinnedGrant)
deriving DecidableEq

structure LeaseGrantTask where
  message : AuthorityMessage
  stage : GrantStage
deriving DecidableEq

inductive PendingTransition
  /-- A full state that revokes sources has not retired the lease schedules yet. -/
  | retirement
  | cleanup
deriving DecidableEq

structure LeaseTimer where
  cell : Nat
  timerGeneration : Nat
deriving DecidableEq

structure NodeControlInstaller where
  guard : AuthorityGuard MonotonicTime := {}
  /-- `NodeControlActions::ReceivesDirectives`: false only for a test adapter. -/
  receivesDirectives : Bool := true
  storageReady : Bool := false
  storageFailed : Bool := false
  projectionBasis : Option ProjectionBasis := none
  authorityLeaseDurationMs : UInt32 := 0
  desiredClusterControls : List DesiredClusterControl := []
  rejectThrough : AssocMap String RejectThrough := []
  directiveAdmissionGeneration : Nat := 0
  /-- The allocated schedules; timers and the map below share them by position. -/
  schedules : List LeaseExpirySchedule := []
  leaseExpirySchedules : AssocMap String Nat := []
  timers : List LeaseTimer := []
  grants : List LeaseGrantTask := []
  transitions : List PendingTransition := []

structure FullStateEffects where
  revokeSources : Bool := false
  retired : List AuthorityAnchor := []
  pauseDrains : List AuthorityAnchor := []

namespace NodeControlInstaller

variable (node : NodeControlInstaller)

def sourceRevocationTransitions : Nat :=
  node.transitions.length + node.grants.countP (·.stage = .expiring)

def suspend (pending : PendingTransition) : NodeControlInstaller :=
  { node with transitions := node.transitions ++ [pending] }

def invalidateDirectiveAdmissions : NodeControlInstaller :=
  { node with directiveAdmissionGeneration := node.directiveAdmissionGeneration + 1 }

def validateProjection (basis : ProjectionBasis) : StatusOr Unit :=
  match node.projectionBasis with
  | none => .error ⟨.failedPrecondition, "no full desired state has been installed"⟩
  | some installed => refuseIf (basis.controlRevision ≠ installed.controlRevision)
      .failedPrecondition "control message does not reference the installed Meta projection"

def validateAnchor (anchor : AuthorityAnchor) (requireLocalOwner : Bool) : StatusOr Unit :=
  match node.guard.serving with
  | none => .error ⟨.failedPrecondition, "no serving state is installed"⟩
  | some current =>
    match current.findGroup anchor.groupId with
    | none => .error ⟨.failedPrecondition, s!"unknown authority group '{anchor.groupId}'"⟩
    | some group => do
      refuseIf (requireLocalOwner = true ∧ current.sameLocalAssignment group = false)
        .failedPrecondition "authority message does not target a locally owned group"
      refuseIf (anchorFor group ≠ anchor) .failedPrecondition
        "authority message anchor is not current"

def rejectedByFence (anchor : AuthorityAnchor) : Bool :=
  match node.rejectThrough.get anchor.groupId with
  | none => false
  | some floor => floor.assignmentId = anchor.assignmentId && anchor.groupTerm ≤ floor.groupTerm

def desiredLocalClusterControl : StatusOr (Option DesiredClusterControl) :=
  match node.guard.serving.bind ServingState.self with
  | none => .ok none
  | some self =>
    match node.desiredClusterControls.filter fun control =>
        control.identity.members.any (·.nodeId = some self.nodeId) with
    | [] => .ok none
    | [control] => .ok (some control)
    | _ => .error ⟨.failedPrecondition,
        "one Data process cannot reconcile more than one local Group"⟩

def serveable (groupId : String) : Bool :=
  node.guard.serving.any fun current =>
    current.self.isSome && (current.findGroup groupId).any fun group =>
      current.sameLocalAssignment group && group.granted && group.populationReady &&
        group.storageReady

variable (message : AuthorityMessage) (control : DesiredClusterControl)

def agrees : Bool :=
  control.identity.groupId = message.anchor.groupId &&
    control.identity.groupTerm = message.anchor.groupTerm &&
    control.owner.any (fun owner =>
      owner.nodeId.isSome && owner.nodeId = (node.guard.serving.bind ServingState.self).map
          NodeDescriptor.nodeId &&
        owner.assignmentId = message.anchor.assignmentId) &&
    control.grantActive && node.authorityLeaseDurationMs ≠ 0 &&
    message.grantedDuration = node.authorityLeaseDurationMs.toNat * 1000000

def disagreement : String :=
  "lease grant disagrees with committed desired owner authority: message=\x7bgroup=" ++
    message.anchor.groupId ++ ",assignment=" ++ toHexString message.anchor.assignmentId ++
    ",term=" ++ toString message.anchor.groupTerm ++ ",duration_ms=" ++
    toString (message.grantedDuration.tdiv 1000000) ++ "\x7d desired=\x7bgroup=" ++
    control.identity.groupId ++ ",owner=" ++
    (control.owner.elim "<none>" fun owner => toHexString (owner.nodeId.map NodeId.bytes)) ++
    ",owner_assignment=" ++
    (control.owner.elim "<none>" fun owner => toHexString owner.assignmentId) ++ ",term=" ++
    toString control.identity.groupTerm ++ ",grant_active=" ++
    (if control.grantActive then "true" else "false") ++ ",effective_duration_ms=" ++
    toString node.authorityLeaseDurationMs ++ "\x7d local_node=" ++
    toHexString ((node.guard.serving.bind ServingState.self).map fun self => self.nodeId.bytes)

variable (next : ServingState) (now : MonotonicTime)

/-- `ValidateLeaseGrantContext`, where `draining` tells whether requests of a retired snapshot of
the group are still in flight. -/
def validateLeaseGrantContext (draining : Bool) : StatusOr (Option DesiredClusterControl) := do
  refuseIf (node.projectionBasis ≠ some message.projection) .failedPrecondition
    "lease grant does not name the exact installed Meta projection"
  node.validateAnchor message.anchor true
  refuseIf (node.storageFailed = true) .failedPrecondition
    "storage failed during this boot; lease recovery requires restart"
  refuseIf (node.rejectedByFence message.anchor = true) .failedPrecondition
    "lease grant does not advance the in-memory fence floor"
  refuseIf (message.session.complete = false) .invalidArgument
    "lease grant session identity is incomplete"
  refuseIf (message.grantedDuration ≤ 0) .invalidArgument "lease grant duration must be positive"
  refuseIf (saturatingLeaseDeadline message = maxTime) .invalidArgument
    "Meta lease grant must have a finite deadline"
  refuseIf (saturatingLeaseDeadline message ≤ now) .deadlineExceeded
    "lease grant expired before it could be installed"
  refuseIf (node.sourceRevocationTransitions ≠ 0 ∨ draining = true) .unavailable
    "authority cleanup or retired assignment requests have not drained"
  refuseIf (node.serveable message.anchor.groupId = false) .failedPrecondition
    "lease grant targets an unready or fenced assignment"
  let desired ← node.desiredLocalClusterControl
  match desired with
  -- Static adapters have no desired-control layer.
  | none => return none
  | some control =>
    refuseIf (node.agrees message control = false) .failedPrecondition
      (node.disagreement message control)
    refuseIf (control.activationActionId = some none) .dataLoss
      "failover-installed current grant has an empty activation action id"
    return some control

/-! ## Expiry schedules -/

def retireLeaseSchedule (groupId : String) : NodeControlInstaller :=
  match node.leaseExpirySchedules.get groupId with
  | none => node
  | some cell => { node with
      schedules := node.schedules.modify cell fun schedule =>
        { schedule with active := false, timerGeneration := schedule.timerGeneration + 1 }
      leaseExpirySchedules := node.leaseExpirySchedules.erase groupId }

def retireAllLeaseSchedules : NodeControlInstaller :=
  node.leaseExpirySchedules.keys.foldl retireLeaseSchedule node

def finishExpiredLease (cell : Nat) (schedule : LeaseExpirySchedule) (now : MonotonicTime) :
    NodeControlInstaller :=
  { node.invalidateDirectiveAdmissions with
    guard :=
      (node.guard.expireLease schedule.session schedule.anchor schedule.deadline now).2
    schedules := node.schedules.modify cell fun schedule => { schedule with active := false }
    leaseExpirySchedules :=
      if node.leaseExpirySchedules.get schedule.anchor.groupId = some cell then
        node.leaseExpirySchedules.erase schedule.anchor.groupId
      else node.leaseExpirySchedules }

def expireLeaseAt (timer : LeaseTimer) (now later : MonotonicTime) : NodeControlInstaller :=
  match node.schedules[timer.cell]? with
  | none => node
  | some schedule =>
    if !schedule.active || schedule.timerGeneration ≠ timer.timerGeneration then node
    else if now < schedule.deadline || later < schedule.deadline then node
    else (node.finishExpiredLease timer.cell schedule later).suspend .cleanup

def dueSchedule (groupId : String) (now : MonotonicTime) : Option (Nat × LeaseExpirySchedule) :=
  (node.leaseExpirySchedules.get groupId).bind fun cell =>
    (node.schedules[cell]?).bind fun schedule =>
      if schedule.active ∧ schedule.deadline ≤ now then some (cell, schedule) else none

def createSchedule : NodeControlInstaller :=
  { node with
    schedules := node.schedules ++ [{
      session := message.session
      anchor := message.anchor
      deadline := saturatingLeaseDeadline message
      recheckInterval := leaseExpiryRecheckInterval message.grantedDuration }]
    leaseExpirySchedules :=
      node.leaseExpirySchedules.set message.anchor.groupId node.schedules.length
    timers := node.timers ++ [⟨node.schedules.length, 1⟩] }

/-- The last part of `ApplyLeaseGrantTransition`: a running schedule is moved to the new deadline,
and gets a new timer if the present one would sleep too long. -/
def scheduleExpiry : NodeControlInstaller :=
  match node.leaseExpirySchedules.get message.anchor.groupId with
  | none => node.createSchedule message
  | some cell =>
    match node.schedules[cell]? with
    | none => node.createSchedule message
    | some schedule =>
      if !schedule.active then node.createSchedule message
      else
        let deadline := saturatingLeaseDeadline message
        let recheckInterval := leaseExpiryRecheckInterval message.grantedDuration
        let sooner := deadline < schedule.deadline || recheckInterval < schedule.recheckInterval
        let timerGeneration :=
          if sooner then schedule.timerGeneration + 1 else schedule.timerGeneration
        { node with
          schedules := node.schedules.set cell { schedule with
            session := message.session, anchor := message.anchor, deadline, recheckInterval,
            timerGeneration }
          timers := if sooner then node.timers ++ [⟨cell, timerGeneration⟩]
            else node.timers }

/-! ## Lease grants -/

def awaitGrant (stage : GrantStage) : NodeControlInstaller :=
  { node with grants := node.grants ++ [⟨message, stage⟩] }

def pinGrant (desired : Option DesiredClusterControl) : NodeControlInstaller :=
  let pinned : PinnedGrant := ⟨desired, node.directiveAdmissionGeneration⟩
  if desired.any (·.activationActionId.isSome) then node.awaitGrant message (.activating pinned)
  else node.awaitGrant message (.enabling pinned)

def failClosedLeaseGrant : NodeControlInstaller :=
  let closed := { node.invalidateDirectiveAdmissions with
    guard := node.guard.invalidateSession message.session }
  (closed.retireLeaseSchedule message.anchor.groupId).suspend .cleanup

/-- The recheck after an await: the context still holds, no control transition ran meanwhile and
the desired control is the pinned one. -/
def stillPinned (pinned : PinnedGrant) (now : MonotonicTime) (draining : Bool) : Bool :=
  match node.validateLeaseGrantContext message now draining with
  | .error _ => false
  | .ok desired =>
    node.directiveAdmissionGeneration = pinned.generation && desired = pinned.desired

def hasExactLease : Bool :=
  node.guard.session = some message.session &&
    (node.guard.leases.get message.anchor.groupId).any fun lease =>
      lease.session = message.session && lease.anchor = message.anchor &&
        lease.deadline = saturatingLeaseDeadline message &&
        decide (now < saturatingLeaseDeadline message)

def applyLeaseGrantTransition (draining : Bool) : NodeControlInstaller :=
  if message.kind ≠ .leaseGrant then node
  else
    match node.validateLeaseGrantContext message now draining with
    | .error _ => node
    | .ok desired =>
      match node.dueSchedule message.anchor.groupId now with
      | some (cell, schedule) =>
        (node.finishExpiredLease cell schedule now).awaitGrant message .expiring
      | none => node.pinGrant message desired

def resumeLeaseGrant (task : LeaseGrantTask) (outcome : StatusOr Unit) (now : MonotonicTime)
    (draining : Bool) : NodeControlInstaller :=
  match task.stage, outcome with
  | .expiring, .error _ => node
  | .expiring, .ok _ =>
    match node.validateLeaseGrantContext task.message now draining with
    | .error _ => node
    | .ok desired => node.pinGrant task.message desired
  | .activating _, .error _ | .enabling _, .error _ | .admitting _, .error _ =>
    node.failClosedLeaseGrant task.message
  | .activating pinned, .ok _ =>
    if node.stillPinned task.message pinned now draining then
      node.awaitGrant task.message (.enabling pinned)
    else node.failClosedLeaseGrant task.message
  | .enabling pinned, .ok _ =>
    if node.stillPinned task.message pinned now draining then
      let renewed := node.guard.renewLease task.message.session task.message.anchor
        (saturatingLeaseDeadline task.message) now
      if renewed.1 = .ok then
        { node with guard := renewed.2 }.awaitGrant task.message (.admitting pinned)
      else { node with guard := renewed.2 }.failClosedLeaseGrant task.message
    else node.failClosedLeaseGrant task.message
  | .admitting pinned, .ok _ =>
    if node.stillPinned task.message pinned now draining && node.hasExactLease task.message now then
      node.scheduleExpiry task.message
    else node.failClosedLeaseGrant task.message

/-! ## Sessions -/

def invalidateSessionNow (session : SessionIdentity) : StatusOr NodeControlInstaller := do
  refuseIf (session.complete = false) .invalidArgument "lost session identity is incomplete"
  return { node.invalidateDirectiveAdmissions with
    guard := node.guard.invalidateSession session }.retireAllLeaseSchedules

def loseSessionTransition (session : SessionIdentity) : StatusOr NodeControlInstaller := do
  let lost ← node.invalidateSessionNow session
  return lost.suspend .cleanup

def cancelPopulationForShutdown : NodeControlInstaller :=
  { node.invalidateDirectiveAdmissions with
    guard := node.guard.invalidateAll }.retireAllLeaseSchedules.suspend .cleanup

/-! ## Full desired states -/

def checkControlIdentity (serving : ServingState) (seen : List String)
    (control : DesiredClusterControl) : StatusOr (List String) := do
  let identity := control.identity
  refuseIf (identity.groupId = "" ∨ identity.groupId ∈ seen) .invalidArgument
    "prepared local control control group identity is empty or duplicated"
  refuseIf ((identity.manifestRevision = 0) ≠ (identity.manifestDigest.toList.all (· = 0) = true))
    .invalidArgument "prepared local control manifest identity is partial"
  let _ ← identity.members.foldlM (fun (seen : List (Option NodeId)) member => do
    refuseIf (member.nodeId = none ∨ member.assignmentId = none ∨ member.nodeId ∈ seen)
      .invalidArgument "prepared local control member identity is incomplete or duplicated"
    return member.nodeId :: seen) []
  refuseIf ((serving.findGroup identity.groupId).any (fun group =>
      group.groupTerm ≠ identity.groupTerm || group.manifestRevision ≠ identity.manifestRevision)
      = true)
    .invalidArgument "prepared local control control identity disagrees with its serving group"
  return identity.groupId :: seen

def checkDesiredControl (seen : List String) (control : DesiredClusterControl) :
    StatusOr (List String) := do
  refuseIf (control.identity.groupId = "" ∨ control.identity.groupId ∈ seen) .invalidArgument
    "prepared desired cluster control is empty or duplicated"
  refuseIf (control.owner.any (· ∉ control.identity.members) = true) .invalidArgument
    "prepared desired cluster control owner is not a member"
  refuseIf (control.grantActive = true ∧ control.owner = none) .invalidArgument
    "prepared active cluster control has no owner"
  return control.identity.groupId :: seen

def checkPrepared (prepared : PreparedFullState) (serving : ServingState) : StatusOr Unit := do
  let _ ← prepared.desiredClusterControls.foldlM (checkControlIdentity serving) []
  refuseIf (prepared.desiredClusterControls ≠ [] ∧ prepared.authorityLeaseDurationMs = 0)
    .invalidArgument "prepared Meta local control has no effective Authority Lease duration"
  let _ ← prepared.desiredClusterControls.foldlM checkDesiredControl []
  return ()

/-- The groups whose verified population is carried over: Meta's projection leaves boot-local
readiness out, and the exact population anchor is unchanged. -/
def carriedReadyGroups (before next : ServingState)
    (oldControls newControls : List DesiredClusterControl) : List String :=
  (before.groups.filter fun old =>
    old.populationReady && (next.findGroup old.groupId).any fun new =>
      let anchor := populationAnchorFor before old oldControls
      !new.populationReady && anchor.isSome && anchor = populationAnchorFor next new
        newControls).map
    GroupView.groupId

def checkControlCounters (newControls : List DesiredClusterControl)
    (oldControl : DesiredClusterControl) : StatusOr Unit :=
  let old := oldControl.identity
  match findControlIdentity newControls old.groupId with
  | none => .ok ()
  | some new => do
    refuseIf (new.partitionReplicationEpoch < old.partitionReplicationEpoch) .failedPrecondition
      s!"partition replication epoch regressed for group '{old.groupId}'"
    let shares := old.members.any (· ∈ new.members)
    refuseIf (shares = true ∧
        (new.groupTerm < old.groupTerm ∨ new.manifestRevision < old.manifestRevision))
      .failedPrecondition
      s!"same-membership control counter regressed for group '{old.groupId}'"
    refuseIf (shares = true ∧ new.manifestRevision = old.manifestRevision ∧
        new.manifestDigest ≠ old.manifestDigest)
      .dataLoss s!"same manifest revision changed digest for group '{old.groupId}'"

def checkServingCounters (old : GroupView) : StatusOr Unit :=
  match next.findGroup old.groupId with
  | none => .ok ()
  | some new => refuseIf (new.assignmentId = old.assignmentId ∧
        (new.groupTerm < old.groupTerm ∨ new.manifestRevision < old.manifestRevision))
      .failedPrecondition
      s!"same-assignment control counter regressed for group '{old.groupId}'"

def authorityChanged (old : GroupView) : Bool :=
  (next.findGroup old.groupId).all fun new =>
    !next.sameLocalAssignment new || anchorFor new ≠ anchorFor old || new.granted ≠ old.granted ||
      new.populationReady ≠ old.populationReady || new.storageReady ≠ old.storageReady

def pauseStarted (old : GroupView) : Bool :=
  (next.findGroup old.groupId).any fun new =>
    next.sameLocalAssignment new && anchorFor new = anchorFor old && !old.mutationsPaused &&
      new.mutationsPaused

def fullStateEffects (before next : ServingState) : FullStateEffects :=
  let owned := before.groups.filter before.sameLocalAssignment
  let retired := (owned.filter (authorityChanged next)).map anchorFor
  { revokeSources := !retired.isEmpty
    retired
    pauseDrains := (owned.filter (pauseStarted next)).map anchorFor }

def normalizeReadiness (serving : ServingState) : ServingState :=
  if serving.groups.all (·.storageReady = node.storageReady) then serving
  else serving.withStorageReady node.storageReady

def nextServing (prepared : PreparedFullState) (serving : ServingState) : StatusOr ServingState :=
  let normalized := node.normalizeReadiness serving
  match node.guard.serving with
  | none => .ok normalized
  | some before => do
    let carried := carriedReadyGroups before normalized node.desiredClusterControls
      prepared.desiredClusterControls
    let next := if carried.isEmpty then normalized else normalized.withCarriedReadiness carried
    refuseIf (next.topologyEpoch < before.topologyEpoch) .failedPrecondition
      "topology epoch regressed"
    node.desiredClusterControls.forM (checkControlCounters prepared.desiredClusterControls)
    before.groups.forM (checkServingCounters next)
    return next

section Publication

variable (contentHash : ServingState → UInt64)

variable (node : NodeControlInstaller) (prepared : PreparedFullState) (basis : ProjectionBasis)

/-- `InstallFullStateLocal`. Leases the next state does not confirm are dropped before it is
published. -/
def installFullStateLocal : StatusOr (NodeControlInstaller × FullStateEffects) :=
  match prepared.servingState with
  | none => .error ⟨.invalidArgument, "full desired state is empty"⟩
  | some serving => do
    checkPrepared prepared serving
    refuseIf (node.projectionBasis.any
        (fun installed => basis.controlRevision < installed.controlRevision) = true)
      .outOfRange "full desired state source index regressed"
    let next ← node.nextServing prepared serving
    let effects := node.guard.serving.elim {} fun before => fullStateEffects before next
    return ({ node with
      guard := (node.guard.invalidateAnchorsChanged next).publish contentHash (some next)
      projectionBasis := some basis
      authorityLeaseDurationMs := prepared.authorityLeaseDurationMs
      desiredClusterControls := prepared.desiredClusterControls }, effects)

def installFullState : NodeControlInstaller :=
  if node.receivesDirectives then node
  else
    let closed := node.invalidateDirectiveAdmissions
    match closed.installFullStateLocal contentHash prepared basis with
    | .error _ => closed
    | .ok (installed, _) => installed

def installRouting : NodeControlInstaller :=
  match node.projectionBasis with
  | none => node
  | some basis =>
    if prepared.desiredClusterControls ≠ node.desiredClusterControls ∨
        prepared.authorityLeaseDurationMs ≠ node.authorityLeaseDurationMs then node
    else
      match node.installFullStateLocal contentHash prepared basis with
      | .error _ => node
      | .ok (installed, _) => installed

def installFullStateTransition : NodeControlInstaller :=
  let closed := node.invalidateDirectiveAdmissions
  match closed.installFullStateLocal contentHash prepared basis with
  | .error _ => closed.suspend .cleanup
  | .ok (installed, effects) =>
    installed.suspend (if effects.revokeSources then .retirement else .cleanup)

/-! ## Fences -/

def raiseFloor (floor : RejectThrough) (anchor : AuthorityAnchor) : RejectThrough :=
  if floor.assignmentId ≠ anchor.assignmentId ∨ floor.groupTerm < anchor.groupTerm then
    ⟨anchor.assignmentId, anchor.groupTerm⟩
  else floor

def applyFenceLocal (anchor : AuthorityAnchor) : NodeControlInstaller :=
  { node with
    rejectThrough := node.rejectThrough.set anchor.groupId
      (raiseFloor ((node.rejectThrough.get anchor.groupId).getD {}) anchor)
    guard := (node.guard.fence anchor).publish contentHash
      (node.guard.serving.map fun current => current.withFence anchor) }

def validateAuthority (message : AuthorityMessage) : StatusOr Unit := do
  node.validateProjection message.projection
  node.validateAnchor message.anchor true

def applyFenceTransition (message : AuthorityMessage) : NodeControlInstaller :=
  if message.kind ≠ .fence then node
  else
    match node.validateAuthority message with
    | .error _ => node
    | .ok _ =>
      ((node.invalidateDirectiveAdmissions.retireLeaseSchedule
        message.anchor.groupId).applyFenceLocal contentHash message.anchor).suspend .cleanup

def applyAuthority (message : AuthorityMessage) (now : MonotonicTime) (draining : Bool) :
    NodeControlInstaller :=
  match node.validateAuthority message with
  | .error _ => node
  | .ok _ =>
    match message.kind with
    | .leaseGrant =>
      match node.validateLeaseGrantContext message now draining with
      | .error _ => node
      | .ok _ => { node with
          guard := (node.guard.renewLease message.session message.anchor
            (saturatingLeaseDeadline message) now).2 }
    | .fence =>
      if node.receivesDirectives then node
      else node.invalidateDirectiveAdmissions.applyFenceLocal contentHash message.anchor

/-! ## Readiness -/

/-- A readiness proof matches the control identity of its group and the local member's assignment.
-/
def proves (readiness : PopulationReadiness) : Bool :=
  (findControlIdentity node.desiredClusterControls readiness.groupId).any fun control =>
    (state.self.bind fun self => control.findMemberAssignment self.nodeId).any
        (·.assignmentId = readiness.assignmentId) &&
      control.groupTerm = readiness.groupTerm &&
      control.manifestRevision = readiness.manifestRevision &&
      control.manifestDigest = readiness.manifestDigest &&
      control.partitionReplicationEpoch = readiness.partitionReplicationEpoch

def populationReadyUnder (readiness : Option PopulationReadiness) (group : GroupView) : Bool :=
  readiness.any fun readiness =>
    group.groupId = readiness.groupId && group.groupTerm = readiness.groupTerm &&
      group.manifestRevision = readiness.manifestRevision &&
      (findControlIdentity node.desiredClusterControls group.groupId).any fun control =>
        control.manifestDigest = readiness.manifestDigest &&
          control.partitionReplicationEpoch = readiness.partitionReplicationEpoch &&
          (state.self.bind fun self => control.findMemberAssignment self.nodeId).any
            (·.assignmentId = readiness.assignmentId)

def withPopulationReadiness (readiness : Option PopulationReadiness) : ServingState :=
  state.rebuild
    { apply := fun group =>
        if state.localMember group then
          { group with populationReady := node.populationReadyUnder state readiness group }
        else group
      groupId_eq := fun group => by split <;> rfl
      primary_eq := fun group => by split <;> rfl }

def readinessChanged (before next : ServingState) : List GroupView :=
  before.groups.filter fun old => before.localMember old &&
    (next.findGroup old.groupId).all fun new => new.populationReady ≠ old.populationReady

def readinessLost (before next : ServingState) : List GroupView :=
  before.groups.filter fun old => before.localMember old && old.populationReady &&
    (next.findGroup old.groupId).all fun new => !new.populationReady

def setPopulationReadiness (readiness : Option PopulationReadiness) (invalidateAdmissions : Bool) :
    NodeControlInstaller :=
  if node.storageFailed && readiness.isSome then node
  else
    match node.guard.serving with
    | none => node
    | some before =>
      let matched := readiness.all (node.proves before)
      let next := node.withPopulationReadiness before (if matched then readiness else none)
      let lost := readinessLost before next
      let owned := lost.filter before.sameLocalAssignment
      if (readinessChanged before next).isEmpty then node
      else if lost.isEmpty then
        { node with guard := node.guard.publish contentHash (some next) }
      else
        let closed :=
          if invalidateAdmissions then node.invalidateDirectiveAdmissions else node
        -- Only a serving owner has leases; a replica loses its export capability alone.
        let revoked :=
          if owned.isEmpty then closed
          else (owned.map GroupView.groupId).foldl retireLeaseSchedule
            { closed with guard := closed.guard.invalidateLeases }
        { revoked with guard := revoked.guard.publish contentHash (some next) }.suspend .cleanup

def setStorageReady (ready : Bool) : NodeControlInstaller :=
  if node.storageReady = ready ∨ node.storageFailed = true ∨
      (ready = false ∧ node.receivesDirectives = true) then node
  else
    let marked := { node with storageReady := ready }
    match marked.guard.serving with
    | none => marked
    | some current =>
      let closed :=
        if ready then marked
        else { marked.invalidateDirectiveAdmissions with
          guard := marked.guard.invalidateAll }.retireAllLeaseSchedules
      { closed with
        guard := closed.guard.publish contentHash (some (current.withStorageReady ready)) }

def loseStorageReadiness : NodeControlInstaller :=
  if node.storageFailed then node
  else
    let closed := { node.invalidateDirectiveAdmissions with
      storageFailed := true
      storageReady := false
      guard := node.guard.invalidateAll }.retireAllLeaseSchedules
    let published := match node.guard.serving with
      | none => closed
      | some current => { closed with
          guard := closed.guard.publish contentHash (some (current.withStorageReady false)) }
    published.suspend .cleanup

end Publication

end NodeControlInstaller

/-! ## Interleavings -/

inductive ControlInput
  | installFullState (prepared : PreparedFullState) (basis : ProjectionBasis)
  | installFullStateTransition (prepared : PreparedFullState) (basis : ProjectionBasis)
  | installRouting (prepared : PreparedFullState)
  | applyAuthority (message : AuthorityMessage) (now : MonotonicTime) (draining : Bool)
  | applyFenceTransition (message : AuthorityMessage)
  | applyLeaseGrantTransition (message : AuthorityMessage) (now : MonotonicTime) (draining : Bool)
  | resumeLeaseGrant (index : Nat) (outcome : StatusOr Unit) (now : MonotonicTime) (draining : Bool)
  | expireLeaseAt (index : Nat) (now later : MonotonicTime)
  | advance (index : Nat)
  | invalidateSessionNow (session : SessionIdentity)
  | loseSessionTransition (session : SessionIdentity)
  | cancelPopulationForShutdown
  | revokeSourceAuthorizations
  | setPopulationReadiness (readiness : Option PopulationReadiness) (invalidateAdmissions : Bool)
  | setStorageReady (ready : Bool)
  | loseStorageReadiness

namespace NodeControlInstaller

def advance (node : NodeControlInstaller) (index : Nat) : NodeControlInstaller :=
  match node.transitions[index]? with
  | none => node
  | some .retirement => { node.retireAllLeaseSchedules with
      transitions := node.transitions.set index .cleanup }
  | some .cleanup => { node with transitions := node.transitions.eraseIdx index }

def step (contentHash : ServingState → UInt64) (node : NodeControlInstaller) :
    ControlInput → NodeControlInstaller
  | .installFullState prepared basis => node.installFullState contentHash prepared basis
  | .installFullStateTransition prepared basis =>
    node.installFullStateTransition contentHash prepared basis
  | .installRouting prepared => node.installRouting contentHash prepared
  | .applyAuthority message now draining =>
    node.applyAuthority contentHash message now draining
  | .applyFenceTransition message => node.applyFenceTransition contentHash message
  | .applyLeaseGrantTransition message now draining =>
    node.applyLeaseGrantTransition message now draining
  | .resumeLeaseGrant index outcome now draining =>
    match node.grants[index]? with
    | none => node
    | some task => { node with grants := node.grants.eraseIdx index }.resumeLeaseGrant
        task outcome now draining
  | .expireLeaseAt index now later =>
    match node.timers[index]? with
    | none => node
    | some timer => node.expireLeaseAt timer now later
  | .advance index => node.advance index
  | .invalidateSessionNow session =>
    (node.invalidateSessionNow session).toOption.getD node
  | .loseSessionTransition session =>
    (node.loseSessionTransition session).toOption.getD node
  | .cancelPopulationForShutdown => node.cancelPopulationForShutdown
  | .revokeSourceAuthorizations => node.invalidateDirectiveAdmissions.suspend .cleanup
  | .setPopulationReadiness readiness invalidateAdmissions =>
    node.setPopulationReadiness contentHash readiness invalidateAdmissions
  | .setStorageReady ready => node.setStorageReady contentHash ready
  | .loseStorageReadiness => node.loseStorageReadiness contentHash

def appliedFence (node : NodeControlInstaller) : ControlInput → Option AuthorityAnchor
  | .applyFenceTransition message =>
    if message.kind = .fence ∧ node.validateAuthority message = .ok () then
      some message.anchor
    else none
  | .applyAuthority message _ _ =>
    if message.kind = .fence ∧ node.validateAuthority message = .ok () ∧
        node.receivesDirectives = false then
      some message.anchor
    else none
  | _ => none

end NodeControlInstaller

/-- Every interleaving of the segments of one boot, which starts without leases over whatever
topology is published. -/
def nodeControl (contentHash : ServingState → UInt64) :
    TransitionSystem NodeControlInstaller ControlInput where
  init node := ∃ guard receivesDirectives, guard.leases = [] ∧ node = { guard, receivesDirectives }
  step node input after := after = node.step contentHash input

end Lavik.Cluster
