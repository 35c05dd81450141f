import Lavik.Base.AssocMap
import Lavik.Cluster.Topology
/-!
# The authority guard of a Data node

`Admit` decides over one serving state; `AuthorityGuard` adds the finite leases of the current
Meta session. A lease is renewed in place without a new generation; every other change of leases or
session starts one. An admission is checked again, with its generation, the lease deadline and the
authority tokens, right before a mutation. Publications are atomic: thread-local caches are not
modelled.
-/

namespace Lavik.Cluster

open Base

inductive DecisionKind
  | serve
  | serveStaleRead
  | moved
  | clusterDownUnbound
  | crossSlot
  | loading
  | tryAgain
  | closeConnection
deriving DecidableEq, Repr

structure Decision where
  kind : DecisionKind := .serve
  movedSlot : UInt16 := 0
  movedHost : String := ""
  movedPort : UInt16 := 0
  movedTlsPort : UInt16 := 0
deriving DecidableEq, Repr

structure RequestView where
  slots : List UInt16
  isWrite : Bool := false
  connectionReadonly : Bool := false
  loadingAllowed : Bool := false

def groupReady (group : GroupView) : Bool := group.storageReady && group.populationReady

def involvedGroupsReady (state : ServingState) (slots : List UInt16) : Bool :=
  slots.all fun slot => (state.groupForSlot slot).all groupReady

def ready (state : Option ServingState) (slots : List UInt16) : Bool :=
  match state with
  | none => false
  | some state => if slots.isEmpty then state.fullyReady else involvedGroupsReady state slots

def admitOwner (state : ServingState) (request : RequestView) (slot : UInt16)
    (group : GroupView) : Decision :=
  if state.selfNodeIndex = some group.primaryNodeIndex then
    -- A fenced group has no safe owner, and nobody to redirect to.
    if !group.granted then { kind := .clusterDownUnbound }
    else if request.isWrite && group.mutationsPaused then { kind := .tryAgain }
    else { kind := .serve }
  else if !request.isWrite && request.connectionReadonly &&
      state.selfNodeIndex.any (· ∈ group.replicaNodeIndices) then { kind := .serveStaleRead }
  else
    match state.nodeAt group.primaryNodeIndex with
    | none => { kind := .clusterDownUnbound }
    | some primary => ⟨.moved, slot, primary.host, primary.port, primary.tlsPort⟩

def admitRequest (state : Option ServingState) (request : RequestView) : Decision :=
  if !ready state request.slots then
    { kind := if request.loadingAllowed then .serve else .loading }
  else
    match state, request.slots with
    | some state, slot :: others =>
      match state.groupForSlot slot with
      | none => { kind := .clusterDownUnbound }
      | some group =>
        if others.any (· ≠ slot) then { kind := .crossSlot }
        else admitOwner state request slot group
    | _, _ => { kind := .serve }

/-- `AuthorityUnchanged`. Snapshots are immutable, so the shortcut for one shared snapshot is the
comparison of a snapshot with itself. -/
def authorityUnchanged (admitted : ServingState) (current : Option ServingState)
    (slots : List UInt16) : Bool :=
  match current with
  | none => slots.isEmpty
  | some current => slots.all fun slot =>
    match admitted.groupForSlot slot, current.groupForSlot slot with
    | none, none => true
    | some before, some now => before.groupId = now.groupId ∧
        admitted.authorityTokenForSlot slot = current.authorityTokenForSlot slot
    | _, _ => false

structure SessionIdentity where
  sessionId : Option (List.Vector UInt8 16)
  generation : UInt64
  dataBootId : Option NodeId
deriving DecidableEq

def SessionIdentity.complete (session : SessionIdentity) : Bool :=
  session.sessionId.isSome && session.generation ≠ 0 && session.dataBootId.isSome

structure AuthorityAnchor where
  groupId : String
  assignmentId : AssignmentId
  groupTerm : UInt64
deriving DecidableEq

section Guard

variable {Time : Type} [LinearOrder Time]

structure Lease (Time : Type) where
  session : SessionIdentity
  anchor : AuthorityAnchor
  deadline : Time
deriving DecidableEq

structure AuthorityGuard (Time : Type) where
  session : Option SessionIdentity := none
  leases : AssocMap String (Lease Time) := []
  generation : Nat := 1
  serving : Option ServingState := none

structure AuthorityAdmission where
  decision : Decision
  state : Option ServingState
  slots : List UInt16
  gateGeneration : Nat := 0
  leaseChecked : Bool := false
  mutationStarted : Bool := false
  finalRecheckFailed : Bool := false

inductive RecheckResult
  | ok
  | reject
  | uncertain
deriving DecidableEq, Repr

def localPrimaryAnchor (state : ServingState) (groupId : String) : Option AuthorityAnchor :=
  match state.findGroup groupId with
  | none => none
  | some group =>
    if state.selfNodeIndex = some group.primaryNodeIndex && group.granted &&
        group.populationReady && group.storageReady then
      some ⟨group.groupId, group.assignmentId, group.groupTerm⟩
    else none

namespace AuthorityGuard

variable (guard : AuthorityGuard Time)

def leaseCoversGroup (session : SessionIdentity) (state : ServingState) (group : GroupView)
    (now : Time) : Bool :=
  if state.selfNodeIndex ≠ some group.primaryNodeIndex then true
  else
    match guard.leases.get group.groupId with
    | none => false
    | some lease =>
      lease.session = session && decide (now < lease.deadline) &&
        localPrimaryAnchor state group.groupId = some lease.anchor

def leaseCoversFrom (guard : AuthorityGuard Time) (session : SessionIdentity)
    (state : ServingState) (now : Time) (checkedGroup : String) : List UInt16 → Bool
  | [] => true
  | slot :: slots =>
    match state.groupForSlot slot with
    | none => leaseCoversFrom guard session state now checkedGroup slots
    | some group =>
      if group.groupId = checkedGroup then
        leaseCoversFrom guard session state now checkedGroup slots
      else guard.leaseCoversGroup session state group now &&
        leaseCoversFrom guard session state now group.groupId slots

def leaseCovers (state : ServingState) (slots : List UInt16) (now : Time) : Bool :=
  match guard.session with
  | none => false
  | some session => guard.leaseCoversFrom session state now "" slots

def captureAndAdmit (request : RequestView) (now : Time) : AuthorityAdmission :=
  let decision := admitRequest guard.serving request
  let routed : AuthorityAdmission := { decision, state := guard.serving, slots := request.slots }
  match decision.kind, guard.serving, request.slots with
  | .serve, some state, slot :: _ =>
    match state.groupForSlot slot with
    | none => routed
    | some group =>
      -- Only an owner serving its own group consumes Meta authority.
      if state.selfNodeIndex ≠ some group.primaryNodeIndex then routed
      else
        let checked := { routed with gateGeneration := guard.generation, leaseChecked := true }
        if guard.leaseCovers state request.slots now then checked
        else { checked with decision := { decision with kind := .clusterDownUnbound } }
  | _, _, _ => routed

def recheck (admission : AuthorityAdmission) (now : Time) : RecheckResult :=
  if admission.decision.kind ≠ .serve && admission.decision.kind ≠ .serveStaleRead then .reject
  else
    match admission.state with
    | none => if admission.slots.isEmpty then .ok else .reject
    | some state =>
      if admission.leaseChecked && (admission.gateGeneration ≠ guard.generation ||
          !guard.leaseCovers state admission.slots now) then .reject
      else if authorityUnchanged state guard.serving admission.slots then .ok
      else .reject

def recheckAtMutation (admission : AuthorityAdmission) (now : Time) :
    RecheckResult × AuthorityAdmission :=
  match guard.recheck admission now with
  | .ok => (.ok, { admission with mutationStarted := true })
  | result => (result, { admission with finalRecheckFailed := true })

/-! ## Control-plane writers -/

inductive RenewStatus
  | ok
  | incompleteSession
  | grantExpired
  | cleanupRequired
deriving DecidableEq, Repr

def enterSession (session : SessionIdentity) : AuthorityGuard Time :=
  if guard.session = some session then guard
  else { guard with session := some session, leases := [], generation := guard.generation + 1 }

def renewLease (session : SessionIdentity) (anchor : AuthorityAnchor) (deadline now : Time) :
    RenewStatus × AuthorityGuard Time :=
  if !session.complete then (.incompleteSession, guard)
  else if deadline ≤ now then (.grantExpired, guard)
  else
    let entered := guard.enterSession session
    let installed := { entered with
      leases := entered.leases.set anchor.groupId ⟨session, anchor, deadline⟩
      generation := entered.generation + 1 }
    match entered.leases.get anchor.groupId with
    | none => (.ok, installed)
    | some existing =>
      if existing.session = session ∧ existing.anchor = anchor then
        if existing.deadline ≤ now then (.cleanupRequired, entered)
        else
          -- Deadline-only renewal keeps the generation.
          (.ok, { entered with
            leases := entered.leases.set anchor.groupId { existing with deadline } })
      else (.ok, installed)

omit [LinearOrder Time] in
theorem enterSession_leases {guard : AuthorityGuard Time} {session : SessionIdentity}
    {entry : String × Lease Time} (kept : entry ∈ (guard.enterSession session).leases) :
    guard.session = some session ∧ guard.enterSession session = guard := by
  unfold enterSession at kept ⊢
  split at kept
  · rename_i cur
    exact ⟨cur, if_pos cur⟩
  · cases kept

/-- A renewal is refused and changes nothing, or it writes the lease in the session it entered, and
keeps the generation only over a lease of its own that is not due. -/
theorem renewLease_cases (session : SessionIdentity) (anchor : AuthorityAnchor)
    (deadline now : Time) :
    ((guard.renewLease session anchor deadline now).1 ≠ .ok ∧
        (guard.renewLease session anchor deadline now).2 = guard) ∨
      ∃ generation, guard.renewLease session anchor deadline now =
          (.ok, { guard.enterSession session with
            leases := (guard.enterSession session).leases.set anchor.groupId
              ⟨session, anchor, deadline⟩
            generation }) ∧
        (generation = (guard.enterSession session).generation + 1 ∨
          guard.session = some session ∧ generation = guard.generation ∧ ∃ existing,
            guard.leases.get anchor.groupId = some existing ∧ existing.session = session ∧
              existing.anchor = anchor ∧ now < existing.deadline) := by
  unfold renewLease
  split
  · exact .inl ⟨by simp, rfl⟩
  split
  · exact .inl ⟨by simp, rfl⟩
  dsimp only
  cases found : (guard.enterSession session).leases.get anchor.groupId with
  | none => exact .inr ⟨_, rfl, .inl rfl⟩
  | some existing =>
    dsimp only
    split
    · next own =>
      obtain ⟨cur, same⟩ := enterSession_leases (AssocMap.mem_of_get found)
      rw [same] at found ⊢
      split
      · exact .inl ⟨by simp, rfl⟩
      next live =>
      refine .inr ⟨guard.generation, ?_, .inr ⟨cur, rfl, existing, found, own.1, own.2,
        lt_of_not_ge live⟩⟩
      rw [← own.1, ← own.2]
    · exact .inr ⟨_, rfl, .inl rfl⟩

def expireLease (session : SessionIdentity) (anchor : AuthorityAnchor) (deadline now : Time) :
    Bool × AuthorityGuard Time :=
  if now < deadline then (false, guard)
  else if guard.session ≠ some session then (false, guard)
  else
    match guard.leases.get anchor.groupId with
    | none => (false, guard)
    | some lease =>
      if lease.session ≠ session ∨ lease.anchor ≠ anchor ∨ lease.deadline ≠ deadline then
        (false, guard)
      else (true, { guard with
        leases := guard.leases.erase anchor.groupId, generation := guard.generation + 1 })

def invalidateSession (session : SessionIdentity) : AuthorityGuard Time :=
  if guard.session ≠ some session then guard
  else { guard with session := none, leases := [], generation := guard.generation + 1 }

/-- `AuthorityGuard::InvalidateAnchorsChanged`: leases whose anchor the next state does not confirm
are dropped before that state is published. -/
def invalidateAnchorsChanged (after : ServingState) : AuthorityGuard Time :=
  let kept := guard.leases.filter fun entry =>
    localPrimaryAnchor after entry.1 = some entry.2.anchor
  if kept.length = guard.leases.length then guard
  else { guard with leases := kept, generation := guard.generation + 1 }

def fence (anchor : AuthorityAnchor) : AuthorityGuard Time :=
  if (guard.leases.get anchor.groupId).isNone then guard
  else { guard with
    leases := guard.leases.erase anchor.groupId, generation := guard.generation + 1 }

def invalidateLeases : AuthorityGuard Time :=
  if guard.leases.isEmpty then guard
  else { guard with leases := [], generation := guard.generation + 1 }

def invalidateAll : AuthorityGuard Time :=
  { guard with session := none, leases := [], generation := guard.generation + 1 }

def publish (contentHash : ServingState → UInt64) (guard : AuthorityGuard Time)
    (state : Option ServingState) : AuthorityGuard Time :=
  match guard.serving, state with
  | some current, some next =>
    if contentHash current = contentHash next then guard else { guard with serving := state }
  | _, _ => { guard with serving := state }

end AuthorityGuard

inductive ControlStep (Time : Type)
  | renewLease (session : SessionIdentity) (anchor : AuthorityAnchor) (deadline : Time)
  | expireLease (session : SessionIdentity) (anchor : AuthorityAnchor) (deadline : Time)
  | invalidateSession (session : SessionIdentity)
  | invalidateAnchorsChanged (after : ServingState)
  | fence (anchor : AuthorityAnchor)
  | invalidateLeases
  | invalidateAll
  | publish (state : Option ServingState)

namespace AuthorityGuard

variable (contentHash : ServingState → UInt64)

def step (guard : AuthorityGuard Time) (now : Time) :
    ControlStep Time → AuthorityGuard Time
  | .renewLease session anchor deadline => (guard.renewLease session anchor deadline now).2
  | .expireLease session anchor deadline => (guard.expireLease session anchor deadline now).2
  | .invalidateSession session => guard.invalidateSession session
  | .invalidateAnchorsChanged after => guard.invalidateAnchorsChanged after
  | .fence anchor => guard.fence anchor
  | .invalidateLeases => guard.invalidateLeases
  | .invalidateAll => guard.invalidateAll
  | .publish state => guard.publish contentHash state

def run (guard : AuthorityGuard Time) (trace : List (Time × ControlStep Time)) :
    AuthorityGuard Time :=
  trace.foldl (fun guard timed => guard.step contentHash timed.1 timed.2) guard

end AuthorityGuard

end Guard

end Lavik.Cluster
