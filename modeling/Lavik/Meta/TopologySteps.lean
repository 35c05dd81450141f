import Lavik.Meta.Accepted
/-!
# Steps of the topology

Whatever an accepted command does to the topology is a sequence of a few kinds of step on one group,
the slots, the epoch or the lifecycle. A step knows its command: only a typed failover command
touches a group that has a transition, and only the one that names a transition installs it. What
requests are routed by changes with the epoch.
-/

namespace Lavik.Meta

open Base TopologyStore

def Command.isFailover : Command → Bool
  | .beginControlledFailover _ | .beginUncontrolledFailover _ | .setUncontrolledCandidate _
  | .authorizeFailoverPrepare _ | .abortControlledFailover _ | .degradeControlledFailover _
  | .commitFailover _ | .startCandidateRecovery _ => true
  | _ => false

def Command.installs : Command → Option (String × Identity)
  | .beginControlledFailover cmd => some (cmd.groupId, cmd.transitionId)
  | .beginUncontrolledFailover cmd => some (cmd.groupId, cmd.transitionId)
  | _ => none

/-- A group whose slots may move: it has neither grant nor transition. -/
def TopologyStore.idle (store : TopologyStore) (groupId : String) : Prop :=
  ∀ group, store.groups.get groupId = some group →
    group.authorityActive = false ∧ group.failoverTransition = none

inductive TopologyStep (applied : Command) : TopologyStore → TopologyStore → Prop
  | epoch (store : TopologyStore) (topologyEpoch : UInt64) :
      TopologyStep applied store { store with topologyEpoch }
  | lifecycle (store : TopologyStore) (clusterLifecycle : ClusterLifecycleState)
      (plain : applied.isFailover = false) :
      TopologyStep applied store { store with clusterLifecycle }
  | slots (store : TopologyStore) {cmd : SetSlotMap} (slots : Fin slotCount → String)
      (named : applied = .setSlotMap cmd) (idle : ∀ slot, slots slot ≠ store.slots slot →
        (store.slots slot ≠ "" → store.idle (store.slots slot)) ∧
          (slots slot ≠ "" → store.idle (slots slot))) :
      TopologyStep applied store { store with slots }
  | create {store : TopologyStore} (groupId : String) (plain : applied.isFailover = false)
      (named : groupId ≠ "") (unknown : store.groups.get groupId = none) :
      TopologyStep applied store (store.setGroup groupId { revision := 1 })
  | assign {store : TopologyStore} {group : GroupState} (groupId nodeId : String)
      (member : MemberState) (revision : UInt64) (plain : applied.isFailover = false)
      (found : store.groups.get groupId = some group) (free : group.failoverTransition = none)
      (unassigned : store.groupOfNode.get nodeId = none) :
      TopologyStep applied store { store.setGroup groupId { group with
          members := group.members.set nodeId member, revision } with
        groupOfNode := store.groupOfNode.set nodeId groupId
        lastAssignmentByNode := store.lastAssignmentByNode.set nodeId member.assignmentId }
  | remove {store : TopologyStore} {group : GroupState} (groupId nodeId : String)
      (revision : UInt64) (plain : applied.isFailover = false)
      (found : store.groups.get groupId = some group) (free : group.failoverTransition = none)
      (ungranted : group.authorityActive = true → group.record.owner ≠ nodeId)
      (member : (group.members.get nodeId).isSome = true) :
      TopologyStep applied store { store.setGroup groupId { group with
          members := group.members.erase nodeId, revision } with
        groupOfNode := store.groupOfNode.erase nodeId }
  | replicate {store : TopologyStore} {group : GroupState} (groupId : String)
      (manifestRevision : UInt64) (manifestDigest : Hash256) (partitionEpoch : UInt64)
      (plain : applied.isFailover = false) (found : store.groups.get groupId = some group)
      (free : group.failoverTransition = none) :
      TopologyStep applied store (store.setGroup groupId { group with
        record := { group.record with
          populationManifestRevision := manifestRevision
          populationManifestDigest := manifestDigest
          partitionReplicationEpoch := partitionEpoch } })
  | fence {store : TopologyStore} {group : GroupState} (groupId : String)
      (free : applied.isFailover = false → group.failoverTransition = none)
      (found : store.groups.get groupId = some group) (bounded : group.record.groupTerm ≠ maxU64) :
      TopologyStep applied store (store.setGroup groupId { group with
        record := { group.record with groupTerm := group.record.groupTerm + 1 }
        authorityActive := false
        activationActionId := none })
  | grant {store : TopologyStore} {group : GroupState} (groupId owner : String)
      (action : Option Identity) (free : applied.isFailover = false → group.failoverTransition =
      none)
      (found : store.groups.get groupId = some group) (fenced : group.authorityActive = false)
      (nonzero : group.record.groupTerm ≠ 0) (named : owner ≠ "")
      (member : group.isMember owner = true) :
      TopologyStep applied store (store.setGroup groupId { group with
        record := { group.record with owner }
        authorityActive := true
        activationActionId := action })
  | install {store : TopologyStore} {group : GroupState} (groupId : String)
      (transition : FailoverTransition) (typed : applied.isFailover = true)
      (allowed : applied.installs = some (groupId, transition.transitionId))
      (found : store.groups.get groupId = some group) (free : group.failoverTransition = none)
      (valid : validateFailoverTransition transition = .ok ()) :
      TopologyStep applied store
        (store.setGroup groupId { group with failoverTransition := some transition })
  | replace {store : TopologyStore} {group : GroupState} {current : FailoverTransition}
      (groupId : String) (transition : FailoverTransition) (typed : applied.isFailover = true)
      (found : store.groups.get groupId = some group)
      (installed : group.failoverTransition = some current)
      (same : transition.transitionId = current.transitionId)
      (valid : validateFailoverTransition transition = .ok ()) :
      TopologyStep applied store
        (store.setGroup groupId { group with failoverTransition := some transition })
  | clear {store : TopologyStore} {group : GroupState} (groupId : String)
      (typed : applied.isFailover = true)
      (found : store.groups.get groupId = some group) :
      TopologyStep applied store (store.setGroup groupId { group with failoverTransition := none })

abbrev TopologySteps (applied : Command) : TopologyStore → TopologyStore → Prop :=
  Relation.ReflTransGen (TopologyStep applied)

namespace TopologySteps

variable {applied : Command} {store after : TopologyStore}

theorem keep {holds : TopologyStore → Prop} (steps : TopologySteps applied store after)
    (begun : holds store)
    (kept : ∀ before next, TopologyStep applied before next → holds before → holds next) :
    holds after := by
  induction steps with
  | refl => exact begun
  | tail _ step ih => exact kept _ _ step ih

end TopologySteps

/-! ## What requests are routed by -/

/-- What a group shows to routing: all but its revision, term, grant and transition. -/
structure GroupRouting where
  members : AssocMap String MemberState
  owner : String
  populationManifestRevision : UInt64
  populationManifestDigest : Hash256
  partitionReplicationEpoch : UInt64

def GroupState.routing (group : GroupState) : GroupRouting where
  members := group.members
  owner := group.record.owner
  populationManifestRevision := group.record.populationManifestRevision
  populationManifestDigest := group.record.populationManifestDigest
  partitionReplicationEpoch := group.record.partitionReplicationEpoch

namespace TopologyStore

def routing (store : TopologyStore) (groupId : String) : Option GroupRouting :=
  (store.groups.get groupId).map GroupState.routing

structure RoutesAs (store after : TopologyStore) : Prop where
  groups : ∀ groupId, after.routing groupId = store.routing groupId
  slots : after.slots = store.slots

def KeepsVersion (store after : TopologyStore) : Prop :=
  after.topologyEpoch = store.topologyEpoch ∧ store.RoutesAs after

/-- The same epoch and the same routing, or the next epoch. -/
def Versions (store after : TopologyStore) : Prop :=
  store.KeepsVersion after ∨ store.NextEpoch after.topologyEpoch

variable {store middle after : TopologyStore}

theorem KeepsVersion.trans (first : store.KeepsVersion middle) (rest : middle.KeepsVersion after) :
    store.KeepsVersion after :=
  ⟨rest.1.trans first.1, fun groupId => (rest.2.groups groupId).trans (first.2.groups groupId),
    rest.2.slots.trans first.2.slots⟩

theorem KeepsVersion.write {groupId : String} {group next : GroupState}
    (found : store.groups.get groupId = some group) (kept : next.routing = group.routing) :
    store.KeepsVersion (store.setGroup groupId next) := by
  refine ⟨rfl, fun id => ?_, rfl⟩
  simp only [routing, setGroup, AssocMap.get_set]
  split
  · next same => rw [same, found, Option.map_some, Option.map_some, kept]
  · rfl

theorem Versions.after_keeps (first : store.KeepsVersion middle) (rest : middle.Versions after) :
    store.Versions after := by
  obtain kept | ⟨bounded, next⟩ := rest
  · exact .inl (first.trans kept)
  · rw [first.1] at bounded next
    exact .inr ⟨bounded, next⟩

theorem Versions.then_keeps (first : store.Versions middle) (rest : middle.KeepsVersion after) :
    store.Versions after := by
  obtain kept | ⟨bounded, next⟩ := first
  · exact .inl (kept.trans rest)
  · exact .inr ⟨bounded, rest.1.trans next⟩

end TopologyStore

/-! ## Store operations -/

open GroupAuthority

abbrev AuthorityEffect := GroupAuthority → GroupAuthority → Prop

/-- What a command does to the topology: its steps, and what they do to the authority of every
group. -/
structure TopologyCourse (applied : Command) (effect : AuthorityEffect)
    (store after : TopologyStore) : Prop where
  steps : TopologySteps applied store after
  authority : ∀ id, effect (store.authority id) (after.authority id)

/-- A course and what becomes of the epoch. -/
structure TopologyChange (applied : Command) (effect : AuthorityEffect)
    (versions : TopologyStore → TopologyStore → Prop) (store after : TopologyStore) : Prop
    extends TopologyCourse applied effect store after where
  version : versions store after

open TopologyStore (KeepsVersion Versions)

namespace TopologyCourse

variable {applied : Command} {effect : AuthorityEffect} {store after : TopologyStore}

theorem weaken {wider : AuthorityEffect} (course : TopologyCourse applied effect store after)
    (implies : ∀ {before after}, effect before after → wider before after) :
    TopologyCourse applied wider store after :=
  ⟨course.steps, fun id => implies (course.authority id)⟩

theorem aside (step : TopologyStep applied store after) (groups : after.groups = store.groups) :
    TopologyCourse applied Keeps store after :=
  ⟨.single step, fun _ => authority_congr (by rw [groups])⟩

variable {groupId : String} {group next : GroupState}

theorem write (idle : ∀ authority, effect authority authority)
    (found : store.groups.get groupId = some group) (step : TopologyStep applied store after)
    (groups : after.groups = store.groups.set groupId next)
    (allowed : effect group.authority next.authority) :
    TopologyCourse applied effect store after := by
  refine ⟨.single step, fun id => ?_⟩
  by_cases same : id = groupId
  · have written : after.groups.get groupId = some next := by rw [groups, AssocMap.get_set_self]
    rwa [same, authority_of_get found, authority_of_get written]
  · rw [authority_congr (by rw [groups, AssocMap.get_set_of_ne _ _ same])]
    exact idle _

theorem kept (found : store.groups.get groupId = some group)
    (step : TopologyStep applied store after)
    (groups : after.groups = store.groups.set groupId next)
    (same : next.authority = group.authority) : TopologyCourse applied Keeps store after :=
  write (fun _ => rfl) found step groups same

end TopologyCourse

namespace TopologyChange

variable {applied : Command} {effect : AuthorityEffect} {store middle after : TopologyStore}
  {groupId : String}

theorem refl (idle : ∀ authority, effect authority authority) :
    TopologyChange applied effect KeepsVersion store store :=
  ⟨⟨.refl, fun _ => idle _⟩, rfl, fun _ => rfl, rfl⟩

theorem versioned (change : TopologyChange applied effect KeepsVersion store after) :
    TopologyChange applied effect Versions store after :=
  ⟨change.toTopologyCourse, .inl change.version⟩

theorem keep : TopologyChange applied Keeps Versions store store :=
  versioned (refl fun _ => rfl)

theorem lifecycle (plain : applied.isFailover = false) (clusterLifecycle : ClusterLifecycleState) :
    TopologyChange applied Keeps Versions store { store with clusterLifecycle } :=
  ⟨.aside (.lifecycle _ _ plain) rfl, .inl ⟨rfl, fun _ => rfl, rfl⟩⟩

theorem then_epoch (course : TopologyCourse applied effect store after) {topologyEpoch : UInt64}
    (next : store.NextEpoch topologyEpoch) :
    TopologyChange applied effect Versions store { after with topologyEpoch } :=
  ⟨⟨course.steps.tail (.epoch _ _), course.authority⟩, .inr next⟩

theorem write {group next : GroupState} (idle : ∀ authority, effect authority authority)
    (found : store.groups.get groupId = some group)
    (step : TopologyStep applied store (store.setGroup groupId next))
    (kept : next.routing = group.routing) (allowed : effect group.authority next.authority) :
    TopologyChange applied effect KeepsVersion store (store.setGroup groupId next) :=
  ⟨.write idle found step rfl allowed, .write found kept⟩

theorem then_keeps (first : TopologyChange applied effect Versions store middle)
    (rest : TopologyChange applied Keeps KeepsVersion middle after) :
    TopologyChange applied effect Versions store after :=
  ⟨⟨first.steps.trans rest.steps, fun id => by rw [rest.authority id]; exact first.authority id⟩,
    .then_keeps first.version rest.version⟩

theorem moves (fenced : TopologyChange applied Fences KeepsVersion store middle)
    (granted : TopologyChange applied Grants Versions middle after) :
    TopologyChange applied Moves Versions store after :=
  ⟨⟨fenced.steps.trans granted.steps, fun id => ⟨_, fenced.authority id, granted.authority id⟩⟩,
    .after_keeps fenced.version granted.version⟩

theorem of_createGroup (plain : applied.isFailover = false) {cmd : CreateGroup}
    (ret : store.createGroup cmd = .ok after) :
    TopologyChange applied Keeps Versions store after := by
  simp only [createGroup, checkGroupId, require_bind, Bool.and_eq_true, bne_iff_ne] at ret
  obtain ⟨⟨named, _⟩, ret⟩ := ret
  cases unknown : store.groups.get cmd.groupId with
  | some group =>
    simp only [unknown] at ret
    split at ret
    · cases ret
      exact keep
    · cases ret
  | none =>
    simp only [unknown, bind_returns, checkNextTopologyEpoch_returns, Except.ok.injEq] at ret
    obtain ⟨_, next, _, _, rfl⟩ := ret
    refine .then_epoch ⟨.single (.create cmd.groupId plain named unknown), fun id => ?_⟩ next
    -- A new group is at term zero without a grant, as an unknown one.
    by_cases same : id = cmd.groupId
    · subst same
      simp [Keeps, authority, authorityFor, unknown, setGroup, GroupState.authority]
    · exact authority_congr (AssocMap.get_set_of_ne _ _ same)

theorem of_beginGroupTerm {cmd : BeginGroupTerm}
    (free : applied.isFailover = false → ∀ group, store.groups.get cmd.groupId = some group →
      group.failoverTransition = none) (ret : store.beginGroupTerm cmd = .ok after) :
    TopologyChange applied Fences KeepsVersion store after := by
  obtain ⟨group, found, bounded, next, ⟨_, _, rfl⟩ | ⟨cur, rfl⟩⟩ :=
    beginGroupTerm_returns ret
  · exact refl fun _ => .inl rfl
  · rw [next, ← cur]
    have below : group.record.groupTerm ≠ maxU64 := cur ▸ bounded
    have step := TopologyStep.fence cmd.groupId (fun plain => free plain group found) found below
    exact .write (fun _ => .inl rfl) found step rfl (.inr ⟨below, rfl⟩)

theorem of_kernel {identity : IdentityStore} {cmd : ActivateAuthority} {action : Option Identity}
    (free : applied.isFailover = false → ∀ group, store.groups.get cmd.groupId = some group →
      group.failoverTransition = none ∨
        activateEffectPresent store cmd group.authority action = true)
    (ret : authorityActivationKernel identity cmd action store = .ok after) :
    TopologyChange applied Grants Versions store after := by
  obtain ⟨group, found, nonzero, cur, named, ⟨_, rfl⟩ | ⟨fenced, mem, _, next, rfl⟩⟩ :=
    authorityActivationKernel_returns ret
  · exact (refl fun _ => .inl rfl).versioned
  · have unblocked : applied.isFailover = false → group.failoverTransition = none := by
      intro plain
      apply (free plain group found).resolve_right
      intro present
      rw [(activateEffectPresent_iff.mp present).1] at fenced
      cases fenced
    have step := TopologyStep.grant cmd.groupId cmd.newOwner action unblocked found fenced
      (cur ▸ nonzero) named mem
    have grants : group.authority.Grants { group with
        record := { group.record with owner := cmd.newOwner }
        authorityActive := true
        activationActionId := action }.authority :=
      .inr ⟨by simp [GroupState.authority, fenced], _, rfl⟩
    exact .then_epoch (.write (fun _ => .inl rfl) found step rfl grants) next

variable {index : UInt64} {expected : FailoverTransitionRef}

section

variable (typed : applied.isFailover = true)

include typed

theorem of_install {transition : FailoverTransition}
    (allowed : applied.installs = some (groupId, transition.transitionId))
    (ret : store.installFailoverTransition groupId transition index = .ok after) :
    TopologyChange applied Keeps KeepsVersion store after := by
  obtain ⟨group, found, valid, ⟨_, rfl⟩ | ⟨free, rfl⟩⟩ :=
    installFailoverTransition_returns ret
  · exact refl fun _ => rfl
  · exact .write (fun _ => rfl) found (.install groupId _ typed allowed found free valid) rfl rfl

theorem of_replace {replacement : FailoverTransition}
    (ret : store.replaceFailoverTransition groupId expected replacement index = .ok after) :
    TopologyChange applied Keeps KeepsVersion store after := by
  obtain ⟨group, found, same, valid, ⟨_, rfl⟩ | ⟨cur, installed, sameId, _, _, rfl⟩⟩ :=
    replaceFailoverTransition_returns ret
  · exact refl fun _ => rfl
  · exact .write (fun _ => rfl) found
      (.replace groupId _ typed found installed (same.trans sameId.symm) valid) rfl rfl

theorem of_clear (ret : store.clearFailoverTransition groupId expected = .ok after) :
    TopologyChange applied Keeps KeepsVersion store after := by
  obtain ⟨group, found, ⟨_, rfl⟩ | ⟨_, _, _, _, rfl⟩⟩ :=
    clearFailoverTransition_returns ret
  · exact refl fun _ => rfl
  · exact .write (fun _ => rfl) found (.clear groupId typed found) rfl rfl

end

end TopologyChange

end Lavik.Meta
