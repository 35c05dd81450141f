import Lavik.Meta.TopologyStore
/-!
# What the topology operations return

Each operation either finds its own effect and returns the store it was given, or changes what its
checks allow.
-/

namespace Lavik.Meta

open Base

namespace GroupState

variable (group : GroupState)

@[simp] theorem grant_isSome : group.authority.grant.isSome = group.authorityActive := by
  cases active : group.authorityActive <;> simp [authority, active]

@[simp] theorem grant_isNone : group.authority.grant.isNone = !group.authorityActive := by
  cases active : group.authorityActive <;> simp [authority, active]

end GroupState

namespace TopologyStore

variable {store after : TopologyStore}

/-! ## Checks -/

/-- The epoch that follows the store's own, which has a successor. -/
def NextEpoch (store : TopologyStore) (epoch : UInt64) : Prop :=
  store.topologyEpoch ≠ maxU64 ∧ epoch = store.topologyEpoch + 1

variable {epoch index : UInt64} {groupId : String} {root : Identity}
  {expected : FailoverTransitionRef}

theorem checkNextTopologyEpoch_returns {done : Unit} :
    checkNextTopologyEpoch store.topologyEpoch epoch = .ok done ↔ store.NextEpoch epoch := by
  unfold checkNextTopologyEpoch NextEpoch
  rw [require_returns]
  simp

theorem knownGroup_returns {group : GroupState} :
    store.knownGroup groupId = .ok group ↔ store.groups.get groupId = some group := by
  unfold knownGroup
  cases found : store.groups.get groupId <;> simp

/-! ## Cluster lifecycle -/

/-! The lifecycle of the cluster is all that its creation and its end change. -/

theorem beginClusterCreate_returns (ok : store.beginClusterCreate root index = .ok after) :
    ∃ clusterLifecycle, after = { store with clusterLifecycle } := by
  simp only [beginClusterCreate, require_bind] at ok
  obtain ⟨_, _, ok⟩ := ok
  split at ok
  · cases ok
    exact ⟨store.clusterLifecycle, rfl⟩
  · rw [require_bind, Except.ok.injEq] at ok
    exact ⟨_, ok.2.symm⟩

theorem completeClusterCreate_returns (ok : store.completeClusterCreate root = .ok after) :
    ∃ clusterLifecycle, after = { store with clusterLifecycle } := by
  unfold completeClusterCreate at ok
  dsimp only at ok
  split at ok
  · cases ok
    exact ⟨store.clusterLifecycle, rfl⟩
  · rw [require_bind, Except.ok.injEq] at ok
    exact ⟨_, ok.2.symm⟩

theorem failClusterCreate_returns {summary : String}
    (ok : store.failClusterCreate root summary = .ok after) :
    ∃ clusterLifecycle, after = { store with clusterLifecycle } := by
  simp only [failClusterCreate, require_bind] at ok
  obtain ⟨_, ok⟩ := ok
  split at ok
  · cases ok
    exact ⟨store.clusterLifecycle, rfl⟩
  · rw [require_bind, Except.ok.injEq] at ok
    exact ⟨_, ok.2.symm⟩

/-! ## Groups, membership and slots -/

theorem setSlotMap_returns {cmd : SetSlotMap} (ok : store.setSlotMap cmd = .ok after) :
    after = store ∨
      (store.NextEpoch cmd.newTopologyEpoch ∧ after = { store with
        slots := slotMap cmd.ranges, topologyEpoch := cmd.newTopologyEpoch }) := by
  simp only [setSlotMap, bind_returns] at ok
  obtain ⟨_, _, _, _, _, _, ok⟩ := ok
  split at ok
  · cases ok
    exact .inl rfl
  · simp only [bind_returns, checkNextTopologyEpoch_returns, Except.ok.injEq] at ok
    obtain ⟨_, next, _, _, ret⟩ := ok
    exact .inr ⟨next, ret.symm⟩

theorem setTopologyEpoch_returns (ok : store.setTopologyEpoch epoch = .ok after) :
    after = { store with topologyEpoch := epoch } := by
  simp only [setTopologyEpoch, bind_returns, Except.ok.injEq] at ok
  obtain ⟨_, _, ret⟩ := ok
  exact ret.symm

/-! ## Failover transitions -/

theorem installFailoverTransition_returns {transition : FailoverTransition}
    (ok : store.installFailoverTransition groupId transition index = .ok after) :
    ∃ group, store.groups.get groupId = some group ∧
      validateFailoverTransition { transition with revision := index } = .ok () ∧
      ((group.failoverTransition = some { transition with revision := index } ∧ after = store) ∨
        (group.failoverTransition = none ∧ after = store.setGroup groupId { group with
            failoverTransition := some { transition with revision := index } })) := by
  simp only [installFailoverTransition, bind_returns, knownGroup_returns] at ok
  obtain ⟨group, known, _, _, _, valid, ok⟩ := ok
  refine ⟨group, known, valid, ?_⟩
  split at ok
  · next present =>
    cases ok
    exact .inl ⟨present, rfl⟩
  · simp only [require_bind, Option.isNone_iff_eq_none, Except.ok.injEq] at ok
    exact .inr ⟨ok.1, ok.2.symm⟩

theorem replaceFailoverTransition_returns {replacement : FailoverTransition}
    (ok : store.replaceFailoverTransition groupId expected replacement index = .ok after) :
    ∃ group, store.groups.get groupId = some group ∧
      replacement.transitionId = expected.transitionId ∧
      validateFailoverTransition { replacement with revision := index } = .ok () ∧
      ((group.failoverTransition = some { replacement with revision := index } ∧ after = store) ∨
        ∃ cur, group.failoverTransition = some cur ∧
          cur.transitionId = expected.transitionId ∧ cur.revision = expected.revision ∧
          cur.revision < index ∧
          after = store.setGroup groupId { group with
            failoverTransition := some { replacement with revision := index } }) := by
  simp only [replaceFailoverTransition, bind_returns, knownGroup_returns, require_returns,
    beq_iff_eq] at ok
  obtain ⟨group, known, _, _, _, _, _, same, _, valid, ok⟩ := ok
  refine ⟨group, known, same, valid, ?_⟩
  split at ok
  · next present =>
    cases ok
    exact .inl ⟨present, rfl⟩
  simp only [bind_returns, Except.ok.injEq] at ok
  obtain ⟨_, checked, ret⟩ := ok
  cases installed : group.failoverTransition with
  | none => simp [installed, checkReplacement] at checked
  | some cur =>
    simp only [installed, checkReplacement, require_bind, Bool.and_eq_true, beq_iff_eq,
      decide_eq_true_eq] at checked
    obtain ⟨⟨sameId, sameRevision⟩, later, _⟩ := checked
    exact .inr ⟨cur, rfl, sameId, sameRevision, later, ret.symm⟩

theorem clearFailoverTransition_returns
    (ok : store.clearFailoverTransition groupId expected = .ok after) :
    ∃ group, store.groups.get groupId = some group ∧
      ((group.failoverTransition = none ∧ after = store) ∨
        ∃ cur, group.failoverTransition = some cur ∧
          cur.transitionId = expected.transitionId ∧ cur.revision = expected.revision ∧
          after = store.setGroup groupId { group with failoverTransition := none }) := by
  simp only [clearFailoverTransition, bind_returns, knownGroup_returns] at ok
  obtain ⟨group, known, _, _, ok⟩ := ok
  refine ⟨group, known, ?_⟩
  cases installed : group.failoverTransition with
  | none =>
    simp only [installed, Except.ok.injEq] at ok
    exact .inl ⟨rfl, ok.symm⟩
  | some cur =>
    simp only [installed, require_bind, Bool.and_eq_true, beq_iff_eq, Except.ok.injEq]
      at ok
    exact .inr ⟨cur, rfl, ok.1.1, ok.1.2, ok.2.symm⟩

/-! ## Terms and grants -/

theorem beginGroupTerm_returns {cmd : BeginGroupTerm} (ok : store.beginGroupTerm cmd = .ok after) :
    ∃ group, store.groups.get cmd.groupId = some group ∧ cmd.expectedTerm ≠ maxU64 ∧
      cmd.newTerm = cmd.expectedTerm + 1 ∧
      ((group.record.groupTerm = cmd.newTerm ∧ group.authorityActive = false ∧ after = store) ∨
        (group.record.groupTerm = cmd.expectedTerm ∧ after = store.setGroup cmd.groupId { group with
            record := { group.record with groupTerm := cmd.newTerm }
            authorityActive := false
            activationActionId := none })) := by
  unfold beginGroupTerm at ok
  cases found : store.groups.get cmd.groupId with
  | none => simp [found] at ok
  | some group =>
    simp only [found, require_bind, Bool.and_eq_true, bne_iff_ne, beq_iff_eq] at ok
    obtain ⟨⟨bounded, next⟩, ok⟩ := ok
    refine ⟨group, rfl, bounded, next, ?_⟩
    split at ok
    · split at ok
      · next present =>
        cases ok
        exact .inl ⟨present.1, present.2, rfl⟩
      · cases ok
    · next cur =>
      cases ok
      exact .inr ⟨not_not.mp cur, rfl⟩

theorem activateAuthority_returns {cmd : ActivateAuthority} {action : Option Identity}
    (ok : store.activateAuthority cmd action = .ok after) :
    ∃ group, store.groups.get cmd.groupId = some group ∧ cmd.expectedTerm ≠ 0 ∧
      group.record.groupTerm = cmd.expectedTerm ∧ cmd.newOwner ≠ "" ∧
      (group.authorityActive = false ∨
        (group.record.owner = cmd.newOwner ∧ group.activationActionId = action)) ∧
      after = store.setGroup cmd.groupId { group with
        record := { group.record with owner := cmd.newOwner }
        authorityActive := true
        activationActionId := action } := by
  simp only [activateAuthority, validateActivate, bind_returns] at ok
  obtain ⟨group, ⟨_, _, validated⟩, ret⟩ := ok
  cases found : store.groups.get cmd.groupId with
  | none => simp [found] at validated
  | some present =>
    simp only [found, bind_returns, Except.ok.injEq] at validated
    obtain ⟨_, checked, same⟩ := validated
    subst same
    simp only [checkActivate, require_bind, require_returns, Bool.or_eq_true,
      Bool.not_eq_true', Bool.and_eq_true, beq_iff_eq, bne_iff_ne, Except.ok.injEq]
      at checked ret
    obtain ⟨⟨nonzero, cur⟩, ⟨named, _⟩, free⟩ := checked
    exact ⟨_, rfl, nonzero, cur, named, free, ret.symm⟩

end TopologyStore

end Lavik.Meta
