import Lavik.Meta.JournalReturns
import Lavik.Meta.StateApply
import Lavik.Meta.TopologyReturns
/-!
# What an accepted command did

A command is accepted in one of two ways: it found its own effect and left the stores, or every
check passed and its store operations returned in turn.
-/

namespace Lavik.Meta

open Base OperationStore Guarded

variable {formats : Formats} {stores after : Stores} {logIndex : UInt64}

/-! ## Verdicts -/

variable {text groupId : String} {revision : UInt64} {operationId : Identity}
  {record : OperationRecord} {transition : FailoverTransition} {cmd : CommitFailover}

@[simp] theorem refuse_accepted : refuse stores text = (after, .accepted) ↔ False := by
  simp [refuse]

theorem refused_accepted {condition : Prop} [Decidable condition] {rest : Stores × Verdict} :
    (if condition then refuse stores text else rest) = (after, .accepted) ↔
      ¬condition ∧ rest = (after, .accepted) := by
  split <;> simp [*]

@[simp] theorem replayed_accepted : replayed stores = (after, .accepted) ↔ after = stores := by
  simp [replayed, eq_comm]

@[simp] theorem fromStatus_accepted {outcome : Except String Stores} :
    fromStatus stores outcome = (after, .accepted) ↔ outcome = .ok after := by
  cases outcome <;> simp [fromStatus]

theorem accepted_map {Value : Type} {outcome : Except String Value} {made : Value → Stores}
    (done : fromStatus stores (outcome.map made) = (after, .accepted)) :
    ∃ value, outcome = .ok value ∧ after = made value :=
  map_returns (fromStatus_accepted.mp done)

@[simp] theorem afterChecks_accepted {Value : Type} {checks : Except String Value}
    {continuation : Value → Stores × Verdict} :
    afterChecks stores checks continuation = (after, .accepted) ↔
      ∃ value, checks = .ok value ∧ continuation value = (after, .accepted) := by
  cases checks <;> simp [afterChecks]

@[simp] theorem settle_accepted {outcome : Attempt Guarded Guarded} :
    settle outcome = (after, .accepted) ↔ ∃ rollback, outcome = .ok ⟨after, rollback⟩ := by
  cases outcome with
  | error stopped => simp [settle]
  | ok guarded =>
    simp only [settle, Prod.mk.injEq, and_true, Except.ok.injEq]
    exact ⟨fun same => ⟨guarded.rollback, by rw [← same]⟩, fun ⟨_, same⟩ => by rw [same]⟩

/-! ## Parts of a guarded command -/

namespace Guarded

variable {guarded next : Guarded}

theorem topology_returns {operation : TopologyStore → Except String TopologyStore} :
    guarded.topology operation = .ok next ↔ ∃ topology,
      operation guarded.stores.topology = .ok topology ∧
        next = { guarded with stores := { guarded.stores with topology } } := by
  unfold topology
  rw [Attempt.step_returns]
  cases operation guarded.stores.topology <;> simp [Except.map, eq_comm]

theorem journal_returns {operation : OperationStore → Except String OperationStore} :
    guarded.journal operation = .ok next ↔ ∃ journal,
      operation guarded.stores.operation = .ok journal ∧
        next = { guarded with stores := { guarded.stores with operation := journal } } := by
  unfold journal
  rw [Attempt.step_returns]
  cases operation guarded.stores.operation <;> simp [Except.map, eq_comm]

theorem check_returns {ok : Stores → Except String Unit} :
    guarded.check ok = .ok next ↔ ok guarded.stores = .ok () ∧ next = guarded :=
  Attempt.check_returns

theorem projectControls_returns {recipients : List String} :
    projectControls formats recipients guarded = .ok next ↔
      Stores.validateAffectedNodeControls formats recipients guarded.stores = .ok () ∧
        next = guarded :=
  check_returns

end Guarded

/-! ## The activation kernel -/

namespace TopologyStore

variable {cmd : ActivateAuthority} {group : GroupState} {action : Option Identity}

theorem activateEffectPresent_iff {topology : TopologyStore} :
    activateEffectPresent topology cmd group.authority action = true ↔
      group.authorityActive = true ∧ group.record.owner = cmd.newOwner ∧
        group.activationActionId = action ∧ group.record.groupTerm = cmd.expectedTerm ∧
        topology.topologyEpoch = cmd.newTopologyEpoch := by
  simp only [activateEffectPresent, GroupState.authority, Bool.and_eq_true, beq_iff_eq]
  by_cases active : group.authorityActive = true <;>
    simp [active, ActiveAuthority.ext_iff, and_assoc]

theorem regranted (active : group.authorityActive = true) :
    { group with
      record := { group.record with owner := group.record.owner }
      authorityActive := true
      activationActionId := group.activationActionId } = group := by
  rw [← active]

theorem authorityActivationKernel_returns {identity : IdentityStore} {topology next : TopologyStore}
    (ok : authorityActivationKernel identity cmd action topology = .ok next) :
    ∃ group, topology.groups.get cmd.groupId = some group ∧ cmd.expectedTerm ≠ 0 ∧
      group.record.groupTerm = cmd.expectedTerm ∧ cmd.newOwner ≠ "" ∧
      ((activateEffectPresent topology cmd group.authority action = true ∧ next = topology) ∨
        (group.authorityActive = false ∧ group.isMember cmd.newOwner = true ∧
          identity.isActiveNode cmd.newOwner = true ∧ topology.NextEpoch cmd.newTopologyEpoch ∧
          next = { topology.setGroup cmd.groupId { group with
              record := { group.record with owner := cmd.newOwner }
              authorityActive := true
              activationActionId := action } with
            topologyEpoch := cmd.newTopologyEpoch })) := by
  simp only [authorityActivationKernel, bind_returns, knownGroup_returns] at ok
  obtain ⟨group, found, _, free, _, _, ok⟩ := ok
  refine ⟨group, found, ?_⟩
  by_cases present : activateEffectPresent topology cmd group.authority action = true
  · simp only [present, if_true, bind_returns] at ok
    obtain ⟨_, _, activated, granted, epoch⟩ := ok
    obtain ⟨same, known, nonzero, cur, named, _, rfl⟩ := activateAuthority_returns granted
    rw [found] at known
    cases known
    refine ⟨nonzero, cur, named, .inl ⟨present, ?_⟩⟩
    obtain ⟨active, owner, same, _, sameEpoch⟩ := activateEffectPresent_iff.mp present
    rw [setTopologyEpoch_returns epoch, ← owner, ← same, ← sameEpoch, regranted active]
    simp only [setGroup, AssocMap.set_of_get found]
  · simp only [present, Bool.false_eq_true, if_false, bind_returns, require_returns,
      checkNextTopologyEpoch_returns] at ok
    obtain ⟨_, next, _, mem, _, active, activated, granted, epoch⟩ := ok
    obtain ⟨same, known, nonzero, cur, named, _, rfl⟩ := activateAuthority_returns granted
    rw [found] at known
    cases known
    refine ⟨nonzero, cur, named, .inr ⟨?_, mem, active, next, setTopologyEpoch_returns epoch⟩⟩
    rw [require_returns, Bool.eq_false_of_not_eq_true present, Bool.or_false,
      GroupState.grant_isNone, Bool.not_eq_true'] at free
    exact free

end TopologyStore

/-! ## Stores -/

namespace Stores

theorem onTopology_returns {outcome : Except String TopologyStore} :
    stores.onTopology outcome = .ok after ↔
      ∃ topology, outcome = .ok topology ∧ after = { stores with topology } := by
  cases outcome <;> simp [onTopology, Except.map, eq_comm]

end Stores

/-! ## Checks of the failover commands -/

variable {group : GroupState} {done : Unit}

/-- The request a controlled failover runs under is untouched. -/
theorem pristine_of_filter {test : OperationRecord → Bool} {held : OperationRecord}
    (untouched : ((stores.operation.findOperation operationId).filter fun record =>
      record.pristineFailover formats && test record) = some held)
    (found : stores.operation.live.get operationId = some record) :
    record.pristineFailover formats = true := by
  obtain ⟨known, pristine⟩ := Option.filter_eq_some_iff.mp untouched
  rw [findOperation, found] at known
  cases known
  exact (Bool.and_eq_true_iff.mp pristine).1

theorem validateCommitPrestate_pristine
    (ok : validateCommitPrestate formats stores cmd group transition = .ok done)
    (variant : cmd.variant = .controlled operationId revision)
    (found : stores.operation.live.get operationId = some record) :
    record.pristineFailover formats = true := by
  rw [validateCommitPrestate, require_bind] at ok
  obtain ⟨_, ok⟩ := ok
  split at ok
  · cases ok
  simp only [bind_returns] at ok
  obtain ⟨_, _, _, _, authority⟩ := ok
  simp only [checkCommitAuthority, variant] at authority
  split at authority
  · cases authority
  simp only [validateControlledOperation, findOperation, found, require_bind, require_returns,
    Bool.and_eq_true] at authority
  exact authority.2.1.1

/-! ## Identity and topology -/

theorem dispatchSetSlotMap_accepted {cmd : SetSlotMap}
    (done : dispatchSetSlotMap stores cmd = (after, .accepted)) :
    validateSlotMapAuthorityTransition stores cmd = .ok () ∧
      ∃ topology, stores.topology.setSlotMap cmd = .ok topology ∧
        after = { stores with topology } := by
  simp only [dispatchSetSlotMap, fromStatus_accepted, bind_returns, Stores.onTopology_returns]
    at done
  obtain ⟨_, ok, mapped⟩ := done
  exact ⟨ok, mapped⟩

/-! ## Failover -/

theorem dispatchBeginControlled_accepted {cmd : BeginControlledFailover}
    (done : dispatchBeginControlled formats stores logIndex cmd = (after, .accepted)) :
    (beginControlledPresent formats stores cmd logIndex = true ∧ after = stores) ∨
      ∃ topology, stores.topology.installFailoverTransition cmd.groupId
          (controlledTransitionFrom cmd logIndex) logIndex = .ok topology ∧
        after = { stores with topology } := by
  obtain ⟨_, done⟩ := refused_accepted.mp done
  split at done
  · next present => exact .inl ⟨present, replayed_accepted.mp done⟩
  simp only [afterChecks_accepted, settle_accepted, bind_returns, topology_returns,
    projectControls_returns, TopologyStore.knownGroup_returns, Except.ok.injEq] at done
  obtain ⟨_, _, _, _, ⟨topology, installed, rfl⟩, _, rest⟩ := done
  cases rest
  exact .inr ⟨topology, installed, rfl⟩

def abortAll (requests : List OperationRecord) (operation : OperationStore) :
    Except String OperationStore :=
  requests.foldlM (fun operation record => operation.abortOperation
    ⟨record.operationId, record.revision, automaticFailoverPreemptionReason⟩) operation

theorem preemptAll_returns {requests : List OperationRecord} {guarded next : Guarded}
    (ret : requests.foldlM preempt guarded = .ok next) :
    ∃ operation, abortAll requests guarded.stores.operation = .ok operation ∧
      next.stores = { guarded.stores with operation } := by
  induction requests generalizing guarded with
  | nil =>
    cases ret
    exact ⟨next.stores.operation, rfl, rfl⟩
  | cons record rest ih =>
    simp only [List.foldlM_cons, bind_returns, preempt, journal_returns] at ret
    obtain ⟨middle, ⟨operation, aborted, rfl⟩, remaining⟩ := ret
    obtain ⟨final, others, same⟩ := ih remaining
    refine ⟨final, ?_, same⟩
    simp only [abortAll, List.foldlM_cons, bind_returns]
    exact ⟨operation, aborted, others⟩

theorem dispatchBeginUncontrolled_accepted {cmd : BeginUncontrolledFailover}
    (done : dispatchBeginUncontrolled formats stores logIndex cmd = (after, .accepted)) :
    (beginUncontrolledPresent formats stores cmd logIndex = true ∧ after = stores) ∨
      ∃ fenced topology operation, stores.topology.beginGroupTerm
          ⟨cmd.groupId, cmd.expected.groupTerm, cmd.targetTerm⟩ = .ok fenced ∧
        fenced.installFailoverTransition cmd.groupId
          (uncontrolledTransitionFrom cmd logIndex) logIndex = .ok topology ∧
        abortAll (if cmd.triggerReason = .manual then []
          else preemptableControlledRequests formats stores cmd.groupId)
          stores.operation = .ok operation ∧
        after = ({ stores with topology, operation } : Stores).invalidateStaleCurrentDirectives
        := by
  obtain ⟨_, done⟩ := refused_accepted.mp done
  obtain ⟨_, done⟩ := refused_accepted.mp done
  split at done
  · next present => exact .inl ⟨present, replayed_accepted.mp done⟩
  simp only [afterChecks_accepted, settle_accepted, bind_returns, topology_returns,
    projectControls_returns, TopologyStore.knownGroup_returns, Except.ok.injEq] at done
  obtain ⟨_, _, _, _, ⟨fenced, begun, rfl⟩, _, ⟨topology, installed, rfl⟩, preempted, aborted, _,
    rest⟩ := done
  obtain ⟨operation, requests, same⟩ := preemptAll_returns aborted
  have final : after = preempted.stores.invalidateStaleCurrentDirectives := by
    cases rest
    rfl
  rw [same] at final
  exact .inr ⟨fenced, topology, operation, begun, installed, requests, final⟩

/-- What a command that replaces the transition of a group does: nothing, or that. -/
def Stores.Replaces (stores after : Stores) (groupId : String) (expected : FailoverTransitionRef)
    (logIndex : UInt64) : Prop :=
  after = stores ∨ ∃ replacement topology,
    stores.topology.replaceFailoverTransition groupId expected replacement logIndex =
      .ok topology ∧ after = { stores with topology }

theorem replaceTransition_accepted {expected : FailoverTransitionRef}
    {replacement : FailoverTransition}
    (done : replaceTransition formats stores groupId group expected replacement logIndex =
      (after, .accepted)) : stores.Replaces after groupId expected logIndex := by
  simp only [replaceTransition, settle_accepted, bind_returns, topology_returns,
    projectControls_returns] at done
  obtain ⟨_, _, ⟨topology, replaced, rfl⟩, _, rest⟩ := done
  cases rest
  exact .inr ⟨replacement, topology, replaced, rfl⟩

theorem dispatchSetCandidate_accepted {cmd : SetUncontrolledCandidate}
    (done : dispatchSetCandidate formats stores logIndex cmd = (after, .accepted)) :
    stores.Replaces after cmd.groupId cmd.expectedTransition logIndex := by
  obtain ⟨_, done⟩ := refused_accepted.mp done
  obtain ⟨_, done⟩ := refused_accepted.mp done
  split at done
  · cases refuse_accepted.mp done
  split at done
  · exact .inl (replayed_accepted.mp done)
  · obtain ⟨_, _, replaced⟩ := afterChecks_accepted.mp done
    exact replaceTransition_accepted replaced

theorem dispatchStartRecovery_accepted {cmd : StartCandidateRecovery}
    (done : dispatchStartRecovery formats stores logIndex cmd = (after, .accepted)) :
    stores.Replaces after cmd.groupId cmd.expectedTransition logIndex := by
  obtain ⟨_, done⟩ := refused_accepted.mp done
  split at done
  · cases refuse_accepted.mp done
  obtain ⟨_, done⟩ := refused_accepted.mp done
  obtain ⟨_, done⟩ := refused_accepted.mp done
  split at done
  · exact .inl (replayed_accepted.mp done)
  · obtain ⟨_, _, replaced⟩ := afterChecks_accepted.mp done
    exact replaceTransition_accepted replaced

theorem dispatchAuthorize_accepted {cmd : AuthorizeFailoverPrepare}
    (done : dispatchAuthorize formats stores logIndex cmd = (after, .accepted)) :
    stores.Replaces after cmd.groupId cmd.expectedTransition logIndex := by
  obtain ⟨_, done⟩ := refused_accepted.mp done
  obtain ⟨_, done⟩ := refused_accepted.mp done
  split at done
  · cases refuse_accepted.mp done
  dsimp only at done
  split at done
  · exact .inl (replayed_accepted.mp done)
  · obtain ⟨_, _, replaced⟩ := afterChecks_accepted.mp done
    exact replaceTransition_accepted replaced

end Lavik.Meta
