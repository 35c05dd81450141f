import Lavik.Meta.JournalSteps
import Lavik.Meta.TopologySteps
/-!
# What an accepted command does to the stores

One case analysis over the commands: the steps it takes on the topology and on the journal, and
what becomes of the topology epoch.
-/

namespace Lavik.Meta

open Base GroupAuthority IdentityStore Stores Keeps JournalSteps

/-! ## Routing -/

/-- The nodes registered before still are, at the same endpoints. -/
def IdentityStore.KeepsEndpoints (store after : IdentityStore) : Prop :=
  ∀ nodeId record, store.nodes.get nodeId = some record →
    ∃ next, after.nodes.get nodeId = some next ∧ next.endpoints = record.endpoints

namespace Stores

structure RoutesAs (stores after : Stores) : Prop where
  topology : stores.topology.RoutesAs after.topology
  endpoints : stores.identity.KeepsEndpoints after.identity

def Versions (stores after : Stores) : Prop :=
  (after.topology.topologyEpoch = stores.topology.topologyEpoch ∧ stores.RoutesAs after) ∨
    stores.topology.NextEpoch after.topology.topologyEpoch

end Stores

namespace IdentityStore

variable {store after : IdentityStore}

theorem KeepsEndpoints.of_nodes (same : after.nodes = store.nodes) :
    store.KeepsEndpoints after := by
  intro nodeId record found
  rw [same]
  exact ⟨record, found, rfl⟩

/-- Rewriting a record that keeps its endpoints keeps every node's. -/
theorem KeepsEndpoints.of_set {id : String} {written : NodeRecord}
    (nodes : after.nodes = store.nodes.set id written)
    (kept : ∀ record, store.nodes.get id = some record → written.endpoints = record.endpoints) :
    store.KeepsEndpoints after := by
  intro nodeId record found
  rw [nodes, AssocMap.get_set]
  split
  · next same => exact ⟨written, rfl, kept record (same ▸ found)⟩
  · exact ⟨record, found, rfl⟩

variable {formats : Formats}

theorem registerNode_endpoints {cmd : RegisterNode}
    (registered : store.registerNode formats cmd = .ok after) : store.KeepsEndpoints after := by
  simp only [registerNode, bind_returns] at registered
  obtain ⟨_, _, _, _, _, _, registered⟩ := registered
  split at registered
  · split at registered <;> cases registered
    exact .of_nodes rfl
  · next unknown =>
    simp only [require_bind, Except.ok.injEq] at registered
    obtain ⟨_, _, rfl⟩ := registered
    exact .of_set rfl (by simp [unknown])

theorem retireNode_endpoints {cmd : RetireNode} (retired : store.retireNode cmd = .ok after) :
    store.KeepsEndpoints after := by
  simp only [retireNode, bind_returns] at retired
  obtain ⟨_, _, known, lookedUp, retired⟩ := retired
  have present : store.nodes.get cmd.nodeId = some known := by
    unfold knownNode at lookedUp
    split at lookedUp <;> cases lookedUp
    assumption
  split at retired
  · cases retired
    exact .of_nodes rfl
  · simp only [require_bind, Except.ok.injEq] at retired
    obtain ⟨_, _, rfl⟩ := retired
    exact .of_set rfl (by simp [present])

theorem bindMetaMember_nodes {cmd : BindMetaMember}
    (bound : store.bindMetaMember formats cmd = .ok after) : after.nodes = store.nodes := by
  simp only [bindMetaMember, bind_returns] at bound
  obtain ⟨_, _, _, _, _, _, _, _, _, _, bound⟩ := bound
  split at bound
  · simp only [rebindMetaMember, bind_returns] at bound
    obtain ⟨_, _, bound⟩ := bound
    split at bound
    · cases bound
      rfl
    · simp only [bind_returns, Except.ok.injEq] at bound
      obtain ⟨_, _, _, _, rfl⟩ := bound
      rfl
  · simp only [bind_returns, Except.ok.injEq] at bound
    obtain ⟨_, _, _, _, _, _, rfl⟩ := bound
    rfl

theorem retireMetaMember_nodes {serverId : UInt32}
    (retired : store.retireMetaMember serverId = .ok after) : after.nodes = store.nodes := by
  unfold retireMetaMember at retired
  split at retired <;> cases retired
  rfl

end IdentityStore

/-! ## Effects -/

structure CommandEffect (formats : Formats) (index : UInt64) (cmd : Command)
    (stores after : Stores) : Prop where
  course : TopologyCourse cmd Moves stores.topology after.topology
  journal : stores.operation.Keyed →
    JournalSteps formats index cmd.reasoned stores.operation after.operation
  version : stores.Versions after

namespace CommandEffect

variable {formats : Formats} {index : UInt64} {cmd : Command} {stores after : Stores}

theorem of_change {effect : AuthorityEffect}
    (change : TopologyChange cmd effect TopologyStore.Versions stores.topology after.topology)
    (moves : ∀ {before after}, effect before after → before.Moves after)
    (identity : after.identity = stores.identity) (journal : stores.operation.Keyed →
      JournalSteps formats index cmd.reasoned stores.operation after.operation) :
    CommandEffect formats index cmd stores after :=
  ⟨change.weaken moves, journal, change.version.imp_left fun kept =>
    ⟨kept.1, kept.2, .of_nodes (congrArg nodes identity)⟩⟩

theorem of_topology {topology : TopologyStore}
    (change : TopologyChange cmd Keeps TopologyStore.Versions stores.topology topology) :
    CommandEffect formats index cmd stores { stores with topology } :=
  of_change change moves rfl fun _ => .refl

theorem of_journal {operation : OperationStore} (journal : stores.operation.Keyed →
      JournalSteps formats index cmd.reasoned stores.operation operation) :
    CommandEffect formats index cmd stores { stores with operation } :=
  of_change .keep moves rfl journal

theorem refl : CommandEffect formats index cmd stores stores := of_topology .keep

theorem aside (identity : after.identity = stores.identity)
    (topology : after.topology = stores.topology) (operation : after.operation = stores.operation) :
    CommandEffect formats index cmd stores after := by
  have kept : TopologyChange cmd Keeps TopologyStore.Versions stores.topology after.topology := by
    rw [topology]
    exact .keep
  refine of_change kept moves identity fun _ => ?_
  rw [operation]

theorem of_identity {identity : IdentityStore}
    (endpoints : stores.identity.KeepsEndpoints identity) :
    CommandEffect formats index cmd stores { stores with identity } :=
  ⟨TopologyChange.keep.weaken moves, fun _ => .refl, .inl ⟨rfl, ⟨fun _ => rfl, rfl⟩, endpoints⟩⟩

theorem invalidate (effect : CommandEffect formats index cmd stores after) :
    CommandEffect formats index cmd stores after.invalidateStaleCurrentDirectives :=
  ⟨effect.course, fun keyed => .tail (effect.journal keyed) (.invalidate _ _),
    effect.version.imp_left fun kept => ⟨kept.1, kept.2.topology, kept.2.endpoints⟩⟩

theorem of_replaces {groupId : String} {expected : FailoverTransitionRef}
    (typed : cmd.isFailover = true) (replaces : stores.Replaces after groupId expected index) :
    CommandEffect formats index cmd stores after := by
  obtain rfl | ⟨_, _, replaced, rfl⟩ := replaces
  · exact refl
  · exact of_topology (.versioned (.of_replace typed replaced))

end CommandEffect

/-! ## Checks -/

section Dispatch

variable {formats : Formats} {stores after : Stores} {index : UInt64} {done : Unit}
  {groupId : String} {actor : ActorContext}

theorem mem_affectedGroups {ranges : List SlotAssignment} {slot : Fin slotCount}
    (moved : TopologyStore.slotMap ranges slot ≠ stores.topology.slots slot) (named : groupId ≠ "")
    (affected : groupId = stores.topology.slots slot ∨ groupId = TopologyStore.slotMap ranges
      slot) : groupId ∈ affectedGroups stores ranges := by
  simp only [affectedGroups, List.mem_mergeSort, List.mem_dedup, List.mem_flatMap,
    List.mem_finRange, true_and]
  refine ⟨slot, ?_⟩
  rw [if_neg (Ne.symm moved), List.mem_filter]
  exact ⟨by simpa using affected, by simpa using named⟩

theorem idle_of_affected {cmd : SetSlotMap}
    (ok : validateSlotMapAuthorityTransition stores cmd = .ok done)
    (affected : groupId ∈ affectedGroups stores cmd.ranges) : stores.topology.idle groupId := by
  simp only [validateSlotMapAuthorityTransition, bind_returns] at ok
  obtain ⟨_, _, each⟩ := ok
  obtain ⟨_, free⟩ := forM_returns each groupId affected
  intro group found
  simp only [require_bind, require_returns, groupHasActiveFailover,
    findGroup, found, Option.any_some, groupHasActiveGrant,
    TopologyStore.authorityFor, Option.map_some, GroupState.grant_isSome,
    Bool.not_eq_true', Option.isSome_eq_false_iff, Option.isNone_iff_eq_none] at free
  exact ⟨free.2, free.1⟩

/-! ## Commands -/

open TopologyStore OperationStore Guarded

/-- The endpoints of a node and the epoch change together: `UpdateNode` is refused when one half of
its effect is there without the other. -/
theorem dispatchUpdateNode_effect {cmd : UpdateNode}
    (done : dispatchUpdateNode formats stores cmd = (after, .accepted)) :
    CommandEffect formats index (.updateNode cmd) stores after := by
  simp only [dispatchUpdateNode, afterChecks_accepted, fromStatus_accepted, bind_returns,
    require_returns, beq_iff_eq, onTopology_returns] at done
  obtain ⟨identity, ⟨_, halves, _, valid, updated⟩, topology, epoch, rfl⟩ := done
  rw [setTopologyEpoch_returns epoch]
  refine ⟨.weaken (.aside (.epoch _ _) rfl) moves, fun _ => .refl, ?_⟩
  by_cases epoch : stores.topology.topologyEpoch = cmd.newTopologyEpoch
  · rw [beq_iff_eq.mpr epoch, Option.any_eq_true] at halves
    obtain ⟨record, found, present⟩ := halves
    simp only [Bool.and_eq_true, Bool.not_eq_true', beq_iff_eq] at present
    simp only [updateNode, bind_returns, knownNode, found,
      present.1.1.1, present.1.2, present.2, and_self, if_true, Except.ok.injEq,
      exists_eq_left'] at updated
    obtain ⟨_, _, _, _, rfl⟩ := updated
    exact .inl ⟨epoch.symm, ⟨fun _ => rfl, rfl⟩, .of_nodes rfl⟩
  · rw [validateTopologyEpoch, if_neg (Ne.symm epoch), checkNextTopologyEpoch_returns] at valid
    exact .inr valid

theorem dispatchAssign_effect {cmd : AssignNodeToGroup}
    (done : dispatchAssign stores cmd = (after, .accepted)) :
    CommandEffect formats index (.assignNodeToGroup cmd) stores after := by
  obtain ⟨_, ok, rest⟩ := bind_returns.mp (fromStatus_accepted.mp done)
  obtain ⟨topology, assigned, rfl⟩ := map_returns rest
  simp only [assignNodeToGroup, bind_returns, knownGroup_returns] at assigned
  obtain ⟨_, _, _, _, _, _, group, found, assigned⟩ := assigned
  split at assigned
  · cases assigned
    exact .refl
  next absent =>
  have blocked : ∃ text, require ((stores.findGroup cmd.groupId).all fun target =>
      target.failoverTransition.isNone ||
        (cmd.expectedRevision != maxU64 && target.revision == cmd.expectedRevision + 1 &&
          stores.topology.topologyEpoch == cmd.newTopologyEpoch &&
          target.members.get cmd.nodeId == some ⟨cmd.assignmentId, cmd.role⟩))
      text = .ok () := by
    simp only [checkAssign, require_bind] at ok
    obtain ⟨_, ok⟩ := ok
    split at ok <;> exact ⟨_, (require_bind.mp ok).2⟩
  obtain ⟨_, blocked⟩ := blocked
  simp only [require_returns, findGroup, found, Option.all_some, Bool.or_eq_true,
    Option.isNone_iff_eq_none, Bool.and_eq_true, beq_iff_eq] at blocked
  have free := blocked.resolve_right fun present => absent ⟨present.2, present.1.1.2, present.1.2⟩
  simp only [bind_returns, checkNextTopologyEpoch_returns, Except.ok.injEq] at assigned
  obtain ⟨_, _, _, unassigned, _, _, _, _, _, next, rfl⟩ := assigned
  have unowned : stores.topology.groupOfNode.get cmd.nodeId = none := by
    unfold checkUnassigned at unassigned
    split at unassigned
    · assumption
    · split at unassigned <;> cases unassigned
  refine .of_topology
    (.then_epoch (.kept found (.assign _ _ _ _ ?_ found free unowned) rfl rfl) next)
  rfl

theorem dispatchRemove_effect {cmd : RemoveNodeFromGroup}
    (done : dispatchRemove stores cmd = (after, .accepted)) :
    CommandEffect formats index (.removeNodeFromGroup cmd) stores after := by
  obtain ⟨_, ok, rest⟩ := bind_returns.mp (fromStatus_accepted.mp done)
  obtain ⟨topology, removed, rfl⟩ := map_returns rest
  simp only [removeNodeFromGroup, bind_returns, knownGroup_returns] at removed
  obtain ⟨_, _, _, _, group, found, removed⟩ := removed
  split at removed
  · cases removed
    exact .refl
  simp only [bind_returns, require_returns, checkNextTopologyEpoch_returns, Except.ok.injEq]
    at removed
  obtain ⟨_, _, _, mem, _, next, rfl⟩ := removed
  simp only [checkRemove, require_bind, require_returns, findGroup, found,
    Option.all_some, authorityFor, Option.map_some, Bool.or_eq_true,
    Option.isNone_iff_eq_none, Bool.and_eq_true, Bool.not_eq_true', Option.all_eq_true,
    decide_eq_true_eq] at ok
  obtain ⟨owns, blocked⟩ := ok
  have free := blocked.resolve_right fun present => by simp_all [GroupState.isMember]
  have ungranted : group.authorityActive = true → group.record.owner ≠ cmd.nodeId := fun active =>
    owns ⟨group.record.owner, group.activationActionId⟩ (by simp [GroupState.authority, active])
  refine .of_topology (.then_epoch (.kept found (.remove _ _ _ ?_ found free ungranted mem) rfl rfl)
    next)
  rfl

theorem dispatchSetGroupReplicationState_effect {cmd : SetGroupReplicationState}
    (done : dispatchSetGroupReplicationState stores cmd = (after, .accepted)) :
    CommandEffect formats index (.setGroupReplicationState cmd) stores after := by
  simp only [dispatchSetGroupReplicationState, fromStatus_accepted, require_bind,
    onTopology_returns] at done
  obtain ⟨blocked, _, topology, updated, rfl⟩ := done
  simp only [setGroupReplicationState, bind_returns, knownGroup_returns] at updated
  obtain ⟨_, _, group, found, updated⟩ := updated
  split at updated
  · cases updated
    exact .refl
  next absent =>
  simp only [bind_returns, checkNextTopologyEpoch_returns, Except.ok.injEq] at updated
  obtain ⟨_, _, _, _, _, _, _, _, _, _, _, next, rfl⟩ := updated
  simp only [findGroup, found, Option.all_some, Bool.or_eq_true,
    Option.isNone_iff_eq_none, Bool.and_eq_true, beq_iff_eq, and_assoc] at blocked
  have free := blocked.resolve_right absent
  refine .of_topology (.then_epoch (.kept found (.replicate _ cmd.newPopulationManifestRevision
    cmd.newPopulationManifestDigest cmd.newPartitionReplicationEpoch ?_ found free) rfl rfl) next)
  rfl

theorem dispatchSetSlotMap_effect {cmd : SetSlotMap}
    (done : dispatchSetSlotMap stores cmd = (after, .accepted)) :
    CommandEffect formats index (.setSlotMap cmd) stores after := by
  obtain ⟨ok, topology, mapped, rfl⟩ := dispatchSetSlotMap_accepted done
  refine .of_topology ?_
  obtain rfl | ⟨next, rfl⟩ := setSlotMap_returns mapped
  · exact .keep
  · refine .then_epoch (.aside (.slots _ (slotMap cmd.ranges) rfl ?_) rfl) next
    intro slot moved
    exact ⟨fun named => idle_of_affected ok (mem_affectedGroups moved named (.inl rfl)),
      fun named => idle_of_affected ok (mem_affectedGroups moved named (.inr rfl))⟩

theorem dispatchActivateAuthority_effect {cmd : ActivateAuthority}
    (done : dispatchActivateAuthority formats stores cmd = (after, .accepted)) :
    CommandEffect formats index (.activateAuthority cmd) stores after := by
  obtain ⟨unblocked, done⟩ := refused_accepted.mp done
  simp only [settle_accepted, bind_returns, topology_returns, projectControls_returns] at done
  obtain ⟨rollback, middle, ⟨topology, granted, rfl⟩, _, rest⟩ := done
  cases rest
  refine .invalidate (.of_change (.of_kernel ?_ granted) Grants.moves rfl fun _ => .refl)
  intro _ group found
  simpa only [findGroup, found, Option.any_some, Bool.not_eq_true, Bool.and_eq_false_iff,
    Option.isSome_eq_false_iff, Option.isNone_iff_eq_none, Bool.not_eq_false'] using unblocked

theorem dispatchBeginUncontrolled_effect {cmd : BeginUncontrolledFailover}
    (done : dispatchBeginUncontrolled formats stores index cmd = (after, .accepted)) :
    CommandEffect formats index (.beginUncontrolledFailover cmd) stores after := by
  obtain ⟨_, rfl⟩ | ⟨fenced, topology, operation, begun, installed, aborted, rfl⟩ :=
    dispatchBeginUncontrolled_accepted done
  · exact .refl
  refine .invalidate (.of_change (.then_keeps (.versioned
    (.of_beginGroupTerm (Bool.noConfusion ·) begun)) (.of_install rfl rfl installed))
    Fences.moves rfl fun keyed => ?_)
  refine of_abortAll ?_ aborted
  intro request mem record found _ _
  split at mem
  · cases mem
  simp only [preemptableControlledRequests, List.mem_mergeSort, List.mem_filter,
    Bool.and_eq_true] at mem
  rw [keyed.get_of_mem mem.1] at found
  cases found
  exact ⟨mem.2.1, rfl, .inr ⟨rfl, fun _ => by decide⟩⟩

theorem dispatchAbortControlled_effect {cmd : AbortControlledFailover}
    (done : dispatchAbortControlled formats stores cmd = (after, .accepted)) :
    CommandEffect formats index (.abortControlledFailover cmd) stores after := by
  obtain ⟨_, done⟩ := refused_accepted.mp done
  split at done
  · rw [replayed_accepted.mp done]
    exact .refl
  simp only [afterChecks_accepted, settle_accepted, bind_returns, journal_returns] at done
  obtain ⟨_, ok, _, _, ⟨operation, aborted, rfl⟩, done⟩ := done
  have journal : JournalSteps formats index (Command.abortControlledFailover cmd).reasoned
      stores.operation operation := by
    refine .of_finishes rfl ?_ (abortOperation_returns aborted)
    intro record found _ _
    unfold checkAbort at ok
    split at ok
    · cases ok
    next untouched =>
    exact ⟨pristine_of_filter untouched found, rfl, .inr ⟨rfl, by simp [Command.reasoned]⟩⟩
  cases named : cmd.expectedTransition with
  | none =>
    simp only [named, bind_returns, Except.ok.injEq, exists_eq_left', projectControls_returns]
      at done
    obtain ⟨_, rest⟩ := done
    cases rest
    exact .of_journal fun _ => journal
  | some expected =>
    simp only [named, bind_returns, topology_returns, projectControls_returns] at done
    obtain ⟨_, ⟨topology, cleared, rfl⟩, _, rest⟩ := done
    cases rest
    exact .of_change (.versioned (.of_clear rfl cleared)) moves rfl fun _ => journal

theorem dispatchDegrade_effect {cmd : DegradeControlledFailover}
    (done : dispatchDegrade formats stores index cmd = (after, .accepted)) :
    CommandEffect formats index (.degradeControlledFailover cmd) stores after := by
  obtain ⟨_, done⟩ := refused_accepted.mp done
  obtain ⟨_, done⟩ := refused_accepted.mp done
  split at done
  · rw [replayed_accepted.mp done]
    exact .refl
  simp only [afterChecks_accepted, settle_accepted, bind_returns, topology_returns,
    check_returns, journal_returns, projectControls_returns] at done
  obtain ⟨checked, ok, _, _, ⟨fenced, begun, rfl⟩, _, ⟨_, rfl⟩, _, ⟨topology, replaced, rfl⟩, _,
    ⟨operation, aborted, rfl⟩, _, rest⟩ := done
  cases rest
  refine .invalidate (.of_change (.then_keeps (.versioned
    (.of_beginGroupTerm (Bool.noConfusion ·) begun)) (.of_replace rfl replaced)) Fences.moves rfl
    fun _ => .of_finishes rfl ?_ (abortOperation_returns aborted))
  intro record found _ _
  unfold checkDegrade at ok
  split at ok
  · cases ok
  next untouched =>
  exact ⟨pristine_of_filter untouched found, rfl, .inr ⟨rfl, by simp [Command.reasoned]⟩⟩

theorem dispatchCommitFailover_effect {cmd : CommitFailover}
    (done : dispatchCommitFailover formats stores cmd = (after, .accepted)) :
    CommandEffect formats index (.commitFailover cmd) stores after := by
  obtain ⟨_, done⟩ := refused_accepted.mp done
  split at done
  · rw [replayed_accepted.mp done]
    exact .refl
  split at done
  · cases refuse_accepted.mp done
  simp only [afterChecks_accepted, settle_accepted, bind_returns, topology_returns,
    projectControls_returns] at done
  obtain ⟨_, ok, _, first, begun, _, ⟨_, granted, rfl⟩, _, ⟨topology, cleared, rfl⟩, last,
    completed, _, rest⟩ := done
  cases rest
  obtain ⟨fenced, same, begins⟩ : ∃ fenced, first.stores = { stores with topology := fenced } ∧
      TopologyChange (.commitFailover cmd) Fences KeepsVersion stores.topology fenced := by
    unfold commitFence at begun
    split at begun
    · obtain ⟨fenced, ret, rfl⟩ := topology_returns.mp begun
      exact ⟨fenced, rfl, .of_beginGroupTerm (Bool.noConfusion ·) ret⟩
    · cases begun
      exact ⟨stores.topology, rfl, .refl fun _ => .inl rfl⟩
  rw [same] at granted completed
  have moved := TopologyChange.moves begins (.then_keeps (.of_kernel (Bool.noConfusion ·) granted)
    (.of_clear rfl cleared))
  unfold commitComplete at completed
  split at completed
  · cases completed
    exact .invalidate (.of_change moved id rfl fun _ => .refl)
  · next variant =>
    obtain ⟨operation, ret, rfl⟩ := journal_returns.mp completed
    refine .invalidate (.of_change moved id rfl fun _ => ?_)
    refine .of_finishes rfl ?_ (completeOperation_returns ret)
    intro record found _ _
    exact ⟨validateCommitPrestate_pristine ok variant found, rfl, .inl ⟨rfl, rfl⟩⟩

theorem dispatchSubmitOperation_effect {cmd : SubmitOperation}
    (done : dispatchSubmitOperation formats stores index cmd actor = some (after, .accepted)) :
    CommandEffect formats index (.submitOperation cmd) stores after := by
  unfold dispatchSubmitOperation at done
  split at done
  · cases done
  next ok =>
  simp only [Option.map_eq_some_iff, settle_accepted, bind_returns, journal_returns] at done
  obtain ⟨outcome, submitted, _, _, ⟨operation, ret, rfl⟩, rest⟩ := done
  subst ret
  obtain ⟨lifecycle, rfl⟩ : ∃ clusterLifecycle, after = { stores with
      operation, topology := { stores.topology with clusterLifecycle } } := by
    split at rest
    · obtain ⟨topology, begun, same⟩ := topology_returns.mp rest
      obtain ⟨lifecycle, rfl⟩ := beginClusterCreate_returns begun
      cases same
      exact ⟨lifecycle, rfl⟩
    · cases rest
      exact ⟨stores.topology.clusterLifecycle, rfl⟩
  refine .of_change (.lifecycle rfl _) moves rfl fun _ => of_submit ?_ submitted
  intro failover
  simp only [checkSubmit, bind_returns, submittedFailover, failover, ne_eq, not_true_eq_false,
    if_false] at ok
  obtain ⟨_, ⟨_, _, requested⟩, _⟩ := ok
  cases decoded : formats.decodeFailoverOperationIntent cmd.intent with
  | none => simp [decoded] at requested
  | some intent =>
    simp only [decoded, require_bind, Bool.and_eq_true, beq_iff_eq] at requested
    exact ⟨by rw [decoded]; rfl, requested.1.1, requested.1.2⟩

theorem dispatchTransitionPhase_effect {cmd : TransitionOperationPhase}
    (done : dispatchTransitionPhase formats stores index cmd = (after, .accepted)) :
    CommandEffect formats index (.transitionOperationPhase cmd) stores after := by
  unfold dispatchTransitionPhase at done
  split at done
  · next present =>
    obtain ⟨operation, changed, rfl⟩ := accepted_map done
    refine .of_journal fun _ => of_transition (fun record found => .inl ?_) changed
    simp only [transitionAlreadyApplied, found, Option.any_some,
      Bool.and_eq_true] at present
    exact present.2
  · simp only [afterChecks_accepted, settle_accepted, bind_returns, journal_returns,
      projectControls_returns] at done
    obtain ⟨_, ok, _, _, ⟨operation, changed, rfl⟩, _, rest⟩ := done
    cases rest
    refine .of_journal fun _ => of_transition (fun record found => .inr ?_) changed
    simp only [checkTransition, findOperation, found, require_bind, bne_iff_ne] at ok
    exact ok.1

/-- A command that ends an operation of another kind than failover. -/
theorem CommandEffect.of_finishes {cmd : Command} {operationId : Identity}
    {ended : OperationLifecycle} {result : String} {loss : Bool} {operation : OperationStore}
    {clusterLifecycle : ClusterLifecycleState} (plain : cmd.isFailover = false)
    (terminal : ended.isTerminal = true) (generic : ¬((stores.operation.findOperation
      operationId).any (·.kind = failoverOperationKind)) = true)
    (finishes : stores.operation.Finishes operation operationId ended result loss) :
    CommandEffect formats index cmd stores { stores with
      operation, topology := { stores.topology with clusterLifecycle } } := by
  refine .of_change (.lifecycle plain _) moves rfl fun _ => .of_finishes terminal ?_ finishes
  intro record found _ failover
  simp [findOperation, found, failover] at generic

theorem dispatchCompleteOperation_effect {cmd : CompleteOperation}
    (done : dispatchCompleteOperation formats stores cmd = (after, .accepted)) :
    CommandEffect formats index (.completeOperation cmd) stores after := by
  obtain ⟨generic, done⟩ := refused_accepted.mp done
  split at done
  · obtain ⟨operation, completed, rfl⟩ := accepted_map done
    exact .of_finishes rfl rfl generic (completeOperation_returns completed)
  obtain ⟨_, done⟩ := refused_accepted.mp done
  simp only [afterChecks_accepted, settle_accepted, bind_returns, journal_returns,
    topology_returns] at done
  obtain ⟨_, _, _, _, ⟨operation, completed, rfl⟩, topology, ended, rest⟩ := done
  obtain ⟨clusterLifecycle, rfl⟩ := completeClusterCreate_returns ended
  cases rest
  exact .of_finishes rfl rfl generic (completeOperation_returns completed)

theorem dispatchAbortOperation_effect {cmd : AbortOperation}
    (done : dispatchAbortOperation formats stores cmd = (after, .accepted)) :
    CommandEffect formats index (.abortOperation cmd) stores after := by
  obtain ⟨generic, done⟩ := refused_accepted.mp done
  split at done
  · obtain ⟨operation, aborted, rfl⟩ := accepted_map done
    exact .of_finishes rfl rfl generic (abortOperation_returns aborted)
  simp only [afterChecks_accepted, settle_accepted, bind_returns, journal_returns,
    topology_returns] at done
  obtain ⟨_, _, _, _, ⟨operation, aborted, rfl⟩, topology, ended, rest⟩ := done
  obtain ⟨clusterLifecycle, rfl⟩ := failClusterCreate_returns ended
  cases rest
  exact .of_finishes rfl rfl generic (abortOperation_returns aborted)

theorem dispatch_effect {env : Environment} {cmd : Command}
    (answered : dispatch env stores index actor cmd = some (after, .accepted)) :
    CommandEffect env.toFormats index cmd stores after := by
  -- every handler but one always answers
  have done : (dispatch env stores index actor cmd).getD (stores, .accepted) = (after, .accepted) :=
    congrArg (Option.getD · _) answered
  cases cmd with
  | submitOperation cmd => exact dispatchSubmitOperation_effect answered
  | completeOperation cmd => exact dispatchCompleteOperation_effect done
  | abortOperation cmd => exact dispatchAbortOperation_effect done
  | transitionOperationPhase cmd => exact dispatchTransitionPhase_effect done
  | updateNode cmd => exact dispatchUpdateNode_effect done
  | setSlotMap cmd => exact dispatchSetSlotMap_effect done
  | activateAuthority cmd => exact dispatchActivateAuthority_effect done
  | beginUncontrolledFailover cmd => exact dispatchBeginUncontrolled_effect done
  | degradeControlledFailover cmd => exact dispatchDegrade_effect done
  | abortControlledFailover cmd => exact dispatchAbortControlled_effect done
  | commitFailover cmd => exact dispatchCommitFailover_effect done
  | setUncontrolledCandidate cmd => exact .of_replaces rfl (dispatchSetCandidate_accepted done)
  | authorizeFailoverPrepare cmd => exact .of_replaces rfl (dispatchAuthorize_accepted done)
  | startCandidateRecovery cmd => exact .of_replaces rfl (dispatchStartRecovery_accepted done)
  | beginControlledFailover cmd =>
    obtain ⟨_, rfl⟩ | ⟨_, installed, rfl⟩ := dispatchBeginControlled_accepted done
    · exact .refl
    · exact .of_topology (.versioned (.of_install rfl rfl installed))
  | createGroup cmd =>
    obtain ⟨_, created, rfl⟩ := accepted_map done
    exact .of_topology (.of_createGroup rfl created)
  | assignNodeToGroup cmd => exact dispatchAssign_effect done
  | removeNodeFromGroup cmd => exact dispatchRemove_effect done
  | setGroupReplicationState cmd => exact dispatchSetGroupReplicationState_effect done
  | beginGroupTerm cmd | fenceGroup cmd =>
    obtain ⟨inactive, done⟩ := refused_accepted.mp done
    simp only [settle_accepted, bind_returns, topology_returns, projectControls_returns] at done
    obtain ⟨_, _, ⟨_, begun, rfl⟩, _, rest⟩ := done
    cases rest
    refine .invalidate (.of_change (.versioned (.of_beginGroupTerm (fun _ group found => ?_) begun))
      Fences.moves rfl fun _ => .refl)
    simpa [groupHasActiveFailover, findGroup, found] using inactive
  | registerNode cmd =>
    obtain ⟨_, registered, rfl⟩ := accepted_map done
    exact .of_identity (registerNode_endpoints registered)
  | retireNode cmd =>
    obtain ⟨_, _, rest⟩ := bind_returns.mp (fromStatus_accepted.mp done)
    obtain ⟨_, retired, rfl⟩ := map_returns rest
    exact .of_identity (retireNode_endpoints retired)
  | bindMetaMember cmd =>
    obtain ⟨_, bound, rfl⟩ := accepted_map done
    exact .of_identity (.of_nodes (bindMetaMember_nodes bound))
  | retireMetaMember serverId =>
    obtain ⟨_, retired, rfl⟩ := accepted_map done
    exact .of_identity (.of_nodes (retireMetaMember_nodes retired))
  | archiveOperations seqs =>
    obtain ⟨_, archived, rfl⟩ := accepted_map done
    exact .of_journal fun keyed => .of_archiveOperations keyed archived
  | pruneOperationArchive seqs =>
    obtain ⟨_, pruned, rfl⟩ := accepted_map done
    exact .of_journal fun _ => .of_pruneArchive pruned
  | pruneTerminalReceipts receipts =>
    obtain ⟨_, pruned, rfl⟩ := accepted_map done
    exact .of_journal fun _ => .of_pruneTerminalReceipts pruned
  | commitDirectiveResult cmd =>
    obtain ⟨_, _, rest⟩ := bind_returns.mp (fromStatus_accepted.mp done)
    obtain ⟨_, committed, rfl⟩ := map_returns rest
    exact .of_journal fun _ => .of_result committed
  | putPolicy cmd | pruneAudit through | setAuditPolicy policy attestation =>
    obtain ⟨_, _, rfl⟩ := accepted_map done
    exact .aside rfl rfl rfl
  | putPopulationManifest cmd | prunePopulationManifest digest =>
    obtain ⟨_, _, rest⟩ := bind_returns.mp (fromStatus_accepted.mp done)
    obtain ⟨_, _, rest⟩ := bind_returns.mp rest
    cases rest
    exact .aside rfl rfl rfl

end Dispatch

end Lavik.Meta
