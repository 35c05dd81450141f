import Lavik.Meta.Rollback
import Mathlib.Data.List.Pairwise
/-!
# Identities of failover transitions

A restored snapshot is refused when two groups have transitions of one id, but no command compares
the id it installs with those of other groups.
-/

namespace Lavik.Meta

open Base TopologyStore AssocMap

namespace TopologyStore

variable {store : TopologyStore}

def transitionId (store : TopologyStore) (groupId : String) : Option Identity :=
  (store.groups.get groupId).bind fun group =>
    group.failoverTransition.map FailoverTransition.transitionId

variable {group : GroupState} {groupId : String} {after : TopologyStore}

theorem transitionId_of_get (found : store.groups.get groupId = some group) :
    store.transitionId groupId = group.failoverTransition.map FailoverTransition.transitionId := by
  rw [transitionId, found, Option.bind_some]

theorem transitionId_set (written : after.groups = store.groups.set groupId group)
    (other : String) :
    after.transitionId other =
      if other = groupId then group.failoverTransition.map FailoverTransition.transitionId
      else store.transitionId other := by
  simp only [transitionId, written, get_set]
  split <;> rfl

def TransitionsDistinct (store : TopologyStore) : Prop :=
  ∀ first second id, store.transitionId first = some id → store.transitionId second = some id →
    first = second

end TopologyStore

variable {after before store : TopologyStore} {groupId : String} {id : Identity}
  {applied cmd : Command} {env : Environment} {stores : Stores} {index : UInt64}
  {transition : FailoverTransition} {actor : ActorContext}

theorem TopologyStep.transitionId (step : TopologyStep applied before after)
    (present : after.transitionId groupId = some id) :
    before.transitionId groupId = some id ∨ applied.installs = some (groupId, id) := by
  cases step with
  | epoch | lifecycle | slots => exact .inl present
  | assign _ _ _ _ _ found | remove _ _ _ _ found | replicate _ _ _ _ _ found
  | fence _ _ found | grant _ _ _ _ found =>
    rw [transitionId_set rfl] at present
    split at present
    · next here => exact .inl (by rwa [here, transitionId_of_get found])
    · exact .inl present
  | create target =>
    rw [transitionId_set rfl] at present
    split at present
    · cases present
    · exact .inl present
  | install target transition typed allowed =>
    rw [transitionId_set rfl] at present
    split at present
    · next here =>
      obtain rfl := Option.some.inj present
      exact .inr (here ▸ allowed)
    · exact .inl present
  | replace target transition typed found installed same =>
    rw [transitionId_set rfl] at present
    split at present
    · next here =>
      obtain rfl := Option.some.inj present
      rw [here, transitionId_of_get found, installed, same]
      exact .inl rfl
    · exact .inl present
  | clear target =>
    rw [transitionId_set rfl] at present
    split at present
    · cases present
    · exact .inl present

theorem TopologySteps.transitionId (steps : TopologySteps applied before after)
    (present : after.transitionId groupId = some id) :
    before.transitionId groupId = some id ∨ applied.installs = some (groupId, id) := by
  induction steps with
  | refl => exact .inl present
  | tail _ step ih => exact (step.transitionId present).elim ih .inr

theorem TopologyStep.nodup_keys (step : TopologyStep applied before after)
    (nodup : before.groups.keys.Nodup) : after.groups.keys.Nodup := by
  cases step with
  | epoch | lifecycle | slots => exact nodup
  | create | assign | remove | replicate | fence | grant | install | replace | clear =>
    exact nodup_keys_set nodup _ _

theorem metaSystem_nodup_groups {state : MetaState} (reached : (metaSystem env).Reachable state) :
    state.stores.topology.groups.keys.Nodup := by
  apply reached.invariant
  · rintro _ rfl
    exact List.nodup_nil
  · intro before label after earlier nodup stepped
    exact (metaSystem_effect stepped (metaSystem_keyed earlier)).course.steps.keep nodup
      fun _ _ step held => step.nodup_keys held

theorem nodup_transitions_iff (nodup : stores.topology.groups.keys.Nodup) :
    (stores.transitions.map FailoverTransition.transitionId).Nodup ↔
      stores.topology.TransitionsDistinct := by
  have pairs : stores.topology.groups.Pairwise fun first second => first.1 ≠ second.1 :=
    List.pairwise_map.mp nodup
  rw [List.Nodup, List.pairwise_map, Stores.transitions, List.pairwise_filterMap]
  have symmetric : Std.Symm fun first second : String × GroupState =>
      ∀ transition, first.2.failoverTransition = some transition →
        ∀ other, second.2.failoverTransition = some other →
          transition.transitionId ≠ other.transitionId :=
    ⟨fun _ _ apart _ here _ there => (apart _ there _ here).symm⟩
  constructor
  · intro apart first second id here there
    obtain ⟨firstGroup, firstFound, firstId⟩ := Option.bind_eq_some_iff.mp here
    obtain ⟨secondGroup, secondFound, secondId⟩ := Option.bind_eq_some_iff.mp there
    obtain ⟨firstTransition, firstInstalled, rfl⟩ := Option.map_eq_some_iff.mp firstId
    obtain ⟨secondTransition, secondInstalled, same⟩ := Option.map_eq_some_iff.mp secondId
    by_contra differ
    exact apart.forall (mem_of_get firstFound) (mem_of_get secondFound)
      (fun eq => differ (congrArg Prod.fst eq)) _ firstInstalled _ secondInstalled same.symm
  · intro apart
    refine pairs.imp_of_mem ?_
    intro first second firstMem secondMem differ transition installed other otherInstalled same
    apply differ
    apply apart _ _ transition.transitionId
    · rw [transitionId_of_get (get_of_mem nodup firstMem), installed]
      rfl
    · rw [transitionId_of_get (get_of_mem nodup secondMem), otherInstalled, same]
      rfl

def Command.FreshIn (cmd : Command) (stores : Stores) : Prop :=
  ∀ groupId id, cmd.installs = some (groupId, id) →
    ∀ other, stores.topology.transitionId other = some id → other = groupId

instance Command.decidableFreshIn (cmd : Command) (stores : Stores) :
    Decidable (cmd.FreshIn stores) :=
  decidable_of_iff (∀ began ∈ cmd.installs.toList, ∀ other ∈ stores.topology.groups.keys,
      stores.topology.transitionId other = some began.2 → other = began.1) <| by
    constructor
    · intro fresh groupId id begins other present
      refine fresh (groupId, id) (by simp [begins]) other ?_ present
      obtain ⟨group, found, _⟩ := Option.bind_eq_some_iff.mp present
      exact mem_keys_of_mem (mem_of_get found)
    · rintro fresh ⟨groupId, id⟩ began other _ present
      exact fresh groupId id (by simpa using began) other present

theorem transitionId_of_install
    (installed : store.installFailoverTransition groupId transition index = .ok after) :
    after.transitionId groupId = some transition.transitionId ∧
      ∀ other, other ≠ groupId → after.transitionId other = store.transitionId other := by
  obtain ⟨group, found, _, ⟨present, rfl⟩ | ⟨_, rfl⟩⟩ :=
    installFailoverTransition_returns installed
  · refine ⟨?_, fun _ _ => rfl⟩
    rw [transitionId_of_get found, present]
    rfl
  · constructor
    · rw [transitionId_set rfl, if_pos rfl]
      rfl
    · intro other elsewhere
      rw [transitionId_set rfl, if_neg elsewhere]

theorem transitionId_of_beginGroupTerm {cmd : BeginGroupTerm}
    (begun : store.beginGroupTerm cmd = .ok after) (groupId : String) :
    after.transitionId groupId = store.transitionId groupId := by
  obtain ⟨group, found, _, _, ⟨_, _, rfl⟩ | ⟨_, rfl⟩⟩ :=
    beginGroupTerm_returns begun
  · rfl
  · rw [transitionId_set rfl]
    split
    · next here => rw [here, transitionId_of_get found]
    · rfl

theorem transitionId_of_installed {rest : GroupState → Bool}
    (present : ((stores.findGroup groupId).any fun group =>
      group.failoverTransition == some transition && rest group) = true) :
    stores.topology.transitionId groupId = some transition.transitionId := by
  obtain ⟨group, found, held⟩ := (Option.any_eq_true _ _).mp present
  simp only [Bool.and_eq_true, beq_iff_eq] at held
  rw [transitionId_of_get found, held.1]
  rfl

theorem dispatch_installs {after : Stores} (begins : cmd.installs = some (groupId, id))
    (done : dispatch env stores index actor cmd = some (after, .accepted)) :
    after.topology.transitionId groupId = some id ∧ ∀ other, other ≠ groupId →
        after.topology.transitionId other = stores.topology.transitionId other := by
  cases cmd with
  | beginControlledFailover cmd =>
    cases begins
    obtain ⟨present, rfl⟩ | ⟨topology, installed, rfl⟩ :=
      dispatchBeginControlled_accepted (Option.some.inj done)
    · refine ⟨?_, fun _ _ => rfl⟩
      simp only [beginControlledPresent, Bool.and_assoc, Bool.and_eq_true] at present
      exact transitionId_of_installed present.2
    · exact transitionId_of_install installed
  | beginUncontrolledFailover cmd =>
    cases begins
    obtain ⟨present, rfl⟩ | ⟨fenced, _, _, begun, installed, _, rfl⟩ :=
      dispatchBeginUncontrolled_accepted (Option.some.inj done)
    · refine ⟨?_, fun _ _ => rfl⟩
      simp only [beginUncontrolledPresent, Bool.and_assoc, Bool.and_eq_true] at present
      exact transitionId_of_installed present.2
    · obtain ⟨here, elsewhere⟩ := transitionId_of_install installed
      exact ⟨here, fun other apart =>
        (elsewhere other apart).trans (transitionId_of_beginGroupTerm begun other)⟩
  | _ => cases begins

theorem dispatch_distinct {after : Stores} (nodup : stores.topology.TransitionsDistinct)
    (done : dispatch env stores index actor cmd = some (after, .accepted)) :
    after.topology.TransitionsDistinct ↔ cmd.FreshIn stores := by
  have steps := (dispatch_effect done).course.steps
  constructor
  · intro kept groupId id begins other present
    obtain ⟨here, elsewhere⟩ := dispatch_installs begins done
    by_contra apart
    exact apart (kept other groupId id ((elsewhere other apart).trans present) here)
  · intro fresh first second id here there
    rcases steps.transitionId here with before | installed
    · rcases steps.transitionId there with again | installed
      · exact nodup first second id before again
      · exact fresh second id installed first before
    rcases steps.transitionId there with before | again
    · exact (fresh first id installed second before).symm
    · rw [installed] at again
      cases again
      rfl

/-- **The ids of transitions stay distinct exactly while they are chosen fresh.** In every state
reached by commands whose Begins name an id no other group has installed, the uniqueness check of a
restored snapshot passes; and from any reachable state in which it passes, an accepted command keeps
it passing exactly when the id it installs, if any, is in no other group. -/
theorem transition_ids_distinct_iff_fresh (env : Environment) :
    (∀ state, ((metaSystem env).restrict fun before label =>
        label.2.body.FreshIn before.stores).Reachable state →
      (state.stores.transitions.map FailoverTransition.transitionId).Nodup) ∧
    (∀ state index cmd after, (metaSystem env).Reachable state →
      (state.stores.transitions.map FailoverTransition.transitionId).Nodup →
      applyCommitted env state.stores index cmd = some (after, .accepted) →
      ((after.transitions.map FailoverTransition.transitionId).Nodup ↔
        cmd.body.FreshIn state.stores)) := by
  have keeps : ∀ {before after : MetaState} {label : UInt64 × CommittedCommand},
      (metaSystem env).Reachable before → before.stores.topology.TransitionsDistinct →
      (metaSystem env).step before label after → label.2.body.FreshIn before.stores →
      after.stores.topology.TransitionsDistinct := by
    intro before after label reached distinct stepped fresh
    obtain ⟨_, _, verdict, applied⟩ := stepped
    obtain ⟨_, audit, _, same⟩ | ⟨_, _, decided, audit, dispatched, same⟩ :=
      applyCommitted_cases (metaSystem_keyed reached).distinct applied
    · rw [same]
      exact distinct
    · rw [same]
      exact (dispatch_distinct distinct dispatched).mpr fresh
  constructor
  · intro state reached
    rw [nodup_transitions_iff (metaSystem_nodup_groups reached.of_restrict)]
    apply reached.invariant
    · rintro _ rfl _ _ _ present
      cases present
    · intro before label after earlier distinct stepped
      exact keeps earlier.of_restrict distinct stepped.1 stepped.2
  · intro state index cmd after reached distinct applied
    have stored := metaSystem_nodup_groups reached
    rw [nodup_transitions_iff stored] at distinct
    obtain ⟨_, _, rejected, _⟩ | ⟨_, _, decided, audit, dispatched, rfl⟩ :=
      applyCommitted_cases (metaSystem_keyed reached).distinct applied
    · cases rejected
    · have storedAfter : decided.topology.groups.keys.Nodup :=
        (dispatch_effect dispatched).course.steps.keep stored
          fun _ _ step held => step.nodup_keys held
      exact (nodup_transitions_iff storedAfter).trans (dispatch_distinct distinct dispatched)

/-! ## One id in two groups -/

def creating : Environment :=
  { permissive with decodeClusterCreateRequest := fun _ => .ok (repeated 1) }

def twoGrants : List (UInt64 × CommittedCommand) :=
  [(1, unattributed (.submitOperation
      ⟨repeated 1, clusterCreateOperationKind, [1], zeroes 32, zeroes 20⟩)),
    (2, unattributed (.putPolicy ⟨automaticUncontrolledFailoverPolicyId, 1, [1]⟩)),
    (3, unattributed (.putPolicy ⟨authorityLeasePolicyId, 1, [1]⟩)),
    (4, unattributed (.putPolicy ⟨candidateRecoveryPolicyId, 1, [1]⟩)),
    (5, unattributed (.completeOperation ⟨repeated 1, 0, clusterCreatedResult, false⟩)),
    (6, unattributed (.registerNode ⟨"n", "p", ["e"], .primary⟩)),
    (7, unattributed (.registerNode ⟨"m", "q", ["f"], .primary⟩)),
    (8, unattributed (.createGroup ⟨"g", 1⟩)), (9, unattributed (.createGroup ⟨"h", 2⟩)),
    (10, unattributed (.assignNodeToGroup ⟨"g", "n", repeated 2, .primary, 1, 3⟩)),
    (11, unattributed (.assignNodeToGroup ⟨"h", "m", repeated 3, .primary, 1, 4⟩)),
    (12, unattributed (.beginGroupTerm ⟨"g", 0, 1⟩)),
    (13, unattributed (.activateAuthority ⟨"g", 1, "n", 5⟩)),
    (14, unattributed (.beginGroupTerm ⟨"h", 0, 1⟩)),
    (15, unattributed (.activateAuthority ⟨"h", 1, "m", 6⟩))]

def manualBegin (groupId nodeId : String) (assignmentId transitionId : Identity) :
    CommittedCommand :=
  unattributed (.beginUncontrolledFailover ⟨groupId, transitionId, 2, none, .manual, 0, none, none,
    ⟨nodeId, assignmentId, 2, 1, 0, zeroes 32, 0⟩⟩)

def allowedLog (env : Environment) (allowed : MetaState → UInt64 × CommittedCommand → Prop)
    [∀ state label, Decidable (allowed state label)] :
    MetaState → List (UInt64 × CommittedCommand) → Bool
  | _, [] => true
  | state, (index, cmd) :: rest => decide (allowed state (index, cmd)) &&
      (applyCommitted env state.stores index cmd).all fun decided =>
        allowedLog env allowed ⟨decided.1, index⟩ rest

theorem applyLog_restrict {allowed : MetaState → UInt64 × CommittedCommand → Prop}
    [∀ state label, Decidable (allowed state label)] {state after : MetaState}
    {log : List (UInt64 × CommittedCommand)}
    (reached : ((metaSystem env).restrict allowed).Reachable state)
    (permitted : allowedLog env allowed state log = true)
    (applied : applyLog env state log = some after) :
    ((metaSystem env).restrict allowed).Reachable after := by
  induction log generalizing state with
  | nil =>
    cases applied
    exact reached
  | cons label rest ih =>
    obtain ⟨index, cmd⟩ := label
    unfold applyLog at applied
    split at applied
    · rename_i increasing
      cases done : applyCommitted env state.stores index cmd with
      | none => simp [done] at applied
      | some decided =>
        obtain ⟨stores, verdict⟩ := decided
        simp only [allowedLog, done, Option.all_some, Bool.and_eq_true, decide_eq_true_eq]
          at permitted
        simp only [done] at applied
        have next : ((metaSystem env).restrict allowed).Reachable ⟨stores, index⟩ :=
          .next reached ⟨⟨increasing, rfl, verdict, done⟩, permitted.1⟩
        exact ih next permitted.2 applied
    · cases applied

def sharedId : List (UInt64 × CommittedCommand) := twoGrants ++
  [(16, manualBegin "g" "n" (repeated 2) (repeated 9)),
    (17, manualBegin "h" "m" (repeated 3) (repeated 9))]

/-- The first Begin is fresh, so its state can be restored; the second is not. -/
theorem first_of_two_begins_is_fresh :
    ∃ state, (metaSystem creating).Run {} (sharedId.take 16) state ∧
      (state.stores.transitions.map FailoverTransition.transitionId).Nodup ∧
      ∃ after, applyCommitted creating state.stores 17
          (manualBegin "h" "m" (repeated 3) (repeated 9)) = some (after, .accepted) ∧
        ¬ (after.transitions.map FailoverTransition.transitionId).Nodup := by
  have fresh : allowedLog creating (fun before label => label.2.body.FreshIn before.stores) {}
      (sharedId.take 16) = true := by decide +kernel
  have outcome : (applyLog creating {} (sharedId.take 16)).any (fun state =>
      (applyCommitted creating state.stores 17
        (manualBegin "h" "m" (repeated 3) (repeated 9))).any fun decided =>
          decided.2 == .accepted && !decide ((manualBegin "h" "m" (repeated 3)
            (repeated 9)).body.FreshIn state.stores)) = true := by decide +kernel
  obtain ⟨state, applied, decides⟩ := (Option.any_eq_true _ _).mp outcome
  obtain ⟨⟨after, verdict⟩, decided, stale⟩ := (Option.any_eq_true _ _).mp decides
  simp only [Bool.and_eq_true, beq_iff_eq, Bool.not_eq_true', decide_eq_false_iff_not] at stale
  obtain ⟨rfl, stale⟩ := stale
  have reached := applyLog_restrict (.start rfl) fresh applied
  have distinct := (transition_ids_distinct_iff_fresh creating).1 state reached
  refine ⟨state, applyLog_run applied, distinct, after, decided, fun kept => stale ?_⟩
  exact ((transition_ids_distinct_iff_fresh creating).2 state 17 _ after reached.of_restrict
    distinct decided).mp kept

/-- Both Begins are accepted, and a snapshot of the state they reach is refused. -/
theorem two_groups_share_transition_id :
    ∃ state, (metaSystem creating).Run {} sharedId state ∧
      ¬ (state.stores.transitions.map FailoverTransition.transitionId).Nodup ∧
      state.stores.aggregateConsistent creating.toFormats = false := by
  have outcome : (applyLog creating {} sharedId).any (fun state =>
      !(state.stores.transitions.map FailoverTransition.transitionId).Nodup &&
        !state.stores.aggregateConsistent creating.toFormats) = true := by decide +kernel
  obtain ⟨state, applied, checked⟩ := (Option.any_eq_true _ _).mp outcome
  refine ⟨state, applyLog_run applied, ?_⟩
  simpa using checked

end Lavik.Meta
