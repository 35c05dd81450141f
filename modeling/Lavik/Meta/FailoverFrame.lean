import Lavik.Meta.TransitionIds
/-!
# The frame of a failover

While a group has a failover transition its record belongs to the typed failover commands: every
other command that would change the group is refused, whichever store it goes through.
-/

namespace Lavik.Meta

open Base Stores TopologyStore

variable {before after : TopologyStore} {applied : Command} {env : Environment}

theorem TopologyStep.frame (step : TopologyStep applied before after)
    (plain : applied.isFailover = false) {groupId : String} {group : GroupState}
    (found : before.groups.get groupId = some group)
    (installed : group.failoverTransition.isSome = true) :
    after.groups.get groupId = some group := by
  -- A written group is another one: the one written has no transition.
  have kept {target : String} {written next : GroupState}
      (known : before.groups.get target = some written)
      (free : written.failoverTransition = none) :
      (before.groups.set target next).get groupId = some group := by
    rw [AssocMap.get_set_of_ne, found]
    rintro rfl
    rw [known] at found
    cases found
    rw [free] at installed
    cases installed
  cases step with
  | epoch | lifecycle | slots => exact found
  | create target _ _ unknown =>
    have apart : groupId ≠ target := by
      rintro rfl
      rw [unknown] at found
      cases found
    exact (AssocMap.get_set_of_ne _ _ apart).trans found
  | assign _ _ _ _ _ known free | remove _ _ _ _ known free | replicate _ _ _ _ _ known free =>
    exact kept known free
  | fence _ free known | grant _ _ _ free known => exact kept known (free plain)
  | install _ _ typed | replace _ _ typed | clear _ typed =>
    rw [plain] at typed
    cases typed

theorem TopologySteps.slots_eq (steps : TopologySteps applied before after)
    (other : ∀ cmd, applied ≠ .setSlotMap cmd) : after.slots = before.slots := by
  induction steps with
  | refl => rfl
  | tail _ step ih =>
    rw [← ih]
    cases step with
    | slots _ named => exact absurd named (other _)
    | _ => rfl

theorem TopologyStep.unnamed (step : TopologyStep applied before after)
    (absent : before.groups.get "" = none) : after.groups.get "" = none := by
  have kept {target : String} (next : GroupState) (named : target ≠ "") :
      (before.groups.set target next).get "" = none := by
    rw [AssocMap.get_set_of_ne _ _ named.symm, absent]
  have known {target : String} {group : GroupState}
      (found : before.groups.get target = some group) : target ≠ "" := by
    rintro rfl
    rw [absent] at found
    cases found
  cases step with
  | epoch | lifecycle | slots => exact absent
  | create _ _ named => exact kept _ named
  | assign _ _ _ _ _ found | remove _ _ _ _ found | replicate _ _ _ _ _ found
  | fence _ _ found | grant _ _ _ _ found | install _ _ _ _ found | replace _ _ _ found
  | clear _ _ found => exact kept _ (known found)

theorem metaSystem_unnamed {state : MetaState} (reached : (metaSystem env).Reachable state) :
    state.stores.topology.groups.get "" = none := by
  apply reached.invariant
  · rintro _ rfl
    rfl
  · intro before label after earlier absent stepped
    exact (metaSystem_effect stepped (metaSystem_keyed earlier)).course.steps.keep absent
      fun _ _ step held => step.unnamed held

theorem dispatch_moves_idle {stores after : Stores} {index : UInt64} {actor : ActorContext}
    {cmd : Command} (absent : stores.topology.groups.get "" = none)
    (done : dispatch env stores index actor cmd = some (after, .accepted)) {slot : Fin slotCount}
    (moved : after.topology.slots slot ≠ stores.topology.slots slot) :
    stores.topology.idle (stores.topology.slots slot) ∧
      stores.topology.idle (after.topology.slots slot) := by
  have unnamed : stores.topology.idle "" := by
    intro group found
    rw [absent] at found
    cases found
  by_cases mapped : ∃ map, cmd = .setSlotMap map
  · obtain ⟨map, rfl⟩ := mapped
    obtain ⟨ok, topology, ret, rfl⟩ := dispatchSetSlotMap_accepted (Option.some.inj done)
    obtain rfl | ⟨_, rfl⟩ := setSlotMap_returns ret
    · exact absurd rfl moved
    · have idle : ∀ groupId, groupId = stores.topology.slots slot ∨
          groupId = slotMap map.ranges slot → stores.topology.idle groupId := by
        intro groupId affected
        by_cases named : groupId = ""
        · rw [named]
          exact unnamed
        · exact idle_of_affected ok (mem_affectedGroups moved named affected)
      exact ⟨idle _ (.inl rfl), idle _ (.inr rfl)⟩
  · have same := (dispatch_effect done).course.steps.slots_eq fun map named => mapped ⟨map, named⟩
    rw [same] at moved
    exact absurd rfl moved

/-- **A failover keeps its group.** From every reachable state: a command other than the typed
failover commands leaves a group that has a transition as it was, its members, manifest, partition
epoch, owner, term and grant, and the slots it owns; and a command under which the group of a slot
changes finds the old and the new group without a grant and without a transition. -/
theorem failover_keeps_its_group (env : Environment) {before after : MetaState}
    {label : UInt64 × CommittedCommand} (reached : (metaSystem env).Reachable before)
    (stepped : (metaSystem env).step before label after) :
    (label.2.body.isFailover = false → ∀ groupId group,
      before.stores.findGroup groupId = some group → group.failoverTransition.isSome = true →
      after.stores.findGroup groupId = some group ∧
        ∀ slot, after.stores.topology.slots slot = groupId ↔
          before.stores.topology.slots slot = groupId) ∧
    ∀ slot, after.stores.topology.slots slot ≠ before.stores.topology.slots slot →
      ∀ groupId ∈ [before.stores.topology.slots slot, after.stores.topology.slots slot],
        before.stores.groupHasActiveGrant groupId = false ∧
          before.stores.groupHasActiveFailover groupId = false := by
  have steps := (metaSystem_effect stepped (metaSystem_keyed reached)).course.steps
  have moves : ∀ slot, after.stores.topology.slots slot ≠ before.stores.topology.slots slot →
      before.stores.topology.idle (before.stores.topology.slots slot) ∧
        before.stores.topology.idle (after.stores.topology.slots slot) := by
    intro slot moved
    obtain ⟨_, _, verdict, applied⟩ := stepped
    obtain ⟨_, audit, _, same⟩ | ⟨_, _, decided, audit, dispatched, same⟩ :=
      applyCommitted_cases (metaSystem_keyed reached).distinct applied
    · rw [same] at moved
      exact absurd rfl moved
    · rw [same] at moved ⊢
      exact dispatch_moves_idle (metaSystem_unnamed reached) dispatched moved
  constructor
  · intro plain groupId group found installed
    have kept : after.stores.topology.groups.get groupId = some group :=
      steps.keep found fun _ _ step held => step.frame plain held installed
    refine ⟨kept, fun slot => ?_⟩
    by_cases moved : after.stores.topology.slots slot = before.stores.topology.slots slot
    · rw [moved]
    have idle := moves slot moved
    have busy : ∀ other, before.stores.topology.idle other → other ≠ groupId := by
      rintro other free rfl
      rw [(free group found).2] at installed
      cases installed
    exact ⟨fun here => absurd here (busy _ idle.2), fun here => absurd here (busy _ idle.1)⟩
  · intro slot moved groupId affected
    have idle : before.stores.topology.idle groupId := by
      simp only [List.mem_cons, List.not_mem_nil, or_false] at affected
      rcases affected with rfl | rfl
      · exact (moves slot moved).1
      · exact (moves slot moved).2
    cases found : before.stores.topology.groups.get groupId with
    | none => simp [groupHasActiveGrant, groupHasActiveFailover, findGroup,
        authorityFor, found]
    | some group =>
      obtain ⟨fenced, free⟩ := idle group found
      simp [groupHasActiveGrant, groupHasActiveFailover, findGroup,
        authorityFor, found, fenced, free]

/-- Fencing one group leaves the group that is failing over. -/
theorem fence_keeps_failing_group :
    ∃ before after group, (metaSystem creating).Run {} (sharedId.take 16) before ∧
      (metaSystem creating).step before (17, unattributed (.fenceGroup ⟨"h", 1, 2⟩)) after ∧
      before.stores.findGroup "g" = some group ∧ group.failoverTransition.isSome = true ∧
      after.stores.findGroup "g" = some group := by
  have outcome : (applyLog creating {} (sharedId.take 16)).any (fun before =>
      decide (before.lastIndex < 17) && before.stores.groupHasActiveFailover "g" &&
        (applyCommitted creating before.stores 17
          (unattributed (.fenceGroup ⟨"h", 1, 2⟩))).isSome) = true := by decide +kernel
  obtain ⟨before, applied, checked⟩ := (Option.any_eq_true _ _).mp outcome
  simp only [Bool.and_eq_true, decide_eq_true_eq, Option.isSome_iff_exists, Prod.exists,
    groupHasActiveFailover, Option.any_eq_true] at checked
  obtain ⟨⟨later, group, found, installed⟩, stores, verdict, decided⟩ := checked
  have run := applyLog_run applied
  have stepped : (metaSystem creating).step before
      (17, unattributed (.fenceGroup ⟨"h", 1, 2⟩)) ⟨stores, 17⟩ := ⟨later, rfl, verdict, decided⟩
  have kept := (failover_keeps_its_group creating (run.reachable (.start rfl)) stepped).1 rfl "g"
    group found (Option.isSome_iff_exists.mpr installed)
  exact ⟨before, ⟨stores, 17⟩, group, run, stepped, found, Option.isSome_iff_exists.mpr installed,
    kept.1⟩

end Lavik.Meta
