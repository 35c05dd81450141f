import Lavik.Meta.Rollback
/-!
# The topology epoch as a version

A command that changes what requests are routed by takes the next epoch with it, and no command
takes more than one. Two states of one history with the same epoch therefore route alike.
-/

namespace Lavik.Meta

open Base

namespace Stores

/-- The epoch as a number: it has a successor wherever a command advances it. -/
def epoch (stores : Stores) : Nat := stores.topology.topologyEpoch.toNat

variable {stores middle after : Stores}

theorem Versions.epoch_succ (versions : stores.Versions after) :
    (after.epoch = stores.epoch ∧ stores.RoutesAs after) ∨ after.epoch = stores.epoch + 1 := by
  obtain ⟨same, routes⟩ | ⟨bounded, next⟩ := versions
  · exact .inl ⟨by rw [epoch, epoch, same], routes⟩
  · exact .inr (by rw [epoch, epoch, next, toNat_add_one bounded])

theorem RoutesAs.refl : stores.RoutesAs stores := ⟨⟨fun _ => rfl, rfl⟩, .of_nodes rfl⟩

theorem RoutesAs.trans (first : stores.RoutesAs middle) (rest : middle.RoutesAs after) :
    stores.RoutesAs after where
  topology := ⟨fun id => (rest.topology.groups id).trans (first.topology.groups id),
    rest.topology.slots.trans first.topology.slots⟩
  endpoints nodeId record found := by
    obtain ⟨next, known, same⟩ := first.endpoints nodeId record found
    obtain ⟨last, kept, still⟩ := rest.endpoints nodeId next known
    exact ⟨last, kept, still.trans same⟩

end Stores

/-- **The topology epoch is a version number.** Along every history the epoch never decreases and a
command advances it by at most one; two states of the history with the same epoch have the same
groups, memberships, slot map, replication state and owners, and the nodes registered in the
earlier one are registered in the later one at the same endpoints. -/
theorem topology_epoch_is_version (env : Environment) {first second : MetaState}
    {labels : List (UInt64 × CommittedCommand)} (reached : (metaSystem env).Reachable first)
    (run : (metaSystem env).Run first labels second) :
    first.stores.epoch ≤ second.stores.epoch ∧
      second.stores.epoch ≤ first.stores.epoch + labels.length ∧
      (second.stores.topology.topologyEpoch = first.stores.topology.topologyEpoch →
        first.stores.RoutesAs second.stores) := by
  induction run with
  | nil state => exact ⟨le_rfl, le_rfl, fun _ => .refl⟩
  | @cons state middle final label labels stepped _ ih =>
    have versions := (metaSystem_effect stepped (metaSystem_keyed reached)).version.epoch_succ
    obtain ⟨grows, bounded, alike⟩ := ih (.next reached stepped)
    refine ⟨by omega, by rw [List.length_cons]; omega, fun same => ?_⟩
    have sameEpoch : final.stores.epoch = state.stores.epoch := by
      rw [Stores.epoch, Stores.epoch, same]
    -- A step that takes an epoch is never made up for later.
    obtain ⟨kept, routes⟩ | advanced := versions
    · refine routes.trans (alike ?_)
      rw [← UInt64.toNat_inj]
      exact sameEpoch.trans kept.symm
    · omega

/-- Six commands give the first grant; they take three epochs. -/
theorem first_grant_takes_three_epochs :
    ∃ state, (metaSystem permissive).Run {} firstGrant state ∧
      state.stores.topology.topologyEpoch = 3 ∧ state.stores.epoch ≤ 0 + firstGrant.length := by
  have outcome : (applyLog permissive {} firstGrant).any (fun state =>
      state.stores.topology.topologyEpoch == 3) = true := by decide +kernel
  obtain ⟨state, applied, taken⟩ := (Option.any_eq_true _ _).mp outcome
  have run := applyLog_run applied
  exact ⟨state, run, beq_iff_eq.mp taken, (topology_epoch_is_version permissive (.start rfl)
    run).2.1⟩

end Lavik.Meta
