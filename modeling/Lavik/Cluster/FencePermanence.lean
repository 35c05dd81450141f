import Lavik.Cluster.NodeControlSafety
/-!
# How long a fence lasts

The floor of a group is one pair of assignment and term, and a fence of another assignment of the
group replaces it. So a fence holds as long as every later fence of its group names the same
assignment; afterwards a replayed full state of the old one passes every check.
-/

namespace Lavik.Cluster

open Base NodeControlInstaller

namespace NodeControlInstaller

variable {contentHash : ServingState → UInt64}

/-- A fenced anchor stays out: the floor covers it, and no lease of its group and assignment is at
or below its term. -/
structure Barred (node : NodeControlInstaller) (anchor : AuthorityAnchor) : Prop where
  floor : ∃ floor, node.rejectThrough.get anchor.groupId = some floor ∧
    floor.assignmentId = anchor.assignmentId ∧ anchor.groupTerm ≤ floor.groupTerm
  unleased : ∀ entry ∈ node.guard.leases, entry.2.anchor.groupId = anchor.groupId →
    entry.2.anchor.assignmentId = anchor.assignmentId →
    anchor.groupTerm < entry.2.anchor.groupTerm

theorem raiseFloor_covers (floor : RejectThrough) (anchor : AuthorityAnchor) :
    (raiseFloor floor anchor).assignmentId = anchor.assignmentId ∧
      anchor.groupTerm ≤ (raiseFloor floor anchor).groupTerm := by
  unfold raiseFloor
  split
  · exact ⟨rfl, UInt64.le_refl _⟩
  · rename_i keeps
    obtain ⟨same, reached⟩ := not_or.mp keeps
    exact ⟨not_not.mp same, UInt64.not_lt.mp reached⟩

variable {anchor : AuthorityAnchor} {floor : RejectThrough} {after before : NodeControlInstaller}

theorem le_raiseFloor (same : floor.assignmentId = anchor.assignmentId) :
    floor.groupTerm ≤ (raiseFloor floor anchor).groupTerm := by
  unfold raiseFloor
  split
  · rename_i raised
    rcases raised with other | higher
    · exact absurd same other
    · exact UInt64.le_of_lt higher
  · exact UInt64.le_refl _

theorem Barred.of_fence (step : InstallerStep before (some anchor) after)
    (served : after.Serves) : after.Barred anchor := by
  cases step with
  | fence _ _ dropped floors =>
    constructor
    · rw [floors, AssocMap.get_set, if_pos rfl]
      exact ⟨_, rfl, raiseFloor_covers _ _⟩
    · intro entry mem group _
      -- A lease is kept under the group of its anchor, and that group has none.
      obtain ⟨state, _, anchored⟩ := served.confirmed entry mem
      obtain ⟨owned, found, _, _, _, _, same⟩ := localPrimaryAnchor_eq_some.mp anchored
      have keyed : entry.1 = anchor.groupId := by
        rw [← group, ← same]
        exact (ServingState.groupId_of_findGroup found).symm
      exact absurd (keyed ▸ AssocMap.mem_keys_of_mem mem) (AssocMap.get_eq_none_iff.mp dropped)

/-- A fenced anchor stays barred through every segment that does not fence another assignment of
its group. -/
theorem Barred.step {fenced : Option AuthorityAnchor} (barred : before.Barred anchor)
    (step : InstallerStep before fenced after)
    (others : ∀ other, fenced = some other → other.groupId = anchor.groupId →
      other.assignmentId = anchor.assignmentId) : after.Barred anchor := by
  obtain ⟨floor, found, owner, covered⟩ := barred.floor
  cases step with
  | keep guard floors =>
    exact ⟨⟨floor, floors ▸ found, owner, covered⟩,
      fun entry kept => barred.unleased entry (guard.leases entry kept)⟩
  | grant session granted deadline now _ admitted renewed guard floors =>
    refine ⟨⟨floor, floors ▸ found, owner, covered⟩, ?_⟩
    intro entry mem group assignment
    rw [guard] at mem
    obtain ⟨_, _, leases⟩ := AuthorityGuard.renewLease_leases renewed
    rcases leases entry mem with rfl | ⟨earlier, _⟩
    · dsimp only at group assignment ⊢
      simp only [rejectedByFence, group, found, owner, assignment, decide_true, Bool.true_and,
        decide_eq_false_iff_not] at admitted
      exact UInt64.lt_of_le_of_lt covered (UInt64.not_le.mp admitted)
    · exact barred.unleased entry earlier group assignment
  | fence other guard _ floors =>
    refine ⟨?_, fun entry kept => barred.unleased entry (guard.leases entry kept)⟩
    rw [floors, AssocMap.get_set]
    by_cases group : anchor.groupId = other.groupId
    · rw [if_pos group]
      have assignment := others other rfl group.symm
      have same : (before.rejectThrough.get other.groupId).getD {} = floor := by
        rw [← group, found, Option.getD_some]
      refine ⟨_, rfl, ?_⟩
      rw [same]
      exact ⟨(raiseFloor_covers floor other).1.trans assignment,
        UInt64.le_trans covered (le_raiseFloor (owner.trans assignment.symm))⟩
    · rw [if_neg group]
      exact ⟨floor, found, owner, covered⟩

end NodeControlInstaller

/-- An input does not fence another assignment of the group of an anchor. -/
def SparesFloor (anchor : AuthorityAnchor) (node : NodeControlInstaller)
    (input : ControlInput) : Prop :=
  ∀ other, node.appliedFence input = some other → other.groupId = anchor.groupId →
    other.assignmentId = anchor.assignmentId

/-- After a fence has been applied, along every run that does not fence another assignment of the
group, no lease for the group and the assignment is at or below the fenced term. -/
theorem fence_lasts_while_floor_spared {contentHash : ServingState → UInt64}
    {before fenced final : NodeControlInstaller} {fence : ControlInput} {anchor : AuthorityAnchor}
    {inputs : List ControlInput} (reached : (nodeControl contentHash).Reachable before)
    (applied : before.appliedFence fence = some anchor)
    (stepped : (nodeControl contentHash).step before fence fenced)
    (run : ((nodeControl contentHash).restrict (SparesFloor anchor)).Run fenced inputs final) :
    ∀ entry ∈ final.guard.leases, entry.2.anchor.groupId = anchor.groupId →
      entry.2.anchor.assignmentId = anchor.assignmentId →
      anchor.groupTerm < entry.2.anchor.groupTerm := by
  have barred : fenced.Barred anchor := by
    have served := nodeControl_serves (.next reached stepped)
    obtain rfl : fenced = before.step contentHash fence := stepped
    exact .of_fence (applied ▸ before.step_classified fence) served
  have kept : final.Barred anchor := by
    clear stepped
    induction run with
    | nil => exact barred
    | @cons state middle _ input _ stepped _ ih =>
      obtain rfl : middle = state.step contentHash input := stepped.1
      exact ih (barred.step (state.step_classified input) stepped.2)
  exact kept.unleased

/-! ## One floor for a group -/

def installedNode : NodeControlInstaller :=
  run {} (.setStorageReady true :: installInputs 1 5 1)

def fenceInput (assignment : UInt8) (term revision : UInt64) : ControlInput :=
  .applyFenceTransition (ownedMessage .fence assignment term revision)

def fencedNode : NodeControlInstaller := installedNode.step authorityHash (fenceInput 1 5 1)

def fencedAnchor : AuthorityAnchor := (ownedMessage .fence 1 5 1).anchor

def newerTerm : List ControlInput := .advance 0 :: installInputs 1 6 2 ++ grantInputs 1 6 2

theorem NodeControlInstaller.run_spares {anchor : AuthorityAnchor} {inputs : List ControlInput}
    (unfenced : ∀ input ∈ inputs, ∀ state : NodeControlInstaller, state.appliedFence input = none)
    (node : NodeControlInstaller) :
    ((nodeControl authorityHash).restrict (SparesFloor anchor)).Run node inputs
      (node.run inputs) := by
  induction inputs generalizing node with
  | nil => exact .nil node
  | cons input inputs ih =>
    refine .cons ⟨rfl, ?_⟩ (ih (fun later mem => unfenced later (.tail _ mem)) _)
    intro other applied
    rw [unfenced input (.head _) node] at applied
    contradiction

/-- A fenced assignment that comes back in a newer term is leased above the fenced one. -/
theorem newer_term_is_leased_above_fence :
    installedNode.appliedFence (fenceInput 1 5 1) = some fencedAnchor ∧
      (fencedNode.run newerTerm).guard.leases.map (fun entry => entry.2.anchor) =
        [⟨"g", assignmentOf 1, 6⟩] ∧ ∀ entry ∈ (fencedNode.run newerTerm).guard.leases,
        entry.2.anchor.groupId = fencedAnchor.groupId →
        entry.2.anchor.assignmentId = fencedAnchor.assignmentId →
        fencedAnchor.groupTerm < entry.2.anchor.groupTerm := by
  have applied : installedNode.appliedFence (fenceInput 1 5 1) = some fencedAnchor := by
    decide +kernel
  refine ⟨applied, by decide +kernel, ?_⟩
  refine fence_lasts_while_floor_spared (reachable_run _) applied rfl (run_spares ?_ fencedNode)
  intro input listed state
  simp only [newerTerm, installInputs, grantInputs, List.cons_append, List.nil_append,
    List.mem_cons, List.not_mem_nil, or_false] at listed
  rcases listed with rfl | rfl | rfl | rfl | rfl | rfl | rfl <;> rfl

/-- The group moves to a second assignment, which is fenced in its turn; then a full state of the
first assignment is replayed under a newer revision and its grant is delivered again. -/
def replayedAssignment : List ControlInput :=
  .advance 0 :: installInputs 2 6 2 ++ [fenceInput 2 6 2, .advance 0] ++ installInputs 1 5 3 ++
    grantInputs 1 5 3

/-- The fence of the second assignment replaces the floor of the first, whose lease is installed
again at the very term that was fenced. -/
theorem fenced_anchor_is_leased_again :
    (nodeControl authorityHash).Reachable installedNode ∧
      installedNode.appliedFence (fenceInput 1 5 1) = some fencedAnchor ∧
      (nodeControl authorityHash).Run fencedNode replayedAssignment
        (fencedNode.run replayedAssignment) ∧
      ∃ entry ∈ (fencedNode.run replayedAssignment).guard.leases,
        entry.2.anchor = fencedAnchor := by
  refine ⟨reachable_run _, by decide +kernel,
    run_run fencedNode replayedAssignment, ?_⟩
  have listed : fencedAnchor ∈
      (fencedNode.run replayedAssignment).guard.leases.map fun entry => entry.2.anchor := by
    decide +kernel
  obtain ⟨entry, present, same⟩ := List.mem_map.mp listed
  exact ⟨entry, present, same⟩

end Lavik.Cluster
