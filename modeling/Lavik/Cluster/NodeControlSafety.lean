import Lavik.Cluster.NodeControl
/-!
# Leases exist only for anchors that are served

What one segment does to the authority of the node is one of three things: it keeps some of the
leases, each still confirmed by the published state; it installs the lease of a grant it has just
validated; or it fences an anchor.
-/

namespace Lavik.Cluster

open Base List AuthorityGuard NodeControlInstaller ServingState AssocMap

/-! ## Anchors of rebuilt states -/

theorem ServingState.findGroup_rebuild (state : ServingState) (mutation : GroupMutation)
    (groupId : String) :
    (state.rebuild mutation).findGroup groupId = (state.findGroup groupId).map mutation.apply := by
  show (state.groups.map mutation.apply).find? (·.groupId = groupId) =
    (state.groups.find? (·.groupId = groupId)).map mutation.apply
  rw [find?_map]
  have same : (fun group : GroupView => decide (group.groupId = groupId)) ∘ mutation.apply =
      fun group => decide (group.groupId = groupId) := by
    funext group
    simp only [Function.comp_apply, mutation.groupId_eq]
  rw [same]

variable {state : ServingState} {groupId : String} {anchor : AuthorityAnchor}

theorem ServingState.groupId_of_findGroup {group : GroupView}
    (found : state.findGroup groupId = some group) : group.groupId = groupId := by
  have tested := find?_some found
  exact of_decide_eq_true tested

theorem localPrimaryAnchor_eq_some :
    localPrimaryAnchor state groupId = some anchor ↔ ∃ group, state.findGroup groupId = some group ∧
        state.selfNodeIndex = some group.primaryNodeIndex ∧ group.granted = true ∧
        group.populationReady = true ∧ group.storageReady = true ∧ anchorFor group = anchor := by
  unfold localPrimaryAnchor
  cases found : state.findGroup groupId with
  | none => simp
  | some group =>
    simp only [Bool.and_eq_true, decide_eq_true_eq, Option.ite_none_right_eq_some,
      Option.some.injEq]
    constructor
    · rintro ⟨⟨⟨⟨owned, granted⟩, populated⟩, stored⟩, same⟩
      exact ⟨group, rfl, owned, granted, populated, stored, same⟩
    · rintro ⟨_, rfl, owned, granted, populated, stored, same⟩
      exact ⟨⟨⟨⟨owned, granted⟩, populated⟩, stored⟩, same⟩

theorem localPrimaryAnchor_rebuild {mutation : GroupMutation}
    (served : localPrimaryAnchor state groupId = some anchor)
    (untouched : ∀ group, state.findGroup groupId = some group → group.granted = true →
      group.populationReady = true → group.storageReady = true →
      state.selfNodeIndex = some group.primaryNodeIndex → mutation.apply group = group) :
    localPrimaryAnchor (state.rebuild mutation) groupId = some anchor := by
  obtain ⟨group, found, owned, granted, populated, stored, same⟩ :=
    localPrimaryAnchor_eq_some.mp served
  refine localPrimaryAnchor_eq_some.mpr ⟨group, ?_, owned, granted, populated, stored, same⟩
  rw [findGroup_rebuild, found, Option.map_some,
    untouched group found granted populated stored owned]

/-! ## Leases a guard keeps -/

namespace AuthorityGuard

variable (guard : AuthorityGuard MonotonicTime)

def Confirms (groupId : String) (anchor : AuthorityAnchor) : Prop :=
  ∃ state, guard.serving = some state ∧ localPrimaryAnchor state groupId = some anchor

/-- A guard keeps some leases of another, under its session, and confirms what was confirmed. -/
structure Keeps (before after : AuthorityGuard MonotonicTime) : Prop where
  leases : ∀ entry ∈ after.leases, entry ∈ before.leases
  session : after.leases ≠ [] → after.session = before.session
  confirms : ∀ entry ∈ after.leases,
    before.Confirms entry.1 entry.2.anchor → after.Confirms entry.1 entry.2.anchor

theorem Keeps.refl : Keeps guard guard :=
  ⟨fun _ kept => kept, fun _ => rfl, fun _ _ confirmed => confirmed⟩

theorem Keeps.trans {first second third : AuthorityGuard MonotonicTime}
    (left : Keeps first second) (right : Keeps second third) : Keeps first third where
  leases entry kept := left.leases entry (right.leases entry kept)
  session some := by
    have earlier : second.leases ≠ [] := by
      obtain ⟨entry, kept⟩ := exists_mem_of_ne_nil _ some
      exact ne_nil_of_mem (right.leases entry kept)
    exact (right.session some).trans (left.session earlier)
  confirms entry kept confirmed :=
    right.confirms entry kept (left.confirms entry (right.leases entry kept) confirmed)

theorem Keeps.of_nil {before after : AuthorityGuard MonotonicTime} (gone : after.leases = []) :
    Keeps before after where
  leases := by simp [gone]
  session := by simp [gone]
  confirms := by simp [gone]

theorem Keeps.of_sublist {before after : AuthorityGuard MonotonicTime}
    (leases : after.leases.Sublist before.leases) (session : after.session = before.session)
    (serving : after.serving = before.serving) : Keeps before after where
  leases entry kept := leases.subset kept
  session _ := session
  confirms entry _ confirmed := by
    obtain ⟨state, published, anchored⟩ := confirmed
    exact ⟨state, serving.trans published, anchored⟩

theorem keeps_invalidateSession (session : SessionIdentity) :
    Keeps guard (guard.invalidateSession session) := by
  unfold invalidateSession
  split
  · exact .refl guard
  · exact .of_nil rfl

theorem leases_invalidateLeases : guard.invalidateLeases.leases = [] := by
  unfold invalidateLeases
  split
  · rename_i empty
    exact isEmpty_iff.mp empty
  · rfl

theorem keeps_fence (anchor : AuthorityAnchor) : Keeps guard (guard.fence anchor) := by
  unfold fence
  split
  · exact .refl guard
  · exact .of_sublist filter_sublist rfl rfl

theorem fence_serving (anchor : AuthorityAnchor) :
    (guard.fence anchor).serving = guard.serving := by
  unfold fence
  split <;> rfl

theorem keeps_invalidateAnchorsChanged (next : ServingState) :
    Keeps guard (guard.invalidateAnchorsChanged next) := by
  unfold invalidateAnchorsChanged
  dsimp only
  split
  · exact .refl guard
  · exact .of_sublist filter_sublist rfl rfl

variable {guard : AuthorityGuard MonotonicTime} {next : ServingState}

theorem confirmed_of_invalidateAnchorsChanged {entry : String × Lease MonotonicTime}
    (kept : entry ∈ (guard.invalidateAnchorsChanged next).leases) :
    localPrimaryAnchor next entry.1 = some entry.2.anchor := by
  unfold invalidateAnchorsChanged at kept
  dsimp only at kept
  split at kept
  · rename_i whole
    -- Filtering that loses no lease keeps the very list.
    have same := filter_sublist.eq_of_length whole
    rw [← same] at kept
    simpa using (mem_filter.mp kept).2
  · simpa using (mem_filter.mp kept).2

theorem keeps_publish {contentHash : ServingState → UInt64}
    (confirmed : ∀ entry ∈ guard.leases, guard.Confirms entry.1 entry.2.anchor →
      localPrimaryAnchor next entry.1 = some entry.2.anchor) :
    Keeps guard (guard.publish contentHash (some next)) := by
  have written : Keeps guard { guard with serving := some next } :=
    ⟨fun _ kept => kept, fun _ => rfl, fun entry kept before =>
      ⟨next, rfl, confirmed entry kept before⟩⟩
  unfold publish
  split
  · rename_i eq
    obtain rfl := Option.some.inj eq
    split
    · exact .refl guard
    · exact written
  · exact written

@[simp] theorem publish_leases (contentHash : ServingState → UInt64)
    (guard : AuthorityGuard MonotonicTime) (state : Option ServingState) :
    (guard.publish contentHash state).leases = guard.leases := by
  unfold publish
  split
  · split <;> rfl
  · rfl

/-! ## Renewal -/

section Renewal

variable {session : SessionIdentity} {deadline now : MonotonicTime}

theorem renewLease_refused (refused : (guard.renewLease session anchor deadline now).1 ≠ .ok) :
    (guard.renewLease session anchor deadline now).2 = guard := by
  rcases renewLease_cases guard session anchor deadline now with ⟨-, same⟩ | ⟨_, renewed, -⟩
  · exact same
  · exact absurd (by rw [renewed]) refused

theorem renewLease_leases (renewed : (guard.renewLease session anchor deadline now).1 = .ok) :
    (guard.renewLease session anchor deadline now).2.session = some session ∧
      (guard.renewLease session anchor deadline now).2.serving = guard.serving ∧
      ∀ entry ∈ (guard.renewLease session anchor deadline now).2.leases,
        entry = (anchor.groupId, ⟨session, anchor, deadline⟩) ∨
          entry ∈ guard.leases ∧ guard.session = some session := by
  rcases renewLease_cases guard session anchor deadline now with ⟨refused, -⟩ | ⟨_, same, -⟩
  · exact absurd renewed refused
  rw [same]
  refine ⟨?_, ?_, fun entry mem => ?_⟩
  · unfold enterSession
    split
    · assumption
    · rfl
  · unfold enterSession
    split <;> rfl
  · rcases mem_set mem with written | earlier
    · exact .inl written
    · obtain ⟨cur, entered⟩ := enterSession_leases earlier
      rw [entered] at earlier
      exact .inr ⟨earlier, cur⟩

end Renewal

end AuthorityGuard

/-! ## What one segment does -/

namespace NodeControlInstaller

variable {contentHash : ServingState → UInt64}

section Bookkeeping

variable (node : NodeControlInstaller)

/-- What leases depend on: the guard and the floors. -/
def authority : AuthorityGuard MonotonicTime × AssocMap String RejectThrough :=
  (node.guard, node.rejectThrough)

variable (message : AuthorityMessage)

theorem pinGrant_authority (desired : Option DesiredClusterControl) :
    (node.pinGrant message desired).authority = node.authority := by
  unfold pinGrant
  split <;> rfl

theorem retireLeaseSchedule_authority (groupId : String) :
    (node.retireLeaseSchedule groupId).authority = node.authority := by
  unfold retireLeaseSchedule
  split <;> rfl

variable (groupIds : List String)

theorem foldl_retireLeaseSchedule_authority :
    (groupIds.foldl retireLeaseSchedule node).authority = node.authority := by
  induction groupIds generalizing node with
  | nil => rfl
  | cons groupId rest ih => rw [foldl_cons, ih, retireLeaseSchedule_authority]

@[simp] theorem foldl_retireLeaseSchedule_guard :
    (groupIds.foldl retireLeaseSchedule node).guard = node.guard :=
  congrArg Prod.fst (foldl_retireLeaseSchedule_authority node groupIds)

@[simp] theorem foldl_retireLeaseSchedule_rejectThrough :
    (groupIds.foldl retireLeaseSchedule node).rejectThrough = node.rejectThrough :=
  congrArg Prod.snd (foldl_retireLeaseSchedule_authority node groupIds)

@[simp] theorem retireAllLeaseSchedules_guard : node.retireAllLeaseSchedules.guard = node.guard :=
  foldl_retireLeaseSchedule_guard node _

@[simp] theorem retireAllLeaseSchedules_rejectThrough :
    node.retireAllLeaseSchedules.rejectThrough = node.rejectThrough :=
  foldl_retireLeaseSchedule_rejectThrough node _

theorem scheduleExpiry_authority : (node.scheduleExpiry message).authority = node.authority := by
  unfold scheduleExpiry
  split
  · rfl
  · split
    · rfl
    · split <;> rfl

end Bookkeeping

inductive InstallerStep (before : NodeControlInstaller) :
    Option AuthorityAnchor → NodeControlInstaller → Prop
  | keep {after : NodeControlInstaller} (guard : before.guard.Keeps after.guard)
      (floors : after.rejectThrough = before.rejectThrough) : InstallerStep before none after
  | grant {after : NodeControlInstaller} (session : SessionIdentity) (anchor : AuthorityAnchor)
      (deadline now : MonotonicTime)
      (confirmed : before.guard.Confirms anchor.groupId anchor)
      (admitted : before.rejectedByFence anchor = false)
      (renewed : (before.guard.renewLease session anchor deadline now).1 = .ok)
      (guard : after.guard = (before.guard.renewLease session anchor deadline now).2)
      (floors : after.rejectThrough = before.rejectThrough) : InstallerStep before none after
  | fence {after : NodeControlInstaller} (anchor : AuthorityAnchor)
      (guard : before.guard.Keeps after.guard)
      (dropped : after.guard.leases.get anchor.groupId = none)
      (floors : after.rejectThrough = before.rejectThrough.set anchor.groupId
        (raiseFloor ((before.rejectThrough.get anchor.groupId).getD {}) anchor)) :
      InstallerStep before (some anchor) after

variable {before after : NodeControlInstaller}

theorem InstallerStep.of_same (same : after.authority = before.authority) :
    InstallerStep before none after := by
  obtain ⟨guard, floors⟩ := Prod.mk.inj same
  exact .keep (guard ▸ .refl before.guard) floors

variable {node : NodeControlInstaller}

variable {draining : Bool} {message : AuthorityMessage} {now : MonotonicTime}
  {session : SessionIdentity} {groupId : String}

theorem validateLeaseGrantContext_returns {desired : Option DesiredClusterControl}
    (valid : node.validateLeaseGrantContext message now draining = .ok desired) :
    node.guard.Confirms message.anchor.groupId message.anchor ∧
      node.rejectedByFence message.anchor = false := by
  simp only [validateLeaseGrantContext, bind_returns, refuseIf_returns] at valid
  obtain ⟨_, _, _, anchored, _, _, _, advances, _, _, _, _, _, _, _, _, _, _, _, ready, _⟩ := valid
  unfold validateAnchor at anchored
  split at anchored
  · contradiction
  rename_i state published
  split at anchored
  · contradiction
  rename_i group found
  obtain ⟨_, same⟩ := refuseIf_bind.mp anchored
  have same := not_not.mp (refuseIf_returns.mp same)
  have serves : node.serveable message.anchor.groupId = true := Bool.not_eq_false _ ▸ ready
  simp only [serveable, published, found, Option.any_some, Bool.and_eq_true,
    sameLocalAssignment, decide_eq_true_eq] at serves
  obtain ⟨_, ⟨⟨owned, granted⟩, populated⟩, stored⟩ := serves
  refine ⟨⟨state, published, ?_⟩, Bool.not_eq_true _ ▸ advances⟩
  exact localPrimaryAnchor_eq_some.mpr ⟨group, found, owned, granted, populated, stored, same⟩

variable (node)

theorem keeps_finishExpiredLease (cell : Nat)
    (schedule : LeaseExpirySchedule) (now : MonotonicTime) :
    node.guard.Keeps (node.finishExpiredLease cell schedule now).guard := by
  simp only [finishExpiredLease, expireLease]
  split
  · exact .refl node.guard
  split
  · exact .refl node.guard
  split
  · exact .refl node.guard
  · split
    · exact .refl node.guard
    · exact .of_sublist filter_sublist rfl rfl

variable (message)

theorem InstallerStep.of_failClosed :
    InstallerStep node none (node.failClosedLeaseGrant message) := by
  obtain ⟨guard, floors⟩ := Prod.mk.inj (retireLeaseSchedule_authority
    { node.invalidateDirectiveAdmissions with
      guard := node.guard.invalidateSession message.session } message.anchor.groupId)
  exact .keep (guard ▸ node.guard.keeps_invalidateSession message.session) floors

theorem applyLeaseGrantTransition_step (now : MonotonicTime) (draining : Bool) :
    InstallerStep node none (node.applyLeaseGrantTransition message now draining) := by
  unfold applyLeaseGrantTransition
  split
  · exact .of_same rfl
  split
  · exact .of_same rfl
  split
  · rename_i cell schedule _
    exact .keep (node.keeps_finishExpiredLease cell schedule now) rfl
  · exact .of_same (pinGrant_authority ..)

theorem InstallerStep.of_renewal {deadline : MonotonicTime}
    (valid : before.guard.Confirms anchor.groupId anchor ∧ before.rejectedByFence anchor = false)
    (guard : after.guard = (before.guard.renewLease session anchor deadline now).2)
    (floors : after.rejectThrough = before.rejectThrough) : InstallerStep before none after := by
  by_cases renewed : (before.guard.renewLease session anchor deadline now).1 = .ok
  · exact .grant session anchor deadline now valid.1 valid.2 renewed guard floors
  · exact .of_same (Prod.ext (guard.trans (renewLease_refused renewed)) floors)

theorem resumeLeaseGrant_step (task : LeaseGrantTask)
    (outcome : StatusOr Unit) (now : MonotonicTime) (draining : Bool) :
    InstallerStep node none (node.resumeLeaseGrant task outcome now draining) := by
  unfold resumeLeaseGrant
  split
  · exact .of_same rfl
  · split
    · exact .of_same rfl
    · exact .of_same (pinGrant_authority ..)
  · exact .of_failClosed node task.message
  · exact .of_failClosed node task.message
  · exact .of_failClosed node task.message
  · split
    · exact .of_same rfl
    · exact .of_failClosed node task.message
  · split
    · rename_i still
      dsimp only
      split
      · unfold stillPinned at still
        split at still
        · contradiction
        · exact .of_renewal (validateLeaseGrantContext_returns ‹_›) rfl rfl
      rename_i refused
      have same := renewLease_refused refused
      rw [same]
      exact .of_failClosed node task.message
    · exact .of_failClosed node task.message
  · split
    · exact .of_same (scheduleExpiry_authority ..)
    · exact .of_failClosed node task.message

theorem expireLeaseAt_step (timer : LeaseTimer)
    (now later : MonotonicTime) : InstallerStep node none (node.expireLeaseAt timer now later) := by
  unfold expireLeaseAt
  split
  · exact .of_same rfl
  rename_i schedule _
  split
  · exact .of_same rfl
  · split
    · exact .of_same rfl
    · exact .keep (node.keeps_finishExpiredLease timer.cell schedule later) rfl

theorem advance_step (index : Nat) : InstallerStep node none (node.advance index) := by
  unfold advance
  split
  · exact .of_same rfl
  · exact .of_same (foldl_retireLeaseSchedule_authority ..)
  · exact .of_same rfl

theorem invalidateSessionNow_step {lost : NodeControlInstaller}
    (ret : node.invalidateSessionNow session = .ok lost) : InstallerStep node none lost := by
  obtain ⟨_, done⟩ := refuseIf_bind.mp ret
  obtain rfl := Except.ok.inj done
  refine .keep ?_ (retireAllLeaseSchedules_rejectThrough _)
  rw [retireAllLeaseSchedules_guard]
  exact node.guard.keeps_invalidateSession session

/-! ## Publications -/

theorem installFullStateLocal_returns {installed : NodeControlInstaller}
    {prepared : PreparedFullState} {basis : ProjectionBasis} {effects : FullStateEffects}
    (ret : node.installFullStateLocal contentHash prepared basis = .ok (installed, effects)) :
    node.guard.Keeps installed.guard ∧ installed.rejectThrough = node.rejectThrough := by
  unfold installFullStateLocal at ret
  split at ret
  · contradiction
  obtain ⟨_, _, afterChecks⟩ := bind_returns.mp ret
  obtain ⟨_, afterBasis⟩ := refuseIf_bind.mp afterChecks
  obtain ⟨next, _, done⟩ := bind_returns.mp afterBasis
  obtain ⟨rfl, _⟩ := Prod.mk.inj (Except.ok.inj done)
  exact ⟨(node.guard.keeps_invalidateAnchorsChanged next).trans
    (keeps_publish fun _ kept _ => confirmed_of_invalidateAnchorsChanged kept), rfl⟩

variable (prepared : PreparedFullState)

theorem installFullState_step (basis : ProjectionBasis) :
    InstallerStep node none (node.installFullState contentHash prepared basis) := by
  unfold installFullState
  split
  · exact .of_same rfl
  dsimp only
  split
  · exact .of_same rfl
  · rename_i installed effects ret
    obtain ⟨guard, floors⟩ := installFullStateLocal_returns _ ret
    exact .keep guard floors

theorem installRouting_step :
    InstallerStep node none (node.installRouting contentHash prepared) := by
  unfold installRouting
  split
  · exact .of_same rfl
  split
  · exact .of_same rfl
  split
  · exact .of_same rfl
  · rename_i installed effects ret
    obtain ⟨guard, floors⟩ := installFullStateLocal_returns _ ret
    exact .keep guard floors

theorem installFullStateTransition_step (basis : ProjectionBasis) :
    InstallerStep node none (node.installFullStateTransition contentHash prepared basis) := by
  unfold installFullStateTransition
  dsimp only
  split
  · exact .of_same rfl
  · rename_i installed effects ret
    obtain ⟨guard, floors⟩ := installFullStateLocal_returns _ ret
    exact .keep guard floors

theorem applyFenceLocal_step {closed : NodeControlInstaller} (anchor : AuthorityAnchor)
    (same : closed.authority = before.authority) :
    InstallerStep before (some anchor) (closed.applyFenceLocal contentHash anchor) := by
  obtain ⟨guard, floors⟩ := Prod.mk.inj same
  have dropped : (before.guard.fence anchor).leases.get anchor.groupId = none := by
    unfold fence
    split
    · rename_i absent
      exact Option.isNone_iff_eq_none.mp absent
    · exact (get_erase _ _ _).trans (if_pos rfl)
  refine .fence anchor ?_ ?_ ?_
  · rw [applyFenceLocal, guard]
    refine (before.guard.keeps_fence anchor).trans ?_
    cases published : before.guard.serving with
    | none =>
      have unpublished := (before.guard.fence_serving anchor).trans published
      simp only [Option.map_none, publish, unpublished]
      exact .of_sublist (List.Sublist.refl _) rfl unpublished.symm
    | some cur =>
      apply keeps_publish
      rintro entry kept ⟨state, same, served⟩
      rw [fence_serving, published] at same
      obtain rfl := Option.some.inj same
      apply localPrimaryAnchor_rebuild served
      intro group found _ _ _ _
      -- The lease of the fenced group is gone, so this is another group.
      have apart : group.groupId ≠ anchor.groupId := by
        rw [groupId_of_findGroup found]
        intro sameGroup
        have present : anchor.groupId ∈ keys (before.guard.fence anchor).leases :=
          sameGroup ▸ mem_keys_of_mem kept
        exact get_eq_none_iff.mp dropped present
      exact if_pos apart
  · rw [applyFenceLocal, guard]
    simp only [publish_leases]
    exact dropped
  · rw [applyFenceLocal, floors]

theorem applyFenceTransition_step :
    InstallerStep node (node.appliedFence (.applyFenceTransition message))
      (node.applyFenceTransition contentHash message) := by
  unfold applyFenceTransition
  cases kind : message.kind with
  | leaseGrant =>
    simp only [appliedFence, kind]
    exact .of_same rfl
  | fence =>
    cases valid : node.validateAuthority message with
    | error status =>
      simp only [appliedFence, kind, valid]
      exact .of_same rfl
    | ok done =>
      simp only [appliedFence, kind, valid, ne_eq, not_true_eq_false, if_false, and_self, if_true]
      have fenced : InstallerStep node (some message.anchor)
          ((node.invalidateDirectiveAdmissions.retireLeaseSchedule
            message.anchor.groupId).applyFenceLocal contentHash message.anchor) :=
        applyFenceLocal_step message.anchor (retireLeaseSchedule_authority ..)
      cases fenced with
      | fence _ guard dropped floors => exact .fence message.anchor guard dropped floors

theorem applyAuthority_step (now : MonotonicTime) (draining : Bool) :
    InstallerStep node (node.appliedFence (.applyAuthority message now draining))
      (node.applyAuthority contentHash message now draining) := by
  unfold applyAuthority
  cases valid : node.validateAuthority message with
  | error status =>
    simp only [appliedFence, valid, reduceCtorEq, false_and, and_false, if_false]
    exact .of_same rfl
  | ok done =>
    cases kind : message.kind with
    | leaseGrant =>
      simp only [appliedFence, kind, reduceCtorEq, false_and, if_false]
      cases context : node.validateLeaseGrantContext message now draining with
      | error status => exact .of_same rfl
      | ok desired => exact .of_renewal (validateLeaseGrantContext_returns context) rfl rfl
    | fence =>
      cases directed : node.receivesDirectives with
      | true =>
        simp only [appliedFence, directed, reduceCtorEq, and_false, if_false, if_true]
        exact .of_same rfl
      | false =>
        simp only [appliedFence, kind, valid, directed, and_self, if_true]
        exact applyFenceLocal_step message.anchor rfl

variable {message}

theorem setStorageReady_step (ready : Bool) :
    InstallerStep node none (node.setStorageReady contentHash ready) := by
  unfold setStorageReady
  split
  · exact .of_same rfl
  dsimp only
  split
  · exact .of_same rfl
  rename_i cur published
  cases ready with
  | true =>
    refine .keep ?_ rfl
    apply keeps_publish
    rintro entry kept ⟨state, same, served⟩
    obtain rfl := Option.some.inj (published.symm.trans same)
    apply localPrimaryAnchor_rebuild served
    rintro ⟨⟩ _ _ _ stored _
    simp_all
  | false =>
    refine .keep (.of_nil ?_) (retireAllLeaseSchedules_rejectThrough _)
    simp [invalidateAll]

theorem loseStorageReadiness_step :
    InstallerStep node none (node.loseStorageReadiness contentHash) := by
  unfold loseStorageReadiness
  split
  · exact .of_same rfl
  split
  · refine .keep (.of_nil ?_) (retireAllLeaseSchedules_rejectThrough _)
    simp [invalidateAll, suspend]
  · refine .keep (.of_nil ?_) (retireAllLeaseSchedules_rejectThrough _)
    simp [invalidateAll, suspend]

theorem localPrimaryAnchor_withPopulationReadiness {before : ServingState}
    {readiness : Option PopulationReadiness}
    (served : localPrimaryAnchor before groupId = some anchor)
    (kept : (readinessLost before (node.withPopulationReadiness before readiness)).filter
      before.sameLocalAssignment = []) :
    localPrimaryAnchor (node.withPopulationReadiness before readiness) groupId = some anchor := by
  apply localPrimaryAnchor_rebuild served
  intro group found _ populated _ owned
  have mem : group ∈ before.groups := mem_of_find?_eq_some found
  have here : before.sameLocalAssignment group = true := by
    simp [sameLocalAssignment, owned]
  have localHere : before.localMember group = true := by simp [localMember, here]
  by_contra changed
  -- An owned group that changes was ready before and is not now, so it counts as lost.
  have unready : node.populationReadyUnder before readiness group = false := by
    rw [← Bool.not_eq_true]
    intro stays
    apply changed
    simp only [localHere, stays, ← populated, if_true]
  have lost : group ∈ (readinessLost before
      (node.withPopulationReadiness before readiness)).filter before.sameLocalAssignment := by
    refine mem_filter.mpr ⟨mem_filter.mpr ⟨mem, ?_⟩, here⟩
    rw [withPopulationReadiness, findGroup_rebuild, findGroup_of_mem mem]
    simp [localHere, populated, unready]
  rw [kept] at lost
  exact not_mem_nil lost

theorem setPopulationReadiness_step (readiness : Option PopulationReadiness)
    (invalidateAdmissions : Bool) :
    InstallerStep node none
      (node.setPopulationReadiness contentHash readiness invalidateAdmissions) := by
  unfold setPopulationReadiness
  split
  · exact .of_same rfl
  split
  · exact .of_same rfl
  rename_i before published
  dsimp only
  generalize (if readiness.all (node.proves before) = true then readiness else none) = proven
  -- What is served stays so unless an owned group loses its readiness.
  have kept : (readinessLost before (node.withPopulationReadiness before proven)).filter
      before.sameLocalAssignment = [] →
      node.guard.Keeps (node.guard.publish contentHash
        (some (node.withPopulationReadiness before proven))) := by
    intro unlost
    apply keeps_publish
    rintro entry _ ⟨state, same, served⟩
    obtain rfl := Option.some.inj (published.symm.trans same)
    exact localPrimaryAnchor_withPopulationReadiness _ served unlost
  split
  · exact .of_same rfl
  split
  · rename_i none
    have unlost := isEmpty_iff.mp none
    exact .keep (kept (by rw [unlost]; rfl)) rfl
  split
  · rename_i unowned
    have guarded := kept (isEmpty_iff.mp unowned)
    cases invalidateAdmissions <;> exact .keep guarded rfl
  · refine .keep (.of_nil ?_) ?_
    · simp [leases_invalidateLeases, suspend]
    · cases invalidateAdmissions <;> simp [suspend, invalidateDirectiveAdmissions]

theorem step_classified (input : ControlInput) :
    InstallerStep node (node.appliedFence input) (node.step contentHash input) := by
  cases input with
  | installFullState prepared basis => exact node.installFullState_step prepared basis
  | installFullStateTransition prepared basis =>
    exact node.installFullStateTransition_step prepared basis
  | installRouting prepared => exact node.installRouting_step prepared
  | applyAuthority message now draining => exact node.applyAuthority_step message now draining
  | applyFenceTransition message => exact node.applyFenceTransition_step message
  | applyLeaseGrantTransition message now draining =>
    exact node.applyLeaseGrantTransition_step message now draining
  | resumeLeaseGrant index outcome now draining =>
    simp only [step, appliedFence]
    split
    · exact .of_same rfl
    rename_i task _
    -- Taking the task out of the list touches neither guard nor floors.
    cases resumeLeaseGrant_step { node with grants := node.grants.eraseIdx index }
        task outcome now draining with
    | keep guard floors => exact .keep guard floors
    | grant session anchor deadline now confirmed admitted renewed guard floors =>
      exact .grant session anchor deadline now confirmed admitted renewed guard floors
  | expireLeaseAt index now later =>
    simp only [step, appliedFence]
    split
    · exact .of_same rfl
    · exact node.expireLeaseAt_step _ now later
  | advance index => exact node.advance_step index
  | invalidateSessionNow session =>
    simp only [step, appliedFence]
    cases ret : node.invalidateSessionNow session with
    | error status => exact .of_same rfl
    | ok lost => exact invalidateSessionNow_step _ ret
  | loseSessionTransition session =>
    simp only [step, appliedFence, loseSessionTransition]
    cases ret : node.invalidateSessionNow session with
    | error status => exact .of_same rfl
    | ok lost =>
      cases invalidateSessionNow_step _ ret with
      | keep guard floors => exact .keep guard floors
      | grant session anchor deadline now confirmed admitted renewed guard floors =>
        exact .grant session anchor deadline now confirmed admitted renewed guard floors
  | cancelPopulationForShutdown =>
    refine .keep (.of_nil ?_) ?_
    · simp [step, cancelPopulationForShutdown, invalidateAll, suspend]
    · simp [step, cancelPopulationForShutdown, suspend, invalidateDirectiveAdmissions]
  | revokeSourceAuthorizations => exact .of_same rfl
  | setPopulationReadiness readiness invalidateAdmissions =>
    exact node.setPopulationReadiness_step readiness invalidateAdmissions
  | setStorageReady ready => exact node.setStorageReady_step ready
  | loseStorageReadiness => exact node.loseStorageReadiness_step

variable {node}

/-! ## Every interleaving -/

/-- Every lease is confirmed by the published state and carries the current session. -/
structure Serves (node : NodeControlInstaller) : Prop where
  confirmed : ∀ entry ∈ node.guard.leases, node.guard.Confirms entry.1 entry.2.anchor
  session : ∀ entry ∈ node.guard.leases, node.guard.session = some entry.2.session

theorem Serves.of_keeps (served : before.Serves) (guard : before.guard.Keeps after.guard) :
    after.Serves where
  confirmed entry kept :=
    guard.confirms entry kept (served.confirmed entry (guard.leases entry kept))
  session entry kept :=
    (guard.session (ne_nil_of_mem kept)).trans (served.session entry (guard.leases entry kept))

theorem Serves.step {fenced : Option AuthorityAnchor} (served : before.Serves)
    (step : InstallerStep before fenced after) : after.Serves := by
  cases step with
  | keep guard | fence _ guard => exact served.of_keeps guard
  | grant session anchor deadline now confirmed _ renewed guard _ =>
    obtain ⟨cur, serving, leases⟩ := renewLease_leases renewed
    rw [← guard] at cur serving leases
    constructor
    · intro entry mem
      obtain ⟨state, published, anchored⟩ : before.guard.Confirms entry.1 entry.2.anchor := by
        rcases leases entry mem with rfl | ⟨earlier, _⟩
        · exact confirmed
        · exact served.confirmed entry earlier
      exact ⟨state, serving.trans published, anchored⟩
    · intro entry mem
      rcases leases entry mem with rfl | ⟨earlier, entered⟩
      · exact cur
      · exact cur.trans (entered.symm.trans (served.session entry earlier))

theorem nodeControl_serves (reached : (nodeControl contentHash).Reachable node) : node.Serves := by
  apply reached.invariant
  · rintro _ ⟨guard, receivesDirectives, empty, rfl⟩
    exact ⟨by simp [empty], by simp [empty]⟩
  · rintro before input _ - served rfl
    exact served.step (before.step_classified input)

end NodeControlInstaller

/-- In every interleaving, a lease exists only for an anchor the published state serves: its group
is owned here, granted and ready under the assignment and term of the lease. All leases carry the
one current session. -/
theorem leases_are_served {contentHash : ServingState → UInt64}
    {node : NodeControlInstaller} (reached : (nodeControl contentHash).Reachable node)
    {groupId : String} {lease : Lease MonotonicTime}
    (listed : (groupId, lease) ∈ node.guard.leases) :
    node.guard.session = some lease.session ∧ ∃ state group, node.guard.serving = some state ∧
        localPrimaryAnchor state groupId = some lease.anchor ∧
        state.findGroup groupId = some group ∧
        state.selfNodeIndex = some group.primaryNodeIndex ∧ group.granted = true ∧
        group.populationReady = true ∧ group.storageReady = true ∧
        lease.anchor.assignmentId = group.assignmentId ∧
        lease.anchor.groupTerm = group.groupTerm := by
  have served := nodeControl_serves reached
  refine ⟨served.session _ listed, ?_⟩
  obtain ⟨state, published, anchored⟩ := served.confirmed _ listed
  obtain ⟨group, found, owned, granted, populated, stored, same⟩ :=
    localPrimaryAnchor_eq_some.mp anchored
  refine ⟨state, group, published, anchored, found, owned, granted, populated, stored, ?_, ?_⟩
  · exact congrArg AuthorityAnchor.assignmentId same.symm
  · exact congrArg AuthorityAnchor.groupTerm same.symm

/-! ## A node that owns one group -/

def ownNode : NodeId := ⟨List.Vector.replicate 20 1⟩

def assignmentOf (byte : UInt8) : AssignmentId := some (List.Vector.replicate 16 byte)

variable (assignment : UInt8) (term : UInt64)

def ownedGroup (epoch : UInt64) : ServingState where
  nodes := [⟨ownNode, "127.0.0.1", 6379, 0⟩]
  groups := [{
    groupId := "g"
    primaryNodeIndex := 0
    assignmentId := assignmentOf assignment
    populationReady := false
    storageReady := false
    groupTerm := term
    manifestRevision := 1 }]
  selfNodeIndex := some 0
  topologyEpoch := epoch
  slotToGroup _ := some ⟨0, Nat.one_pos⟩
  named := by simp
  distinct := by simp
  primaries := by simp

def ownedControl : DesiredClusterControl where
  identity := {
    groupId := "g"
    groupTerm := term
    manifestRevision := 1
    manifestDigest := List.Vector.replicate 32 7
    partitionReplicationEpoch := 1
    members := [⟨some ownNode, assignmentOf assignment⟩] }
  owner := some ⟨some ownNode, assignmentOf assignment⟩
  grantActive := true

variable (revision : UInt64)

def ownedState : PreparedFullState where
  servingState := some (ownedGroup assignment term revision)
  authorityLeaseDurationMs := 1000
  desiredClusterControls := [ownedControl assignment term]

def ownedReadiness : PopulationReadiness :=
  ⟨"g", assignmentOf assignment, term, 1, List.Vector.replicate 32 7, 1⟩

def ownedMessage (kind : AuthorityKind) (assignment : UInt8) (term revision : UInt64) :
    AuthorityMessage where
  kind := kind
  session := ⟨some (List.Vector.replicate 16 9), 1, some ownNode⟩
  projection := ⟨revision⟩
  anchor := ⟨"g", assignmentOf assignment, term⟩
  sentAt := 0
  grantedDuration := 1000000000

def installInputs : List ControlInput :=
  [.installFullStateTransition (ownedState assignment term revision) ⟨revision⟩,
    .advance 0, .advance 0, .setPopulationReadiness (some (ownedReadiness assignment term)) true]

def grantInputs : List ControlInput :=
  [.applyLeaseGrantTransition (ownedMessage .leaseGrant assignment term revision) 5 false,
    .resumeLeaseGrant 0 (.ok ()) 6 false]

def authorityHash (state : ServingState) : UInt64 :=
  fnv1a (u64Bytes state.topologyEpoch ++
    state.groups.flatMap fun group => (state.authority group).bytes)

def NodeControlInstaller.run (node : NodeControlInstaller) (inputs : List ControlInput) :
    NodeControlInstaller :=
  inputs.foldl (step authorityHash) node

theorem NodeControlInstaller.run_run (node : NodeControlInstaller) (inputs : List ControlInput) :
    (nodeControl authorityHash).Run node inputs (node.run inputs) := by
  induction inputs generalizing node with
  | nil => exact .nil node
  | cons input inputs ih => exact .cons rfl (ih _)

theorem NodeControlInstaller.reachable_run (inputs : List ControlInput) :
    (nodeControl authorityHash).Reachable (run {} inputs) :=
  (run_run {} inputs).reachable (.start ⟨{}, true, rfl, rfl⟩)

def grantedInputs : List ControlInput :=
  .setStorageReady true :: installInputs 1 5 1 ++ grantInputs 1 5 1

def grantedNode : NodeControlInstaller := run {} grantedInputs

/-- A granted node has a lease, and its anchor is served. -/
theorem granted_lease_is_served :
    (grantedNode.guard.leases.map Prod.fst = ["g"]) ∧
      ∀ entry ∈ grantedNode.guard.leases, ∃ state group,
        grantedNode.guard.serving = some state ∧ state.findGroup entry.1 = some group ∧
          group.granted = true ∧ group.populationReady = true ∧ group.storageReady = true := by
  refine ⟨by decide +kernel, ?_⟩
  rintro ⟨groupId, lease⟩ listed
  have reached : (nodeControl authorityHash).Reachable grantedNode :=
    reachable_run grantedInputs
  obtain ⟨_, state, group, published, _, found, _, granted, populated, stored, _⟩ :=
    leases_are_served reached listed
  exact ⟨state, group, published, found, granted, populated, stored⟩

end Lavik.Cluster
