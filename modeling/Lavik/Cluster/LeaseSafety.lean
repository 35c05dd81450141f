import Lavik.Cluster.Authority
/-!
# Leases are not revived

A generation that is still the captured one means that the session did not change and that the
lease was only renewed in place; a renewal in place is refused once the deadline has passed; so
walking back from the recheck every deadline was still ahead.
-/

namespace Lavik.Cluster

open Base AuthorityGuard ServingState

section Guard

variable {Time : Type} [LinearOrder Time] (contentHash : ServingState → UInt64)

namespace AuthorityGuard

/-! ## One step -/

/-- What a step that keeps the generation does: the session stays, and a lease is left alone or is
renewed before its deadline. -/
structure Continues (before after : AuthorityGuard Time) (now : Time) : Prop where
  session : after.session = before.session
  leases : ∀ groupId lease, before.leases.get groupId = some lease →
    after.leases.get groupId = some lease ∨
      now < lease.deadline ∧ ∃ deadline, after.leases.get groupId = some { lease with deadline }

theorem Continues.of_same {before after : AuthorityGuard Time} (now : Time)
    (session : after.session = before.session) (leases : after.leases = before.leases) :
    Continues before after now := by
  constructor
  · exact session
  · intro groupId lease found
    rw [leases]
    exact Or.inl found

variable (guard : AuthorityGuard Time)

theorem renewLease_spec (session : SessionIdentity)
    (anchor : AuthorityAnchor) (deadline now : Time) :
    guard.generation ≤ (guard.renewLease session anchor deadline now).2.generation ∧
      ((guard.renewLease session anchor deadline now).2.generation = guard.generation →
        Continues guard (guard.renewLease session anchor deadline now).2 now) := by
  rcases renewLease_cases guard session anchor deadline now with
    ⟨-, same⟩ | ⟨generation, renewed, fresh | ⟨cur, rfl, existing, found, sameSession,
      sameAnchor, live⟩⟩
  · rw [same]
    exact ⟨le_refl _, fun _ => .of_same now rfl rfl⟩
  · have entered : guard.generation ≤ (guard.enterSession session).generation := by
      unfold enterSession
      split <;> simp
    rw [renewed, fresh]
    dsimp only
    exact ⟨by omega, fun same => by omega⟩
  · rw [renewed]
    refine ⟨le_refl _, fun _ => ⟨?_, fun groupId lease stored => ?_⟩⟩
    · simp [enterSession, cur]
    · simp only [enterSession, if_pos cur]
      by_cases this : groupId = anchor.groupId
      · subst this
        obtain rfl := Option.some.inj (found.symm.trans stored)
        apply Or.inr
        rw [← sameSession, ← sameAnchor]
        exact ⟨live, deadline, AssocMap.get_set_self _ _ _⟩
      · apply Or.inl
        rw [AssocMap.get_set_of_ne _ _ this]
        exact stored

theorem step_spec (now : Time) (control : ControlStep Time) :
    guard.generation ≤ (guard.step contentHash now control).generation ∧
      ((guard.step contentHash now control).generation = guard.generation →
        Continues guard (guard.step contentHash now control) now) := by
  have still : guard.generation ≤ guard.generation ∧
      (guard.generation = guard.generation → Continues guard guard now) :=
    ⟨le_refl _, fun _ => .of_same now rfl rfl⟩
  cases control with
  | renewLease session anchor deadline => exact renewLease_spec guard session anchor deadline now
  | expireLease session anchor deadline =>
    simp only [step, expireLease]
    repeat' split
    all_goals first | exact still | simp
  | invalidateSession session =>
    simp only [step, invalidateSession]
    split
    · exact still
    · simp
  | invalidateAnchorsChanged after =>
    simp only [step, invalidateAnchorsChanged]
    split
    · exact still
    · simp
  | fence anchor =>
    simp only [step, fence]
    split
    · exact still
    · simp
  | invalidateLeases =>
    simp only [step, invalidateLeases]
    split
    · exact still
    · simp
  | invalidateAll => simp [step, invalidateAll]
  | publish state =>
    have kept : (guard.step contentHash now (.publish state)).session = guard.session ∧
        (guard.step contentHash now (.publish state)).leases = guard.leases ∧
        (guard.step contentHash now (.publish state)).generation = guard.generation := by
      simp only [step, publish]
      repeat' split
      all_goals exact ⟨rfl, rfl, rfl⟩
    obtain ⟨session, leases, generation⟩ := kept
    exact ⟨le_of_eq generation.symm, fun _ => .of_same now session leases⟩

/-! ## Runs -/

variable {contentHash}

theorem run_generation (trace : List (Time × ControlStep Time)) :
    guard.generation ≤ (guard.run contentHash trace).generation := by
  induction trace generalizing guard with
  | nil => exact le_refl _
  | cons timed rest ih =>
    have step := (step_spec contentHash guard timed.1 timed.2).1
    exact le_trans step (ih _)

variable {guard : AuthorityGuard Time}

theorem run_cons_generation {timed : Time × ControlStep Time}
    {rest : List (Time × ControlStep Time)}
    (same : (guard.run contentHash (timed :: rest)).generation = guard.generation) :
    (guard.step contentHash timed.1 timed.2).generation = guard.generation ∧
      ((guard.step contentHash timed.1 timed.2).run contentHash rest).generation =
        (guard.step contentHash timed.1 timed.2).generation := by
  have step := (step_spec contentHash guard timed.1 timed.2).1
  have later := @run_generation Time _ contentHash (guard.step contentHash timed.1 timed.2) rest
  change ((guard.step contentHash timed.1 timed.2).run contentHash rest).generation = _ at same
  omega

variable {groupId : String} {trace : List (Time × ControlStep Time)} {session : SessionIdentity}
  {now : Time} {state : ServingState} {slots : List UInt16}

theorem run_lease (same : (guard.run contentHash trace).generation = guard.generation)
    {lease : Lease Time} (stored : guard.leases.get groupId = some lease) :
    (guard.run contentHash trace).session = guard.session ∧
      ∃ deadline, (guard.run contentHash trace).leases.get groupId =
        some { lease with deadline } := by
  induction trace generalizing guard lease with
  | nil => exact ⟨rfl, lease.deadline, stored⟩
  | cons timed rest ih =>
    obtain ⟨first, later⟩ := run_cons_generation same
    have continues := (step_spec contentHash guard timed.1 timed.2).2 first
    rcases continues.leases groupId lease stored with kept | ⟨-, deadline, renewed⟩
    · obtain ⟨session, found⟩ := ih later kept
      exact ⟨session.trans continues.session, found⟩
    · obtain ⟨session, found⟩ := ih later renewed
      exact ⟨session.trans continues.session, found⟩

theorem run_covered (same : (guard.run contentHash trace).generation = guard.generation)
    {lease final : Lease Time} (stored : guard.leases.get groupId = some lease)
    (ended : (guard.run contentHash trace).leases.get groupId = some final) {instant : Time}
    (live : instant < final.deadline) (ahead : ∀ timed ∈ trace, instant ≤ timed.1) :
    instant < lease.deadline := by
  induction trace generalizing guard lease with
  | nil =>
    change guard.leases.get groupId = some final at ended
    rw [stored] at ended
    rw [Option.some.inj ended]
    exact live
  | cons timed rest ih =>
    obtain ⟨first, later⟩ := run_cons_generation same
    have continues := (step_spec contentHash guard timed.1 timed.2).2 first
    rcases continues.leases groupId lease stored with kept | ⟨inTime, -⟩
    · exact ih later kept ended fun other mem => ahead other (List.mem_cons_of_mem _ mem)
    · exact lt_of_le_of_lt (ahead timed List.mem_cons_self) inTime

/-! ## What the guard checks -/

theorem leaseCoversFrom_spec {checkedGroup : String}
    (covers : guard.leaseCoversFrom session state now checkedGroup slots = true) :
    ∀ slot ∈ slots, ∀ group, state.groupForSlot slot = some group →
      group.groupId = checkedGroup ∨ guard.leaseCoversGroup session state group now = true := by
  induction slots generalizing checkedGroup with
  | nil => simp
  | cons first rest ih =>
    intro slot mem group found
    unfold leaseCoversFrom at covers
    rcases List.mem_cons.mp mem with rfl | later
    · simp only [found] at covers
      split at covers
      · rename_i same
        exact Or.inl same
      · rw [Bool.and_eq_true] at covers
        exact Or.inr covers.1
    · split at covers
      · exact ih covers slot later group found
      rename_i head headFound
      split at covers
      · exact ih covers slot later group found
      rw [Bool.and_eq_true] at covers
      rcases ih covers.2 slot later group found with same | covered
      · -- The group checked last is this one, because ids are unique.
        apply Or.inr
        have mine := findGroup_of_mem (mem_of_groupForSlot found)
        have its := findGroup_of_mem (mem_of_groupForSlot headFound)
        rw [same, its] at mine
        rw [← Option.some.inj mine]
        exact covers.1
      · exact Or.inr covered

theorem leaseCovers_spec (covers : guard.leaseCovers state slots now = true) :
    ∃ session, guard.session = some session ∧ ∀ slot ∈ slots, ∀ group,
      state.groupForSlot slot = some group → state.selfNodeIndex = some group.primaryNodeIndex →
      ∃ lease, guard.leases.get group.groupId = some lease ∧ lease.session = session ∧
        now < lease.deadline ∧ localPrimaryAnchor state group.groupId = some lease.anchor := by
  unfold leaseCovers at covers
  cases open_ : guard.session with
  | none => simp [open_] at covers
  | some session =>
    simp only [open_] at covers
    refine ⟨session, rfl, fun slot mem group found isLocal => ?_⟩
    rcases leaseCoversFrom_spec covers slot mem group found with unnamed | covered
    · exact absurd unnamed (state.named group (mem_of_groupForSlot found))
    unfold leaseCoversGroup at covered
    rw [if_neg (not_not.mpr isLocal)] at covered
    cases stored : guard.leases.get group.groupId with
    | none => simp [stored] at covered
    | some lease =>
      simp only [stored, Bool.and_eq_true, decide_eq_true_eq] at covered
      exact ⟨lease, rfl, covered.1.1, covered.1.2, covered.2⟩

theorem captureAndAdmit_spec {request : RequestView}
    (ok : (guard.captureAndAdmit request now).leaseChecked = true)
    (served : (guard.captureAndAdmit request now).decision.kind = .serve) :
    ∃ state, guard.serving = some state ∧ (guard.captureAndAdmit request now).state = some state ∧
      (guard.captureAndAdmit request now).slots = request.slots ∧ request.slots ≠ [] ∧
      (guard.captureAndAdmit request now).gateGeneration = guard.generation ∧
      guard.leaseCovers state request.slots now = true := by
  unfold captureAndAdmit at ok served ⊢
  simp only at ok served ⊢
  split at ok
  · rename_i state slot others kind serving slots
    rw [serving] at kind
    simp only [serving, slots, kind] at ok served ⊢
    split at ok
    · simp at ok
    rename_i group found
    simp only [found] at served
    split at ok
    · simp at ok
    rename_i isLocal
    rw [if_neg isLocal] at served ⊢
    split at served
    · rename_i covers
      rw [if_pos covers]
      exact ⟨state, rfl, rfl, rfl, by simp, rfl, covers⟩
    · simp at served
  · simp at ok

theorem recheck_spec {admission : AuthorityAdmission} (captured : admission.state = some state)
    (checked : admission.leaseChecked = true) (ok : guard.recheck admission now = .ok) :
    admission.gateGeneration = guard.generation ∧
      guard.leaseCovers state admission.slots now = true ∧
      authorityUnchanged state guard.serving admission.slots = true := by
  unfold recheck at ok
  split at ok
  · contradiction
  simp only [captured, checked, Bool.true_and] at ok
  split at ok
  · contradiction
  rename_i cur
  split at ok
  · rename_i unchanged
    simp only [Bool.or_eq_true, decide_eq_true_eq, Bool.not_eq_eq_eq_not, Bool.not_true,
      not_or, not_not, Bool.not_eq_false] at cur
    exact ⟨cur.1, cur.2, unchanged⟩
  · contradiction

end AuthorityGuard

theorem authorityUnchanged_spec {admitted : ServingState} {cur : Option ServingState}
    {slots : List UInt16} (unchanged : authorityUnchanged admitted cur slots = true)
    (slotted : slots ≠ []) : ∃ now, cur = some now ∧ ∀ slot ∈ slots,
      (admitted.groupForSlot slot = none ∧ now.groupForSlot slot = none) ∨
      ∃ before after, admitted.groupForSlot slot = some before ∧
        now.groupForSlot slot = some after ∧ before.groupId = after.groupId ∧
        (admitted.authority before).token = (now.authority after).token := by
  cases cur with
  | none =>
    simp only [authorityUnchanged, List.isEmpty_iff] at unchanged
    exact absurd unchanged slotted
  | some now =>
    refine ⟨now, rfl, fun slot mem => ?_⟩
    have same := List.all_eq_true.mp unchanged slot mem
    cases before : admitted.groupForSlot slot with
    | none =>
      cases after : now.groupForSlot slot with
      | none => exact Or.inl ⟨rfl, rfl⟩
      | some group => simp [before, after] at same
    | some group =>
      cases after : now.groupForSlot slot with
      | none => simp [before, after] at same
      | some other =>
        simp only [before, after, authorityTokenForSlot, decide_eq_true_eq] at same
        exact Or.inr ⟨group, other, rfl, rfl, same.1, same.2⟩

/-! ## The main result -/

/-- A trace is split at an instant: the first part is over by then, the second part is not
before it. -/
structure SplitsAt (trace past future : List (Time × ControlStep Time)) (instant : Time) :
    Prop where
  whole : trace = past ++ future
  passed : ∀ timed ∈ past, timed.1 ≤ instant
  ahead : ∀ timed ∈ future, instant ≤ timed.1

theorem exists_splitsAt {trace : List (Time × ControlStep Time)}
    (ordered : trace.Pairwise fun first second => first.1 ≤ second.1) (instant : Time) :
    ∃ past future, SplitsAt trace past future instant := by
  induction trace with
  | nil => exact ⟨[], [], rfl, by simp, by simp⟩
  | cons timed rest ih =>
    rw [List.pairwise_cons] at ordered
    by_cases ok : timed.1 ≤ instant
    · obtain ⟨past, future, split⟩ := ih ordered.2
      refine ⟨timed :: past, future, by rw [split.whole]; rfl, ?_, split.ahead⟩
      intro other mem
      rcases List.mem_cons.mp mem with rfl | earlier
      · exact ok
      · exact split.passed other earlier
    · refine ⟨[], timed :: rest, rfl, by simp, ?_⟩
      have ahead : instant ≤ timed.1 := le_of_lt (lt_of_not_ge ok)
      intro other mem
      rcases List.mem_cons.mp mem with rfl | later
      · exact ahead
      · exact le_trans ahead (ordered.1 other later)

def ServingState.authorities (state : ServingState) : Set GroupAuthority :=
  { authority | ∃ group ∈ state.groups, authority = state.authority group }

def ServingState.slotAuthority (state : ServingState) (slot : UInt16) :
    Option (String × GroupAuthority) :=
  (state.groupForSlot slot).map fun group => (group.groupId, state.authority group)

/-- An admission captured under a lease that passes its recheck before a mutation was covered all
the time: whatever happened in between, at every instant a lease of one session and one anchor was
ahead of its deadline for every local group of the request, and every slot has the group and the
authority it was admitted under. Tokens are assumed not to collide on the two states. -/
theorem lease_never_revived {guard : AuthorityGuard Time} {request : RequestView}
    {start finish : Time} {trace : List (Time × ControlStep Time)}
    (ordered : trace.Pairwise fun first second => first.1 ≤ second.1)
    (checked : (guard.captureAndAdmit request start).leaseChecked = true)
    (served : (guard.captureAndAdmit request start).decision.kind = .serve)
    (accepted : ((guard.run contentHash trace).recheckAtMutation
      (guard.captureAndAdmit request start) finish).1 = .ok)
    (injective : ∀ admitted current, guard.serving = some admitted →
      (guard.run contentHash trace).serving = some current →
      Set.InjOn GroupAuthority.token (admitted.authorities ∪ current.authorities)) :
    ∃ admitted current session, guard.serving = some admitted ∧
      (guard.run contentHash trace).serving = some current ∧
      (∀ slot ∈ request.slots, ∀ group, admitted.groupForSlot slot = some group →
        admitted.selfNodeIndex = some group.primaryNodeIndex → ∃ anchor, ∀ instant,
          start ≤ instant → instant ≤ finish → (∃ past future, SplitsAt trace past future instant) ∧
          ∀ past future, SplitsAt trace past future instant →
            ∃ deadline, (guard.run contentHash past).session = some session ∧
              (guard.run contentHash past).leases.get group.groupId =
                some ⟨session, anchor, deadline⟩ ∧ instant < deadline) ∧
      ∀ slot ∈ request.slots, current.slotAuthority slot = admitted.slotAuthority slot := by
  obtain ⟨admitted, serving, captured, slots, slotted, gate, covers⟩ :=
    captureAndAdmit_spec checked served
  have passed : (guard.run contentHash trace).recheck (guard.captureAndAdmit request start) finish =
      .ok := by
    unfold recheckAtMutation at accepted
    split at accepted
    · assumption
    · rename_i failed
      exact absurd accepted failed
  obtain ⟨generation, stillCovers, unchanged⟩ :=
    recheck_spec captured checked passed
  rw [slots] at stillCovers unchanged
  rw [gate] at generation
  obtain ⟨current, nowServing, same⟩ := authorityUnchanged_spec unchanged slotted
  obtain ⟨session, open_, leases⟩ := leaseCovers_spec covers
  obtain ⟨_, -, finalLeases⟩ := leaseCovers_spec stillCovers
  refine ⟨admitted, current, session, serving, nowServing, ?_, ?_⟩
  · intro slot member group found isLocal
    obtain ⟨lease, stored, ofSession, -, -⟩ := leases slot member group found isLocal
    obtain ⟨final, ended, -, live, -⟩ := finalLeases slot member group found isLocal
    refine ⟨lease.anchor, fun instant _ before => ⟨exists_splitsAt ordered instant, ?_⟩⟩
    intro past future split
    have parts : (guard.run contentHash past).run contentHash future =
        guard.run contentHash trace := by
      rw [split.whole]
      exact (List.foldl_append ..).symm
    -- The generation is the captured one at the end, so it is in the middle.
    have pastSame : (guard.run contentHash past).generation = guard.generation := by
      have first := @run_generation Time _ contentHash guard past
      have second := @run_generation Time _ contentHash (guard.run contentHash past) future
      rw [parts] at second
      omega
    have futureSame : ((guard.run contentHash past).run contentHash future).generation =
        (guard.run contentHash past).generation := by
      rw [parts, pastSame]
      exact generation.symm
    obtain ⟨sameSession, deadline, now⟩ := run_lease pastSame stored
    rw [← parts] at ended
    refine ⟨deadline, sameSession.trans open_, ?_, ?_⟩
    · rw [now, ofSession]
    · exact run_covered futureSame now ended (lt_of_le_of_lt before live) split.ahead
  · intro slot member
    unfold slotAuthority
    rcases same slot member with ⟨unboundBefore, unboundNow⟩ |
      ⟨before, after, foundBefore, foundNow, ids, tokens⟩
    · rw [unboundBefore, unboundNow]
      rfl
    · have authorities := injective admitted current serving nowServing
        (Or.inl ⟨before, mem_of_groupForSlot foundBefore, rfl⟩)
        (Or.inr ⟨after, mem_of_groupForSlot foundNow, rfl⟩) tokens
      rw [foundBefore, foundNow]
      simp [ids, authorities]

end Guard

def soleOwner (mutationsPaused : Bool) : ServingState where
  nodes := [⟨⟨List.Vector.replicate 20 7⟩, "10.0.0.1", 6379, 0⟩]
  groups := [{ groupId := "g", primaryNodeIndex := 0, groupTerm := 1, mutationsPaused }]
  selfNodeIndex := some 0
  slotToGroup := fun _ => some ⟨0, Nat.one_pos⟩
  named := by simp
  distinct := by simp
  primaries := by simp

def soleSession : SessionIdentity :=
  ⟨some (List.Vector.replicate 16 1), 1, some ⟨List.Vector.replicate 20 7⟩⟩

def leasedGuard : AuthorityGuard Nat where
  session := some soleSession
  leases := [("g", ⟨soleSession, ⟨"g", none, 1⟩, 10⟩)]
  serving := some (soleOwner false)

def renewedInTime : List (Nat × ControlStep Nat) :=
  [(8, .renewLease soleSession ⟨"g", none, 1⟩ 20), (12, .publish (some (soleOwner true)))]

def pauseHash (state : ServingState) : UInt64 :=
  if state.groups.any GroupView.mutationsPaused then 1 else 0

/-- A write admitted at `5` passes its recheck at `15`, past the first deadline: the lease was
renewed before that deadline. -/
theorem lease_never_revived_renewed :
    ((leasedGuard.run pauseHash renewedInTime).recheckAtMutation
        (leasedGuard.captureAndAdmit { slots := [3], isWrite := true } 5) 15).1 = .ok ∧
      ∃ session anchor deadline, (leasedGuard.run pauseHash renewedInTime).leases.get "g" =
        some ⟨session, anchor, deadline⟩ ∧ 15 < deadline := by
  have accepted : ((leasedGuard.run pauseHash renewedInTime).recheckAtMutation
      (leasedGuard.captureAndAdmit { slots := [3], isWrite := true } 5) 15).1 = .ok := by
    decide +kernel
  have one : ∀ paused, (soleOwner paused).authorities =
      {(soleOwner false).authority { groupId := "g", primaryNodeIndex := 0, groupTerm := 1 }} := by
    intro paused
    ext authority
    simp [ServingState.authorities, soleOwner, ServingState.authority, ServingState.nodeAt]
  obtain ⟨admitted, current, session, before, -, covered, -⟩ :=
    @lease_never_revived Nat _ pauseHash leasedGuard { slots := [3], isWrite := true } 5 15
      renewedInTime (by simp [renewedInTime]) (by decide +kernel) (by decide +kernel) accepted (by
        intro admitted current before after
        obtain rfl := Option.some.inj before
        obtain rfl := Option.some.inj after
        rw [one, one, Set.union_self]
        exact Set.injOn_singleton _ _)
  obtain rfl := Option.some.inj before
  obtain ⟨anchor, always⟩ := covered 3 (by simp)
    { groupId := "g", primaryNodeIndex := 0, groupTerm := 1 } rfl rfl
  obtain ⟨deadline, -, stored, live⟩ := (always 15 (by omega) (by omega)).2 renewedInTime []
    ⟨by simp, by simp [renewedInTime], by simp⟩
  exact ⟨accepted, session, anchor, deadline, stored, live⟩

end Lavik.Cluster
