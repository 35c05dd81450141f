import Lavik.Base.TransitionSystem
import Lavik.Replication.ReplicationGroup
/-!
# The history of a boot

Every accepted call leaves an event. The module says once what each call requires and does, and
cuts the history of a boot at the attempt that is active: it began, and since then the history
holds only its own records.
-/

namespace Lavik.Replication

open Base

namespace RebuildIdentity

variable {candidate accepted : RebuildIdentity}

theorem newerThan_iff :
    candidate.newerThan accepted = true ↔ accepted.version < candidate.version := by
  simp only [newerThan, version, Prod.Lex.toLex_lt_toLex, Bool.or_eq_true, decide_eq_true_eq,
    Bool.and_eq_true]
  omega

end RebuildIdentity

namespace ReplicationGroup

/-- A directive that may start an attempt: it names the accepted group, is not older than what was
accepted, and its attempt is new. -/
structure Fresh (group : ReplicationGroup) (directive : RebuildDirective) : Prop where
  sameGroup : ∀ accepted ∈ group.lastDirective,
    accepted.identity.groupId = directive.identity.groupId
  notOlder : ∀ accepted ∈ group.lastDirective,
    accepted.identity.version ≤ directive.identity.version
  unused : directive.identity.attemptKey ∉ group.usedAttempts

def Active (group : ReplicationGroup) (identity : RebuildIdentity) : Prop :=
  group.state = .rebuilding ∧ ∃ directive, group.currentDirective = some directive ∧
    directive.identity = identity

inductive Step (group : ReplicationGroup) : Event → ReplicationGroup → Prop
  | began {directive : RebuildDirective} {manifest : PopulationManifest}
      (idle : group.state ≠ .rebuilding) (running : group.state ≠ .failedStopped)
      (fresh : group.Fresh directive) (named : directive.identity.manifestId = manifest.id) :
      Step group (.began directive manifest) (group.start directive manifest)
  | retried {directive : RebuildDirective} (active : group.ActiveRetry directive) :
      Step group (.retried directive) group
  | partitionReset {identity : RebuildIdentity} {partition : Partition} {epoch : Nat}
      (active : group.Active identity) (nonzero : epoch ≠ 0)
      (unset : group.targetLocalEpochs partition = 0) :
      Step group (.partitionReset identity partition epoch) { group with
        targetLocalEpochs := Function.update group.targetLocalEpochs partition epoch
        partitionResetCount := group.partitionResetCount + 1 }
  | resetAgain {identity : RebuildIdentity} {partition : Partition} {epoch : Nat}
      (active : group.Active identity) (nonzero : epoch ≠ 0)
      (saved : group.targetLocalEpochs partition = epoch) :
      Step group (.partitionReset identity partition epoch) group
  | partitionHandoff {identity : RebuildIdentity} {partition : Partition}
      {logicalEpoch epoch : Nat} (active : group.Active identity) (nonzero : epoch ≠ 0)
      (saved : group.targetLocalEpochs partition = epoch)
      (desired : group.desiredLogicalEpochs partition = logicalEpoch)
      (unset : group.partitionHandoffs partition = false) :
      Step group (.partitionHandoff identity partition logicalEpoch epoch) { group with
        partitionHandoffs := Function.update group.partitionHandoffs partition true
        partitionHandoffCount := group.partitionHandoffCount + 1 }
  | handoffAgain {identity : RebuildIdentity} {partition : Partition} {logicalEpoch epoch : Nat}
      (active : group.Active identity) (nonzero : epoch ≠ 0)
      (saved : group.targetLocalEpochs partition = epoch)
      (desired : group.desiredLogicalEpochs partition = logicalEpoch)
      (set : group.partitionHandoffs partition = true) :
      Step group (.partitionHandoff identity partition logicalEpoch epoch) group
  | flowCut {identity : RebuildIdentity} {cuts : List Nat} (active : group.Active identity)
      (flows : group.flowCount ≠ 0) (length : cuts.length = group.flowCount)
      (nonzero : 0 ∉ cuts) (unset : group.flowCutVector = none) :
      Step group (.flowCut identity cuts) { group with flowCutVector := some cuts }
  | cutAgain {identity : RebuildIdentity} {cuts : List Nat} (active : group.Active identity)
      (length : cuts.length = group.flowCount) (nonzero : 0 ∉ cuts)
      (saved : group.flowCutVector = some cuts) : Step group (.flowCut identity cuts) group
  | catalogComplete {identity : RebuildIdentity} (active : group.Active identity) :
      Step group (.catalogComplete identity) { group with functionCatalogComplete := true }
  | storagePromoted {identity : RebuildIdentity} (active : group.Active identity)
      (complete : group.CutProofComplete) :
      Step group (.storagePromoted identity) { group with storagePromoted := true }
  | recovered {identity : RebuildIdentity} {frontier : List Nat} (idle : group.state = .notReady) :
      Step group (.recovered ⟨identity, frontier⟩) { group with
        lastDirective := some { identity, flowCount := frontier.length }
        readyToken := some ⟨identity, frontier⟩
        state := .ready }
  | switched {parent : ReadyToken} {child : RebuildDirective} {boundary origin : List Nat}
      (ready : group.state = .ready) (held : group.readyToken = some parent)
      (fresh : group.Fresh child) :
      Step group (.switched child ⟨child.identity, origin⟩)
        (group.commitHistoryProof parent child boundary origin)
  | repeated {token : ReadyToken} (ready : group.state = .ready)
      (held : group.readyToken = some token) : Step group (.repeated token) group
  | published {identity : RebuildIdentity} (active : group.Active identity)
      (complete : group.CutProofComplete) (promoted : group.storagePromoted = true) :
      Step group (.published ⟨identity, group.flowCutVector.getD []⟩) { group with
        readyToken := some ⟨identity, group.flowCutVector.getD []⟩, state := .ready }
  | aborted {identity : RebuildIdentity} (active : group.Active identity) :
      Step group (.aborted identity) group.discardCurrentProof
  | invalidated {identity : RebuildIdentity} (holds : group.Holds identity) :
      Step group (.invalidated identity) group.discardCurrentProof
  | failStopped {identity : RebuildIdentity} (holds : group.Holds identity) :
      Step group (.failStopped identity) { group with readyToken := none, state := .failedStopped }

variable {group next : ReplicationGroup} {event : Event} {identity : RebuildIdentity} {done : Unit}
  {directive : RebuildDirective} {sourceLess : Bool} {partitionId epoch : Nat}

theorem validateCurrent_returns :
    group.validateCurrent identity = .ok done ↔ group.Active identity := by
  rw [validateCurrent, refuseIf_bind, refuseIf_returns, Active]
  constructor
  · rintro ⟨active, same⟩
    rw [not_or, not_not] at active
    obtain ⟨directive, cur⟩ := Option.ne_none_iff_exists'.mp active.2
    exact ⟨active.1, directive, cur, by
      by_contra other
      exact same ⟨directive, cur, other⟩⟩
  · rintro ⟨rebuilding, directive, cur, same⟩
    exact ⟨by simp [rebuilding, cur], by simp [cur, same]⟩

variable {manifest : PopulationManifest}

theorem validatePopulation_returns
    (valid : group.validatePopulation directive manifest sourceLess = .ok done) :
    group.state ≠ .failedStopped ∧ directive.identity.manifestId = manifest.id ∧
      (group.ActiveRetry directive ∨ group.Fresh directive) := by
  simp only [validatePopulation, validateDirective, bind_assoc, refuseIf_bind] at valid
  obtain ⟨running, rest⟩ := valid
  obtain ⟨done, -, rest⟩ := (bind_returns).mp rest
  simp only [refuseIf_bind] at rest
  obtain ⟨-, -, named, -, -, -, sameGroup, rest⟩ := rest
  refine ⟨running, not_not.mp named, ?_⟩
  split at rest
  · rename_i retry
    exact .inl retry
  right
  simp only [validateVersion, refuseIf_bind, refuseIf_returns] at rest
  obtain ⟨-, -, term, revision, -, unused⟩ := rest
  refine ⟨?_, ?_, unused⟩
  · intro ok last
    by_contra other
    exact sameGroup ⟨ok, last, other⟩
  · intro ok last
    have notOlder : ¬ _ < _ := fun older => term ⟨ok, last, older⟩
    have notEarlier : ¬ (_ = _ ∧ _) := fun earlier => revision ⟨ok, last, earlier⟩
    simp only [RebuildIdentity.version, Prod.Lex.toLex_le_toLex]
    omega

theorem beginPopulation_step
    (ok : group.beginPopulation directive manifest sourceLess = .ok (next, event)) :
    group.Step event next := by
  obtain ⟨done, valid, rest⟩ := bind_returns.mp ok
  obtain ⟨running, named, fresh⟩ := validatePopulation_returns valid
  split at rest
  · rename_i retry
    cases rest
    exact .retried retry
  rename_i notRetry
  obtain ⟨idle, rest⟩ := refuseIf_bind.mp rest
  cases rest
  exact .began idle running (fresh.resolve_left notRetry) named

theorem recordPartitionReset_step
    (ok : group.recordPartitionReset identity partitionId epoch = .ok (next, event)) :
    group.Step event next := by
  obtain ⟨done, cur, rest⟩ := bind_returns.mp ok
  have active := validateCurrent_returns.mp cur
  split at rest
  · obtain ⟨nonzero, rest⟩ := refuseIf_bind.mp rest
    dsimp only at rest
    split at rest
    · rename_i saved
      cases rest
      exact .resetAgain active nonzero saved
    · obtain ⟨unset, rest⟩ := refuseIf_bind.mp rest
      cases rest
      exact .partitionReset active nonzero (not_not.mp unset)
  · exact absurd rest (by simp)

theorem recordPartitionHandoff_step {logicalEpoch : Nat}
    (ok : group.recordPartitionHandoff identity partitionId logicalEpoch epoch =
      .ok (next, event)) : group.Step event next := by
  obtain ⟨done, cur, rest⟩ := bind_returns.mp ok
  have active := validateCurrent_returns.mp cur
  split at rest
  · obtain ⟨nonzero, rest⟩ := refuseIf_bind.mp rest
    obtain ⟨-, rest⟩ := refuseIf_bind.mp rest
    obtain ⟨saved, rest⟩ := refuseIf_bind.mp rest
    obtain ⟨desired, rest⟩ := refuseIf_bind.mp rest
    split at rest
    · rename_i set
      cases rest
      exact .handoffAgain active nonzero (not_not.mp saved).symm (not_not.mp desired).symm set
    rename_i unset
    cases rest
    exact .partitionHandoff active nonzero (not_not.mp saved).symm (not_not.mp desired).symm
      (Bool.not_eq_true _ ▸ unset)
  · exact absurd rest (by simp)

theorem recordFlowCutVector_step {cuts : List Nat}
    (ok : group.recordFlowCutVector identity cuts = .ok (next, event)) : group.Step event next := by
  obtain ⟨done, cur, rest⟩ := bind_returns.mp ok
  have active := validateCurrent_returns.mp cur
  obtain ⟨flows, rest⟩ := refuseIf_bind.mp rest
  obtain ⟨length, rest⟩ := refuseIf_bind.mp rest
  obtain ⟨nonzero, rest⟩ := refuseIf_bind.mp rest
  split at rest
  · rename_i saved
    cases rest
    exact .cutAgain active (not_not.mp length) nonzero saved
  · obtain ⟨unset, rest⟩ := refuseIf_bind.mp rest
    cases rest
    exact .flowCut active flows (not_not.mp length) nonzero (not_not.mp unset)

theorem validatePopulation_ready (ready : group.state = .ready)
    (valid : group.validatePopulation directive manifest sourceLess = .ok done) :
    group.Fresh directive :=
  (validatePopulation_returns valid).2.2.resolve_left fun retry => by
    rw [ActiveRetry, ready] at retry
    exact absurd retry.1 (by decide)

theorem switchHistory_step {parent : ReadyToken} {child : RebuildDirective}
    {actual required origin : List Nat}
    (ok : group.switchHistory parent child manifest actual required origin =
      .ok (next, event)) : group.Step event next := by
  simp only [switchHistory, refuseIf_bind] at ok
  obtain ⟨-, ready, rest⟩ := ok
  rw [not_or, not_not] at ready
  split at rest
  · rename_i before
    cases rest
    exact .repeated ready.1 before.1
  simp only [refuseIf_bind] at rest
  obtain ⟨held, -, -, -, rest⟩ := rest
  obtain ⟨done, valid, rest⟩ := bind_returns.mp rest
  cases rest
  exact .switched ready.1 (not_not.mp held) (validatePopulation_ready ready.1 valid)

theorem bindLocalSourceHistory_step {population : ReadyToken} {source : RebuildDirective}
    {cut : List Nat}
    (ok : group.bindLocalSourceHistory population source manifest cut = .ok (next, event)) :
    group.Step event next := by
  simp only [bindLocalSourceHistory, refuseIf_bind] at ok
  obtain ⟨bound, -, -, rest⟩ := ok
  simp only [not_or, not_not] at bound
  obtain ⟨ready, held, -⟩ := bound
  obtain ⟨done, valid, rest⟩ := bind_returns.mp rest
  cases rest
  exact .switched ready held (validatePopulation_ready ready valid)

theorem publishReady_returns (ok : group.publishReady identity = .ok (next, event)) :
    (∃ token, group.state = .ready ∧ group.readyToken = some token ∧ next = group ∧
        event = .repeated token) ∨
      (group.Active identity ∧ group.CutProofComplete ∧ group.storagePromoted = true ∧
        next = { group with
          readyToken := some ⟨identity, group.flowCutVector.getD []⟩, state := .ready } ∧
        event = .published ⟨identity, group.flowCutVector.getD []⟩) := by
  unfold publishReady at ok
  split at ok
  · rename_i token ready held
    split at ok
    · cases ok
      exact .inl ⟨token, ready, held, rfl, rfl⟩
    · exact absurd ok (by simp)
  · obtain ⟨done, cur, rest⟩ := bind_returns.mp ok
    obtain ⟨proven, rest⟩ := refuseIf_bind.mp rest
    cases rest
    rw [not_or, not_not, not_not] at proven
    exact .inr ⟨validateCurrent_returns.mp cur, proven.1, proven.2, rfl, rfl⟩

theorem publishReady_step (ok : group.publishReady identity = .ok (next, event)) :
    group.Step event next := by
  rcases publishReady_returns ok with ⟨token, ready, held, rfl, rfl⟩ |
    ⟨active, complete, promoted, rfl, rfl⟩
  · exact .repeated ready held
  · exact .published active complete promoted

theorem perform_step {operation : Operation}
    (ok : group.perform operation = .ok (next, event)) : group.Step event next := by
  cases operation with
  | beginRebuild | beginEmptyPopulation => exact beginPopulation_step ok
  | recordPartitionReset identity partition epoch => exact recordPartitionReset_step ok
  | recordPartitionHandoff identity partition logicalEpoch epoch =>
    exact recordPartitionHandoff_step ok
  | recordFlowCutVector identity cuts => exact recordFlowCutVector_step ok
  | markFunctionCatalogComplete identity =>
    obtain ⟨done, cur, rest⟩ := bind_returns.mp ok
    cases rest
    exact .catalogComplete (validateCurrent_returns.mp cur)
  | markStoragePromoted identity =>
    obtain ⟨done, cur, rest⟩ := bind_returns.mp ok
    obtain ⟨complete, rest⟩ := refuseIf_bind.mp rest
    cases rest
    exact .storagePromoted (validateCurrent_returns.mp cur) (not_not.mp complete)
  | recoverPopulation identity frontier =>
    obtain ⟨installable, rest⟩ := refuseIf_bind.mp ok
    cases rest
    exact .recovered (not_not.mp (not_or.mp installable).1)
  | switchHistory parent child manifest actual required origin => exact switchHistory_step ok
  | bindLocalSourceHistory population source manifest cut =>
    exact bindLocalSourceHistory_step ok
  | publishReady identity => exact publishReady_step ok
  | abort identity =>
    obtain ⟨-, rest⟩ := refuseIf_bind.mp ok
    obtain ⟨done, cur, rest⟩ := bind_returns.mp rest
    cases rest
    exact .aborted (validateCurrent_returns.mp cur)
  | invalidateProof identity =>
    obtain ⟨-, rest⟩ := refuseIf_bind.mp ok
    obtain ⟨holds, rest⟩ := refuseIf_bind.mp rest
    cases rest
    exact .invalidated (not_not.mp holds)
  | failStop identity =>
    obtain ⟨holds, rest⟩ := refuseIf_bind.mp ok
    cases rest
    exact .failStopped (not_not.mp holds)

theorem Step.running (step : group.Step event next) : group.state ≠ .failedStopped := by
  intro failed
  cases step with
  | began _ running => exact running failed
  | retried active => exact absurd (active.1.symm.trans failed) (by decide)
  | partitionReset active | resetAgain active | partitionHandoff active | handoffAgain active
  | flowCut active | cutAgain active | catalogComplete active | storagePromoted active
  | published active | aborted active => exact absurd (active.1.symm.trans failed) (by decide)
  | recovered idle => exact absurd (idle.symm.trans failed) (by decide)
  | switched ready | repeated ready => exact absurd (ready.symm.trans failed) (by decide)
  | invalidated holds | failStopped holds =>
    rcases holds with ⟨rebuilding, -⟩ | ⟨ready, -⟩
    · exact absurd (rebuilding.symm.trans failed) (by decide)
    · exact absurd (ready.symm.trans failed) (by decide)

end ReplicationGroup

/-! ## Boots -/

structure Boot where
  group : ReplicationGroup
  log : List Event := []

namespace Boot

def call (boot : Boot) (operation : Operation) : Boot :=
  match boot.group.perform operation with
  | .ok (group, event) => ⟨group, boot.log ++ [event]⟩
  | .error _ => boot

def system (localNodeId localBootId : String) : TransitionSystem Boot Operation where
  init boot := boot = ⟨{ localNodeId, localBootId }, []⟩
  step boot operation after := after = boot.call operation

theorem call_cases (boot : Boot) (operation : Operation) :
    boot.call operation = boot ∨ ∃ event next, boot.group.perform operation = .ok (next, event) ∧
      boot.group.Step event next ∧ boot.call operation = ⟨next, boot.log ++ [event]⟩ := by
  cases performed : boot.group.perform operation with
  | error status => exact .inl (by rw [call, performed])
  | ok result =>
    obtain ⟨next, event⟩ := result
    exact .inr ⟨event, next, rfl, ReplicationGroup.perform_step performed, by
      rw [call, performed]⟩

theorem reachable_calls {localNodeId localBootId : String} {boot : Boot}
    (reached : (Boot.system localNodeId localBootId).Reachable boot) (operations : List Operation) :
    (Boot.system localNodeId localBootId).Reachable (operations.foldl Boot.call boot) := by
  induction operations generalizing boot with
  | nil => exact reached
  | cons operation operations ih => exact ih (.next reached rfl)

end Boot

/-! ## The active attempt -/

/-- The event belongs to an attempt that has begun: a record of it or another request for it. -/
def Event.Within (directive : RebuildDirective) : Event → Prop
  | .retried again => again = directive
  | .partitionReset identity _ _ | .partitionHandoff identity _ _ _ | .flowCut identity _
  | .catalogComplete identity | .storagePromoted identity => identity = directive.identity
  | _ => False

structure Attempt (boot : Boot) where
  front : List Event
  directive : RebuildDirective
  manifest : PopulationManifest
  since : List Event
  log_eq : boot.log = front ++ .began directive manifest :: since
  current : boot.group.currentDirective = some directive
  desired : boot.group.desiredLogicalEpochs = manifest.logicalEpochs
  within : ∀ event ∈ since, event.Within directive

namespace Attempt

variable {boot : Boot} {event : Event} {next : ReplicationGroup}

def begin_ (front : List Event) (group : ReplicationGroup) (directive : RebuildDirective)
    (manifest : PopulationManifest) :
    Attempt ⟨group.start directive manifest, front ++ [.began directive manifest]⟩ where
  front := front
  directive := directive
  manifest := manifest
  since := []
  log_eq := rfl
  current := rfl
  desired := rfl
  within := fun _ listed => absurd listed List.not_mem_nil

def extend (attempt : Attempt boot) (within : event.Within attempt.directive)
    (current : next.currentDirective = boot.group.currentDirective)
    (desired : next.desiredLogicalEpochs = boot.group.desiredLogicalEpochs) :
    Attempt ⟨next, boot.log ++ [event]⟩ where
  front := attempt.front
  directive := attempt.directive
  manifest := attempt.manifest
  since := attempt.since ++ [event]
  log_eq := by simp [attempt.log_eq]
  current := current.trans attempt.current
  desired := desired.trans attempt.desired
  within := List.forall_mem_append.mpr ⟨attempt.within, List.forall_mem_singleton.mpr within⟩

theorem identity_eq (attempt : Attempt boot) {identity : RebuildIdentity}
    (active : boot.group.Active identity) : identity = attempt.directive.identity := by
  obtain ⟨-, directive, cur, same⟩ := active
  rw [← same, Option.some.inj (attempt.current.symm.trans cur)]

end Attempt

def Boot.Attempted (boot : Boot) : Prop :=
  boot.group.state = .rebuilding → Nonempty (Attempt boot)

open ReplicationGroup in
theorem Boot.Attempted.step {boot : Boot} {event : Event} {next : ReplicationGroup}
    (attempted : boot.Attempted) (step : boot.group.Step event next) :
    Boot.Attempted ⟨next, boot.log ++ [event]⟩ := by
  intro rebuilding
  -- A record of the active attempt leaves the directive and the manifest as they are.
  have record : ∀ {identity : RebuildIdentity}, boot.group.Active identity →
      (∀ directive : RebuildDirective, directive.identity = identity → event.Within directive) →
      next.currentDirective = boot.group.currentDirective →
      next.desiredLogicalEpochs = boot.group.desiredLogicalEpochs →
      Nonempty (Attempt ⟨next, boot.log ++ [event]⟩) := by
    intro identity active within cur desired
    obtain ⟨attempt⟩ := attempted active.1
    exact ⟨attempt.extend (within _ (attempt.identity_eq active).symm) cur desired⟩
  cases step with
  | began => exact ⟨.begin_ _ _ _ _⟩
  | retried active =>
    obtain ⟨attempt⟩ := attempted active.1
    exact ⟨attempt.extend (Option.some.inj (active.2.symm.trans attempt.current)) rfl rfl⟩
  | partitionReset active | resetAgain active | partitionHandoff active | handoffAgain active
  | flowCut active | cutAgain active | catalogComplete active | storagePromoted active =>
    exact record active (fun _ same => same.symm) rfl rfl
  | recovered => exact nomatch rebuilding
  | switched ready | repeated ready => exact absurd (ready.symm.trans rebuilding) (by decide)
  | published | aborted | invalidated | failStopped => exact nomatch rebuilding

/-! ## A new group -/

def exampleDirective (groupId : String) (term revision : Nat) (attemptId : String) :
    RebuildDirective where
  identity := {
    groupId, term, attemptId
    directiveRevision := revision
    assignmentId := "assignment"
    authorityId := "authority"
    sourceNodeId := "source"
    sourceAssignmentId := "source-assignment"
    sourceBootId := "source-boot"
    sourceHistoryId := "source-history"
    targetNodeId := "node"
    targetBootId := "boot"
    targetHistoryId := ""
    operationId := "operation"
    directiveId := "directive"
    manifestRevision := 1
    manifestId := ⟨[1]⟩
    partitionReplicationEpoch := 1 }
  flowCount := 1
  safeSourceActive := true

def exampleManifest : PopulationManifest := ⟨fun _ => 0, ⟨[1]⟩⟩

def exampleBoot : Boot := ⟨{ localNodeId := "node", localBootId := "boot" }, []⟩

end Lavik.Replication
