import Mathlib.Data.Set.Card
import Lavik.Replication.GroupHistory
/-!
# What a published population rests on

Two counters stand for sixteen thousand resets and handoffs, and a retried record must not count
twice. In every boot arrays and counters say what was recorded since the last event that began or
discarded a proof.
-/

namespace Lavik.Replication

open Base List Function ReplicationGroup Boot

/-! ## The records of a history -/

namespace Event

def clears : Event → Bool
  | .began _ _ | .aborted _ | .invalidated _ => true
  | _ => false

def counted : Event → Bool
  | .partitionReset _ _ _ | .partitionHandoff _ _ _ _ | .catalogComplete _ => true
  | _ => false

theorem Within.clears_eq_false {directive : RebuildDirective} {event : Event}
    (within : event.Within directive) : event.clears = false := by
  cases event <;> first | rfl | exact absurd within (by simp [Within])

end Event

def addRecord (kept : List Event) (event : Event) : List Event :=
  if event.clears then [] else kept ++ [event]

def records (log : List Event) : List Event := log.foldl addRecord []

theorem records_append (log : List Event) (event : Event) :
    records (log ++ [event]) = addRecord (records log) event := by
  rw [records, foldl_append]
  rfl

theorem foldl_addRecord_within {directive : RebuildDirective} (kept : List Event) :
    ∀ {since : List Event}, (∀ event ∈ since, event.Within directive) →
      since.foldl addRecord kept = kept ++ since := by
  intro since
  induction since generalizing kept with
  | nil => simp
  | cons event since ih =>
    intro within
    have kept_event : addRecord kept event = kept ++ [event] := by
      simp [addRecord, (within event (by simp)).clears_eq_false]
    rw [foldl_cons, kept_event, ih _ fun other mem => within other (by simp [mem])]
    simp

variable {boot : Boot}

theorem Attempt.records_eq (attempt : Attempt boot) : records boot.log = attempt.since := by
  rw [attempt.log_eq, records, foldl_append, foldl_cons]
  exact foldl_addRecord_within [] attempt.within

variable (events : List Event)

def ResetIn (partition : Partition) (epoch : Nat) : Prop :=
  ∃ identity, .partitionReset identity partition epoch ∈ events

def HandoffIn (partition : Partition) (logicalEpoch epoch : Nat) : Prop :=
  ∃ identity, .partitionHandoff identity partition logicalEpoch epoch ∈ events

def CatalogIn : Prop := ∃ identity, .catalogComplete identity ∈ events

def CutIn (cuts : List Nat) : Prop :=
  ∃ identity, .flowCut identity cuts ∈ events

section Append

variable {events : List Event} {event : Event} {partition : Partition}

@[simp] theorem resetIn_append {epoch : Nat} :
    ResetIn (events ++ [event]) partition epoch ↔ ResetIn events partition epoch ∨
      ∃ identity, event = .partitionReset identity partition epoch := by
  simp [ResetIn, exists_or, eq_comm]

@[simp] theorem handoffIn_append {logicalEpoch epoch : Nat} :
    HandoffIn (events ++ [event]) partition logicalEpoch epoch ↔
      HandoffIn events partition logicalEpoch epoch ∨
        ∃ identity, event = .partitionHandoff identity partition logicalEpoch epoch := by
  simp [HandoffIn, exists_or, eq_comm]

@[simp] theorem catalogIn_append :
    CatalogIn (events ++ [event]) ↔ CatalogIn events ∨
      ∃ identity, event = .catalogComplete identity := by
  simp [CatalogIn, exists_or, eq_comm]

@[simp] theorem cutIn_append {cuts : List Nat} :
    CutIn (events ++ [event]) cuts ↔ CutIn events cuts ∨
      ∃ identity, event = .flowCut identity cuts := by
  simp [CutIn, exists_or, eq_comm]

end Append

/-! ## What a group counts -/

structure Tally where
  desired : Partition → Nat
  epochs : Partition → Nat
  handoffs : Partition → Bool
  resetCount : Nat
  handoffCount : Nat
  catalog : Bool

def ReplicationGroup.tally (group : ReplicationGroup) : Tally where
  desired := group.desiredLogicalEpochs
  epochs := group.targetLocalEpochs
  handoffs := group.partitionHandoffs
  resetCount := group.partitionResetCount
  handoffCount := group.partitionHandoffCount
  catalog := group.functionCatalogComplete

structure Tally.Counts (tally : Tally) (events : List Event) : Prop where
  resets : ∀ partition epoch, ResetIn events partition epoch ↔
    epoch ≠ 0 ∧ tally.epochs partition = epoch
  handoffs : ∀ partition logicalEpoch epoch, HandoffIn events partition logicalEpoch epoch ↔
    tally.handoffs partition = true ∧ tally.desired partition = logicalEpoch ∧
      tally.epochs partition = epoch
  resetFirst : ∀ partition, tally.handoffs partition = true → tally.epochs partition ≠ 0
  catalog : tally.catalog = true ↔ CatalogIn events
  resetCount : tally.resetCount = {partition | tally.epochs partition ≠ 0}.ncard
  handoffCount : tally.handoffCount = {partition | tally.handoffs partition = true}.ncard

namespace Tally

def Cleared (tally : Tally) : Prop :=
  tally.epochs = (fun _ => 0) ∧ tally.handoffs = (fun _ => false) ∧ tally.resetCount = 0 ∧
    tally.handoffCount = 0 ∧ tally.catalog = false

namespace Counts

variable {tally : Tally} {events : List Event}

theorem cleared (cleared : tally.Cleared) : tally.Counts [] := by
  obtain ⟨epochs, handoffs, resetCount, handoffCount, catalog⟩ := cleared
  constructor
  · intro partition epoch
    simp only [ResetIn, not_mem_nil, exists_false, epochs, false_iff]
    omega
  · simp [HandoffIn, handoffs]
  · simp [handoffs]
  · simp [CatalogIn, catalog]
  · simp [resetCount, epochs]
  · simp [handoffCount, handoffs]

theorem uncounted (counts : tally.Counts events) {event : Event} (other : event.counted = false) :
    tally.Counts (events ++ [event]) := by
  have noReset : ∀ identity partition epoch, event ≠ .partitionReset identity partition epoch := by
    rintro identity partition epoch rfl
    exact nomatch other
  have noHandoff : ∀ identity partition logicalEpoch epoch,
      event ≠ .partitionHandoff identity partition logicalEpoch epoch := by
    rintro identity partition logicalEpoch epoch rfl
    exact nomatch other
  have noCatalog : ∀ identity, event ≠ .catalogComplete identity := by
    rintro identity rfl
    exact nomatch other
  exact { counts with
    resets := by simpa [noReset] using counts.resets
    handoffs := by simpa [noHandoff] using counts.handoffs
    catalog := by simpa [noCatalog] using counts.catalog }

/-- A partition that is set for the first time is counted once. -/
theorem ncard_update {α : Type} {f : Partition → α} {p : α → Prop} {partition : Partition}
    {value : α} (chosen : p value) (unset : ¬ p (f partition)) :
    {other | p (update f partition value other)}.ncard = {other | p (f other)}.ncard + 1 := by
  have grown : {other | p (update f partition value other)} =
      insert partition {other | p (f other)} := by
    ext other
    by_cases same : other = partition
    · simp [same, chosen]
    · simp [same]
  rw [grown, Set.ncard_insert_of_notMem (by simpa using unset)]

variable {identity : RebuildIdentity} {partition : Partition} {epoch : Nat}

section

variable (counts : tally.Counts events)

include counts

theorem reset (nonzero : epoch ≠ 0) (unset : tally.epochs partition = 0) :
    Counts { tally with
      epochs := update tally.epochs partition epoch
      resetCount := tally.resetCount + 1 } (events ++ [.partitionReset identity partition epoch])
    where
  resets := by
    intro other otherEpoch
    by_cases same : other = partition
    · subst same
      simp only [resetIn_append, counts.resets, unset, update_self]
      constructor
      · rintro (⟨pos, zero⟩ | ⟨_, eq⟩)
        · exact absurd zero.symm pos
        · cases eq
          exact ⟨nonzero, rfl⟩
      · rintro ⟨-, rfl⟩
        exact .inr ⟨identity, rfl⟩
    · simp [counts.resets, update_of_ne same, Ne.symm same]
  handoffs := by
    intro other logicalEpoch otherEpoch
    by_cases same : other = partition
    · subst same
      -- A partition without a reset has no handoff.
      have none : tally.handoffs other ≠ true := fun set => counts.resetFirst other set unset
      simp [counts.handoffs, none]
    · simp [counts.handoffs, update_of_ne same]
  resetFirst := by
    intro other set
    by_cases same : other = partition
    · subst same
      simpa using nonzero
    · simpa [update_of_ne same] using counts.resetFirst other set
  catalog := by simpa using counts.catalog
  resetCount := by
    rw [ncard_update (p := (· ≠ 0)) nonzero (by simpa using unset), ← counts.resetCount]
  handoffCount := counts.handoffCount

theorem resetAgain (nonzero : epoch ≠ 0) (saved : tally.epochs partition = epoch) :
    tally.Counts (events ++ [.partitionReset identity partition epoch]) := { counts with
  resets := by
    intro other otherEpoch
    rw [resetIn_append, counts.resets, or_iff_left_iff_imp]
    rintro ⟨_, eq⟩
    cases eq
    exact ⟨nonzero, saved⟩
  handoffs := by simpa using counts.handoffs
  catalog := by simpa using counts.catalog }

theorem handoff (nonzero : epoch ≠ 0) (saved : tally.epochs partition = epoch)
    (unset : tally.handoffs partition = false) :
    Counts { tally with
      handoffs := update tally.handoffs partition true
      handoffCount := tally.handoffCount + 1 }
      (events ++ [.partitionHandoff identity partition (tally.desired partition) epoch]) where
  resets := by simpa using counts.resets
  handoffs := by
    intro other logicalEpoch otherEpoch
    by_cases same : other = partition
    · subst same
      simp only [handoffIn_append, counts.handoffs, unset, update_self]
      constructor
      · rintro (⟨set, -⟩ | ⟨_, eq⟩)
        · exact absurd set (by decide)
        · cases eq
          exact ⟨trivial, rfl, saved⟩
      · rintro ⟨-, rfl, rfl⟩
        exact .inr ⟨identity, saved ▸ rfl⟩
    · simp [counts.handoffs, update_of_ne same, Ne.symm same]
  resetFirst := by
    intro other set
    by_cases same : other = partition
    · subst same
      simpa [saved] using nonzero
    · dsimp only at set
      rw [update_of_ne same] at set
      exact counts.resetFirst other set
  catalog := by simpa using counts.catalog
  resetCount := counts.resetCount
  handoffCount := by
    rw [ncard_update (p := (· = true)) rfl (by simpa using unset), ← counts.handoffCount]

theorem handoffAgain (saved : tally.epochs partition = epoch)
    (set : tally.handoffs partition = true) :
    tally.Counts
      (events ++ [.partitionHandoff identity partition (tally.desired partition) epoch]) :=
    { counts with
  resets := by simpa using counts.resets
  handoffs := by
    intro other logicalEpoch otherEpoch
    rw [handoffIn_append, counts.handoffs, or_iff_left_iff_imp]
    rintro ⟨_, eq⟩
    cases eq
    exact ⟨set, rfl, saved⟩
  catalog := by simpa using counts.catalog }

theorem catalogComplete (identity : RebuildIdentity) :
    Counts { tally with catalog := true } (events ++ [.catalogComplete identity]) :=
    { counts with
  resets := by simpa using counts.resets
  handoffs := by simpa using counts.handoffs
  catalog := by simp }

theorem full_resets (full : tally.resetCount = replicationPartitionCount) (partition : Partition) :
    tally.epochs partition ≠ 0 := by
  have all := (Set.eq_univ_iff_ncard {partition | tally.epochs partition ≠ 0}).mpr
    (by rw [← counts.resetCount, full, Nat.card_eq_fintype_card, Fintype.card_fin])
  exact all.ge (Set.mem_univ partition)

theorem full_handoffs (full : tally.handoffCount = replicationPartitionCount)
    (partition : Partition) : tally.handoffs partition = true := by
  have all := (Set.eq_univ_iff_ncard {partition | tally.handoffs partition = true}).mpr
    (by rw [← counts.handoffCount, full, Nat.card_eq_fintype_card, Fintype.card_fin])
  exact all.ge (Set.mem_univ partition)

end

end Counts

end Tally

namespace ReplicationGroup

theorem Step.counts {group next : ReplicationGroup} {event : Event} {kept : List Event}
    (step : group.Step event next) (counts : group.tally.Counts kept) :
    next.tally.Counts (addRecord kept event) := by
  cases step with
  | began | aborted | invalidated => exact .cleared ⟨rfl, rfl, rfl, rfl, rfl⟩
  | partitionReset _ nonzero unset => exact counts.reset nonzero unset
  | resetAgain _ nonzero saved => exact counts.resetAgain nonzero saved
  | partitionHandoff _ nonzero saved desired unset =>
    subst desired
    exact counts.handoff nonzero saved unset
  | handoffAgain _ _ saved desired set =>
    subst desired
    exact counts.handoffAgain saved set
  | catalogComplete => exact counts.catalogComplete _
  | retried | flowCut | cutAgain | storagePromoted | recovered | switched | repeated | published
  | failStopped => exact counts.uncounted rfl

end ReplicationGroup

/-! ## Cuts and promotion -/

structure Complete (desired : Partition → Nat) (flowCount : Nat) (events : List Event) :
    Prop where
  partitions : ∀ partition, ∃ epoch, epoch ≠ 0 ∧ ResetIn events partition epoch ∧
    HandoffIn events partition (desired partition) epoch
  catalog : CatalogIn events
  cuts : flowCount ≠ 0 → ∃ cuts, CutIn events cuts

/-- What a group that is rebuilding holds of the records of its attempt besides the counted
evidence. A switch of the history replaces the cuts, so a ready group holds less. -/
structure Evidence (group : ReplicationGroup) (events : List Event) : Prop where
  cuts : ∀ cuts, CutIn events cuts ↔ group.flowCutVector = some cuts
  shape : ∀ cuts, group.flowCutVector = some cuts → cuts.length = group.flowCount ∧ 0 ∉ cuts
  promoted : group.storagePromoted = true → ∃ before identity after,
    events = before ++ .storagePromoted identity :: after ∧
      Complete group.desiredLogicalEpochs group.flowCount before

namespace Evidence

variable {group next : ReplicationGroup} {events : List Event} {event : Event}

theorem started (directive : RebuildDirective) (manifest : PopulationManifest) :
    Evidence (group.start directive manifest) [] where
  cuts := by simp [CutIn, start]
  shape := nofun
  promoted := nofun

variable (evidence : Evidence group events)

include evidence

theorem promoted_append (event : Event)
    (set : group.storagePromoted = true) : ∃ before identity after,
      events ++ [event] = before ++ .storagePromoted identity :: after ∧
        Complete group.desiredLogicalEpochs group.flowCount before := by
  obtain ⟨before, identity, after, split, complete⟩ := evidence.promoted set
  exact ⟨before, identity, after ++ [event], by simp [split], complete⟩

theorem uncut (other : ∀ identity cuts, event ≠ .flowCut identity cuts)
    (desired : next.desiredLogicalEpochs = group.desiredLogicalEpochs)
    (flows : next.flowCount = group.flowCount) (cuts : next.flowCutVector = group.flowCutVector)
    (promoted : next.storagePromoted = group.storagePromoted) :
    Evidence next (events ++ [event]) where
  cuts := by simpa [other, cuts] using evidence.cuts
  shape := by simpa only [cuts, flows] using evidence.shape
  promoted := by simpa only [promoted, desired, flows] using evidence.promoted_append event

variable {identity : RebuildIdentity} {cuts : List Nat}

theorem flowCut (length : cuts.length = group.flowCount)
    (nonzero : 0 ∉ cuts) (unset : group.flowCutVector = none) :
    Evidence { group with flowCutVector := some cuts } (events ++ [.flowCut identity cuts]) where
  cuts := by
    intro other
    have none : ¬ CutIn events other := by simp [evidence.cuts, unset]
    simp [none]
  shape := by
    rintro _ ⟨⟩
    exact ⟨length, nonzero⟩
  promoted := evidence.promoted_append _

theorem cutAgain (saved : group.flowCutVector = some cuts) :
    Evidence group (events ++ [.flowCut identity cuts]) where
  cuts := by
    intro other
    rw [cutIn_append, evidence.cuts, or_iff_left_iff_imp]
    rintro ⟨_, eq⟩
    cases eq
    exact saved
  shape := evidence.shape
  promoted := evidence.promoted_append _

end Evidence

namespace ReplicationGroup

variable {group next : ReplicationGroup} {event : Event}

theorem CutProofComplete.complete {events : List Event} (proof : group.CutProofComplete)
    (counts : group.tally.Counts events) (evidence : Evidence group events) :
    Complete group.desiredLogicalEpochs group.flowCount events := by
  obtain ⟨resets, handoffs, catalog, cuts⟩ := proof
  refine ⟨?_, counts.catalog.mp catalog, ?_⟩
  · intro partition
    have nonzero := counts.full_resets resets partition
    have set := counts.full_handoffs handoffs partition
    exact ⟨group.targetLocalEpochs partition, nonzero,
      (counts.resets partition _).mpr ⟨nonzero, rfl⟩,
      (counts.handoffs partition _ _).mpr ⟨set, rfl, rfl⟩⟩
  · intro flows
    obtain ⟨saved, held⟩ := Option.ne_none_iff_exists'.mp (cuts.resolve_left flows)
    exact ⟨saved, (evidence.cuts saved).mpr held⟩

theorem Step.evidence {kept : List Event} (step : group.Step event next)
    (counts : group.tally.Counts kept) (evidence : group.state = .rebuilding → Evidence group kept)
    (rebuilding : next.state = .rebuilding) : Evidence next (addRecord kept event) := by
  cases step with
  | began => exact .started _ _
  | retried active => exact (evidence active.1).uncut nofun rfl rfl rfl rfl
  | partitionReset active | resetAgain active | partitionHandoff active | handoffAgain active
  | catalogComplete active => exact (evidence active.1).uncut nofun rfl rfl rfl rfl
  | flowCut active _ length nonzero unset =>
    exact (evidence active.1).flowCut length nonzero unset
  | cutAgain active _ _ saved => exact (evidence active.1).cutAgain saved
  | @storagePromoted identity active complete =>
    have held := evidence active.1
    have after : Evidence group (kept ++ [.storagePromoted identity]) :=
      held.uncut nofun rfl rfl rfl rfl
    exact ⟨after.cuts, after.shape,
      fun _ => ⟨kept, identity, [], rfl, complete.complete counts held⟩⟩
  | repeated ready | switched ready => exact absurd (ready.symm.trans rebuilding) (by decide)
  | recovered | published | aborted | invalidated | failStopped => exact nomatch rebuilding

end ReplicationGroup

/-! ## Every boot -/

structure Proven (boot : Boot) : Prop where
  attempted : boot.Attempted
  counts : boot.group.tally.Counts (records boot.log)
  evidence : boot.group.state = .rebuilding → Evidence boot.group (records boot.log)

theorem proven_reachable {localNodeId localBootId : String}
    (reached : (system localNodeId localBootId).Reachable boot) : Proven boot := by
  refine reached.invariant ?_ ?_
  · rintro boot rfl
    exact ⟨nofun, .cleared ⟨rfl, rfl, rfl, rfl, rfl⟩, nofun⟩
  · rintro boot operation after - proven rfl
    rcases boot.call_cases operation with same | ⟨event, next, -, step, called⟩
    · rw [same]
      exact proven
    rw [called]
    refine ⟨proven.attempted.step step, ?_, ?_⟩
    · rw [records_append]
      exact step.counts proven.counts
    · rw [records_append]
      exact step.evidence proven.counts proven.evidence

/-- The counters of a group are the numbers of partitions recorded for the proof it holds. -/
structure CountersExact (boot : Boot) : Prop where
  resets : boot.group.partitionResetCount =
    {partition | ∃ epoch, ResetIn (records boot.log) partition epoch}.ncard
  handoffs : boot.group.partitionHandoffCount =
    {partition | ∃ logicalEpoch epoch,
      HandoffIn (records boot.log) partition logicalEpoch epoch}.ncard

/-- A published population: the attempt with its identity began, recorded everything, was promoted,
and nothing but records of that attempt lies between. -/
structure Populated (boot : Boot) (directive : RebuildDirective) (manifest : PopulationManifest)
    (cutVector : List Nat) (before after : List Event) : Prop where
  history : ∃ front, boot.log = front ++ .began directive manifest ::
    (before ++ .storagePromoted directive.identity :: after)
  within : ∀ event ∈ before ++ after, event.Within directive
  /-- Every partition was reset, and handed off with the epoch of its reset and of the manifest,
  before the promotion; no other epoch was recorded. -/
  partitions : ∀ partition, ∃ epoch, epoch ≠ 0 ∧
    .partitionReset directive.identity partition epoch ∈ before ∧
    .partitionHandoff directive.identity partition (manifest.logicalEpochs partition) epoch ∈
      before ∧
    (∀ other, ResetIn (before ++ after) partition other → other = epoch) ∧
    ∀ logicalEpoch other, HandoffIn (before ++ after) partition logicalEpoch other →
      logicalEpoch = manifest.logicalEpochs partition ∧ other = epoch
  catalog : .catalogComplete directive.identity ∈ before
  cuts : directive.flowCount ≠ 0 → .flowCut directive.identity cutVector ∈ before ∧
    cutVector.length = directive.flowCount ∧ 0 ∉ cutVector ∧
    ∀ other, CutIn (before ++ after) other → other = cutVector

theorem Proven.countersExact (proven : Proven boot) : CountersExact boot where
  resets := by
    have same : {partition | ∃ epoch, ResetIn (records boot.log) partition epoch} =
        {partition | boot.group.targetLocalEpochs partition ≠ 0} := by
      ext partition
      simp [proven.counts.resets, tally]
    rw [same]
    exact proven.counts.resetCount
  handoffs := by
    have same : {partition | ∃ logicalEpoch epoch,
        HandoffIn (records boot.log) partition logicalEpoch epoch} =
        {partition | boot.group.partitionHandoffs partition = true} := by
      ext partition
      simp [proven.counts.handoffs, tally]
    rw [same]
    exact proven.counts.handoffCount

theorem Proven.populated (proven : Proven boot) {identity : RebuildIdentity}
    (active : boot.group.Active identity) (promoted : boot.group.storagePromoted = true) :
    ∃ directive manifest before after, directive.identity = identity ∧
      Populated boot directive manifest (boot.group.flowCutVector.getD []) before after := by
  obtain ⟨attempt⟩ := proven.attempted active.1
  have counts := proven.counts
  have evidence := proven.evidence active.1
  rw [attempt.records_eq] at counts evidence
  obtain ⟨before, promotion, after, split, whole⟩ := evidence.promoted promoted
  have flows : boot.group.flowCount = attempt.directive.flowCount := by
    simp [flowCount, attempt.current]
  -- Every record of the attempt carries its identity.
  have within := attempt.within
  rw [split] at within
  have own : promotion = attempt.directive.identity :=
    within (.storagePromoted promotion) (by simp)
  have inside : ∀ event ∈ before, event ∈ before ++ .storagePromoted promotion :: after :=
    fun event mem => mem_append_left _ mem
  have kept : ∀ event ∈ before ++ after, event ∈ attempt.since := by
    intro event mem
    rw [split]
    rcases mem_append.mp mem with first | second
    · exact inside event first
    · exact mem_append_right _ (mem_cons_of_mem _ second)
  refine ⟨attempt.directive, attempt.manifest, before, after, (attempt.identity_eq active).symm, ?_⟩
  refine ⟨⟨attempt.front, by rw [attempt.log_eq, split, own]⟩, ?_, ?_, ?_, ?_⟩
  · intro event mem
    exact attempt.within event (kept event mem)
  · intro partition
    obtain ⟨epoch, nonzero, ⟨resetter, reset⟩, ⟨holder, handoff⟩⟩ := whole.partitions partition
    have first : resetter = attempt.directive.identity := within _ (inside _ reset)
    have second : holder = attempt.directive.identity := within _ (inside _ handoff)
    have saved := (counts.resets partition epoch).mp ⟨resetter, split ▸ inside _ reset⟩
    rw [first] at reset
    rw [second, attempt.desired] at handoff
    refine ⟨epoch, nonzero, reset, handoff, ?_, ?_⟩
    · rintro other ⟨_, mem⟩
      exact ((counts.resets partition other).mp ⟨_, kept _ mem⟩).2.symm.trans saved.2
    · rintro logicalEpoch other ⟨_, mem⟩
      obtain ⟨-, desired, cur⟩ :=
        (counts.handoffs partition logicalEpoch other).mp ⟨_, kept _ mem⟩
      exact ⟨desired.symm.trans (congrFun attempt.desired partition), cur.symm.trans saved.2⟩
  · obtain ⟨marker, mem⟩ := whole.catalog
    have own : marker = attempt.directive.identity := within _ (inside _ mem)
    exact own ▸ mem
  · intro some
    obtain ⟨cuts, recorder, mem⟩ := whole.cuts (flows ▸ some)
    have own : recorder = attempt.directive.identity := within _ (inside _ mem)
    have held := (evidence.cuts cuts).mp ⟨recorder, split ▸ inside _ mem⟩
    obtain ⟨length, nonzero⟩ := evidence.shape cuts held
    rw [held, Option.getD_some]
    refine ⟨own ▸ mem, length.trans flows, nonzero, ?_⟩
    rintro other ⟨_, recorded⟩
    have also := (evidence.cuts other).mp ⟨_, kept _ recorded⟩
    exact Option.some.inj (also.symm.trans held)

/-- In every boot the counters are exact, and a population that becomes ready through
`PublishReady` was reset, handed off, cut and promoted within the attempt of its identity. -/
theorem published_population_is_proven {localNodeId localBootId : String} {boot : Boot}
    (reached : (system localNodeId localBootId).Reachable boot) :
    CountersExact boot ∧ ∀ identity next event, boot.group.state ≠ .ready →
      boot.group.perform (.publishReady identity) = .ok (next, event) →
      next.state = .ready ∧ ∃ directive manifest cutVector before after,
        directive.identity = identity ∧ event = .published ⟨identity, cutVector⟩ ∧
          next.readyToken = some ⟨identity, cutVector⟩ ∧
          Populated boot directive manifest cutVector before after := by
  have proven := proven_reachable reached
  refine ⟨proven.countersExact, ?_⟩
  intro identity next event pending accepted
  rcases publishReady_returns accepted with ⟨-, ready, -⟩ | ⟨active, -, promoted, rfl, rfl⟩
  · exact absurd ready pending
  obtain ⟨directive, manifest, before, after, same, populated⟩ :=
    proven.populated active promoted
  exact ⟨rfl, directive, manifest, _, before, after, same, rfl, rfl, populated⟩

/-! ## A whole attempt -/

namespace ReplicationGroup

variable {group : ReplicationGroup} {identity : RebuildIdentity} {count : Nat}

def withResets (group : ReplicationGroup) (count : Nat) : ReplicationGroup :=
  { group with
    targetLocalEpochs := fun partition => if partition.val < count then 1 else 0
    partitionResetCount := count }

def withHandoffs (group : ReplicationGroup) (count : Nat) : ReplicationGroup :=
  { group with
    partitionHandoffs := fun partition => partition.val < count
    partitionHandoffCount := count }

theorem recordPartitionReset_withResets (active : group.Active identity)
    (inside : count < replicationPartitionCount) :
    (group.withResets count).recordPartitionReset identity count 1 =
      .ok (group.withResets (count + 1), .partitionReset identity ⟨count, inside⟩ 1) := by
  have grown : update (group.withResets count).targetLocalEpochs ⟨count, inside⟩ 1 =
      (group.withResets (count + 1)).targetLocalEpochs := by
    funext partition
    rcases eq_or_ne partition ⟨count, inside⟩ with rfl | other
    · simp [withResets]
    have apart : partition.val ≠ count := fun same => other (Fin.ext same)
    simp only [update_of_ne other, withResets]
    congr 1
    exact propext (by omega)
  have unset : (group.withResets count).targetLocalEpochs ⟨count, inside⟩ = 0 := by
    simp [withResets]
  refine bind_returns.mpr ⟨(), validateCurrent_returns.mpr active, ?_⟩
  rw [dif_pos inside]
  refine refuseIf_bind.mpr ⟨by decide, ?_⟩
  simp only [unset, grown]
  rfl

theorem recordPartitionHandoff_withHandoffs (active : group.Active identity)
    (epochs : group.targetLocalEpochs = fun _ => 1)
    (desired : group.desiredLogicalEpochs = fun _ => 0)
    (inside : count < replicationPartitionCount) :
    (group.withHandoffs count).recordPartitionHandoff identity count 0 1 =
      .ok (group.withHandoffs (count + 1), .partitionHandoff identity ⟨count, inside⟩ 0 1) := by
  have grown : update (group.withHandoffs count).partitionHandoffs ⟨count, inside⟩ true =
      (group.withHandoffs (count + 1)).partitionHandoffs := by
    funext partition
    rcases eq_or_ne partition ⟨count, inside⟩ with rfl | other
    · simp [withHandoffs]
    · have apart : partition.val ≠ count := fun same => other (Fin.ext same)
      simp only [update_of_ne other, withHandoffs, decide_eq_decide]
      omega
  have saved : (group.withHandoffs count).targetLocalEpochs ⟨count, inside⟩ = 1 :=
    congrFun epochs _
  have wanted : (group.withHandoffs count).desiredLogicalEpochs ⟨count, inside⟩ = 0 :=
    congrFun desired _
  have unset : (group.withHandoffs count).partitionHandoffs ⟨count, inside⟩ = false := by
    simp [withHandoffs]
  refine bind_returns.mpr ⟨(), validateCurrent_returns.mpr active, ?_⟩
  rw [dif_pos inside]
  refine refuseIf_bind.mpr ⟨by decide, ?_⟩
  refine refuseIf_bind.mpr ⟨by simp [saved], ?_⟩
  refine refuseIf_bind.mpr ⟨by simp [saved], ?_⟩
  refine refuseIf_bind.mpr ⟨by simp [wanted], ?_⟩
  simp only [unset, grown]
  rfl

end ReplicationGroup

namespace Boot

variable {boot : Boot}

theorem call_group {operation : Operation} {group next : ReplicationGroup} {event : Event}
    (known : boot.group = group) (ok : group.perform operation = .ok (next, event)) :
    (boot.call operation).group = next := by
  subst known
  rw [call, ok]

theorem calls_group (operation : Nat → Operation) (group : Nat → ReplicationGroup) {total : Nat}
    (ok : ∀ count < total, ∃ event,
      (group count).perform (operation count) = .ok (group (count + 1), event))
    (first : boot.group = group 0) :
    (((range total).map operation).foldl call boot).group = group total := by
  induction total with
  | zero => exact first
  | succ total ih =>
    obtain ⟨event, last⟩ := ok total (Nat.lt_succ_self total)
    have before := ih fun count less => ok count (Nat.lt_succ_of_lt less)
    rw [range_succ, map_append, foldl_append, map_cons, map_nil, foldl_cons, foldl_nil]
    exact call_group before last

end Boot

def exampleIdentity : RebuildIdentity := (exampleDirective "g" 1 1 "a").identity

def exampleAttempt : List Operation :=
  .beginRebuild (exampleDirective "g" 1 1 "a") exampleManifest ::
    ((range replicationPartitionCount).map (.recordPartitionReset exampleIdentity · 1) ++
      (range replicationPartitionCount).map (.recordPartitionHandoff exampleIdentity · 0 1) ++
      [.markFunctionCatalogComplete exampleIdentity, .recordFlowCutVector exampleIdentity [7],
        .markStoragePromoted exampleIdentity])

def exampleStarted : ReplicationGroup :=
  exampleBoot.group.start (exampleDirective "g" 1 1 "a") exampleManifest

def exampleReset : ReplicationGroup :=
  { exampleStarted with
    targetLocalEpochs := fun _ => 1
    partitionResetCount := replicationPartitionCount }

def exampleHanded : ReplicationGroup :=
  { exampleReset with
    partitionHandoffs := fun _ => true
    partitionHandoffCount := replicationPartitionCount }

def exampleMarked : ReplicationGroup := { exampleHanded with functionCatalogComplete := true }

def exampleCut : ReplicationGroup := { exampleMarked with flowCutVector := some [7] }

def examplePromoted : ReplicationGroup := { exampleCut with storagePromoted := true }

theorem exampleStarted_withResets_zero : exampleStarted.withResets 0 = exampleStarted := by
  rfl

theorem exampleStarted_withResets_all :
    exampleStarted.withResets replicationPartitionCount = exampleReset.withHandoffs 0 := by
  simp only [withResets, withHandoffs, Fin.is_lt, if_true, Nat.not_lt_zero, decide_false]
  rfl

theorem exampleReset_withHandoffs_all :
    exampleReset.withHandoffs replicationPartitionCount = exampleHanded := by
  simp only [withHandoffs, Fin.is_lt, decide_true]
  rfl

theorem exampleAttempt_group : (exampleAttempt.foldl call exampleBoot).group = examplePromoted := by
  have active : exampleStarted.Active exampleIdentity := ⟨rfl, _, rfl, rfl⟩
  have resetActive : exampleReset.Active exampleIdentity := active
  have begins : exampleBoot.group.perform
      (.beginRebuild (exampleDirective "g" 1 1 "a") exampleManifest) =
        .ok (exampleStarted, .began (exampleDirective "g" 1 1 "a") exampleManifest) := rfl
  have marks : exampleHanded.perform (.markFunctionCatalogComplete exampleIdentity) =
      .ok (exampleMarked, .catalogComplete exampleIdentity) := rfl
  have cuts : exampleMarked.perform (.recordFlowCutVector exampleIdentity [7]) =
      .ok (exampleCut, .flowCut exampleIdentity [7]) := rfl
  have promotes : exampleCut.perform (.markStoragePromoted exampleIdentity) =
      .ok (examplePromoted, .storagePromoted exampleIdentity) := rfl
  have began := call_group rfl begins
  have reset := calls_group (.recordPartitionReset exampleIdentity · 1) exampleStarted.withResets
    (fun count less => ⟨_, recordPartitionReset_withResets active less⟩)
    (began.trans exampleStarted_withResets_zero.symm)
  have handed := calls_group (.recordPartitionHandoff exampleIdentity · 0 1)
    exampleReset.withHandoffs
    (fun count less =>
      ⟨_, recordPartitionHandoff_withHandoffs resetActive rfl rfl less⟩)
    (reset.trans exampleStarted_withResets_all)
  have marked := call_group (handed.trans exampleReset_withHandoffs_all) marks
  have promoted := call_group (call_group marked cuts) promotes
  rw [exampleAttempt, foldl_cons, foldl_append, foldl_append, foldl_cons,
    foldl_cons, foldl_cons, foldl_nil]
  exact promoted

theorem example_population_is_proven : ∃ boot next directive manifest before after,
    boot.group.perform (.publishReady exampleIdentity) =
        .ok (next, .published ⟨exampleIdentity, [7]⟩) ∧ directive.identity = exampleIdentity ∧
      Populated boot directive manifest [7] before after := by
  have reached : (system "node" "boot").Reachable (exampleAttempt.foldl call exampleBoot) :=
    reachable_calls (.start rfl) exampleAttempt
  have accepted : (exampleAttempt.foldl call exampleBoot).group.perform
      (.publishReady exampleIdentity) = .ok ({ examplePromoted with
        readyToken := some ⟨exampleIdentity, [7]⟩, state := .ready },
        .published ⟨exampleIdentity, [7]⟩) := by
    rw [exampleAttempt_group]
    rfl
  have pending : (exampleAttempt.foldl call exampleBoot).group.state ≠ .ready := by
    rw [exampleAttempt_group]
    exact nofun
  obtain ⟨-, directive, manifest, cutVector, before, after, same, event, -, populated⟩ :=
    (published_population_is_proven reached).2 _ _ _ pending accepted
  cases event
  exact ⟨_, _, directive, manifest, before, after, accepted, same, populated⟩

end Lavik.Replication
