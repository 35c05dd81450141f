import Lavik.Meta.JournalSound
/-!
# Safety of directives

Directives are anchored in the committed topology and mutate different storage, and neither a
directive nor its answer is ever given a second meaning. The last fact rests on revisions: a
directive is issued under the log index of its command, so a pruned key cannot come back.
-/

namespace Lavik.Meta

open Base List AssocMap

structure Stores.Anchored (stores : Stores) (directive : DirectiveSpec) (group : GroupState) :
    Prop where
  known : stores.findGroup directive.groupId = some group
  granted : group.authority.grant.isSome = true
  target : group.hasAssignment directive.targetNodeId directive.assignmentId = true
  source : directive.initializesEmpty = false →
    group.hasAssignment directive.sourceNodeId directive.sourceAssignmentId = true
  term : group.record.groupTerm = directive.groupTerm
  manifestRevision : group.record.populationManifestRevision = directive.populationManifestRevision
  manifestDigest : group.record.populationManifestDigest = directive.populationManifestDigest
  partitionEpoch : group.record.partitionReplicationEpoch = directive.partitionReplicationEpoch

theorem anchored_of_validated {stores : Stores} {directive : DirectiveSpec} {done : Unit}
    (valid : stores.validateDirectiveAnchor directive = .ok done) :
    ∃ group, stores.Anchored directive group := by
  simp only [Stores.validateDirectiveAnchor, require_bind] at valid
  obtain ⟨_, valid⟩ := valid
  split at valid
  · cases valid
  next group known =>
  simp only [require_bind, require_returns, Bool.and_eq_true, Bool.or_eq_true, beq_iff_eq] at valid
  obtain ⟨granted, ⟨target, source⟩, term, ⟨revision, digest⟩, epoch⟩ := valid
  refine ⟨group, known, granted, target, fun copies => ?_, term, revision, digest, epoch⟩
  exact source.resolve_left (by simp [copies])

namespace OperationStore

variable {formats : Formats} {store after : OperationStore} {index : UInt64} {reasoned : Bool}

def Installs (store : OperationStore) (id : Identity) (current : CurrentDirective) : Prop :=
  ∃ record, store.live.get id = some record ∧ current ∈ record.currentDirectives

/-- The journal holds a receipt, in the live or the archived record of its operation. -/
def Holds (store : OperationStore) (receipt : TerminalReceipt) : Prop :=
  (∃ record, store.live.get receipt.key.operationId = some record ∧
      receipt ∈ record.terminalReceipts) ∨
    ∃ summary, store.archived.get receipt.key.operationId = some summary ∧
      receipt ∈ summary.terminalReceipts

def Tracks (store : OperationStore) (key : TerminalReceiptKey) : Prop :=
  ∃ current, store.Installs key.operationId current ∧ current.named key = true

/-- A key that cannot be answered again: it has its receipt, or nothing waits for one. -/
def Settled (store : OperationStore) (key : TerminalReceiptKey) : Prop :=
  store.Tracks key → ∃ receipt, receipt.key = key ∧ store.Holds receipt

/-! ## Installed directives -/

variable {cur : CurrentDirective} {id : Identity}

theorem installs_of_step (step : JournalStep formats index reasoned store after)
    (installed : after.Installs id cur) :
    store.Installs id cur ∨ cur.directiveRevision = index := by
  obtain ⟨record, present, mem⟩ := installed
  rcases step.leads present with ⟨_, _, cmd, actor, rfl⟩ | ⟨old, found, stepped⟩
  · cases mem
  refine Or.imp_left (fun earlier => ⟨old, found, earlier⟩) ?_
  cases stepped with
  | keep | answer | prune => exact .inl mem
  | transition => exact (mem_installed mem).2
  | finish => cases mem
  | invalidate stale => exact .inl ((currentDirectives_invalidated old stale).mem mem)

theorem installs_of_steps (steps : JournalSteps formats index reasoned store after)
    (installed : after.Installs id cur) :
    store.Installs id cur ∨ cur.directiveRevision = index := by
  induction steps with
  | refl => exact .inl installed
  | tail _ step ih => exact (installs_of_step step installed).elim ih .inr

/-! ## Receipts -/

variable {receipt : TerminalReceipt}

theorem holds_of_archived (step : JournalStep formats index reasoned store after)
    {summary : OperationArchiveSummary}
    (present : after.archived.get receipt.key.operationId = some summary)
    (mem : receipt ∈ summary.terminalReceipts) : store.Holds receipt := by
  cases step with
  | submit | transition | finish | answer | invalidate => exact .inr ⟨summary, present, mem⟩
  | archive target found =>
    have written : (store.archived.set target _).get receipt.key.operationId = some summary :=
      present
    rw [get_set] at written
    split at written
    · next same =>
      cases written
      exact .inl ⟨_, same ▸ found, mem⟩
    · exact .inr ⟨summary, written, mem⟩
  | pruneArchive seq found =>
    rename_i target
    have kept : (store.archived.erase target).get receipt.key.operationId = some summary := present
    rw [get_erase] at kept
    split at kept
    · cases kept
    · exact .inr ⟨summary, kept, mem⟩
  | pruneReceipt key ended =>
    unfold pruneReceipt at present
    dsimp only at present
    split at present
    · exact .inr ⟨summary, present, mem⟩
    next known =>
    rw [get_set] at present
    split at present
    · next same =>
      cases present
      exact .inr ⟨_, same ▸ known, mem_of_mem_filter mem⟩
    · exact .inr ⟨summary, present, mem⟩

section

variable (sound : store.Sound index)

include sound

theorem Sound.holds_live {record : OperationRecord}
    (found : store.live.get receipt.key.operationId = some record) (held : store.Holds receipt) :
    receipt ∈ record.terminalReceipts := by
  rcases held with ⟨present, known, mem⟩ | ⟨summary, archived, _⟩
  · rw [found] at known
    cases known
    exact mem
  · rw [sound.disjoint _ (by rw [found]; rfl)] at archived
    cases archived

theorem Sound.holds_step (step : JournalStep formats index reasoned store after)
    (settled : store.Settled receipt.key) (held : after.Holds receipt) : store.Holds receipt := by
  rcases held with ⟨record, present, mem⟩ | ⟨summary, present, mem⟩
  · rcases step.leads present with ⟨_, _, cmd, actor, rfl⟩ | ⟨old, found, stepped⟩
    · cases mem
    cases stepped with
    | keep | transition | finish => exact .inl ⟨_, found, mem⟩
    | invalidate stale => exact .inl ⟨old, found, (invalidated_fields _ stale).2 ▸ mem⟩
    | prune key => exact .inl ⟨old, found, mem_of_mem_filter mem⟩
    | answer added revision running waits named unanswered =>
      rcases mem_append.mp mem with before | new
      · exact .inl ⟨old, found, before⟩
      obtain rfl := mem_singleton.mp new
      obtain ⟨other, same, answered⟩ := settled ⟨_, ⟨old, found, waits⟩, named⟩
      have known := sound.holds_live (same ▸ found) answered
      exact absurd same (unanswered other known)
  · exact holds_of_archived step present mem

theorem Sound.settled_step (step : JournalStep formats index reasoned store after)
    {key : TerminalReceiptKey} (earlier : key.directiveRevision < index)
    (settled : store.Settled key) : after.Settled key := by
  rintro ⟨current, installed, named⟩
  have revision : current.directiveRevision = key.directiveRevision := by
    simp only [CurrentDirective.named, Bool.and_eq_true, beq_iff_eq] at named
    exact named.2
  have waits : store.Installs key.operationId current := by
    refine (installs_of_step step installed).resolve_right fun new => ?_
    rw [← revision, new] at earlier
    exact UInt64.lt_irrefl _ earlier
  obtain ⟨receipt, rfl, held⟩ := settled ⟨current, waits, named⟩
  obtain ⟨old, found, mem⟩ := waits
  obtain ⟨record, present, _⟩ := installed
  have answered := sound.holds_live found held
  refine ⟨receipt, rfl, .inl ⟨record, present, ?_⟩⟩
  rcases step.leads present with ⟨unknown, _⟩ | ⟨old', found', stepped⟩
  · rw [found] at unknown
    cases unknown
  rw [found] at found'
  cases found'
  cases stepped with
  | keep | transition | finish => exact answered
  | answer => exact mem_append_left _ answered
  | invalidate stale => exact (invalidated_fields old stale).2 ▸ answered
  | prune key ended =>
    refine mem_filter.mpr ⟨answered, ?_⟩
    -- A receipt is dropped from an ended operation, which waits for nothing.
    by_contra same
    have terminal := ended (any_eq_true.mpr ⟨receipt, answered, by simpa using same⟩)
    rw [(sound.records _ _ found).ended terminal] at mem
    cases mem

theorem Sound.settled_steps (steps : JournalSteps formats index reasoned store after)
    {key : TerminalReceiptKey} (earlier : key.directiveRevision < index)
    (settled : store.Settled key) :
    after.Settled key ∧
      ∀ receipt, receipt.key = key → after.Holds receipt → store.Holds receipt := by
  induction steps with
  | refl => exact ⟨settled, fun _ _ held => held⟩
  | tail before step ih =>
    obtain ⟨between, kept⟩ := ih
    have soundBetween := JournalSteps.sound before sound
    refine ⟨soundBetween.settled_step step earlier between, ?_⟩
    rintro receipt rfl held
    exact kept receipt rfl (soundBetween.holds_step step between held)

theorem Sound.holds_unique {first second : TerminalReceipt} (here : store.Holds first)
    (there : store.Holds second) (same : first.key = second.key) : first = second := by
  rcases here with ⟨record, found, mem⟩ | ⟨summary, found, mem⟩
  · have again := sound.holds_live (same ▸ found) there
    exact inj_on_of_nodup_map (sound.records _ _ found).answered mem again same
  rcases there with ⟨record, live, _⟩ | ⟨_, again, other⟩
  · rw [sound.disjoint _ (by rw [same, live]; rfl)] at found
    cases found
  · rw [← same, found] at again
    cases again
    exact inj_on_of_nodup_map (sound.archives _ _ found).answered mem other same

end

end OperationStore

/-! ## Anchors -/

theorem invalidateStale_anchored {stores : Stores} {index : UInt64}
    (sound : stores.operation.Sound index) {id : Identity} {cur : CurrentDirective}
    (installed : stores.invalidateStaleCurrentDirectives.operation.Installs id cur) :
    (stores.validateDirectiveAnchor cur.spec).isOk = true := by
  obtain ⟨record, present, mem⟩ := installed
  simp only [Stores.invalidateStaleCurrentDirectives,
    OperationStore.get_invalidateCurrentDirectives] at present
  obtain ⟨old, found, rfl⟩ := Option.map_eq_some_iff.mp present
  have before := (currentDirectives_invalidated old _).mem mem
  have running : ¬ old.lifecycle.isTerminal = true := by
    intro terminal
    rw [(sound.records id old found).ended terminal] at before
    cases before
  by_contra stale
  -- The key of a stale directive is among those that are dropped.
  have dropped : stores.staleKeys.any (fun key => key.operationId == id && cur.named key) =
      true := by
    refine any_eq_true.mpr ⟨⟨id, cur.spec.directiveId, cur.spec.attemptId,
      cur.directiveRevision⟩, mem_flatMap.mpr ⟨old, ?_, mem_map.mpr ⟨cur, ?_, ?_⟩⟩,
      by simp [CurrentDirective.named]⟩
    · exact mem_map.mpr ⟨(id, old), mem_of_get found, rfl⟩
    · exact mem_filter.mpr ⟨before, by simpa using stale⟩
    · rw [sound.keyed.own id old found]
  unfold OperationStore.invalidated at mem
  split at mem
  · next kept =>
    have fresh := all_eq_true.mp (kept.resolve_left running) cur mem
    cases ((Bool.not_eq_true' _).mp fresh).symm.trans dropped
  · cases ((Bool.not_eq_true' _).mp (mem_filter.mp mem).2).symm.trans dropped

theorem metaSystem_anchored {env : Environment} {state : MetaState}
    (reached : (metaSystem env).Reachable state) {id : Identity} {cur : CurrentDirective}
    (installed : state.stores.operation.Installs id cur) :
    (state.stores.validateDirectiveAnchor cur.spec).isOk = true := by
  induction reached with
  | start began =>
    cases began
    obtain ⟨_, found, _⟩ := installed
    cases found
  | next earlier step ih =>
    obtain ⟨_, _, verdict, applied⟩ := step
    have sound := metaSystem_sound earlier
    obtain ⟨_, audit, _, same⟩ | ⟨_, _, decided, audit, dispatched, same⟩ :=
      applyCommitted_cases sound.keyed.distinct applied
    · rw [same] at installed ⊢
      exact ih installed
    · have steps := (dispatch_effect dispatched).journal sound.keyed
      rw [same] at installed ⊢
      exact invalidateStale_anchored (steps.sound (sound.mono (UInt64.le_of_lt ‹_›))) installed

/-! ## Histories -/

section Histories

variable {env : Environment} {before after : MetaState}
  {labels : List (UInt64 × CommittedCommand)}

theorem installs_of_run (run : (metaSystem env).Run before labels after)
    (reached : (metaSystem env).Reachable before) {id : Identity} {current : CurrentDirective}
    (earlier : current.directiveRevision ≤ before.lastIndex)
    (installed : after.stores.operation.Installs id current) :
    before.stores.operation.Installs id current := by
  induction run with
  | nil => exact installed
  | cons step _ ih =>
    have steps := metaSystem_journal step reached
    have later := step.1
    have last := step.2.1
    have between := ih (.next reached step)
      (UInt64.le_trans earlier (last ▸ UInt64.le_of_lt later)) installed
    refine (OperationStore.installs_of_steps steps between).resolve_right fun new => ?_
    rw [new] at earlier
    exact absurd later (UInt64.not_lt.mpr earlier)

theorem settled_of_run (run : (metaSystem env).Run before labels after)
    (reached : (metaSystem env).Reachable before) {key : TerminalReceiptKey}
    (earlier : key.directiveRevision ≤ before.lastIndex)
    (settled : before.stores.operation.Settled key) :
    after.stores.operation.Settled key ∧ key.directiveRevision ≤ after.lastIndex := by
  induction run with
  | nil => exact ⟨settled, earlier⟩
  | cons step _ ih =>
    have steps := metaSystem_journal step reached
    have later := step.1
    have last := step.2.1
    have before := UInt64.lt_of_le_of_lt earlier later
    have sound := (metaSystem_sound reached).mono (UInt64.le_of_lt later)
    exact ih (.next reached step) (last ▸ UInt64.le_of_lt before)
      (sound.settled_steps steps before settled).1

theorem OperationStore.Sound.revision_le {store : OperationStore} {index : UInt64}
    (sound : store.Sound index) {receipt : TerminalReceipt} (held : store.Holds receipt) :
    receipt.key.directiveRevision ≤ index := by
  rcases held with ⟨record, found, mem⟩ | ⟨summary, found, mem⟩
  · exact (sound.records _ _ found).receipts receipt mem
  · exact (sound.archives _ _ found).receipts receipt mem

theorem OperationStore.Sound.nodup_targets {store : OperationStore} {index : UInt64}
    (sound : store.Sound index) : (store.liveOperations.flatMap OperationRecord.targets).Nodup := by
  rw [nodup_flatMap]
  constructor
  · intro record mem
    exact (sound.records _ _ (sound.keyed.get_of_mem mem)).apart
  · rw [liveOperations, pairwise_map]
    have pairs : store.live.Pairwise fun first second => first.1 ≠ second.1 :=
      pairwise_map.mp sound.keyed.distinct
    refine pairs.imp_of_mem ?_
    intro first second firstListed secondListed differ
    exact sound.apart _ _ _ _ (get_of_mem sound.keyed.distinct firstListed)
      (get_of_mem sound.keyed.distinct secondListed) differ

end Histories

/-- **Directives are safe.** In every reachable state: every directive installed in a live operation
is anchored in the committed group, term, assignments, manifest and partition epoch; no two
directives of live operations mutate the storage of one assignment; whatever is committed later, an
operation never gives a directive id and revision to another specification; and the key of a receipt
has no other receipt, nor is a receipt committed for it again. -/
theorem directives_are_safe (env : Environment) {state : MetaState}
    (reached : (metaSystem env).Reachable state) :
    (∀ id current, state.stores.operation.Installs id current →
      ∃ group, state.stores.Anchored current.spec group) ∧
    (state.stores.operation.liveOperations.flatMap OperationRecord.targets).Nodup ∧
    (∀ labels after id first second, (metaSystem env).Run state labels after →
      state.stores.operation.Installs id first → after.stores.operation.Installs id second →
      first.spec.directiveId = second.spec.directiveId →
      first.directiveRevision = second.directiveRevision → first.spec = second.spec) ∧
    (∀ first second, state.stores.operation.Holds first → state.stores.operation.Holds second →
      first.key = second.key → first = second) ∧
    (∀ receipt labels again label after other, state.stores.operation.Holds receipt →
      (metaSystem env).Run state labels again → (metaSystem env).step again label after →
      other.key = receipt.key → after.stores.operation.Holds other →
      again.stores.operation.Holds other) := by
  have sound := metaSystem_sound reached
  refine ⟨?_, sound.nodup_targets, ?_, ?_, ?_⟩
  · intro id current installed
    have valid := metaSystem_anchored reached installed
    cases checked : state.stores.validateDirectiveAnchor current.spec with
    | error text =>
      rw [checked] at valid
      cases valid
    | ok done => exact anchored_of_validated checked
  · intro labels after id first second run here there sameId sameRevision
    obtain ⟨record, found, listed⟩ := here
    have issued := (sound.records id record found).issued first listed
    have earlier := installs_of_run run reached (sameRevision ▸ issued) there
    obtain ⟨_, again, installed⟩ := earlier
    rw [found] at again
    cases again
    rw [inj_on_of_nodup_map (sound.records id record found).named listed installed sameId]
  · intro first second here there same
    exact sound.holds_unique here there same
  · intro receipt labels again label after other held run stepped same committed
    have issued := sound.revision_le held
    obtain ⟨settled, earlier⟩ := settled_of_run run reached issued fun _ => ⟨receipt, rfl, held⟩
    have reachedAgain := run.reachable reached
    have later := stepped.1
    have steps := metaSystem_journal stepped reachedAgain
    have soundAgain := (metaSystem_sound reachedAgain).mono (UInt64.le_of_lt later)
    exact (soundAgain.settled_steps steps (UInt64.lt_of_le_of_lt earlier later) settled).2 other
      same committed

def canonicalNode : String := String.ofList (replicate nodeIdBytes 'a')

def firstBoot : Incarnation := ⟨replicate 20 1, rfl⟩

def startEmpty : DirectiveSpec where
  directiveId := repeated 4
  attemptId := repeated 5
  recipientNodeId := canonicalNode
  targetNodeId := canonicalNode
  targetBootId := firstBoot
  assignmentId := repeated 2
  sourceNodeId := String.ofList (replicate nodeIdBytes '0')
  sourceAssignmentId := zeroes 16
  sourceBootId := zeroes 20
  sourceReplicationHistoryId := zeroes 20
  groupId := "g"
  groupTerm := 1
  populationManifestRevision := 0
  populationManifestDigest := zeroes 32
  partitionReplicationEpoch := 0
  kind := directiveInitializeEmptyPopulation
  payload := (hexBytes firstBoot.toList).toUTF8.toList

def answeredDirective : List (UInt64 × CommittedCommand) :=
  [(1, unattributed (.registerNode ⟨canonicalNode, "p", ["e"], .primary⟩)),
    (2, unattributed (.createGroup ⟨"g", 1⟩)),
    (3, unattributed (.assignNodeToGroup ⟨"g", canonicalNode, repeated 2, .primary, 1, 2⟩)),
    (4, unattributed (.putPolicy ⟨authorityLeasePolicyId, 1, [1]⟩)),
    (5, unattributed (.beginGroupTerm ⟨"g", 0, 1⟩)),
    (6, unattributed (.activateAuthority ⟨"g", 1, canonicalNode, 3⟩)),
    (7, unattributed (.submitOperation ⟨repeated 3, "populate", [], zeroes 32, firstBoot⟩)),
    (8, unattributed (.transitionOperationPhase ⟨repeated 3, 0, [], [startEmpty]⟩)),
    (9, unattributed (.commitDirectiveResult ⟨⟨repeated 3, repeated 4, repeated 5, 8⟩,
      canonicalNode, firstBoot, repeated 2, .succeeded, ""⟩))]

/-- The answered directive is anchored and has one receipt. -/
theorem answered_directive_is_safe :
    ∃ state current receipt, (metaSystem permissive).Run {} answeredDirective state ∧
      state.stores.operation.Installs (repeated 3) current ∧ state.stores.operation.Holds receipt ∧
      (∃ group, state.stores.Anchored current.spec group) ∧
      ∀ other, state.stores.operation.Holds other → other.key = receipt.key → other = receipt := by
  have outcome : (applyLog permissive {} answeredDirective).any (fun state =>
      (state.stores.operation.live.get (repeated 3)).any fun record =>
        !record.currentDirectives.isEmpty &&
          record.terminalReceipts.any fun receipt => receipt.key.operationId == repeated 3) =
      true := by decide +kernel
  obtain ⟨state, applied, holds⟩ := (Option.any_eq_true _ _).mp outcome
  obtain ⟨record, found, filled⟩ := (Option.any_eq_true _ _).mp holds
  simp only [Bool.and_eq_true, Bool.not_eq_true', isEmpty_eq_false_iff_exists_mem,
    any_eq_true, beq_iff_eq] at filled
  obtain ⟨⟨current, listed⟩, receipt, answered, own⟩ := filled
  have run := applyLog_run applied
  have installed : state.stores.operation.Installs (repeated 3) current := ⟨record, found, listed⟩
  have held : state.stores.operation.Holds receipt := .inl ⟨record, own ▸ found, answered⟩
  have safe := directives_are_safe permissive (run.reachable (.start rfl))
  exact ⟨state, current, receipt, run, installed, held, safe.1 _ _ installed,
    fun other also same => safe.2.2.2.1 other receipt also held same⟩

end Lavik.Meta
