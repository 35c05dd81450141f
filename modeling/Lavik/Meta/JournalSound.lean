import Lavik.Meta.Rollback
/-!
# A sound journal

Each fact about one record is kept by whatever a step does to that record; the facts between
records are kept by the step.
-/

namespace Lavik.Meta

open Base List OperationStore AssocMap CurrentDirective OperationRecord

namespace OperationRecord

def targets (record : OperationRecord) : List (String × Identity) :=
  mutatingTargets (record.currentDirectives.map spec)

structure Sound (record : OperationRecord) (index : UInt64) : Prop where
  ended : record.lifecycle.isTerminal = true → record.currentDirectives = []
  named : (record.currentDirectives.map fun current => current.spec.directiveId).Nodup
  issued : ∀ current ∈ record.currentDirectives, current.directiveRevision ≤ index
  apart : record.targets.Nodup
  answered : (record.terminalReceipts.map TerminalReceipt.key).Nodup
  receipts : ∀ receipt ∈ record.terminalReceipts, receipt.key.directiveRevision ≤ index

theorem Sound.mono {record : OperationRecord} {index later : UInt64} (sound : record.Sound index)
    (ordered : index ≤ later) : record.Sound later :=
  { sound with
    issued := fun cur mem => UInt64.le_trans (sound.issued cur mem) ordered
    receipts := fun receipt mem => UInt64.le_trans (sound.receipts receipt mem) ordered }

end OperationRecord

theorem checkEach_returns {rebuildRequestOk : Blob → Bool} {before directives : List DirectiveSpec}
    {done : Unit} (ok : checkEach rebuildRequestOk before directives = .ok done) :
    ((directives.map DirectiveSpec.directiveId).Nodup ∧
      ∀ desired ∈ directives, ∀ earlier ∈ before, earlier.directiveId ≠ desired.directiveId) ∧
    (mutatingTargets directives).Nodup ∧ ∀ target ∈ mutatingTargets directives,
        target ∉ mutatingTargets before := by
  induction directives generalizing before with
  | nil => simp [mutatingTargets]
  | cons directive rest ih =>
    simp only [checkEach, require_bind, Bool.and_eq_true, all_eq_true,
      bne_iff_ne, Bool.or_eq_true, Bool.not_eq_true', decide_eq_true_eq] at ok
    obtain ⟨⟨_, fresh⟩, single, others⟩ := ok
    obtain ⟨⟨nodup, later⟩, disjoint, unmutated⟩ := ih others
    refine ⟨⟨?_, ?_⟩, ?_⟩
    · rw [map_cons, nodup_cons]
      refine ⟨?_, nodup⟩
      intro mem
      obtain ⟨other, present, same⟩ := mem_map.mp mem
      exact later other present directive mem_cons_self same.symm
    · intro desired mem earlier known
      rcases mem_cons.mp mem with rfl | deeper
      · exact (fresh earlier known).1
      · exact later desired deeper earlier (mem_cons_of_mem _ known)
    · -- Only a population directive adds a target, and then it is checked to be a new one.
      by_cases mutates : directive.isPopulation = true
      · have here : (directive.targetNodeId, directive.assignmentId) ∉ mutatingTargets before :=
          single.resolve_left (by simp [mutates])
        have split (list : List DirectiveSpec) :
          mutatingTargets (directive :: list) = (directive.targetNodeId, directive.assignmentId) ::
              mutatingTargets list := by
          simp [mutatingTargets, mutates]
        rw [split] at unmutated ⊢
        simp only [mem_cons, not_or] at unmutated
        refine ⟨nodup_cons.mpr ⟨fun mem => (unmutated _ mem).1 rfl, disjoint⟩, ?_⟩
        intro target mem
        rcases mem_cons.mp mem with rfl | deeper
        · exact here
        · exact (unmutated target deeper).2
      · have split (list : List DirectiveSpec) :
          mutatingTargets (directive :: list) = mutatingTargets list := by
          simp [mutatingTargets, mutates]
        rw [split] at unmutated ⊢
        exact ⟨disjoint, unmutated⟩

inductive RecordStep (index : UInt64) : OperationRecord → OperationRecord → Prop
  | keep (record : OperationRecord) : RecordStep index record record
  | transition {record : OperationRecord} {rebuildRequestOk : Blob → Bool} (kindPhaseBlob : Blob)
      (directives : List DirectiveSpec) (revision : UInt64)
      (running : record.lifecycle.isTerminal = false)
      (checked : checkEach rebuildRequestOk [] directives = .ok ()) :
      RecordStep index record { record with
        lifecycle := .running
        kindPhaseBlob
        currentDirectives := installed record directives index
        revision }
  | finish {record : OperationRecord} (lifecycle : OperationLifecycle) (result : String)
      (loss : Bool) (revision : UInt64) (running : record.lifecycle.isTerminal = false) :
      RecordStep index record (terminated record lifecycle result loss revision)
  | answer {record : OperationRecord} {current : CurrentDirective} (receipt : TerminalReceipt)
      (revision : UInt64) (running : record.lifecycle.isTerminal = false)
      (tracked : current ∈ record.currentDirectives) (named : current.named receipt.key = true)
      (unanswered : ∀ held ∈ record.terminalReceipts, held.key ≠ receipt.key) :
      RecordStep index record { record with
        terminalReceipts := record.terminalReceipts ++ [receipt]
        revision }
  | invalidate (record : OperationRecord) (stale : CurrentDirective → Bool) :
      RecordStep index record (invalidated record stale)
  | prune {record : OperationRecord} (key : TerminalReceiptKey)
      (ended : record.terminalReceipts.any (·.key = key) = true →
        record.lifecycle.isTerminal = true) :
      RecordStep index record
        { record with terminalReceipts := record.terminalReceipts.filter (·.key ≠ key) }

variable {index : UInt64} {record : OperationRecord} {formats : Formats} {reasoned : Bool}

theorem mem_installed {directives : List DirectiveSpec} {cur : CurrentDirective}
    (mem : cur ∈ installed record directives index) :
    cur.spec ∈ directives ∧ (cur ∈ record.currentDirectives ∨ cur.directiveRevision = index) := by
  obtain ⟨desired, wanted, rfl⟩ := mem_map.mp mem
  cases found : record.currentDirectives.find? (·.spec.directiveId = desired.directiveId) with
  | none => simpa using wanted
  | some old =>
    simp only
    by_cases same : old.spec = desired
    · rw [if_pos same]
      subst same
      exact ⟨wanted, .inl (mem_of_find?_eq_some found)⟩
    · rw [if_neg same]
      exact ⟨wanted, .inr rfl⟩

theorem map_spec_installed (record : OperationRecord) (directives : List DirectiveSpec)
    (index : UInt64) : (installed record directives index).map spec = directives := by
  rw [installed, map_map]
  conv_rhs => rw [← map_id directives]
  apply map_congr_left
  intro desired _
  simp only [Function.comp_apply, id_eq]
  split <;> rfl

theorem currentDirectives_invalidated (record : OperationRecord) (stale : CurrentDirective → Bool) :
    (invalidated record stale).currentDirectives.Sublist record.currentDirectives := by
  unfold invalidated
  split
  · exact List.Sublist.refl _
  · exact filter_sublist

theorem invalidated_fields (record : OperationRecord) (stale : CurrentDirective → Bool) :
    (invalidated record stale).lifecycle = record.lifecycle ∧
      (invalidated record stale).terminalReceipts = record.terminalReceipts := by
  unfold invalidated
  split <;> exact ⟨rfl, rfl⟩

namespace OperationRecord

variable {after : OperationRecord}

theorem targets_sublist (fewer : after.currentDirectives.Sublist record.currentDirectives) :
    after.targets.Sublist record.targets :=
  ((fewer.map _).filter _).map _

theorem Sound.step (sound : record.Sound index) (step : RecordStep index record after) :
    after.Sound index := by
  cases step with
  | keep => exact sound
  | transition blob directives revision running ok =>
    obtain ⟨⟨nodup, _⟩, disjoint, _⟩ := checkEach_returns ok
    have specs := map_spec_installed record directives index
    exact { sound with
      ended := nofun
      named := by
        rw [← specs, map_map] at nodup
        exact nodup
      issued := fun cur mem => by
        rcases (mem_installed mem).2 with kept | fresh
        · exact sound.issued cur kept
        · exact fresh ▸ UInt64.le_refl _
      apart := by
        rw [← specs] at disjoint
        exact disjoint }
  | finish lifecycle result loss revision running =>
    exact { sound with
      ended := fun _ => rfl
      named := nodup_nil
      issued := nofun
      apart := nodup_nil }
  | answer receipt revision running inv named unanswered =>
    have issued := sound.issued _ inv
    simp only [CurrentDirective.named, Bool.and_eq_true, beq_iff_eq] at named
    exact { sound with
      answered := by
        rw [map_append]
        refine nodup_append.mpr ⟨sound.answered, nodup_singleton _, ?_⟩
        intro key mem other last
        obtain ⟨held, present, rfl⟩ := mem_map.mp mem
        obtain rfl := mem_singleton.mp last
        exact unanswered held present
      receipts := forall_mem_append.mpr
        ⟨sound.receipts, forall_mem_singleton.mpr (named.2 ▸ issued)⟩ }
  | invalidate stale =>
    have fewer := currentDirectives_invalidated record stale
    obtain ⟨lifecycle, receipts⟩ := invalidated_fields record stale
    exact {
      ended := fun terminal => by
        rw [lifecycle] at terminal
        have none := sound.ended terminal
        rw [none] at fewer
        exact sublist_nil.mp fewer
      named := sound.named.sublist (fewer.map _)
      issued := fun cur mem => sound.issued cur (fewer.mem mem)
      apart := sound.apart.sublist (targets_sublist fewer)
      answered := receipts ▸ sound.answered
      receipts := receipts ▸ sound.receipts }
  | prune key =>
    exact { sound with
      answered := sound.answered.sublist (filter_sublist.map _)
      receipts := fun held mem => sound.receipts held (mem_of_mem_filter mem) }

end OperationRecord

/-! ## The journal -/

structure OperationArchiveSummary.Sound (summary : OperationArchiveSummary) (index : UInt64) :
    Prop where
  answered : (summary.terminalReceipts.map TerminalReceipt.key).Nodup
  receipts : ∀ receipt ∈ summary.terminalReceipts, receipt.key.directiveRevision ≤ index

structure OperationStore.Sound (store : OperationStore) (index : UInt64) : Prop where
  keyed : store.Keyed
  records : ∀ id record, store.live.get id = some record → record.Sound index
  archives : ∀ id summary, store.archived.get id = some summary → summary.Sound index
  disjoint : ∀ id, (store.live.get id).isSome = true → store.archived.get id = none
  apart : ∀ first second record other, store.live.get first = some record →
    store.live.get second = some other → first ≠ second → record.targets.Disjoint other.targets

/-- Where a live record after a step comes from: the step submitted it, or a step of the record led
to it. -/
def OperationStore.Leads (store : OperationStore) (index : UInt64) (id : Identity)
    (record : OperationRecord) : Prop :=
  (store.live.get id = none ∧ store.archived.get id = none ∧
      ∃ cmd actor, record = submitted cmd actor index) ∨
    ∃ old, store.live.get id = some old ∧ RecordStep index old record

theorem JournalStep.leads {store after : OperationStore}
    (step : JournalStep formats index reasoned store after) {id : Identity}
    (present : after.live.get id = some record) : store.Leads index id record := by
  -- A step that writes one record leaves the others.
  have written {target : Identity} {next : OperationRecord}
      (live : after.live = store.live.set target next)
      (here : id = target → record = next → store.Leads index id record) :
      store.Leads index id record := by
    rw [live, get_set] at present
    split at present
    · next same => exact here same (Option.some.inj present).symm
    · exact .inr ⟨record, present, .keep record⟩
  cases step with
  | submit cmd actor unknown unarchived =>
    refine written rfl ?_
    rintro rfl rfl
    exact .inl ⟨unknown, unarchived, cmd, actor, rfl⟩
  | transition cmd found running generic ok =>
    refine written rfl ?_
    rintro rfl rfl
    simp only [checkDirectives, bind_returns] at ok
    obtain ⟨_, each, _⟩ := ok
    exact .inr ⟨_, found, .transition _ _ _ running each⟩
  | finish target lifecycle result loss found running =>
    refine written rfl ?_
    rintro rfl rfl
    exact .inr ⟨_, found, .finish _ _ _ _ running⟩
  | answer receipt unanswered found running inv named =>
    refine written rfl ?_
    rintro rfl rfl
    refine .inr ⟨_, found, .answer receipt _ running inv named ?_⟩
    intro held mem same
    simp only [findTerminalReceipt, found, Option.bind_some, Option.orElse_eq_none,
      find?_eq_none] at unanswered
    exact absurd same (by simpa using unanswered.1 held mem)
  | invalidate keys =>
    rw [get_invalidateCurrentDirectives] at present
    obtain ⟨old, found, rfl⟩ := Option.map_eq_some_iff.mp present
    exact .inr ⟨old, found, .invalidate old _⟩
  | archive target found terminal =>
    have apart : id ≠ target := by
      rintro rfl
      simp [archiveOne] at present
    exact .inr ⟨record, (get_erase_of_ne _ apart).symm.trans present, .keep record⟩
  | pruneArchive seq found => exact .inr ⟨record, present, .keep record⟩
  | pruneReceipt key ended =>
    rw [JournalSteps.get_pruneReceipt] at present
    obtain ⟨old, found, rfl⟩ := Option.map_eq_some_iff.mp present
    split
    · next same => exact .inr ⟨old, found, .prune key (ended old (same ▸ found))⟩
    · exact .inr ⟨old, found, .keep old⟩

namespace OperationStore.Sound

variable {store after : OperationStore}

theorem mono {later : UInt64} (sound : store.Sound index) (ordered : index ≤ later) :
    store.Sound later :=
  { sound with
    records := fun id record found => (sound.records id record found).mono ordered
    archives := fun id summary found =>
      ⟨(sound.archives id summary found).answered, fun receipt mem =>
        UInt64.le_trans ((sound.archives id summary found).receipts receipt mem) ordered⟩ }

theorem submitted_sound (cmd : SubmitOperation) (actor : ActorContext) (index : UInt64) :
    (submitted cmd actor index).Sound index where
  ended := nofun
  named := nodup_nil
  issued := nofun
  apart := nodup_nil
  answered := nodup_nil
  receipts := nofun

variable {id second first : Identity} {record other : OperationRecord}

section

variable (sound : store.Sound index)

include sound

section

variable (step : JournalStep formats index reasoned store after)

include step

theorem records_step (present : after.live.get id = some record) : record.Sound index := by
  rcases step.leads present with ⟨_, _, cmd, actor, rfl⟩ | ⟨old, found, stepped⟩
  · exact submitted_sound cmd actor index
  · exact (sound.records id old found).step stepped

theorem archives_step {summary : OperationArchiveSummary}
    (present : after.archived.get id = some summary) : summary.Sound index := by
  cases step with
  | submit | transition | finish | answer | invalidate => exact sound.archives id summary present
  | archive target found terminal =>
    have written : (store.archived.set target _).get id = some summary := present
    rw [get_set] at written
    split at written
    · cases written
      have record := sound.records _ _ found
      exact ⟨record.answered, record.receipts⟩
    · exact sound.archives id summary written
  | pruneArchive seq found =>
    rename_i target
    have apart : id ≠ target := by
      rintro rfl
      simp at present
    exact sound.archives id summary ((get_erase_of_ne _ apart).symm.trans present)
  | pruneReceipt key ended =>
    unfold pruneReceipt at present
    dsimp only at present
    split at present
    · exact sound.archives id summary present
    next known =>
    rw [get_set] at present
    split at present
    · cases present
      have old := sound.archives _ _ known
      exact ⟨old.answered.sublist (filter_sublist.map _),
        fun held mem => old.receipts held (mem_of_mem_filter mem)⟩
    · exact sound.archives id summary present

theorem disjoint_step (live : (after.live.get id).isSome = true) :
    after.archived.get id = none := by
  obtain ⟨record, present⟩ := Option.isSome_iff_exists.mp live
  have unarchived : store.archived.get id = none := by
    rcases step.leads present with ⟨_, absent, _⟩ | ⟨old, found, _⟩
    · exact absent
    · exact sound.disjoint id (by rw [found]; rfl)
  cases step with
  | submit | transition | finish | answer | invalidate => exact unarchived
  | archive target =>
    have apart : id ≠ target := by
      rintro rfl
      simp [archiveOne] at present
    exact (get_set_of_ne _ _ apart).trans unarchived
  | pruneArchive seq found =>
    rename_i target
    have absent : (store.archived.erase target).get id = none := by
      rw [get_erase, unarchived, ite_self]
    exact absent
  | pruneReceipt key =>
    unfold pruneReceipt
    dsimp only
    split
    · exact unarchived
    next known =>
    have apart : id ≠ key.operationId := by
      rintro rfl
      rw [known] at unarchived
      cases unarchived
    rw [get_set_of_ne _ _ apart]
    exact unarchived

end

end

/-- Every record of a journal mutates only targets that its predecessor mutated. -/
def Shrinks (store after : OperationStore) : Prop :=
  ∀ id record, after.live.get id = some record →
    record.targets = [] ∨ ∃ old, store.live.get id = some old ∧ record.targets ⊆ old.targets

theorem shrinks_of_set {next : OperationRecord} (live : after.live = store.live.set id next)
    (fewer : next.targets = [] ∨ ∃ old, store.live.get id = some old ∧ next.targets ⊆ old.targets) :
    Shrinks store after := by
  intro other record present
  rw [live, get_set] at present
  split at present
  · next same =>
    cases present
    rw [same]
    exact fewer
  · exact .inr ⟨record, present, List.Subset.refl _⟩

section

variable (sound : store.Sound index)

include sound

theorem apart_of_shrinks (shrinks : Shrinks store after)
    (here : after.live.get first = some record) (there : after.live.get second = some other)
    (differ : first ≠ second) : record.targets.Disjoint other.targets := by
  rcases shrinks first record here with none | ⟨old, found, fewer⟩
  · rw [none]
    exact disjoint_nil_left _
  rcases shrinks second other there with none | ⟨known, mem, less⟩
  · rw [none]
    exact disjoint_nil_right _
  · exact disjoint_of_subset_left fewer
      (disjoint_of_subset_right less (sound.apart _ _ _ _ found mem differ))

theorem disjoint_of_checked {cmd : TransitionOperationPhase} {rebuildRequestOk : Blob → Bool}
    {done : Unit} (ok : store.checkDirectives rebuildRequestOk cmd = .ok done)
    (found : store.live.get id = some other) (differ : id ≠ cmd.operationId) :
    (mutatingTargets cmd.currentDirectives).Disjoint other.targets := by
  simp only [checkDirectives, bind_returns, require_returns, all_eq_true, Bool.or_eq_true,
    beq_iff_eq, decide_eq_true_eq] at ok
  obtain ⟨_, _, conflicts⟩ := ok
  rcases conflicts (id, other) (mem_of_get found) with (same | ended) | apart
  · exact absurd same differ
  · rw [targets, (sound.records id other found).ended ended]
    exact disjoint_nil_right _
  · intro target wanted mutated
    exact apart target mutated wanted

theorem apart_step (step : JournalStep formats index reasoned store after)
    (here : after.live.get first = some record) (there : after.live.get second = some other)
    (differ : first ≠ second) : record.targets.Disjoint other.targets := by
  cases step with
  | transition cmd found running generic ok =>
    rename_i old
    have specs : (mutatingTargets ((installed old cmd.currentDirectives
        index).map spec)) = mutatingTargets cmd.currentDirectives := by
      rw [map_spec_installed]
    have firstWritten : (store.live.set cmd.operationId _).get first = some record := here
    have secondWritten : (store.live.set cmd.operationId _).get second = some other := there
    rw [get_set] at firstWritten secondWritten
    split at firstWritten
    · next same =>
      rw [if_neg (same ▸ differ.symm)] at secondWritten
      cases firstWritten
      rw [targets, specs]
      exact sound.disjoint_of_checked ok secondWritten (same ▸ differ.symm)
    · split at secondWritten
      · next apart same =>
        cases secondWritten
        rw [disjoint_comm]
        simp only [targets, specs]
        exact sound.disjoint_of_checked ok firstWritten apart
      · exact sound.apart _ _ _ _ firstWritten secondWritten differ
  | submit | finish =>
    exact sound.apart_of_shrinks (shrinks_of_set rfl (.inl rfl)) here there differ
  | answer receipt unanswered found =>
    refine sound.apart_of_shrinks (shrinks_of_set rfl ?_) here there differ
    exact .inr ⟨_, found, List.Subset.refl _⟩
  | invalidate keys =>
    refine sound.apart_of_shrinks ?_ here there differ
    intro id next present
    rw [get_invalidateCurrentDirectives] at present
    obtain ⟨old, found, rfl⟩ := Option.map_eq_some_iff.mp present
    exact .inr ⟨old, found, (targets_sublist (currentDirectives_invalidated old _)).subset⟩
  | archive target =>
    refine sound.apart_of_shrinks ?_ here there differ
    intro id next present
    have kept : (store.live.erase target).get id = some next := present
    rw [get_erase] at kept
    split at kept
    · cases kept
    · exact .inr ⟨next, kept, List.Subset.refl _⟩
  | pruneArchive => exact sound.apart _ _ _ _ here there differ
  | pruneReceipt key =>
    refine sound.apart_of_shrinks ?_ here there differ
    intro id next present
    rw [JournalSteps.get_pruneReceipt] at present
    obtain ⟨old, found, rfl⟩ := Option.map_eq_some_iff.mp present
    refine .inr ⟨old, found, ?_⟩
    split <;> exact List.Subset.refl _

theorem step (step : JournalStep formats index reasoned store after) : after.Sound index where
  keyed := sound.keyed.step step
  records _ _ present := sound.records_step step present
  archives _ _ present := sound.archives_step step present
  disjoint _ live := sound.disjoint_step step live
  apart _ _ _ _ here there differ := sound.apart_step step here there differ

end

end OperationStore.Sound

theorem JournalSteps.sound {store after : OperationStore}
    (steps : JournalSteps formats index reasoned store after) (sound : store.Sound index) :
    after.Sound index := by
  induction steps with
  | refl => exact sound
  | tail _ step ih => exact ih.step step

theorem metaSystem_sound {env : Environment} {state : MetaState}
    (reached : (metaSystem env).Reachable state) :
    state.stores.operation.Sound state.lastIndex := by
  apply reached.invariant
  · rintro _ rfl
    exact ⟨⟨nodup_nil, nofun, nofun⟩, nofun, nofun, nofun, nofun⟩
  · intro before label after _ sound step
    have steps := (metaSystem_effect step sound.keyed).journal sound.keyed
    obtain ⟨later, last, _⟩ := step
    rw [last]
    exact steps.sound (sound.mono (UInt64.le_of_lt later))

end Lavik.Meta
