import Lavik.Meta.Accepted
/-!
# Steps of the journal

Whatever an accepted command does to the journal is a sequence of eight kinds of step. Facts about
the journal alone are proved once for each kind.
-/

namespace Lavik.Meta

open Base List OperationStore AssocMap

def Command.reasoned : Command → Bool
  | .abortControlledFailover cmd => cmd.reason != ""
  | .degradeControlledFailover cmd => cmd.reason != ""
  | _ => true

def SubmitOperation.canonical (formats : Formats) (cmd : SubmitOperation) : Prop :=
  (formats.decodeFailoverOperationIntent cmd.intent).isSome ∧
    cmd.intentHash = formats.sha256 cmd.intent ∧
    isZero cmd.replicationHistoryId = true

/-- How a failover request may end: completed with its result, or aborted with a reason. -/
def OperationRecord.endsTyped (record : OperationRecord) (formats : Formats) (reasoned : Bool)
    (lifecycle : OperationLifecycle) (result : String) (loss : Bool) : Prop :=
  record.pristineFailover formats = true ∧ loss = false ∧
    ((lifecycle = .completed ∧ result = failoverCompletedResult) ∨
      (lifecycle = .aborted ∧ (reasoned = true → result ≠ "")))

inductive JournalStep (formats : Formats) (index : UInt64) (reasoned : Bool) :
    OperationStore → OperationStore → Prop
  | submit {store : OperationStore} (cmd : SubmitOperation) (actor : ActorContext)
      (unknown : store.live.get cmd.operationId = none)
      (unarchived : store.archived.get cmd.operationId = none)
      (fresh : store.liveBySeq.get index = none)
      (freshArchive : store.archivedBySeq.get index = none)
      (canonical : cmd.kind = failoverOperationKind → cmd.canonical formats) :
      JournalStep formats index reasoned store
        { store.setLive cmd.operationId (submitted cmd actor index) with
          liveBySeq := store.liveBySeq.set index cmd.operationId
          activeCount := store.activeCount + 1 }
  | transition {store : OperationStore} {record : OperationRecord} (cmd : TransitionOperationPhase)
      (found : store.live.get cmd.operationId = some record)
      (running : record.lifecycle.isTerminal = false)
      (generic : record.kind ≠ failoverOperationKind)
      (checked : store.checkDirectives formats.rebuildRequestOk cmd = .ok ()) :
      JournalStep formats index reasoned store (store.setLive cmd.operationId { record with
        lifecycle := .running
        kindPhaseBlob := cmd.kindPhaseBlob
        currentDirectives := installed record cmd.currentDirectives index
        revision := record.revision + 1 })
  | finish {store : OperationStore} {record : OperationRecord} (id : Identity)
      (lifecycle : OperationLifecycle) (result : String) (loss : Bool)
      (found : store.live.get id = some record) (running : record.lifecycle.isTerminal = false)
      (terminal : lifecycle.isTerminal = true)
      (typed : record.kind = failoverOperationKind →
        record.endsTyped formats reasoned lifecycle result loss) :
      JournalStep formats index reasoned store
        { store.setLive id
            (terminated record lifecycle result loss (record.revision + 1)) with
          activeCount := store.activeCount - 1 }
  | answer {store : OperationStore} {record : OperationRecord} {current : CurrentDirective}
      (receipt : TerminalReceipt) (unanswered : store.findTerminalReceipt receipt.key = none)
      (found : store.live.get receipt.key.operationId = some record)
      (running : record.lifecycle.isTerminal = false)
      (tracked : current ∈ record.currentDirectives) (named : current.named receipt.key = true) :
      JournalStep formats index reasoned store (store.setLive receipt.key.operationId { record with
        terminalReceipts := record.terminalReceipts ++ [receipt]
        revision := record.revision + 1 })
  | invalidate (store : OperationStore) (keys : List TerminalReceiptKey) :
      JournalStep formats index reasoned store (store.invalidateCurrentDirectives keys)
  | archive {store : OperationStore} {record : OperationRecord} (id : Identity)
      (found : store.live.get id = some record)
      (terminal : record.lifecycle.isTerminal = true) :
      JournalStep formats index reasoned store (store.archiveOne (id, record))
  | pruneArchive {store : OperationStore} {id : Identity} (seq : UInt64)
      (found : store.archivedBySeq.get seq = some id) :
      JournalStep formats index reasoned store { store with
        archived := store.archived.erase id
        archivedBySeq := store.archivedBySeq.erase seq }
  | pruneReceipt {store : OperationStore} (key : TerminalReceiptKey)
      (ended : ∀ record, store.live.get key.operationId = some record →
        record.terminalReceipts.any (·.key = key) = true → record.lifecycle.isTerminal = true) :
      JournalStep formats index reasoned store (store.pruneReceipt key)

/-- Live records are stored under their own ids, once each, and listed by their sequence numbers. -/
structure OperationStore.Keyed (store : OperationStore) : Prop where
  distinct : store.live.keys.Nodup
  own : ∀ id record, store.live.get id = some record → record.operationId = id
  bySeq : ∀ seq id, store.liveBySeq.get seq = some id →
    ∃ record, store.live.get id = some record ∧ record.operationSeq = seq

theorem OperationStore.Keyed.get_of_mem {store : OperationStore} (keyed : store.Keyed)
    {record : OperationRecord} (mem : record ∈ store.liveOperations) :
    store.live.get record.operationId = some record := by
  obtain ⟨⟨id, present⟩, entry, same⟩ := mem_map.mp mem
  have same : present = record := same
  subst same
  have found := AssocMap.get_of_mem keyed.distinct entry
  rw [keyed.own id present found]
  exact found

abbrev JournalSteps (formats : Formats) (index : UInt64) (reasoned : Bool) :
    OperationStore → OperationStore → Prop :=
  Relation.ReflTransGen (JournalStep formats index reasoned)

namespace JournalSteps

variable {formats : Formats} {index : UInt64} {reasoned : Bool} {store after : OperationStore}

theorem keep {holds : OperationStore → Prop} (steps : JournalSteps formats index reasoned store
    after) (begun : holds store)
    (kept : ∀ before next, JournalStep formats index reasoned before next → holds before →
      holds next) : holds after := by
  induction steps with
  | refl => exact begun
  | tail _ step ih => exact kept _ _ step ih

/-! ## Store operations -/

theorem of_submit {cmd : SubmitOperation} {actor : ActorContext}
    (canonical : cmd.kind = failoverOperationKind → cmd.canonical formats)
    (ret : store.submitOperation cmd actor index = some (.ok after)) :
    JournalSteps formats index reasoned store after := by
  obtain ⟨rfl, _⟩ | ⟨live, archived, _, bySeq, archivedSeq, rfl⟩ :=
    submitOperation_returns ret
  · exact .refl
  · exact .single (.submit cmd actor live archived bySeq archivedSeq canonical)

theorem of_transition {cmd : TransitionOperationPhase}
    (generic : ∀ record, store.live.get cmd.operationId = some record →
      transitionApplied record cmd = true ∨ record.kind ≠ failoverOperationKind)
    (ret : store.transitionOperationPhase formats.rebuildRequestOk cmd index = .ok after) :
    JournalSteps formats index reasoned store after := by
  obtain ⟨record, found, rfl | ⟨running, cur, ok, rfl⟩⟩ :=
    transitionOperationPhase_returns ret
  · exact .refl
  · rw [← cur]
    refine .single (.transition cmd found running ?_ ok)
    rcases generic record found with applied | other
    · -- A record the phase change was applied to is past the revision the change expects.
      simp only [transitionApplied, cur, Bool.and_eq_true, beq_iff_eq] at applied
      have moved := applied.1.1.2
      exfalso
      have next := congrArg UInt64.toNat moved
      rw [UInt64.toNat_add, UInt64.toNat_one] at next
      omega
    · exact other

theorem of_finishes {id : Identity} {lifecycle : OperationLifecycle} {result : String}
    {loss : Bool} (terminal : lifecycle.isTerminal = true)
    (typed : ∀ record, store.live.get id = some record →
      record.lifecycle.isTerminal = false → record.kind = failoverOperationKind →
      record.endsTyped formats reasoned lifecycle result loss)
    (finishes : store.Finishes after id lifecycle result loss) :
    JournalSteps formats index reasoned store after := by
  obtain rfl | ⟨record, found, running, rfl⟩ := finishes
  · exact .refl
  · exact .single (.finish _ _ _ _ found running terminal (typed record found running))

theorem of_result {cmd : CommitDirectiveResult}
    (ret : store.commitDirectiveResult cmd index = .ok after) :
    JournalSteps formats index reasoned store after := by
  unfold commitDirectiveResult at ret
  cases unanswered : store.findTerminalReceipt cmd.key with
  | some receipt =>
    simp only [unanswered, require_bind, Except.ok.injEq] at ret
    obtain ⟨_, rfl⟩ := ret
    exact .refl
  | none =>
    simp only [unanswered, bind_returns, require_returns] at ret
    obtain ⟨_, _, ⟨record, cur⟩, tracked, _, _, _, _, _, _, ret⟩ := ret
    cases ret
    unfold trackedDirective at tracked
    split at tracked
    · cases tracked
    next found =>
    split at tracked
    · cases tracked
    next running =>
    split at tracked
    · cases tracked
    next named =>
    cases tracked
    exact .single (.answer ⟨cmd.key, _, _, _, _, _, _⟩ unanswered found (by simpa using running)
      (mem_of_find?_eq_some named) (by simpa using find?_some named))

variable {entries : List (Identity × OperationRecord)} {seqs : List UInt64}
  {key : TerminalReceiptKey}

theorem of_archive (nodup : (entries.map Prod.fst).Nodup)
    (live : ∀ entry ∈ entries, store.live.get entry.1 = some entry.2 ∧
      entry.2.lifecycle.isTerminal = true) :
    JournalSteps formats index reasoned store (entries.foldl archiveOne store) := by
  induction entries generalizing store with
  | nil => exact .refl
  | cons entry rest ih =>
    rw [map_cons, nodup_cons] at nodup
    obtain ⟨found, terminal⟩ := live entry mem_cons_self
    refine .head (.archive entry.1 found terminal) (ih nodup.2 fun other mem => ?_)
    have apart : other.1 ≠ entry.1 := by
      intro same
      exact nodup.1 (same ▸ mem_map_of_mem mem)
    obtain ⟨known, ended⟩ := live other (mem_cons_of_mem _ mem)
    exact ⟨(get_erase_of_ne _ apart).trans known, ended⟩

theorem nodup_archivable (keyed : store.Keyed) (nodup : seqs.Nodup)
    (found : store.archivable seqs = .ok entries) : (entries.map Prod.fst).Nodup := by
  induction seqs generalizing entries with
  | nil =>
    cases found
    exact nodup_nil
  | cons seq rest ih =>
    rw [nodup_cons] at nodup
    unfold archivable at found
    split at found
    · exact ih nodup.2 found
    split at found
    · cases found
    next id record known =>
    simp only [bind_returns, Except.ok.injEq] at found
    obtain ⟨_, _, others, later, rfl⟩ := found
    rw [map_cons, nodup_cons]
    refine ⟨fun again => ?_, ih nodup.2 later⟩
    -- A record named twice would have two sequence numbers.
    obtain ⟨⟨_, record'⟩, mem, rfl⟩ := mem_map.mp again
    obtain ⟨_, _, seq', named, bySeq'⟩ := archivable_live later _ mem
    simp only [Option.bind_eq_some_iff, Option.map_eq_some_iff, Prod.mk.injEq] at known
    obtain ⟨_, bySeq, _, live, rfl, rfl⟩ := known
    obtain ⟨first, firstLive, rfl⟩ := keyed.bySeq _ _ bySeq
    obtain ⟨second, secondLive, rfl⟩ := keyed.bySeq _ _ bySeq'
    rw [firstLive] at secondLive
    cases secondLive
    exact nodup.1 named

theorem of_archiveOperations (keyed : store.Keyed)
    (ret : store.archiveOperations seqs = .ok after) :
    JournalSteps formats index reasoned store after := by
  simp only [archiveOperations, bind_returns, Except.ok.injEq] at ret
  obtain ⟨entries, found, _, _, rfl⟩ := ret
  apply of_archive (nodup_archivable keyed (nodup_dedup _) found)
  intro entry mem
  obtain ⟨live, terminal, _⟩ := archivable_live found entry mem
  exact ⟨live, terminal⟩

theorem of_pruneArchive (ret : store.pruneArchive seqs = .ok after) :
    JournalSteps formats index reasoned store after := by
  simp only [pruneArchive, require_bind, Except.ok.injEq] at ret
  obtain ⟨_, rfl⟩ := ret
  induction distinctSeqs seqs generalizing store with
  | nil => exact .refl
  | cons seq rest ih =>
    rw [foldl_cons]
    cases found : store.archivedBySeq.get seq with
    | none => exact ih
    | some id => exact .head (.pruneArchive seq found) ih

theorem get_pruneReceipt {store : OperationStore} (id : Identity) :
    (store.pruneReceipt key).live.get id = (store.live.get id).map fun record =>
      if id = key.operationId then
        { record with terminalReceipts := record.terminalReceipts.filter (·.key ≠ key) }
      else record := by
  unfold pruneReceipt
  cases found : store.live.get key.operationId with
  | none =>
    by_cases same : id = key.operationId
    · simp [same, found]
    · simp [same]
  | some record =>
    rw [get_set]
    split
    · next same => simp [same, found]
    · next apart => simp

theorem of_pruneReceipts {keys : List TerminalReceiptKey}
    (ended : ∀ key ∈ keys, ∀ record, store.live.get key.operationId = some record →
      record.terminalReceipts.any (·.key = key) = true → record.lifecycle.isTerminal = true) :
    JournalSteps formats index reasoned store (keys.foldl pruneReceipt store) := by
  induction keys generalizing store with
  | nil => exact .refl
  | cons key rest ih =>
    refine .head (.pruneReceipt key (ended key mem_cons_self)) (ih ?_)
    intro other mem record found answered
    rw [get_pruneReceipt] at found
    obtain ⟨old, known, rfl⟩ := Option.map_eq_some_iff.mp found
    have before := ended other (mem_cons_of_mem _ mem) old known
    by_cases same : other.operationId = key.operationId
    · rw [if_pos same] at answered ⊢
      apply before
      simp only [any_eq_true, mem_filter] at answered ⊢
      obtain ⟨receipt, ⟨present, _⟩, named⟩ := answered
      exact ⟨receipt, present, named⟩
    · rw [if_neg same] at answered ⊢
      exact before answered

theorem of_pruneTerminalReceipts {receipts : List TerminalReceiptKey}
    (ret : store.pruneTerminalReceipts receipts = .ok after) :
    JournalSteps formats index reasoned store after := by
  simp only [pruneTerminalReceipts, bind_returns, Except.ok.injEq] at ret
  obtain ⟨_, _, _, checked, rfl⟩ := ret
  apply of_pruneReceipts
  intro key listed record found mem
  obtain ⟨_, ok⟩ := forM_returns checked key listed
  simp only [checkPrunable, require_bind, require_returns, found, Option.any_some, mem,
    Bool.true_and, Bool.not_not] at ok
  exact ok.2

theorem of_abortAll {requests : List OperationRecord}
    (typed : ∀ request ∈ requests, ∀ record, store.live.get request.operationId = some record →
      record.lifecycle.isTerminal = false → record.kind = failoverOperationKind →
      record.endsTyped formats reasoned .aborted automaticFailoverPreemptionReason false)
    (ret : abortAll requests store = .ok after) :
    JournalSteps formats index reasoned store after := by
  induction requests generalizing store with
  | nil =>
    cases ret
    exact .refl
  | cons request rest ih =>
    simp only [abortAll, foldlM_cons, bind_returns] at ret
    obtain ⟨middle, aborted, others⟩ := ret
    have finishes := abortOperation_returns aborted
    have first : JournalSteps formats index reasoned store middle :=
      of_finishes rfl (typed request mem_cons_self) finishes
    refine first.trans (ih ?_ others)
    intro other mem record found running
    apply typed other (mem_cons_of_mem _ mem) record _ running
    -- The abort ended the record it wrote, so a record still in progress was not written.
    obtain rfl | ⟨_, _, _, rfl⟩ := finishes
    · exact found
    · have written : (store.live.set request.operationId _).get other.operationId =
        some record := found
      rw [get_set] at written
      split at written
      · cases written
        cases running
      · exact written

end JournalSteps

/-! ## Records under their keys -/

namespace OperationStore.Keyed

variable {store after : OperationStore} {id : Identity} {index : UInt64}

theorem of_set (keyed : store.Keyed) {record old : OperationRecord}
    (live : after.live = store.live.set id record) (bySeq : after.liveBySeq = store.liveBySeq)
    (found : store.live.get id = some old) (own : record.operationId = old.operationId)
    (seq : record.operationSeq = old.operationSeq) : after.Keyed where
  distinct := by
    rw [live]
    exact nodup_keys_set keyed.distinct id record
  own other present listed := by
    rw [live, get_set] at listed
    split at listed
    · next same =>
      cases listed
      rw [own, keyed.own id old found, same]
    · exact keyed.own other present listed
  bySeq number other listed := by
    rw [bySeq] at listed
    obtain ⟨present, known, same⟩ := keyed.bySeq number other listed
    rw [live, get_set]
    split
    · next here =>
      rw [here, found] at known
      cases known
      exact ⟨record, rfl, seq.trans same⟩
    · exact ⟨present, known, same⟩

theorem of_submit (keyed : store.Keyed) {cmd : SubmitOperation} {actor : ActorContext}
    (live : after.live = store.live.set cmd.operationId (submitted cmd actor index))
    (bySeq : after.liveBySeq = store.liveBySeq.set index cmd.operationId)
    (unknown : store.live.get cmd.operationId = none) : after.Keyed where
  distinct := by
    rw [live]
    exact nodup_keys_set keyed.distinct _ _
  own other present listed := by
    rw [live, get_set] at listed
    split at listed
    · next same =>
      cases listed
      exact same.symm
    · exact keyed.own other present listed
  bySeq number other listed := by
    rw [bySeq, get_set] at listed
    rw [live, get_set]
    split at listed
    · next new =>
      cases listed
      exact ⟨_, if_pos rfl, new.symm⟩
    obtain ⟨present, known, same⟩ := keyed.bySeq number other listed
    have apart : other ≠ cmd.operationId := by
      rintro rfl
      rw [unknown] at known
      cases known
    exact ⟨present, (if_neg apart).trans known, same⟩

theorem of_archive (keyed : store.Keyed) {record : OperationRecord}
    (found : store.live.get id = some record) : (store.archiveOne (id, record)).Keyed where
  distinct := nodup_keys_erase keyed.distinct id
  own other present listed := by
    have apart : other ≠ id := by
      rintro rfl
      simp [archiveOne] at listed
    exact keyed.own other present ((get_erase_of_ne _ apart).symm.trans listed)
  bySeq number other listed := by
    have differs : number ≠ record.operationSeq := by
      rintro rfl
      simp [archiveOne] at listed
    have earlier : store.liveBySeq.get number = some other :=
      (get_erase_of_ne _ differs).symm.trans listed
    obtain ⟨present, known, same⟩ := keyed.bySeq number other earlier
    have apart : other ≠ id := by
      rintro rfl
      rw [found] at known
      cases known
      exact differs same.symm
    exact ⟨present, (get_erase_of_ne _ apart).trans known, same⟩

theorem step {formats : Formats} {reasoned : Bool} (keyed : store.Keyed)
    (stepped : JournalStep formats index reasoned store after) : after.Keyed := by
  cases stepped with
  | submit cmd actor unknown => exact keyed.of_submit rfl rfl unknown
  | transition _ found | finish _ _ _ _ found | answer _ _ found =>
    exact keyed.of_set rfl rfl found rfl rfl
  | invalidate keys =>
    have same (record : OperationRecord) (stale : CurrentDirective → Bool) :
        (invalidated record stale).operationId = record.operationId ∧
          (invalidated record stale).operationSeq = record.operationSeq := by
      unfold invalidated
      split <;> exact ⟨rfl, rfl⟩
    constructor
    · rw [keys_invalidateCurrentDirectives]
      exact keyed.distinct
    · intro id record found
      rw [get_invalidateCurrentDirectives] at found
      obtain ⟨old, known, rfl⟩ := Option.map_eq_some_iff.mp found
      rw [(same old _).1]
      exact keyed.own id old known
    · intro seq id mem
      obtain ⟨record, known, numbered⟩ := keyed.bySeq seq id mem
      rw [get_invalidateCurrentDirectives, known]
      exact ⟨_, rfl, (same record _).2.trans numbered⟩
  | archive id found terminal => exact keyed.of_archive found
  | pruneArchive seq found => exact ⟨keyed.distinct, keyed.own, keyed.bySeq⟩
  | pruneReceipt key ended =>
    cases found : store.live.get key.operationId with
    | none =>
      have same : (store.pruneReceipt key).live = store.live := by
        simp only [pruneReceipt, found]
      constructor
      · rw [same]
        exact keyed.distinct
      · rw [same]
        exact keyed.own
      · rw [same]
        exact keyed.bySeq
    | some record =>
      have written : (store.pruneReceipt key).live = store.live.set key.operationId { record with
          terminalReceipts := record.terminalReceipts.filter (·.key ≠ key) } := by
        simp only [pruneReceipt, found]
      exact keyed.of_set written rfl found rfl rfl

end OperationStore.Keyed

end Lavik.Meta
