import Lavik.Meta.OperationStore
/-!
# What the journal operations return

Each operation of the journal either finds its own effect and returns the store it was given, or
makes one change to one live record under its checks. The lemmas here say which of the two happened
and what the returned store is, as the lemmas on the topology operations do.
-/

namespace Lavik.Meta

open Base

namespace OperationStore

variable {store after : OperationStore}

def submitted (cmd : SubmitOperation) (actor : ActorContext) (operationSeq : UInt64) :
    OperationRecord where
  operationId := cmd.operationId
  operationSeq := operationSeq
  kind := cmd.kind
  intent := cmd.intent
  intentHash := cmd.intentHash
  replicationHistoryId := cmd.replicationHistoryId
  actor := actor

theorem submitOperation_returns {cmd : SubmitOperation} {actor : ActorContext} {seq : UInt64}
    (ok : store.submitOperation cmd actor seq = some (.ok after)) :
    (after = store ∧ store.operationKnown cmd.operationId = true) ∨
      (store.live.get cmd.operationId = none ∧ store.archived.get cmd.operationId = none ∧
        seq ≠ 0 ∧ store.liveBySeq.get seq = none ∧ store.archivedBySeq.get seq = none ∧
        after = { store.setLive cmd.operationId (submitted cmd actor seq) with
          liveBySeq := store.liveBySeq.set seq cmd.operationId
          activeCount := store.activeCount + 1 }) := by
  unfold submitOperation at ok
  split at ok
  · cases ok
  split at ok
  · cases ok
  split at ok
  · next record _ found =>
    split at ok
    · cases ok
      exact .inl ⟨rfl, by simp [operationKnown, found]⟩
    · cases ok
  · next summary _ found =>
    split at ok
    · cases ok
      exact .inl ⟨rfl, by simp [operationKnown, found]⟩
    · cases ok
  · next live archived =>
    split at ok
    · cases ok
    next fresh =>
    simp only [not_or, Option.not_isSome_iff_eq_none] at fresh
    split at ok
    · cases ok
    split at ok
    · cases ok
    · cases ok
      exact .inr ⟨live, archived, fresh.1, fresh.2.1, fresh.2.2, rfl⟩

variable {record : OperationRecord} {index : UInt64} {seqs : List UInt64}

theorem liveRecord_returns {id : Identity} :
    store.liveRecord id = .ok record ↔ store.live.get id = some record := by
  unfold liveRecord
  cases found : store.live.get id with
  | some present => simp
  | none => simp; split <;> simp

theorem checkRevision_returns {expected : UInt64} {done : Unit} :
    checkRevision record expected = .ok done ↔
      record.lifecycle.isTerminal = false ∧ record.revision = expected := by
  simp [checkRevision, require_bind, require_returns]

theorem transitionOperationPhase_returns {rebuildRequestOk : Blob → Bool}
    {cmd : TransitionOperationPhase}
    (ok : store.transitionOperationPhase rebuildRequestOk cmd index = .ok after) :
    ∃ record, store.live.get cmd.operationId = some record ∧ (after = store ∨
        (record.lifecycle.isTerminal = false ∧ record.revision = cmd.expectedRevision ∧
          store.checkDirectives rebuildRequestOk cmd = .ok () ∧
          after = store.setLive cmd.operationId { record with
            lifecycle := .running
            kindPhaseBlob := cmd.kindPhaseBlob
            currentDirectives := installed record cmd.currentDirectives index
            revision := cmd.expectedRevision + 1 })) := by
  simp only [transitionOperationPhase, bind_returns, liveRecord_returns] at ok
  obtain ⟨record, found, _, _, ok⟩ := ok
  refine ⟨record, found, ?_⟩
  split at ok
  · cases ok
    exact .inl rfl
  simp only [bind_returns, checkRevision_returns, Except.ok.injEq] at ok
  obtain ⟨_, ⟨running, cur⟩, _, _, _, _, _, checked, ret⟩ := ok
  exact .inr ⟨running, cur, checked, ret.symm⟩

/-- What the end of an operation does: nothing when it has ended so, or it ends the record. -/
def Finishes (store after : OperationStore) (id : Identity) (lifecycle : OperationLifecycle)
    (result : String) (loss : Bool) : Prop :=
  after = store ∨ ∃ record, store.live.get id = some record ∧
    record.lifecycle.isTerminal = false ∧ after = { store.setLive id
        (terminated record lifecycle result loss (record.revision + 1)) with
      activeCount := store.activeCount - 1 }

theorem completeOperation_returns {cmd : CompleteOperation}
    (ok : store.completeOperation cmd = .ok after) :
    store.Finishes after cmd.operationId .completed cmd.result cmd.dataLossPossible := by
  simp only [completeOperation, bind_returns, liveRecord_returns] at ok
  obtain ⟨record, found, _, _, ok⟩ := ok
  split at ok
  · cases ok
    exact .inl rfl
  · simp only [bind_returns, checkRevision_returns, Except.ok.injEq] at ok
    obtain ⟨_, ⟨running, cur⟩, _, _, ret⟩ := ok
    rw [← cur] at ret
    exact .inr ⟨record, found, running, ret.symm⟩

theorem abortOperation_returns {cmd : AbortOperation} (ok : store.abortOperation cmd = .ok after) :
    store.Finishes after cmd.operationId .aborted cmd.reason false := by
  simp only [abortOperation, bind_returns, liveRecord_returns] at ok
  obtain ⟨record, found, _, _, ok⟩ := ok
  split at ok
  · cases ok
    exact .inl rfl
  · simp only [bind_returns, checkRevision_returns, Except.ok.injEq] at ok
    obtain ⟨_, ⟨running, cur⟩, _, _, ret⟩ := ok
    rw [← cur] at ret
    exact .inr ⟨record, found, running, ret.symm⟩

theorem archivable_live {entries : List (Identity × OperationRecord)}
    (found : store.archivable seqs = .ok entries) :
    ∀ entry ∈ entries, store.live.get entry.1 = some entry.2 ∧ entry.2.lifecycle.isTerminal ∧
      ∃ seq ∈ seqs, store.liveBySeq.get seq = some entry.1 := by
  induction seqs generalizing entries with
  | nil =>
    cases found
    simp
  | cons seq rest ih =>
    unfold archivable at found
    split at found
    · intro entry mem
      obtain ⟨live, terminal, other, named, bySeq⟩ := ih found entry mem
      exact ⟨live, terminal, other, List.mem_cons_of_mem _ named, bySeq⟩
    split at found
    · cases found
    next id record known =>
    simp only [bind_returns, require_returns, Except.ok.injEq] at found
    obtain ⟨_, terminal, others, later, whole⟩ := found
    rw [← whole]
    intro entry mem
    rcases List.mem_cons.mp mem with same | other
    · subst same
      simp only [Option.bind_eq_some_iff, Option.map_eq_some_iff, Prod.mk.injEq] at known
      obtain ⟨found, bySeq, present, live, sameId, sameRecord⟩ := known
      subst sameId sameRecord
      exact ⟨live, terminal, seq, List.mem_cons_self, bySeq⟩
    · obtain ⟨live, ended, another, named, bySeq⟩ := ih later entry other
      exact ⟨live, ended, another, List.mem_cons_of_mem _ named, bySeq⟩

/-! ## Invalidation -/

theorem get_invalidateCurrentDirectives (store : OperationStore) (keys : List TerminalReceiptKey)
    (id : Identity) :
    (store.invalidateCurrentDirectives keys).live.get id = (store.live.get id).map fun record =>
      invalidated record fun cur =>
        keys.any fun key => key.operationId == id && cur.named key :=
  AssocMap.get_map store.live (fun id record => invalidated record fun cur =>
    keys.any fun key => key.operationId == id && cur.named key) id

theorem keys_invalidateCurrentDirectives (store : OperationStore) (keys : List TerminalReceiptKey) :
    (store.invalidateCurrentDirectives keys).live.keys = store.live.keys :=
  AssocMap.keys_map store.live fun id record => invalidated record fun cur =>
    keys.any fun key => key.operationId == id && cur.named key

end OperationStore

end Lavik.Meta
