import Lavik.Meta.CommandEffects
/-!
# Refused commands

A command that is refused leaves every store as it was. The guarded commands change records in
turn and write back what the guard kept; what has to be shown is that the guard kept everything the
command touched, down to the last index of the journal.
-/

namespace Lavik.Meta

open Base List OperationStore AssocMap Rollback Attempt Guarded

/-! ## What a guarded command may have touched -/

/-- The topology differs from the one a guarded command began with in the guarded group, the epoch
and the lifecycle only. -/
structure TopologyStore.Touched (groupId : Option String) (before after : TopologyStore) :
    Prop where
  groupOfNode : after.groupOfNode = before.groupOfNode
  lastAssignmentByNode : after.lastAssignmentByNode = before.lastAssignmentByNode
  slots : after.slots = before.slots
  groups : after.groups = before.groups ∨ ∃ id group next, groupId = some id ∧
    before.groups.get id = some group ∧ after.groups = before.groups.set id next

/-- The journal differs from the one a guarded command began with in watched live records and the
count of active operations only. -/
structure OperationStore.Touched (watched : AssocMap Identity (Option OperationRecord))
    (before after : OperationStore) : Prop where
  liveBySeq : after.liveBySeq = before.liveBySeq
  archived : after.archived = before.archived
  archivedBySeq : after.archivedBySeq = before.archivedBySeq
  keys : after.live.keys = before.live.keys
  kept : ∀ entry ∈ watched, entry.2 = before.live.get entry.1
  unwatched : ∀ id, id ∉ watched.keys → after.live.get id = before.live.get id

/-- A guarded command that began in these stores and can still be taken back. -/
structure Guarded.Tracks (groupId : Option String) (operationId : Option Identity)
    (stores : Stores) (guarded : Guarded) : Prop where
  identity : guarded.stores.identity = stores.identity
  policy : guarded.stores.policy = stores.policy
  populationManifest : guarded.stores.populationManifest = stores.populationManifest
  audit : guarded.stores.audit = stores.audit
  topology : stores.topology.Touched groupId guarded.stores.topology
  operation : stores.operation.Touched guarded.rollback.operations guarded.stores.operation
  savedEpoch : guarded.rollback.topologyEpoch = stores.topology.topologyEpoch
  savedLifecycle : guarded.rollback.lifecycle = stores.topology.clusterLifecycle
  savedCount : guarded.rollback.activeCount = stores.operation.activeCount
  savedGroup : guarded.rollback.group = groupId.bind fun id => (stores.findGroup id).map (id, ·)
  watched : ∀ id, operationId = some id → id ∈ guarded.rollback.operations.keys

/-! ## The rollback -/

namespace OperationStore

theorem mem_keys_of_get {store : OperationStore} {id : Identity} {record : OperationRecord}
    (found : store.live.get id = some record) : id ∈ store.live.keys :=
  get_isSome_iff.mp (by rw [found]; rfl)

variable {before : OperationStore}

theorem restoreOperations_live (nodup : before.live.keys.Nodup)
    (watched : AssocMap Identity (Option OperationRecord)) (store : OperationStore)
    (touched : before.Touched watched store) :
    (watched.foldl restoreOperation store).live = before.live ∧
      (watched.foldl restoreOperation store).liveBySeq = before.liveBySeq ∧
      (watched.foldl restoreOperation store).archived = before.archived ∧
      (watched.foldl restoreOperation store).archivedBySeq = before.archivedBySeq := by
  induction watched generalizing store with
  | nil =>
    refine ⟨?_, touched.liveBySeq, touched.archived, touched.archivedBySeq⟩
    exact ext_of_keys nodup touched.keys fun id => touched.unwatched id (by simp)
  | cons entry rest ih =>
    obtain ⟨id, saved⟩ := entry
    have kept : saved = before.live.get id := touched.kept _ mem_cons_self
    have rest_kept := (forall_mem_cons.mp touched.kept).2
    cases saved with
    | some record =>
      have known : id ∈ store.live.keys := by
        rw [touched.keys]
        exact mem_keys_of_get kept.symm
      refine ih _ { touched with
        keys := (keys_set_of_mem record known).trans touched.keys
        kept := rest_kept
        unwatched := fun other unlisted => ?_ }
      show (store.live.set id record).get other = _
      rw [get_set]
      split
      · next same => rw [same, kept]
      · next apart => exact touched.unwatched other (by simp [apart, unlisted])
    | none =>
      -- The record was not live when it was watched, and the keys have not changed since.
      have gone : store.live.get id = none := by
        rw [get_eq_none_iff, touched.keys, ← get_eq_none_iff]
        exact kept.symm
      have same : restoreOperation store (id, none) = store := by
        simp [restoreOperation, gone]
      rw [foldl_cons, same]
      refine ih _ { touched with kept := rest_kept, unwatched := fun other unlisted => ?_ }
      by_cases named : other = id
      · rw [named, gone]
        exact kept
      · exact touched.unwatched other (by simp [named, unlisted])

end OperationStore

namespace Rollback

variable {stores : Stores} {rollback : Rollback}

theorem mem_keys_watchOperation {id other : Identity} :
    other ∈ (rollback.watchOperation stores id).operations.keys ↔
      other = id ∨ other ∈ rollback.operations.keys := by
  unfold watchOperation
  split
  · next already =>
    have mem := get_isSome_iff.mp already
    exact ⟨.inr, fun either => either.elim (fun same => same ▸ mem) fun known => known⟩
  · exact mem_keys_set

def watchAll (rollback : Rollback) (stores : Stores) (records : List OperationRecord) : Rollback :=
  records.foldl (fun rollback record => rollback.watchOperation stores record.operationId) rollback

theorem mem_keys_watchAll {other : Identity} {records : List OperationRecord} :
    other ∈ (rollback.watchAll stores records).operations.keys ↔
      (∃ record ∈ records, record.operationId = other) ∨ other ∈ rollback.operations.keys := by
  induction records generalizing rollback with
  | nil => simp [watchAll]
  | cons record rest ih =>
    have unfolded : rollback.watchAll stores (record :: rest) =
      (rollback.watchOperation stores record.operationId).watchAll stores rest := rfl
    rw [unfolded, ih, mem_keys_watchOperation]
    simp only [mem_cons, exists_eq_or_imp]
    rw [eq_comm (a := other), or_left_comm, or_assoc]

end Rollback

namespace Guarded.Tracks

variable {groupId : Option String} {operationId : Option Identity} {stores : Stores}
  {guarded : Guarded}

section

variable (inv : Tracks groupId operationId stores guarded)

include inv

theorem restore_groups :
    (guarded.rollback.restore guarded.stores).topology.groups = stores.topology.groups := by
  unfold restore
  rw [inv.savedGroup]
  rcases inv.topology.groups with same | ⟨id, group, next, rfl, found, written⟩
  · cases saved : groupId.bind fun id => (stores.findGroup id).map (id, ·) with
    | none => exact same
    | some entry =>
      obtain ⟨id, _, known⟩ := Option.bind_eq_some_iff.mp saved
      obtain ⟨group, found, rfl⟩ := Option.map_eq_some_iff.mp known
      show guarded.stores.topology.groups.set id group = _
      rw [same]
      exact set_of_get found
  · have known : stores.findGroup id = some group := found
    simp only [Option.bind_some, known, Option.map_some]
    show guarded.stores.topology.groups.set id group = _
    rw [written, AssocMap.set_set]
    exact set_of_get found

theorem restore (nodup : stores.operation.live.keys.Nodup) :
    guarded.rollback.restore guarded.stores = stores := by
  obtain ⟨live, liveBySeq, archived, archivedBySeq⟩ :=
    restoreOperations_live nodup _ _ inv.operation
  have topology : (guarded.rollback.restore guarded.stores).topology = stores.topology := by
    have groups := inv.restore_groups
    have parts := inv.topology
    unfold Rollback.restore at groups ⊢
    rw [inv.savedEpoch, inv.savedLifecycle]
    cases saved : guarded.rollback.group <;> rw [saved] at groups <;>
      exact TopologyStore.ext groups parts.groupOfNode parts.lastAssignmentByNode parts.slots
        rfl rfl
  have operation : (guarded.rollback.restore guarded.stores).operation = stores.operation := by
    exact OperationStore.ext live liveBySeq archived archivedBySeq inv.savedCount
  exact Stores.ext inv.identity topology inv.policy operation inv.populationManifest inv.audit

/-! ## Parts of a guarded command -/

theorem watch (id : Identity) :
    Tracks groupId operationId stores { guarded with
      rollback := guarded.rollback.watchOperation guarded.stores id } := by
  have mem : ∀ other, operationId = some other →
      other ∈ (guarded.rollback.watchOperation guarded.stores id).operations.keys :=
    fun other named => mem_keys_watchOperation.mpr (.inr (inv.watched other named))
  by_cases already : (guarded.rollback.operations.get id).isSome = true
  · simpa only [watchOperation, if_pos already] using inv
  have unwatched := already
  rw [Option.not_isSome_iff_eq_none, get_eq_none_iff] at unwatched
  simp only [watchOperation, if_neg already] at mem ⊢
  have journal := inv.operation
  refine { inv with
    operation := { journal with kept := ?_, unwatched := ?_ }
    watched := mem }
  · intro entry known
    rcases mem_set known with new | old
    · rw [new]
      exact journal.unwatched id unwatched
    · exact journal.kept entry old
  · intro other unlisted
    rw [mem_keys_set, not_or] at unlisted
    exact journal.unwatched other unlisted.2

end

theorem start (groupId : Option String) (operationId : Option Identity) (stores : Stores) :
    Tracks groupId operationId stores ⟨stores, .start stores groupId operationId⟩ := by
  have begun : Tracks groupId none stores ⟨stores, .start stores groupId none⟩ := {
    identity := rfl
    policy := rfl
    populationManifest := rfl
    audit := rfl
    topology := ⟨rfl, rfl, rfl, .inl rfl⟩
    operation := ⟨rfl, rfl, rfl, rfl, by simp [Rollback.start], fun _ _ => rfl⟩
    savedEpoch := rfl
    savedLifecycle := rfl
    savedCount := rfl
    savedGroup := rfl
    watched := by simp }
  cases operationId with
  | none => exact begun
  | some id =>
    refine { begun.watch id with watched := fun other named => ?_ }
    exact mem_keys_watchOperation.mpr (.inl (Option.some.inj named).symm)

variable {id : Identity}

section

variable (inv : Tracks groupId operationId stores guarded)

include inv

theorem watchAll (records : List OperationRecord) :
    Tracks groupId operationId stores { guarded with
      rollback := guarded.rollback.watchAll guarded.stores records } := by
  induction records generalizing guarded with
  | nil => exact inv
  | cons record rest ih => exact ih (inv.watch record.operationId)

theorem invalidateStale : Tracks groupId operationId stores guarded.invalidateStale := by
  have watched := inv.watchAll (guarded.stores.operation.liveOperations.filter fun record =>
    !(guarded.stores.staleDirectives record).isEmpty)
  have before := watched.operation
  refine { watched with operation := ⟨before.liveBySeq, before.archived, before.archivedBySeq,
    ?_, before.kept, ?_⟩ }
  · exact (keys_invalidateCurrentDirectives _ _).trans before.keys
  · intro id unwatched
    rw [← before.unwatched id unwatched]
    refine (get_invalidateCurrentDirectives _ _ id).trans ?_
    refine Eq.trans (Option.map_congr ?_) Option.map_id'
    intro record found
    refine if_pos (.inr (all_eq_true.mpr fun cur _ => ?_))
    -- No key names this operation: a record with a stale directive would have been watched.
    rw [Bool.not_eq_true', any_eq_false]
    intro key mem matched
    simp only [Bool.and_eq_true, beq_iff_eq] at matched
    simp only [Stores.staleKeys, mem_flatMap, mem_map] at mem
    obtain ⟨stale, live, lost, listed, rfl⟩ := mem
    apply unwatched
    refine mem_keys_watchAll.mpr (.inl ⟨stale, mem_filter.mpr ⟨live, ?_⟩, matched.1⟩)
    simpa using ne_nil_of_mem listed

/-! ## Composition -/

theorem topology_final {operation : TopologyStore → Except String TopologyStore}
    (touches : ∀ topology, operation guarded.stores.topology = .ok topology →
      guarded.stores.topology.Touched groupId topology) :
    Tracks groupId operationId stores (guarded.topology operation).final := by
  apply step_final (Tracks groupId operationId stores) inv
  intro after ret
  obtain ⟨topology, outcome, rfl⟩ := map_returns ret
  have touched := touches topology outcome
  have before := inv.topology
  refine { inv with topology := ?_ }
  refine ⟨touched.groupOfNode.trans before.groupOfNode,
    touched.lastAssignmentByNode.trans before.lastAssignmentByNode,
    touched.slots.trans before.slots, ?_⟩
  rcases touched.groups with same | ⟨id, group, next, named, found, written⟩
  · rw [same]
    exact before.groups
  right
  rcases before.groups with same | ⟨other, kept, _, alsoNamed, known, rewritten⟩
  · exact ⟨id, group, next, named, same ▸ found, same ▸ written⟩
  · rw [named] at alsoNamed
    cases alsoNamed
    exact ⟨id, kept, next, named, known, by rw [written, rewritten, AssocMap.set_set]⟩

end

/-- What a journal operation does that writes at most one live record. -/
def Writes (operation : OperationStore → Except String OperationStore) (id : Identity) : Prop :=
  ∀ store after, operation store = .ok after → after = store ∨
    ∃ record next, store.live.get id = some record ∧ after.live = store.live.set id next ∧
      after.liveBySeq = store.liveBySeq ∧ after.archived = store.archived ∧
      after.archivedBySeq = store.archivedBySeq

theorem journal_final (inv : Tracks groupId operationId stores guarded)
    {operation : OperationStore → Except String OperationStore} (writes : Writes operation id)
    (watched : id ∈ guarded.rollback.operations.keys) :
    Tracks groupId operationId stores (guarded.journal operation).final := by
  apply step_final (Tracks groupId operationId stores) inv
  intro after ret
  obtain ⟨operation, outcome, rfl⟩ := map_returns ret
  rcases writes _ _ outcome with same | ⟨record, next, found, live, bySeq, archived, archivedSeq⟩
  · rw [same]
    exact inv
  have before := inv.operation
  refine { inv with operation := { before with
    liveBySeq := bySeq.trans before.liveBySeq
    archived := archived.trans before.archived
    archivedBySeq := archivedSeq.trans before.archivedBySeq
    keys := ?_
    unwatched := fun other unwatched => ?_ } }
  · show operation.live.keys = _
    rw [live, keys_set_of_mem next (mem_keys_of_get found)]
    exact before.keys
  · have apart : other ≠ id := fun same => unwatched (same ▸ watched)
    show operation.live.get other = _
    rw [live, get_set_of_ne _ _ apart]
    exact before.unwatched other unwatched

theorem check_final (inv : Tracks groupId operationId stores guarded)
    (ok : Stores → Except String Unit) :
    Tracks groupId operationId stores (guarded.check ok).final := by
  apply step_final (Tracks groupId operationId stores) inv
  intro after ret
  obtain ⟨_, _, rfl⟩ := map_returns ret
  exact inv

theorem bind {first : Attempt Guarded Guarded} {rest : Guarded → Attempt Guarded Guarded}
    (begun : Tracks groupId operationId stores first.final)
    (cont : ∀ middle, Tracks groupId operationId stores middle →
      Tracks groupId operationId stores (rest middle).final) :
    Tracks groupId operationId stores (first >>= rest).final := by
  cases first with
  | error stopped => exact begun
  | ok middle => exact cont middle begun

end Guarded.Tracks

/-! ## Store operations under the guard -/

namespace TopologyStore.Touched

variable {groupId : String} {store after : TopologyStore}

theorem refl (groupId : Option String) (store : TopologyStore) : store.Touched groupId store :=
  ⟨rfl, rfl, rfl, .inl rfl⟩

theorem of_setGroup {group next : GroupState} (found : store.groups.get groupId = some group) :
    store.Touched (some groupId) (store.setGroup groupId next) :=
  ⟨rfl, rfl, rfl, .inr ⟨groupId, group, next, rfl, found, rfl⟩⟩

theorem beginGroupTerm {cmd : BeginGroupTerm} (ok : store.beginGroupTerm cmd = .ok after) :
    store.Touched (some cmd.groupId) after := by
  obtain ⟨group, found, _, _, ⟨_, _, rfl⟩ | ⟨_, rfl⟩⟩ := beginGroupTerm_returns ok
  · exact refl _ _
  · exact of_setGroup found

variable {index : UInt64} {expected : FailoverTransitionRef} {root : Identity}

theorem installFailoverTransition {transition : FailoverTransition}
    (ok : store.installFailoverTransition groupId transition index = .ok after) :
    store.Touched (some groupId) after := by
  obtain ⟨group, found, _, ⟨_, rfl⟩ | ⟨_, rfl⟩⟩ := installFailoverTransition_returns ok
  · exact refl _ _
  · exact of_setGroup found

theorem replaceFailoverTransition {replacement : FailoverTransition}
    (ok : store.replaceFailoverTransition groupId expected replacement index = .ok after) :
    store.Touched (some groupId) after := by
  obtain ⟨group, found, _, _, ⟨_, rfl⟩ | ⟨_, _, _, _, _, rfl⟩⟩ :=
    replaceFailoverTransition_returns ok
  · exact refl _ _
  · exact of_setGroup found

theorem clearFailoverTransition (ok : store.clearFailoverTransition groupId expected = .ok after) :
    store.Touched (some groupId) after := by
  obtain ⟨group, found, ⟨_, rfl⟩ | ⟨_, _, _, _, rfl⟩⟩ := clearFailoverTransition_returns ok
  · exact refl _ _
  · exact of_setGroup found

theorem authorityActivationKernel {identity : IdentityStore} {cmd : ActivateAuthority}
    {action : Option Identity}
    (ok : authorityActivationKernel identity cmd action store = .ok after) :
    store.Touched (some cmd.groupId) after := by
  obtain ⟨group, found, _, _, _, ⟨_, rfl⟩ | ⟨_, _, _, _, rfl⟩⟩ :=
    authorityActivationKernel_returns ok
  · exact refl _ _
  · exact ⟨rfl, rfl, rfl, .inr ⟨_, group, _, rfl, found, rfl⟩⟩

theorem beginClusterCreate (ok : store.beginClusterCreate root index = .ok after) :
    store.Touched none after := by
  obtain ⟨_, rfl⟩ := beginClusterCreate_returns ok
  exact ⟨rfl, rfl, rfl, .inl rfl⟩

theorem completeClusterCreate (ok : store.completeClusterCreate root = .ok after) :
    store.Touched none after := by
  obtain ⟨_, rfl⟩ := completeClusterCreate_returns ok
  exact ⟨rfl, rfl, rfl, .inl rfl⟩

theorem failClusterCreate {summary : String}
    (ok : store.failClusterCreate root summary = .ok after) : store.Touched none after := by
  obtain ⟨_, rfl⟩ := failClusterCreate_returns ok
  exact ⟨rfl, rfl, rfl, .inl rfl⟩

end TopologyStore.Touched

namespace OperationStore

theorem abortOperation_writes (cmd : AbortOperation) :
    Guarded.Tracks.Writes (·.abortOperation cmd) cmd.operationId := by
  intro store after ok
  obtain rfl | ⟨record, found, _, rfl⟩ := abortOperation_returns ok
  · exact .inl rfl
  · exact .inr ⟨record, _, found, rfl, rfl, rfl, rfl⟩

theorem completeOperation_writes (cmd : CompleteOperation) :
    Guarded.Tracks.Writes (·.completeOperation cmd) cmd.operationId := by
  intro store after ok
  obtain rfl | ⟨record, found, _, rfl⟩ := completeOperation_returns ok
  · exact .inl rfl
  · exact .inr ⟨record, _, found, rfl, rfl, rfl, rfl⟩

end OperationStore

/-! ## Commands -/

def Leaves (stores : Stores) (decided : Stores × Verdict) : Prop :=
  ∀ text, decided.2 = .rejected text → decided.1 = stores

/-- A decision whose refusal is taken back: no authority has moved, and the stores are left where
no live record is stored twice. -/
structure TakesBack (stores : Stores) (decided : Stores × Verdict) : Prop where
  moves : ∀ text, decided.2 = .rejected text → ∀ id,
    (stores.topology.authority id).Moves (decided.1.topology.authority id)
  leaves : stores.operation.live.keys.Nodup → Leaves stores decided

variable {stores : Stores} {env : Environment} {index : UInt64} {verdict : Verdict}
  {cmd : CommittedCommand} {label : UInt64 × CommittedCommand}

theorem TakesBack.of_same {decided : Stores × Verdict} (same : Leaves stores decided) :
    TakesBack stores decided where
  moves text refused id := by
    rw [same text refused]
    exact GroupAuthority.Keeps.moves rfl
  leaves _ := same

section Commands

variable {formats : Formats} {logIndex : UInt64}

theorem refuse_takesBack (text : String) : TakesBack stores (refuse stores text) :=
  .of_same fun _ _ => rfl

theorem replayed_takesBack : TakesBack stores (replayed stores) := .of_same fun _ _ => rfl

theorem fromStatus_takesBack (outcome : Except String Stores) :
    TakesBack stores (fromStatus stores outcome) := by
  cases outcome with
  | error text => exact refuse_takesBack text
  | ok after => exact .of_same nofun

theorem afterChecks_takesBack {Value : Type} {checks : Except String Value}
    {continuation : Value → Stores × Verdict}
    (cont : ∀ value, checks = .ok value → TakesBack stores (continuation value)) :
    TakesBack stores (afterChecks stores checks continuation) := by
  cases checks with
  | error text => exact refuse_takesBack text
  | ok value => exact cont value rfl

variable {groupId : Option String}

theorem settle_takesBack {operationId : Option Identity} {outcome : Attempt Guarded Guarded}
    (inv : Guarded.Tracks groupId operationId stores outcome.final) :
    TakesBack stores (settle outcome) := by
  cases outcome with
  | ok guarded => exact .of_same nofun
  | error stopped =>
    refine ⟨fun _ _ id => ?_, fun nodup _ _ => inv.restore nodup⟩
    have groups : (settle (.error stopped)).1.topology.groups = stores.topology.groups :=
      inv.restore_groups
    exact GroupAuthority.Keeps.moves (TopologyStore.authority_congr (by rw [groups]))

/-- `UpdateNode` checks the epoch before it writes the identity store, so the write is never left
behind by a refusal. -/
theorem dispatchUpdateNode_takesBack (cmd : UpdateNode) :
    TakesBack stores (dispatchUpdateNode formats stores cmd) := by
  apply afterChecks_takesBack
  intro identity passed
  simp only [bind_returns] at passed
  obtain ⟨_, _, _, valid, _⟩ := passed
  rw [TopologyStore.setTopologyEpoch, valid]
  refine .of_same fun text refused => ?_
  cases refused

theorem dispatchBeginGroupTerm_takesBack (cmd : BeginGroupTerm) (blocked : String) :
    TakesBack stores (dispatchBeginGroupTerm formats stores cmd blocked) := by
  unfold dispatchBeginGroupTerm
  split
  · exact refuse_takesBack blocked
  · apply settle_takesBack
    refine .bind (.topology_final (.start _ _ _) fun _ => .beginGroupTerm) ?_
    exact fun _ inv => inv.invalidateStale.check_final _

theorem dispatchActivateAuthority_takesBack (cmd : ActivateAuthority) :
    TakesBack stores (dispatchActivateAuthority formats stores cmd) := by
  unfold dispatchActivateAuthority
  dsimp only
  split
  · exact refuse_takesBack _
  apply settle_takesBack
  refine .bind (.topology_final (.start _ _ _) fun _ => .authorityActivationKernel) ?_
  exact fun _ inv => inv.invalidateStale.check_final _

theorem dispatchBeginControlled_takesBack (cmd : BeginControlledFailover) :
    TakesBack stores (dispatchBeginControlled formats stores logIndex cmd) := by
  unfold dispatchBeginControlled
  split
  · exact refuse_takesBack _
  split
  · exact replayed_takesBack
  apply afterChecks_takesBack
  intro group _
  apply settle_takesBack
  refine .bind (.topology_final (.start _ _ _) fun _ => .installFailoverTransition) ?_
  exact fun _ inv => inv.check_final _

theorem preemptAll_tracks {operationId : Option Identity} {guarded : Guarded}
    (requests : List OperationRecord) (inv : Guarded.Tracks groupId operationId stores guarded) :
    Guarded.Tracks groupId operationId stores (requests.foldlM preempt guarded).final := by
  induction requests generalizing guarded with
  | nil => exact inv
  | cons record rest ih =>
    refine .bind ((inv.watch record.operationId).journal_final (abortOperation_writes _) ?_)
      fun _ next => ih next
    exact mem_keys_watchOperation.mpr (.inl rfl)

theorem dispatchBeginUncontrolled_takesBack (cmd : BeginUncontrolledFailover) :
    TakesBack stores (dispatchBeginUncontrolled formats stores logIndex cmd) := by
  unfold dispatchBeginUncontrolled
  split
  · exact refuse_takesBack _
  split
  · exact refuse_takesBack _
  split
  · exact replayed_takesBack
  apply afterChecks_takesBack
  intro group _
  apply settle_takesBack
  refine .bind (.topology_final (.start _ _ _) fun _ => .beginGroupTerm) ?_
  intro fenced inv
  refine .bind (inv.topology_final fun _ => .installFailoverTransition) ?_
  intro installed inv
  refine .bind (preemptAll_tracks _ inv) ?_
  exact fun _ inv => inv.invalidateStale.check_final _

theorem replaceTransition_takesBack (groupId : String) (group : GroupState)
    (expected : FailoverTransitionRef) (replacement : FailoverTransition) :
    TakesBack stores (replaceTransition formats stores groupId group expected replacement
      logIndex) := by
  apply settle_takesBack
  refine .bind (.topology_final (.start _ _ _) fun _ => .replaceFailoverTransition) ?_
  exact fun _ inv => inv.check_final _

theorem dispatchSetCandidate_takesBack (cmd : SetUncontrolledCandidate) :
    TakesBack stores (dispatchSetCandidate formats stores logIndex cmd) := by
  unfold dispatchSetCandidate
  split
  · exact refuse_takesBack _
  split
  · exact refuse_takesBack _
  split
  · exact refuse_takesBack _
  split
  · exact replayed_takesBack
  · exact afterChecks_takesBack fun _ _ => replaceTransition_takesBack _ _ _ _

theorem dispatchStartRecovery_takesBack (cmd : StartCandidateRecovery) :
    TakesBack stores (dispatchStartRecovery formats stores logIndex cmd) := by
  unfold dispatchStartRecovery
  split
  · exact refuse_takesBack _
  split
  · exact refuse_takesBack _
  split
  · exact refuse_takesBack _
  split
  · exact refuse_takesBack _
  split
  · exact replayed_takesBack
  · exact afterChecks_takesBack fun _ _ => replaceTransition_takesBack _ _ _ _

theorem dispatchAuthorize_takesBack (cmd : AuthorizeFailoverPrepare) :
    TakesBack stores (dispatchAuthorize formats stores logIndex cmd) := by
  unfold dispatchAuthorize
  split
  · exact refuse_takesBack _
  split
  · exact refuse_takesBack _
  split
  · exact refuse_takesBack _
  dsimp only
  split
  · exact replayed_takesBack
  · exact afterChecks_takesBack fun _ _ => replaceTransition_takesBack _ _ _ _

theorem dispatchAbortControlled_takesBack (cmd : AbortControlledFailover) :
    TakesBack stores (dispatchAbortControlled formats stores cmd) := by
  unfold dispatchAbortControlled
  split
  · exact refuse_takesBack _
  split
  · exact replayed_takesBack
  apply afterChecks_takesBack
  intro _ _
  apply settle_takesBack
  have begun := Guarded.Tracks.start (some cmd.groupId) (some cmd.operationId) stores
  refine .bind (begun.journal_final (abortOperation_writes _) (begun.watched _ rfl)) ?_
  intro aborted inv
  cases cmd.expectedTransition with
  | none => exact inv.check_final _
  | some expected =>
    refine .bind (inv.topology_final fun _ => .clearFailoverTransition) ?_
    exact fun _ inv => inv.check_final _

theorem dispatchDegrade_takesBack (cmd : DegradeControlledFailover) :
    TakesBack stores (dispatchDegrade formats stores logIndex cmd) := by
  unfold dispatchDegrade
  split
  · exact refuse_takesBack _
  split
  · exact refuse_takesBack _
  split
  · exact replayed_takesBack
  apply afterChecks_takesBack
  intro found _
  apply settle_takesBack
  refine .bind (.topology_final (.start _ _ _) fun _ => .beginGroupTerm) ?_
  intro fenced inv
  refine .bind (inv.check_final _) ?_
  intro ok inv
  refine .bind (inv.topology_final fun _ => .replaceFailoverTransition) ?_
  intro replaced inv
  refine .bind (inv.journal_final (abortOperation_writes _) (inv.watched _ rfl)) ?_
  exact fun _ inv => inv.invalidateStale.check_final _

theorem dispatchCommitFailover_takesBack (cmd : CommitFailover) :
    TakesBack stores (dispatchCommitFailover formats stores cmd) := by
  unfold dispatchCommitFailover
  split
  · exact refuse_takesBack _
  split
  · exact replayed_takesBack
  split
  · exact refuse_takesBack _
  next group transition _ =>
  apply afterChecks_takesBack
  intro _ _
  apply settle_takesBack
  have begun := Guarded.Tracks.start (some cmd.groupId) cmd.operationId stores
  have fences : Guarded.Tracks (some cmd.groupId) cmd.operationId stores
      (commitFence cmd transition.targetTerm
        ⟨stores, .start stores (some cmd.groupId) cmd.operationId⟩).final := by
    unfold commitFence
    split
    · exact begun.topology_final fun _ => .beginGroupTerm
    · exact begun
  refine fences.bind ?_
  intro fenced inv
  refine .bind (inv.topology_final fun _ => .authorityActivationKernel) ?_
  intro granted inv
  refine .bind (inv.topology_final fun _ => .clearFailoverTransition) ?_
  intro cleared inv
  have completes : Guarded.Tracks (some cmd.groupId) cmd.operationId stores
      (commitComplete cmd.variant cleared).final := by
    unfold commitComplete
    split
    · exact inv
    · next operationId expectedRevision controlled =>
      apply inv.journal_final (completeOperation_writes _)
      exact inv.watched operationId (by simp [CommitFailover.operationId, controlled])
  exact completes.bind fun _ inv => inv.invalidateStale.check_final _

theorem dispatchTransitionPhase_takesBack (cmd : TransitionOperationPhase) :
    TakesBack stores (dispatchTransitionPhase formats stores logIndex cmd) := by
  unfold dispatchTransitionPhase
  split
  · exact fromStatus_takesBack _
  apply afterChecks_takesBack
  intro _ _
  apply settle_takesBack
  have begun := Guarded.Tracks.start none (some cmd.operationId) stores
  refine .bind (begun.journal_final (fun store after ok => ?_) (begun.watched _ rfl))
    fun _ inv => inv.check_final _
  obtain ⟨record, found, rfl | ⟨_, _, _, rfl⟩⟩ := transitionOperationPhase_returns ok
  · exact .inl rfl
  · exact .inr ⟨record, _, found, rfl, rfl, rfl, rfl⟩

theorem dispatchCompleteOperation_takesBack (cmd : CompleteOperation) :
    TakesBack stores (dispatchCompleteOperation formats stores cmd) := by
  unfold dispatchCompleteOperation
  split
  · exact refuse_takesBack _
  split
  · exact fromStatus_takesBack _
  split
  · exact refuse_takesBack _
  apply afterChecks_takesBack
  intro _ _
  apply settle_takesBack
  have begun := Guarded.Tracks.start none (some cmd.operationId) stores
  refine .bind (begun.journal_final (completeOperation_writes _) (begun.watched _ rfl)) ?_
  exact fun _ inv => inv.topology_final fun _ => .completeClusterCreate

theorem dispatchAbortOperation_takesBack (cmd : AbortOperation) :
    TakesBack stores (dispatchAbortOperation formats stores cmd) := by
  unfold dispatchAbortOperation
  split
  · exact refuse_takesBack _
  split
  · exact fromStatus_takesBack _
  apply afterChecks_takesBack
  intro _ _
  apply settle_takesBack
  have begun := Guarded.Tracks.start none (some cmd.operationId) stores
  refine .bind (begun.journal_final (abortOperation_writes _) (begun.watched _ rfl)) ?_
  exact fun _ inv => inv.topology_final fun _ => .failClusterCreate

variable {decided : Stores × Verdict} {actor : ActorContext}

/-- A submission that the creation of the cluster refuses is taken back: the new record leaves the
journal and its index. -/
theorem dispatchSubmitOperation_takesBack {cmd : SubmitOperation}
    (done : dispatchSubmitOperation formats stores logIndex cmd actor = some decided) :
    TakesBack stores decided := by
  unfold dispatchSubmitOperation at done
  split at done
  · cases done
    exact refuse_takesBack _
  obtain ⟨outcome, submission, rfl⟩ := Option.map_eq_some_iff.mp done
  have begun := Guarded.Tracks.start none (some cmd.operationId) stores
  cases outcome with
  | error text =>
    have stopped : Guarded.Tracks none (some cmd.operationId) stores (final (.error
        ⟨text, ⟨stores, .start stores none (some cmd.operationId)⟩⟩)) := begun
    exact settle_takesBack stopped
  | ok operation =>
    obtain ⟨rfl, _⟩ | ⟨unknown, _, _, fresh, _, rfl⟩ :=
      submitOperation_returns submission
    · -- A replayed submission leaves the journal, so only the lifecycle has to be taken back.
      apply settle_takesBack
      have submitted : Guarded.Tracks none (some cmd.operationId) stores (final
          (.ok ⟨stores, .start stores none (some cmd.operationId)⟩)) := begun
      refine submitted.bind fun _ inv => ?_
      split
      · exact inv.topology_final fun _ => .beginClusterCreate
      · exact inv
    · refine .of_same fun text refused => ?_
      dsimp only [journal, step, Except.map, bind, Except.bind] at refused ⊢
      split at refused
      · next creation =>
        rw [if_pos creation]
        cases created : stores.topology.beginClusterCreate cmd.operationId logIndex with
        | ok topology => simp [Guarded.topology, step, Except.map, created,
            settle] at refused
        | error text =>
          simp only [topology, step, Except.map, created, settle]
          have watched : (start stores none (some cmd.operationId)).operations =
              [(cmd.operationId, none)] := by
            simp [start, watchOperation, findOperation, unknown, AssocMap.set]
          have live := fun record => erase_set_of_get_none record unknown
          have bySeq := erase_set_of_get_none cmd.operationId fresh
          have group : (start stores none (some cmd.operationId)).group = none := rfl
          have seq : (submitted cmd actor logIndex).operationSeq = logIndex := rfl
          simp only [restore, watched, group, foldl_cons, foldl_nil, seq,
            restoreOperation, setLive, get_set_self, live, bySeq]
          rfl
      · cases refused

theorem dispatch_takesBack {cmd : Command}
    (done : dispatch env stores logIndex actor cmd = some decided) : TakesBack stores decided := by
  -- every handler but one always answers
  have answer : (dispatch env stores logIndex actor cmd).getD decided = decided := by
    rw [done]
    rfl
  cases cmd with
  | submitOperation cmd => exact dispatchSubmitOperation_takesBack done
  | beginGroupTerm cmd | fenceGroup cmd =>
    rw [← answer]
    exact dispatchBeginGroupTerm_takesBack cmd _
  | activateAuthority cmd => exact answer ▸ dispatchActivateAuthority_takesBack cmd
  | transitionOperationPhase cmd => exact answer ▸ dispatchTransitionPhase_takesBack cmd
  | completeOperation cmd => exact answer ▸ dispatchCompleteOperation_takesBack cmd
  | abortOperation cmd => exact answer ▸ dispatchAbortOperation_takesBack cmd
  | beginControlledFailover cmd => exact answer ▸ dispatchBeginControlled_takesBack cmd
  | beginUncontrolledFailover cmd => exact answer ▸ dispatchBeginUncontrolled_takesBack cmd
  | setUncontrolledCandidate cmd => exact answer ▸ dispatchSetCandidate_takesBack cmd
  | authorizeFailoverPrepare cmd => exact answer ▸ dispatchAuthorize_takesBack cmd
  | abortControlledFailover cmd => exact answer ▸ dispatchAbortControlled_takesBack cmd
  | degradeControlledFailover cmd => exact answer ▸ dispatchDegrade_takesBack cmd
  | commitFailover cmd => exact answer ▸ dispatchCommitFailover_takesBack cmd
  | startCandidateRecovery cmd => exact answer ▸ dispatchStartRecovery_takesBack cmd
  | updateNode cmd => exact answer ▸ dispatchUpdateNode_takesBack cmd
  | registerNode cmd | retireNode cmd | createGroup cmd
  | assignNodeToGroup cmd | removeNodeFromGroup cmd | setSlotMap cmd
  | putPolicy cmd | archiveOperations seqs | pruneAudit through | pruneOperationArchive seqs
  | bindMetaMember cmd | retireMetaMember serverId | setGroupReplicationState cmd
  | setAuditPolicy policy attestation | putPopulationManifest cmd
  | prunePopulationManifest digest | commitDirectiveResult cmd
  | pruneTerminalReceipts receipts =>
    -- These check before they change anything.
    rw [← answer]
    exact fromStatus_takesBack _

end Commands

/-! ## The state machine -/

theorem applyCommitted_returns {after : Stores}
    (done : applyCommitted env stores index cmd = some (after, verdict)) :
    (∃ text, verdict = .rejected text ∧ after = stores) ∨ (index ≠ 0 ∧ ∃ decided audit,
        dispatch env stores index cmd.actor cmd.body = some (decided, verdict) ∧
          after = { reconcile decided verdict with audit }) := by
  unfold applyCommitted at done
  split at done
  · cases done
    exact .inl ⟨_, rfl, rfl⟩
  next nonzero =>
  split at done
  · cases done
    exact .inl ⟨_, rfl, rfl⟩
  simp only [Option.bind_eq_bind, Option.bind_eq_some_iff] at done
  obtain ⟨⟨decided, judged⟩, dispatched, audit, _, ret⟩ := done
  cases ret
  exact .inr ⟨nonzero, decided, audit, dispatched, rfl⟩

theorem applyCommitted_cases {after : Stores} (nodup : stores.operation.live.keys.Nodup)
    (done : applyCommitted env stores index cmd = some (after, verdict)) :
    (∃ text audit, verdict = .rejected text ∧ after = { stores with audit }) ∨
      (verdict = .accepted ∧ index ≠ 0 ∧ ∃ decided audit,
        dispatch env stores index cmd.actor cmd.body = some (decided, .accepted) ∧
          after = { decided.invalidateStaleCurrentDirectives with audit }) := by
  obtain ⟨text, rfl, rfl⟩ | ⟨nonzero, decided, audit, dispatched, rfl⟩ :=
    applyCommitted_returns done
  · exact .inl ⟨text, after.audit, rfl, rfl⟩
  cases verdict with
  | rejected text =>
    have same : decided = stores := (dispatch_takesBack dispatched).leaves nodup text rfl
    exact .inl ⟨text, audit, rfl, by rw [same]; rfl⟩
  | accepted => exact .inr ⟨rfl, nonzero, decided, audit, dispatched, rfl⟩

theorem metaSystem_effect {before after : MetaState}
    (step : (metaSystem env).step before label after) (keyed : before.stores.operation.Keyed) :
    CommandEffect env.toFormats label.1 label.2.body before.stores after.stores := by
  obtain ⟨_, _, verdict, applied⟩ := step
  obtain ⟨_, audit, _, same⟩ | ⟨_, _, decided, audit, dispatched, same⟩ :=
    applyCommitted_cases keyed.distinct applied
  · rw [same]
    exact .aside rfl rfl rfl
  · rw [same]
    obtain ⟨course, journal, version⟩ := (dispatch_effect dispatched).invalidate
    exact ⟨course, journal, version.imp_left fun kept =>
      ⟨kept.1, kept.2.topology, kept.2.endpoints⟩⟩

theorem metaSystem_keyed {state : MetaState} (reached : (metaSystem env).Reachable state) :
    state.stores.operation.Keyed := by
  apply reached.invariant
  · rintro _ rfl
    exact ⟨nodup_nil, nofun, nofun⟩
  · intro before label after _ keyed stepped
    exact ((metaSystem_effect stepped keyed).journal keyed).keep keyed
      fun _ _ step held => held.step step

theorem metaSystem_journal {before after : MetaState}
    (step : (metaSystem env).step before label after)
    (reached : (metaSystem env).Reachable before) :
    JournalSteps env.toFormats label.1 label.2.body.reasoned before.stores.operation
      after.stores.operation :=
  (metaSystem_effect step (metaSystem_keyed reached)).journal (metaSystem_keyed reached)

/-- **A rejected command changes nothing but the audit log.** In every state committed commands
reach, whatever the command and its log index: if the verdict is a rejection, the stores are the
ones before, with every index they derive, and only the audit window may have grown. -/
theorem rejected_commands_change_nothing (env : Environment) {state : MetaState}
    (reached : (metaSystem env).Reachable state) (index : UInt64) (cmd : CommittedCommand)
    {after : Stores} {text : String}
    (rejected : applyCommitted env state.stores index cmd = some (after, .rejected text)) :
    after = { state.stores with audit := after.audit } := by
  obtain ⟨_, audit, _, same⟩ | ⟨accepted, _⟩ :=
    applyCommitted_cases (metaSystem_keyed reached).distinct rejected
  · rw [same]
  · cases accepted

def withoutPolicy : MetaState := (applyLog permissive {} (firstGrant.take 3)).getD {}

def unprojectedTerm : CommittedCommand := ⟨zeroes 16, ⟨"", ""⟩, .beginGroupTerm ⟨"g", 0, 1⟩⟩

/-- A refusal after the group was written leaves the group as it was. -/
theorem unprojected_term_changes_nothing :
    ∃ after, applyCommitted permissive withoutPolicy.stores 4 unprojectedTerm =
        some (after, .rejected "node control requires the Authority Lease policy") ∧
      after = { withoutPolicy.stores with audit := after.audit } := by
  have applied : applyLog permissive {} (firstGrant.take 3) = some withoutPolicy := by
    have ends : (applyLog permissive {} (firstGrant.take 3)).isSome = true := by decide +kernel
    obtain ⟨final, reached⟩ := Option.isSome_iff_exists.mp ends
    rw [withoutPolicy, reached, Option.getD_some]
  have verdict : (applyCommitted permissive withoutPolicy.stores 4 unprojectedTerm).map
      (fun decided => decided.2) =
        some (.rejected "node control requires the Authority Lease policy") := by decide +kernel
  obtain ⟨⟨after, _⟩, done, same⟩ := Option.map_eq_some_iff.mp verdict
  cases same
  refine ⟨after, done, ?_⟩
  exact rejected_commands_change_nothing permissive
    ((applyLog_run applied).reachable (.start rfl)) 4 unprojectedTerm done

end Lavik.Meta
