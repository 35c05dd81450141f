import Lavik.Tx.Handlers
/-!
# Safety of a shard

Under the callers' contract every handler returns, keeps `Consistent` and leaves the ready queue
empty.
-/

namespace Lavik.Tx

open Base List Function WaiterId

namespace TxShard

variable (shard : TxShard)

def withFastPath (acq : AcquisitionId) (keys : KeySet) (locks : Locks) : TxShard :=
  { { shard with locks }.setNode (.plain acq) { keys } with
    fastpathRuns := shard.fastpathRuns + 1
    guards := acq :: shard.guards }.record (.plain acq) keys
      (shard.committedTxid, shard.fastpathRuns + 1)

theorem withFastPath_registered (acq : AcquisitionId) (keys : KeySet) (locks : Locks) :
    (shard.withFastPath acq keys locks).registered.Perm
      (.plain acq :: shard.registered) := by
  have moved : (shard.resumes ++ acq :: shard.guards).map plain |>.Perm
      (.plain acq :: (shard.resumes ++ shard.guards).map .plain) :=
    perm_middle.map _
  exact (moved.append_left shard.live).trans perm_middle

theorem withFastPath_holding (acq : AcquisitionId) (keys : KeySet) (locks : Locks) :
    (shard.withFastPath acq keys locks).holding =
      update shard.holding (.plain acq) true := by
  funext waiter
  cases waiter with
  | transaction tx => simp [holding, withFastPath, record, setNode]
  | plain other =>
    by_cases same : other = acq
    · subst same
      simp [holding, withFastPath, record, setNode]
    · simp [holding, withFastPath, record, setNode, same]

variable {shard : TxShard} {acq : AcquisitionId} {waiter : WaiterId}

theorem withFastPath_txid (apart : waiter ≠ .plain acq) (keys : KeySet) (locks : Locks) :
    (shard.withFastPath acq keys locks).txid waiter = shard.txid waiter :=
  (congrFun (txid_setNode shard _ _) waiter).trans (update_of_ne apart _ _)

variable {locks : Locks} {keys : KeySet} {txid : Nat} {after middle : TxShard}
  {before : Except Assertion TxShard}

/-- A fast-path acquisition is the last grant of its shard and conflicts with nothing that is
registered. -/
theorem Consistent.withFastPath (inv : shard.Consistent) (fresh : .plain acq ∉ shard.registered)
    (ungranted : ∀ grant ∈ shard.grants, grant.owner ≠ .plain acq)
    (free : ∀ waiter ∈ shard.registered, ¬ Conflict keys.refs (shard.keys waiter).refs)
    (counted : Counted locks (.plain acq :: shard.registered) (update shard.keys (.plain acq) keys)
      (update shard.holding (.plain acq) true)) :
    (shard.withFastPath acq keys locks).Consistent := by
  have registered := withFastPath_registered shard acq keys locks
  have owners := withFastPath_holding shard acq keys locks
  have keySets : (shard.withFastPath acq keys locks).keys = _ := keys_setNode shard _ _
  have apart : ∀ waiter ∈ shard.registered, waiter ≠ .plain acq :=
    fun waiter mem same => fresh (same ▸ mem)
  have queuedApart : ∀ waiter ∈ shard.live, waiter ≠ .plain acq :=
    fun waiter queued => apart waiter (registered_of_live queued)
  have txids : ∀ waiter ∈ shard.live,
      (shard.withFastPath acq keys locks).txid waiter = shard.txid waiter :=
    fun waiter queued => withFastPath_txid (queuedApart waiter queued) keys locks
  refine ⟨{ inv.tasks with }, ?_, ?_, ?_, ?_, ?_, ?_, ?_, ?_, ?_, ?_, ?_⟩
  · rw [owners, keySets]
    exact counted.congr registered (fun _ _ => rfl) (fun _ _ => rfl)
  · exact registered.nodup_iff.mpr (nodup_cons.mpr ⟨fresh, inv.distinct⟩)
  · refine List.Pairwise.imp_of_mem ?_ inv.ascending
    intro a b inA inB less
    rw [txids a inA, txids b inB]
    exact less
  · intro waiter queued
    rw [txids waiter queued]
    exact inv.positive waiter queued
  · intro tx queued granted waiter mem ne conflict
    rw [keySets, update_of_ne (queuedApart _ queued)] at conflict
    rcases mem_cons.mp (registered.mem_iff.mp mem) with rfl | old
    · rw [update_self] at conflict
      exact absurd conflict.symm (free _ (registered_of_live queued))
    rw [update_of_ne (apart waiter old)] at conflict
    rw [owners, update_of_ne (apart waiter old), txids _ queued,
      withFastPath_txid (apart waiter old)]
    exact inv.alone tx queued granted waiter old ne conflict
  · exact forall_mem_append.mpr ⟨inv.published, forall_mem_singleton.mpr (Nat.le_refl _)⟩
  · refine forall_mem_append.mpr ⟨fun grant old => ?_, forall_mem_singleton.mpr (Nat.le_refl _)⟩
    exact Nat.le_succ_of_le (inv.numbered grant old)
  · intro grant logged waiter queued waits conflict
    rw [owners, update_of_ne (queuedApart waiter queued)] at waits
    rw [keySets, update_of_ne (queuedApart waiter queued)] at conflict
    rw [txids waiter queued]
    rcases mem_append.mp logged with old | new
    · exact inv.overtaken grant old waiter queued waits conflict
    · obtain rfl := mem_singleton.mp new
      exact absurd conflict (free waiter (registered_of_live queued))
  · refine pairwise_append.mpr ⟨inv.ordered, pairwise_singleton _ _, ?_⟩
    intro earlier logged later added _
    obtain rfl := mem_singleton.mp added
    have below := inv.published earlier logged
    have before := inv.numbered earlier logged
    refine Prod.Lex.lt_iff.mpr ?_
    change (ofLex earlier.serial).1 < shard.committedTxid ∨
      (ofLex earlier.serial).1 = shard.committedTxid ∧
        (ofLex earlier.serial).2 < shard.fastpathRuns + 1
    omega
  · intro other queued grant logged owner
    rcases mem_append.mp logged with old | new
    · exact inv.ungranted other queued grant old owner
    · obtain rfl := mem_singleton.mp new
      obtain rfl : acq = other := plain.inj owner
      exact fresh (registered_of_live queued)
  · refine pairwise_append.mpr ⟨inv.grantedOnce, pairwise_singleton _ _, ?_⟩
    intro earlier logged later added other owner same
    obtain rfl := mem_singleton.mp added
    obtain rfl : acq = other := plain.inj same
    exact ungranted earlier logged owner

theorem Consistent.counted_register {granted : Bool} (inv : shard.Consistent)
    (fresh : waiter ∉ shard.registered)
    (moved : shard.locks.Moves locks keys.refs 1 (if granted then 1 else 0)) :
    Counted locks (waiter :: shard.registered) (update shard.keys waiter keys)
      (update shard.holding waiter granted) := by
  have apart : ∀ other ∈ shard.registered, other ≠ waiter :=
    fun other mem same => fresh (same ▸ mem)
  have kept := inv.counted.congr (List.Perm.refl _)
    (fun other mem => update_of_ne (apart other mem) keys shard.keys)
    (fun other mem => update_of_ne (apart other mem) granted shard.holding)
  refine ⟨fun slot mode => ?_, fun slot mode => ?_, moved.sound⟩
  · have added := moved.intent slot mode
    rw [intentCount_cons, update_self, ← kept.intents]
    omega
  · have added := moved.held slot mode
    rw [holdCount_cons, update_self, update_self, ← kept.holds]
    cases granted <;> simp at added ⊢ <;> omega

def withQueued (shard : TxShard) (waiter : WaiterId) (node : TxWaiter) (locks : Locks)
    (queue : TxQueue WaiterId) (granted failed : TransactionId → Bool) : TxShard :=
  { shard.setNode waiter node with locks, queue, granted, scheduleFailed := failed }

/-- What registering a waiter needs: it is new, its id is new and above every published one, and
it stays behind the granted entries it conflicts with. -/
structure Admission (shard : TxShard) (waiter : WaiterId) (node : TxWaiter) (locks : Locks)
    (granted : TransactionId → Bool) : Prop where
  fresh : waiter ∉ shard.registered
  unpublished : shard.committedTxid < node.txid
  distinct : ∀ other ∈ shard.live, shard.txid other ≠ node.txid
  idle : Idle node
  sameGrants : ∀ tx, waiter ≠ .transaction tx → granted tx = shard.granted tx
  free : ∀ tx, waiter = .transaction tx → granted tx = true →
    ∀ other ∈ shard.registered, ¬ Conflict node.keys.refs (shard.keys other).refs
  behind : ∀ tx, .transaction tx ∈ shard.live → shard.granted tx = true →
    Conflict (shard.keys (.transaction tx)).refs node.keys.refs →
      shard.txid (.transaction tx) < node.txid
  ungranted : ∀ acq, waiter = .plain acq → ∀ grant ∈ shard.grants, grant.owner ≠ .plain acq
  counted : Counted locks (waiter :: shard.registered)
    (update shard.keys waiter node.keys) (update shard.holding waiter false)

theorem Admission.joins {node : TxWaiter} {granted : TransactionId → Bool}
    (admission : Admission shard waiter node locks granted) (inv : shard.Consistent)
    (failed : TransactionId → Bool) :
    ∃ queue, shard.queue.insert (shard.setNode waiter node).txid waiter = .ok queue ∧
      Joins shard (shard.withQueued waiter node locks queue granted failed) waiter := by
  have txids : ∀ other, other ≠ waiter → (shard.setNode waiter node).txid other =
      shard.txid other := by
    intro other apart
    rw [txid_setNode, update_of_ne apart]
  have self : (shard.setNode waiter node).txid waiter = node.txid := by
    rw [txid_setNode, update_self]
  have apart : ∀ other ∈ shard.live, other ≠ waiter :=
    fun other queued same => admission.fresh (same ▸ registered_of_live queued)
  have ascending : TxQueue.Ascending (shard.setNode waiter node).txid shard.queue := by
    refine List.Pairwise.imp_of_mem ?_ inv.ascending
    intro a b inA inB less
    rw [txids a (apart a inA), txids b (apart b inB)]
    exact less
  have pos : 0 < (shard.setNode waiter node).txid waiter := by
    rw [self]
    exact Nat.zero_lt_of_lt admission.unpublished
  have nodup : ∀ other ∈ shard.queue.live, (shard.setNode waiter node).txid other ≠
      (shard.setNode waiter node).txid waiter := by
    intro other queued
    rw [txids other (apart other queued), self]
    exact admission.distinct other queued
  obtain ⟨queue, smaller, larger, inserted, split, joined, below, above⟩ :=
    TxQueue.insert_spec pos ascending nodup
  have inSmaller : ∀ other ∈ smaller, other ∈ shard.live := by
    intro other mem
    rw [TxShard.live, split]
    exact mem_append_left _ mem
  have inLarger : ∀ other ∈ larger, other ∈ shard.live := by
    intro other mem
    rw [TxShard.live, split]
    exact mem_append_right _ mem
  have keySets : (shard.withQueued waiter node locks queue granted failed).keys =
      update shard.keys waiter node.keys := keys_setNode shard _ _
  have owners : (shard.withQueued waiter node locks queue granted failed).holding =
      update shard.holding waiter false := by
    funext other
    by_cases same : other = waiter
    · subst same
      rw [update_self]
      cases other with
      | transaction tx => simpa [holding, withQueued, setNode] using admission.idle.2.2
      | plain acq =>
        simp only [holding, decide_eq_false_iff_not]
        intro owned
        exact admission.fresh (mem_append_right _ (mem_map_of_mem owned))
    · rw [update_of_ne same]
      cases other with
      | transaction tx => simp [holding, withQueued, setNode, same]
      | plain acq => rfl
  have keysSelf : (shard.withQueued waiter node locks queue granted failed).keys waiter =
      node.keys := by rw [keySets, update_self]
  refine ⟨queue, inserted, admission.fresh, ⟨smaller, larger, split, joined, ?_, ?_⟩, rfl, rfl, rfl,
    ?_, ?_, admission.sameGrants, ?_, ?_, rfl, rfl, rfl, ?_, admission.ungranted, ?_⟩
  · intro other mem
    have less := below other mem
    rwa [txids other (apart other (inSmaller other mem))] at less
  · intro other mem
    have less := above other mem
    rwa [txids other (apart other (inLarger other mem))] at less
  · intro other ne
    simp [withQueued, setNode, ne]
  · intro tx same
    simpa [withQueued, setNode] using admission.idle
  · rw [keysSelf]
    exact admission.free
  · rw [keysSelf]
    intro tx queued grantedBefore conflict
    exact self.symm ▸ admission.behind tx queued grantedBefore conflict
  · exact self.symm ▸ admission.unpublished
  · rw [keySets, owners]
    exact admission.counted

theorem acquireKeys_spec (quiet : shard.Quiescent)
    (enabled : shard.Enabled (.acquire acq keys txid)) :
    ∃ after granted, shard.acquireKeys acq keys txid = .ok (after, granted) ∧
      after.Quiescent ∧ Effect shard after (.acquire acq keys txid) ∧
      (.plain acq ∈ after.live → granted = false ∧ after.txid (.plain acq) = txid) := by
  obtain ⟨fresh, ungranted, unpublished, below⟩ := enabled
  have inv := quiet.consistent
  obtain ⟨locks, granted, tried, admitted, moved⟩ :=
    Locks.tryFastPath_spec inv.counted.sound keys.distinct inv.counted.bounded
  have counted := inv.counted_register fresh moved
  have unqueued : .plain acq ∉ shard.live := fun queued => fresh (registered_of_live queued)
  cases granted with
  | true =>
    have free : ∀ waiter ∈ shard.registered, ¬ Conflict keys.refs (shard.keys waiter).refs :=
      fun waiter mem => inv.counted.no_conflict_of_admits (admitted.mp rfl) mem
    have kept := inv.withFastPath fresh ungranted free counted
    refine ⟨shard.withFastPath acq keys locks, true, ?_,
      ⟨kept, quiet.quiet, quiet.drained⟩, ?_, fun queued => absurd queued unqueued⟩
    · exact bind_returns.mpr ⟨(locks, true), tried, rfl⟩
    · have registered := withFastPath_registered shard acq keys locks
      refine ⟨fun tx _ => ⟨Iff.rfl, rfl, rfl, rfl, Or.inl⟩, ?_, ?_, ?_, fun _ bounded _ => bounded⟩
      · intro other apart queued
        refine ⟨queued, withFastPath_txid (fun same => ?_) keys locks⟩
        exact unqueued (same ▸ queued)
      · intro other apart mem
        refine (mem_cons.mp (registered.mem_iff.mp mem)).resolve_left fun same => apart ?_
        rw [plain.inj same]
        rfl
      · refine ⟨_, rfl, fun grant logged => ?_⟩
        obtain rfl := mem_singleton.mp logged
        refine ⟨fun other owner => registered.mem_iff.mpr ?_, (by simp)⟩
        exact mem_cons.mpr (Or.inl owner.symm)
  | false =>
    have admission : Admission shard (.plain acq) { txid, keys } locks shard.granted :=
      ⟨fresh, unpublished, fun other queued => Nat.ne_of_lt (below other queued), ⟨rfl, rfl, rfl⟩,
        fun _ _ => rfl, (by simp), fun _ queued _ _ => below _ queued,
        fun _ same => plain.inj same ▸ ungranted, counted⟩
    obtain ⟨queue, inserted, joins⟩ := admission.joins inv shard.scheduleFailed
    refine ⟨_, false, bind_returns.mpr ⟨(locks, false), tried, ?_⟩,
      ⟨joins.consistent inv, quiet.quiet, quiet.drained⟩,
      joins.effect (by simp) ?_ fun _ _ => rfl, fun _ => ⟨rfl, ?_⟩⟩
    · simp only [setNode, update_idem]
      exact bind_returns.mpr ⟨queue, inserted, rfl⟩
    · intro other apart same
      exact apart (by rw [plain.inj same]; rfl)
    · simp [TxShard.txid, withQueued, setNode]

structure Scheduled (after : TxShard) (tx : TransactionId) (txid : Nat) : Prop where
  live : .transaction tx ∈ after.live ↔ after.scheduleFailed tx = false
  txid : .transaction tx ∈ after.live → after.txid (.transaction tx) = txid
  idle : after.busy tx = false ∧ (after.node (.transaction tx)).holdsAcquired = false

theorem Consistent.above_tail (inv : shard.Consistent)
    (nodup : ∀ waiter ∈ shard.live, shard.txid waiter ≠ txid)
    (ordered : shard.queue.tailTxid shard.txid = 0 ∨ ¬ txid < shard.queue.tailTxid shard.txid)
    (queued : waiter ∈ shard.live) : shard.txid waiter < txid := by
  have bound := TxQueue.le_tailTxid inv.ascending queued
  have apart := nodup waiter queued
  omega

variable {tx : TransactionId}

theorem Refuses.scheduled (refuses : Refuses shard after tx) (txid : Nat) :
    Scheduled after tx txid := by
  have absent : .transaction tx ∉ after.live := by
    simpa only [TxShard.live, refuses.queue] using refuses.absent
  refine ⟨?_, fun queued => absurd queued absent, ?_, refuses.clear.2.2⟩
  · rw [refuses.scheduleFailed, update_self]
    simpa using absent
  · simp only [busy, refuses.clear.1, refuses.clear.2.1, Bool.or_self]

theorem Joins.scheduled (joins : Joins shard after (.transaction tx))
    (ok : after.scheduleFailed tx = false) : Scheduled after tx (after.txid (.transaction tx)) := by
  obtain ⟨armed, running, held⟩ := joins.clear tx rfl
  refine ⟨iff_of_true ((joins.mem_live _).mpr (Or.inl rfl)) ok, fun _ => rfl, ?_, held⟩
  simp only [busy, armed, running, Bool.or_self]

/-- `ScheduleInShard` refuses a stale or reordered id without a trace in the tables, and puts
every other entry in the queue. -/
theorem scheduleInShard_spec (quiet : shard.Quiescent)
    (enabled : shard.Enabled (.schedule tx keys txid)) :
    ∃ after, shard.scheduleInShard tx keys txid = .ok after ∧ after.Quiescent ∧
      Effect shard after (.schedule tx keys txid) ∧ Scheduled after tx txid := by
  obtain ⟨absent, pos, nodup⟩ := enabled
  have inv := quiet.consistent
  have counted := inv.counted
  have fresh : .transaction tx ∉ shard.registered :=
    fun mem => absent (live_of_registered mem)
  have idle := inv.idle absent
  have acts : ∀ other, (ShardEvent.schedule tx keys txid).actor ≠ some other →
      other ≠ tx := fun other apart same => apart (by rw [same]; rfl)
  have refused : ∀ after, Refuses shard after tx → after.polling = shard.polling →
      after.bypassReady = shard.bypassReady → after.Quiescent ∧
        Effect shard after (.schedule tx keys txid) ∧ Scheduled after tx txid :=
    fun after refuses polling ready =>
      ⟨⟨refuses.consistent inv, polling.trans quiet.quiet,
        ready.trans quiet.drained⟩, refuses.effect acts, refuses.scheduled txid⟩
  unfold scheduleInShard
  simp only
  split
  · -- The id was overtaken by a published one.
    exact ⟨_, rfl, refused _ ⟨absent, rfl, rfl, rfl, rfl, fun _ _ => rfl, idle, fun _ _ => rfl, rfl,
      rfl, rfl, rfl, counted⟩ rfl rfl⟩
  rename_i cur
  have moved := Locks.acquireIntents_spec counted.sound keys.refs
  set node : TxWaiter := { shard.node (.transaction tx) with txid, keys } with nodeEq
  set named : TxShard := { shard with
    locks := (shard.locks.acquireIntents keys.refs).1
    granted := update shard.granted tx
      (shard.locks.acquireIntents keys.refs).2 }.setNode (.transaction tx) node
    with namedEq
  have tail : named.queue.tailTxid named.txid = shard.queue.tailTxid shard.txid := by
    refine TxQueue.tailTxid_congr fun waiter queued => ?_
    have apart : waiter ≠ .transaction tx := fun same => absent (same ▸ queued)
    simp [namedEq, TxShard.txid, setNode, apart]
  split
  · -- The id is out of order behind the tail and the entry would have to wait.
    obtain ⟨locks, released, settled⟩ := @Locks.releaseIntents_spec keys.refs _ moved.sound
      fun slot mode => by
        have added := moved.intent slot mode
        omega
    refine ⟨_, bind_returns.mpr ⟨locks, released, rfl⟩, refused _ ⟨absent, rfl, rfl, rfl, rfl,
      fun other apart => ?_, ?_, fun other apart => update_of_ne apart _ _, rfl, rfl, rfl,
      rfl, counted.unmoved (moved.trans settled)⟩ rfl rfl⟩
    · simp [namedEq, setNode, apart]
    · simpa [Idle, namedEq, setNode, nodeEq] using idle
  · rename_i inOrder
    have conflictFree : (shard.locks.acquireIntents keys.refs).2 = true →
        ∀ other ∈ shard.registered, ¬ Conflict keys.refs (shard.keys other).refs :=
      fun granted other mem => counted.no_conflict_of_admits
        ((Locks.acquireIntents_granted keys.distinct shard.locks).mp granted) mem
    have admission : Admission shard (.transaction tx) node
        (shard.locks.acquireIntents keys.refs).1 (update shard.granted tx
          (shard.locks.acquireIntents keys.refs).2) := by
      refine ⟨fresh, Nat.lt_of_not_le cur, nodup, idle, fun other apart => ?_,
        fun other same granted => ?_, fun other queued granted conflict => ?_, (by simp), ?_⟩
      · exact update_of_ne (fun same => apart (by rw [same])) _ _
      · obtain rfl := transaction.inj same
        rw [update_self] at granted
        exact conflictFree granted
      · cases allowed : (shard.locks.acquireIntents keys.refs).2 with
        | true =>
          exact absurd conflict.symm (conflictFree allowed _ (registered_of_live queued))
        | false =>
          refine inv.above_tail nodup ?_ queued
          rw [← tail]
          simpa [allowed, Classical.or_iff_not_imp_left] using inOrder
      · exact inv.counted_register fresh moved
    obtain ⟨queue, inserted, joins⟩ := admission.joins inv (update shard.scheduleFailed tx false)
    have scheduled := joins.scheduled (by simp [withQueued])
    rw [show (shard.withQueued _ node _ queue _ _).txid (.transaction tx) = txid by
      simp [TxShard.txid, withQueued, setNode, nodeEq]] at scheduled
    refine ⟨_, bind_returns.mpr ⟨queue, inserted, rfl⟩, ⟨joins.consistent inv,
      quiet.quiet, quiet.drained⟩, joins.effect ?_ (by simp) ?_, scheduled⟩
    · exact fun other apart same => acts other apart (transaction.inj same).symm
    · exact fun other apart => update_of_ne (acts other apart) _ _

def withArmed (shard : TxShard) (tx : TransactionId) (ready : List TransactionId) :
    TxShard :=
  { shard.setNode (.transaction tx)
      { shard.node (.transaction tx) with armed := true } with bypassReady := ready }

theorem Consistent.withArmed (inv : shard.Consistent) (queued : .transaction tx ∈ shard.live)
    (stopped : (shard.node (.transaction tx)).running = false) (ready : List TransactionId) :
    (shard.withArmed tx ready).Consistent := by
  have tasks := inv.tasks
  have node : ∀ other, (shard.withArmed tx ready).node (.transaction other) = _ :=
    fun other => setNode_transaction shard tx other _
  refine inv.retask ⟨rfl, rfl, rfl, rfl, rfl, rfl, rfl, rfl, setNode_txid rfl,
    setNode_keys rfl, @setNode_holding_same shard tx _ ?_⟩ (tasks.change tasks.hopsDistinct
      (fun _ _ => Iff.rfl) (fun other apart => by rw [node, if_neg apart])
      (fun _ _ mem => mem) ?_ ?_ (fun _ => queued) fun _ => queued)
  · rfl
  · rw [node, if_pos rfl]
    exact tasks.hopsRunning tx
  · rw [node, if_pos rfl]
    simp [stopped]

theorem withArmed_effect (shard : TxShard) (tx : TransactionId) (ready : List TransactionId) :
    Effect shard (shard.withArmed tx ready) (.arm tx) := by
  have txids : (shard.withArmed tx ready).txid = shard.txid := @setNode_txid shard _ _ rfl
  refine .of_fewer (fun other apart => .of_node Iff.rfl ?_ rfl)
    (fun _ member => ⟨member, congrFun txids _⟩) (fun _ member => member) rfl rfl
  exact (setNode_transaction shard tx other _).trans (if_neg fun same => apart (by rw [same]; rfl))

theorem markArmed_spec (quiet : shard.Quiescent) (enabled : shard.Enabled (.arm tx)) :
    shard.markArmed tx (shard.granted tx) = .ok (shard.withArmed tx
      (if shard.granted tx then [tx] else [])) := by
  obtain ⟨-, unarmed, stopped⟩ := enabled
  cases granted : shard.granted tx with
  | true =>
    simp [markArmed, unarmed, stopped, enqueueBypassReady, withArmed, setNode, quiet.drained]
  | false => simp [markArmed, unarmed, stopped, withArmed, setNode, quiet.drained]

theorem Consistent.resume (inv : shard.Consistent) (pending : acq ∈ shard.resumes) :
    (shard.resume acq).registered.Perm shard.registered ∧ (shard.resume acq).Consistent := by
  have moved : (shard.resumes.erase acq ++ acq :: shard.guards).Perm
      (shard.resumes ++ shard.guards) :=
    perm_middle.trans ((perm_cons_erase pending).symm.append_right shard.guards)
  have registered : (shard.resume acq).registered.Perm shard.registered :=
    (moved.map _).append_left shard.live
  have owners : (shard.resume acq).holding = shard.holding := by
    funext waiter
    cases waiter with
    | transaction tx => rfl
    | plain other => exact decide_eq_decide.mpr moved.mem_iff
  refine ⟨registered, { inv.tasks with }, ?_, ?_, inv.ascending, inv.positive,
    ?_, inv.published, inv.numbered, ?_, inv.ordered, inv.ungranted,
    inv.grantedOnce⟩
  · rw [owners]
    exact inv.counted.congr registered (fun _ _ => rfl) (fun _ _ => rfl)
  · exact registered.nodup_iff.mpr inv.distinct
  · intro tx queued granted waiter mem
    rw [owners]
    exact inv.alone tx queued granted waiter (registered.mem_iff.mp mem)
  · rw [owners]
    exact inv.overtaken

def Outcome (shard after : TxShard) : ShardEvent → Prop
  | .acquire acq _ txid =>
    .plain acq ∈ after.live → after.txid (.plain acq) = txid
  | .schedule tx _ txid => Scheduled after tx txid
  | .cancel tx => .transaction tx ∉ after.live
  | .arm tx =>
    .transaction tx ∈ after.live ∧ after.busy tx = true ∧
      after.txid (.transaction tx) = shard.txid (.transaction tx)
  | .hop tx releasing =>
    after.busy tx = false ∧ (.transaction tx ∈ after.live ↔ releasing = false) ∧
      after.txid (.transaction tx) = shard.txid (.transaction tx)
  | .resume _ | .release _ | .poll => True

structure Prologue (shard middle : TxShard) (event : ShardEvent) : Prop where
  consistent : middle.Consistent
  ready : middle.Ready
  quiet : middle.polling = false
  effect : Effect shard middle event
  published : middle.committedTxid = shard.committedTxid
  fewer : ∀ waiter ∈ middle.live, waiter ∈ shard.live ∧ middle.txid waiter = shard.txid waiter
  outcome : Outcome shard middle event

variable {event : ShardEvent}

theorem Outcome.poll (polls : shard.prologue event = some before)
    (outcome : Outcome shard middle event) (frame : PollFrame middle after) :
    Outcome shard after event := by
  cases event with
  | acquire | schedule => simp [prologue] at polls
  | resume | release | poll => trivial
  | cancel tx => exact fun queued => outcome ((frame.transactions tx).mp queued)
  | arm tx =>
    obtain ⟨queued, busy, txid⟩ := outcome
    refine ⟨(frame.transactions tx).mpr queued, (frame.busy tx).trans busy, ?_⟩
    rw [frame.txid]
    exact txid
  | hop tx releasing =>
    obtain ⟨idle, queued, txid⟩ := outcome
    refine ⟨(frame.busy tx).trans idle, (frame.transactions tx).trans queued, ?_⟩
    rw [frame.txid]
    exact txid

theorem ready_of_drained (drained : shard.bypassReady = []) : shard.Ready := by
  intro tx mem
  simp [drained] at mem

theorem Retires.prologue (retires : Retires shard after waiter) (kept : after.Consistent)
    (quiescent : shard.Quiescent)
    (acts : ∀ tx, event.actor ≠ some tx → waiter ≠ .transaction tx)
    (outcome : Outcome shard after event) : Prologue shard after event where
  consistent := kept
  ready := ready_of_drained (retires.bypassReady.trans quiescent.drained)
  quiet := retires.polling.trans quiescent.quiet
  effect := retires.effect acts
  published := retires.committedTxid
  fewer := retires.fewer
  outcome := outcome

theorem prologue_spec (quiet : shard.Quiescent) (enabled : shard.Enabled event)
    (polls : shard.prologue event = some before) :
    ∃ middle, before = .ok middle ∧ Prologue shard middle event := by
  have inv := quiet.consistent
  cases event with
  | acquire | resume | schedule => simp [prologue] at polls
  | release acq =>
    obtain ⟨middle, dropped, retires, kept⟩ := dropGuard_spec inv enabled
    rw [← Option.some.inj polls]
    exact ⟨middle, dropped, retires.prologue kept quiet (by simp) trivial⟩
  | cancel tx =>
    obtain ⟨queued, unarmed, unheld⟩ := enabled
    obtain ⟨middle, withdrawn, retires, kept⟩ := withdraw_spec inv queued unarmed unheld
    rw [← Option.some.inj polls]
    refine ⟨middle, withdrawn, retires.prologue kept quiet ?_ ?_⟩
    · exact fun other apart same => apart (congrArg some (transaction.inj same))
    · exact retires.left inv
  | arm tx =>
    have marked := markArmed_spec quiet enabled
    obtain ⟨queued, -, stopped⟩ := enabled
    rw [← Option.some.inj polls]
    have txids : (shard.withArmed tx (if shard.granted tx then [tx] else [])).txid = shard.txid :=
      @setNode_txid shard _ _ rfl
    refine ⟨_, marked, inv.withArmed queued stopped _, ?_, quiet.quiet,
      withArmed_effect shard tx _, rfl, ?_, queued, ?_, congrFun txids _⟩
    · intro other mem
      cases granted : shard.granted tx with
      | true =>
        simp only [withArmed, granted, if_true, mem_singleton] at mem
        subst mem
        exact ⟨queued, granted⟩
      | false => simp [withArmed, granted] at mem
    · exact fun waiter mem => ⟨mem, congrFun txids waiter⟩
    · simp [busy, withArmed, setNode]
  | hop tx releasing =>
    cases releasing with
    | false => simp [prologue] at polls
    | true =>
      obtain ⟨locks, queue, retired, retires, kept⟩ := retireHop_spec inv enabled
      rw [← Option.some.inj polls]
      refine ⟨_, retired, retires.prologue kept quiet ?_ ⟨?_, ?_, ?_⟩⟩
      · exact fun other apart same => apart (congrArg some (transaction.inj same))
      · have unarmed := (inv.tasks.runningHeld tx ((inv.tasks.hopsRunning tx).mp enabled)).2
        simp [busy, withRetired_node, unarmed]
      · simpa using retires.left inv
      · exact congrFun retires.txid _
  | poll =>
    rw [← Option.some.inj polls]
    exact ⟨shard, rfl, inv, ready_of_drained quiet.drained, quiet.quiet,
      .of_fewer (fun _ _ => .of_node Iff.rfl rfl rfl) (fun _ mem => ⟨mem, rfl⟩) (fun _ mem => mem)
        rfl rfl, rfl, fun _ mem => ⟨mem, rfl⟩, trivial⟩

/-- Every handler called within its contract returns: no assertion fails. It keeps the invariant,
does to its own acquisition what it is for, and leaves the others alone. -/
theorem handle_spec (quiescent : shard.Quiescent) (enabled : shard.Enabled event) :
    ∃ after, shard.handle event = .ok after ∧ after.Quiescent ∧ Effect shard after event ∧
      Outcome shard after event := by
  have inv := quiescent.consistent
  cases polls : shard.prologue event with
  | some before =>
    obtain ⟨middle, rfl, prologue⟩ := prologue_spec quiescent enabled polls
    obtain ⟨after, polled, kept, frame, quiet, drained⟩ :=
      poll_spec prologue.consistent prologue.ready prologue.quiet
    exact ⟨after, (handle_prologue polls).trans polled, ⟨kept, quiet, drained⟩,
      prologue.effect.poll frame prologue.published prologue.fewer,
      prologue.outcome.poll polls frame⟩
  | none =>
    cases event with
    | acquire acq keys txid =>
      obtain ⟨after, granted, acquired, settled, effect, queued⟩ :=
        acquireKeys_spec quiescent enabled
      exact ⟨after, bind_returns.mpr ⟨(after, granted), acquired, rfl⟩, settled, effect,
        fun mem => (queued mem).2⟩
    | resume acq =>
      obtain ⟨registered, kept⟩ := inv.resume enabled
      exact ⟨_, rfl, ⟨kept, quiescent.quiet, quiescent.drained⟩,
        .of_fewer (fun _ _ => .of_node Iff.rfl rfl rfl) (fun _ mem => ⟨mem, rfl⟩)
          (fun _ mem => registered.mem_iff.mp mem) rfl rfl, trivial⟩
    | schedule tx keys txid => exact scheduleInShard_spec quiescent enabled
    | hop tx releasing =>
      cases releasing with
      | true => simp [prologue] at polls
      | false =>
        obtain ⟨same, tasks⟩ := @stopHop_spec shard tx inv
        have node : ∀ other, (shard.stopHop tx).node (.transaction other) = _ :=
          fun other => setNode_transaction shard tx other _
        have unarmed := (inv.tasks.runningHeld tx ((inv.tasks.hopsRunning tx).mp enabled))
        refine ⟨_, rfl, ⟨inv.retask same tasks, quiescent.quiet, quiescent.drained⟩,
          .of_fewer (fun other apart => .of_node Iff.rfl ?_ rfl)
            (fun _ mem => ⟨mem, congrFun same.txid _⟩) (fun _ mem => mem) rfl rfl, ?_, ?_,
          congrFun same.txid _⟩
        · exact (node other).trans (if_neg fun same => apart (by rw [same]; rfl))
        · simp only [busy, node, if_true, unarmed.2, Bool.or_self]
        · exact iff_of_true (inv.tasks.heldLive tx unarmed.1) rfl
    | release | cancel | arm | poll => simp [prologue] at polls

theorem quiescent_of_reachable (reached : machine.Reachable shard) : shard.Quiescent := by
  refine Machine.Reachable.of_total ⟨consistent_initial, rfl, rfl⟩ ?_ reached
  intro state event quiet enabled
  obtain ⟨after, handled, settled, -, -⟩ := handle_spec quiet enabled
  exact ⟨after, handled, settled⟩

/-! ## The lock tables along every run -/

structure LocksExact (shard : TxShard) : Prop where
  distinct : shard.registered.Nodup
  /-- Intent counters are the numbers of registered acquisitions that name the key. -/
  intents : ∀ slot mode, (shard.locks.entry slot).intent mode =
    shard.registered.countP fun waiter => (shard.keys waiter).Names slot mode
  holds : ∀ slot mode, (shard.locks.entry slot).held mode =
    shard.registered.countP fun waiter => shard.holding waiter ∧ (shard.keys waiter).Names slot mode
  bounded : ∀ slot mode, (shard.locks.entry slot).held mode ≤ (shard.locks.entry slot).intent mode
  exclusive : ∀ slot, 0 < (shard.locks.entry slot).exclusiveHeld →
    (shard.locks.entry slot).exclusiveHeld = 1 ∧ (shard.locks.entry slot).sharedHeld = 0
  stored : ∀ db fp, ((shard.locks db).map fp).isSome = true ↔
    ∃ mode, 0 < (shard.locks.entry (db, fp)).intent mode ∨ 0 < (shard.locks.entry (db, fp)).held
      mode

theorem Consistent.locksExact (inv : shard.Consistent) : shard.LocksExact := by
  have counted := inv.counted
  refine ⟨inv.distinct, counted.intents, counted.holds, counted.bounded, fun slot held => ?_,
    fun db fp => ?_⟩
  · obtain ⟨single, others⟩ := counted.sound.exclusion slot
    have one : (shard.locks.entry slot).exclusiveHeld = 1 := by omega
    exact ⟨one, others one⟩
  · have tidy := counted.sound.tidy (db, fp)
    change ((shard.locks db).map fp).isSome = _ at tidy
    rw [tidy]
    constructor
    · intro busy
      by_contra idle
      have zero : ∀ mode, (shard.locks.entry (db, fp)).intent mode = 0 ∧
          (shard.locks.entry (db, fp)).held mode = 0 := by
        intro mode
        have none := not_exists.mp idle mode
        omega
      have free : (shard.locks.entry (db, fp)).isFree = true := decide_eq_true
        ⟨(zero .shared).1, (zero .exclusive).1, (zero .shared).2, (zero .exclusive).2⟩
      rw [free] at busy
      contradiction
    · rintro ⟨mode, counter⟩
      have intent : 0 < (shard.locks.entry (db, fp)).intent mode := by
        have bound := counted.bounded (db, fp) mode
        omega
      rw [IntentLock.isFree_false_of_intent mode intent]
      rfl

/-- Along every run of a shard the lock tables are exact, and whatever handler is called next
returns: no assertion of the lock tables, the queue or the shard fails. -/
theorem lock_tables_exact {shard : TxShard} (reached : machine.Reachable shard) :
    shard.LocksExact ∧ ∀ event, shard.Enabled event → ∃ after, shard.handle event = .ok after := by
  have quiescent := quiescent_of_reachable reached
  refine ⟨quiescent.consistent.locksExact, fun event enabled => ?_⟩
  obtain ⟨after, handled, -, -, -⟩ := handle_spec quiescent enabled
  exact ⟨after, handled⟩

def oneExclusive : KeySet := ⟨[⟨7, .exclusive, ⟨0, by decide⟩⟩], by decide⟩

def heldAndWanted : TxShard :=
  (machine.play machine.initial [.schedule 0 oneExclusive 1, .arm 0, .acquire 0 oneExclusive 2]).get
    (by decide)

/-- The tables of that shard are exact, with two intents and one hold on the key. -/
theorem lock_tables_exact_held_and_wanted :
    (heldAndWanted.locks.entry (⟨0, by decide⟩, 7)).exclusiveIntent = 2 ∧
      (heldAndWanted.locks.entry (⟨0, by decide⟩, 7)).exclusiveHeld = 1 ∧
      heldAndWanted.LocksExact :=
  ⟨by decide, by decide,
    (lock_tables_exact (Machine.Reachable.play (.start rfl) (Option.some_get _).symm)).1⟩

/-! ## The ready queue along every run -/

structure BypassOrder (shard : TxShard) : Prop where
  referenced : ∀ tx ∈ shard.bypassReady, .transaction tx ∈ shard.live
  behind : ∀ tx earlier later,
    shard.live = earlier ++ .transaction tx :: later → shard.granted tx = true →
    ∀ waiter ∈ shard.live, waiter ≠ .transaction tx →
      Conflict (shard.keys (.transaction tx)).refs (shard.keys waiter).refs → waiter ∈ later
  ascending : shard.live.Pairwise fun first second => shard.txid first < shard.txid second

theorem Consistent.bypassOrder (inv : shard.Consistent) (ready : shard.Ready) :
    shard.BypassOrder := by
  refine ⟨fun tx mem => (ready tx mem).1, ?_, inv.ascending⟩
  intro tx earlier later split granted waiter queued apart conflict
  have self : .transaction tx ∈ shard.live := by simp [split]
  have less := (inv.alone tx self granted waiter (registered_of_live queued) apart conflict).2
  rw [split] at queued
  rcases mem_append.mp queued with before | tail
  · have ascending := inv.ascending
    change shard.live.Pairwise _ at ascending
    rw [split] at ascending
    have more := (pairwise_append.mp ascending).2.2 waiter before _ mem_cons_self
    omega
  · exact (mem_cons.mp tail).resolve_left apart

theorem PollVisits.ready {visited : TxShard} (quiet : shard.Quiescent)
    (enabled : shard.Enabled event) (polls : shard.prologue event = some (.ok middle))
    (visits : PollVisits middle visited) : visited.Consistent ∧ visited.Ready := by
  obtain ⟨found, same, prologue⟩ := prologue_spec quiet enabled polls
  obtain rfl := Except.ok.inj same
  obtain ⟨-, -, drains⟩ := visits
  have settled := prologue.consistent.dropTombstones
  refine drains.ready (settled.polled true _) (prologue.ready.of_frame ?_ fun _ mem => mem)
  exact { PollFrame.dropTombstones middle with }

/-- Along every run of a shard, and at every test of the ready loop of every `Poll`, the ready queue
refers to queued entries, whatever conflicts with a granted entry is behind it and ids ascend. An
armed idle entry at the front of the ready queue that does not own its holds can take them, so the
loop never puts one back. -/
theorem bypass_safety {shard : TxShard} (reached : machine.Reachable shard) :
    shard.BypassOrder ∧ ∀ event middle visited, shard.Enabled event →
      shard.prologue event = some (.ok middle) → PollVisits middle visited →
      visited.BypassOrder ∧ ∀ tx rest, visited.bypassReady = tx :: rest →
        ((visited.node (.transaction tx)).armed = true →
          (visited.node (.transaction tx)).running = false →
          (visited.node (.transaction tx)).holdsAcquired = false →
          visited.locks.canHoldAll (visited.keys (.transaction tx)).refs = true) ∧
        ∃ after, visited.bypassIteration = .ok (after, true) := by
  have quiescent := quiescent_of_reachable reached
  refine ⟨quiescent.consistent.bypassOrder (ready_of_drained quiescent.drained), ?_⟩
  intro event middle visited enabled polls visits
  obtain ⟨consistent, ready⟩ := visits.ready quiescent enabled polls
  refine ⟨consistent.bypassOrder ready, fun tx rest front => ⟨fun _ _ waits => ?_, ?_⟩⟩
  · obtain ⟨queued, granted⟩ := ready tx (by simp [front])
    exact consistent.granted_free queued granted waits
  · obtain ⟨after, iterated, -, -, -⟩ := bypassIteration_spec consistent ready front
    exact ⟨after, iterated⟩

def betweenHops : TxShard :=
  (machine.play machine.initial [.schedule 0 oneExclusive 1, .arm 0, .hop 0 false]).get (by decide)

theorem betweenHops_reachable : machine.Reachable betweenHops :=
  Machine.Reachable.play (.start rfl) (Option.some_get _).symm

def secondHopArmed : TxShard :=
  { betweenHops.withArmed 0 [0] with
    queue := (betweenHops.withArmed 0 [0]).queue.dropTombstones, polling := true }

theorem betweenHops_arm : betweenHops.Enabled (.arm 0) ∧
    betweenHops.prologue (.arm 0) = some (.ok (betweenHops.withArmed 0 [0])) := by
  have enabled : betweenHops.Enabled (.arm 0) := by decide
  refine ⟨enabled, congrArg some ?_⟩
  exact markArmed_spec (quiescent_of_reachable betweenHops_reachable) enabled

theorem secondHopArmed_visited : PollVisits (betweenHops.withArmed 0 [0]) secondHopArmed :=
  ⟨by decide, by decide, .here _⟩

/-- The ready loop meets an armed idle entry whose own exclusive hold stands in its way: the entry
kept the hold of its first hop. -/
theorem bypass_own_hold : ¬ ∀ shard, machine.Reachable shard → ∀ event middle visited,
    shard.Enabled event → shard.prologue event = some (.ok middle) → PollVisits middle visited →
    ∀ tx rest, visited.bypassReady = tx :: rest → (visited.node (.transaction tx)).armed = true →
      (visited.node (.transaction tx)).running = false →
      visited.locks.canHoldAll (visited.keys (.transaction tx)).refs = true := by
  intro always
  have free := always betweenHops betweenHops_reachable (.arm 0) _ secondHopArmed
    betweenHops_arm.1 betweenHops_arm.2 secondHopArmed_visited 0 [] rfl (by decide) (by decide)
  exact absurd free (by decide)

/-- The ready loop of the second hop goes on although the entry's own hold stands in its way. -/
theorem bypass_safety_second_hop : secondHopArmed.BypassOrder ∧
    ∃ after, secondHopArmed.bypassIteration = .ok (after, true) := by
  obtain ⟨-, visits⟩ := bypass_safety betweenHops_reachable
  obtain ⟨order, loop⟩ := visits (.arm 0) _ secondHopArmed betweenHops_arm.1 betweenHops_arm.2
    secondHopArmed_visited
  exact ⟨order, (loop 0 [] rfl).2⟩

end TxShard

end Lavik.Tx
