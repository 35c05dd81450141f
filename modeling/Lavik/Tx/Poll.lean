import Lavik.Tx.ShardInvariant
/-!
# The poll loop

Both loops start an entry only when it comes before everything it conflicts with: a granted entry
because whatever conflicts with it registered later, the head because its id is the least.
-/

namespace Lavik.Tx

open Base List TxQueue

namespace TxShard

structure PollFrame (shard after : TxShard) : Prop where
  live : ∀ waiter ∈ after.live, waiter ∈ shard.live
  transactions : ∀ tx, .transaction tx ∈ after.live ↔ .transaction tx ∈ shard.live
  registered : ∀ waiter, waiter ∈ after.registered ↔ waiter ∈ shard.registered
  txid : after.txid = shard.txid
  keys : after.keys = shard.keys
  granted : after.granted = shard.granted
  scheduleFailed : after.scheduleFailed = shard.scheduleFailed
  busy : ∀ tx, ((after.node (.transaction tx)).armed || (after.node (.transaction tx)).running) =
    ((shard.node (.transaction tx)).armed || (shard.node (.transaction tx)).running)
  armed : ∀ tx, (after.node (.transaction tx)).armed = true →
    (shard.node (.transaction tx)).armed = true
  held : ∀ tx, (after.node (.transaction tx)).holdsAcquired = true →
    (shard.node (.transaction tx)).holdsAcquired = true ∨
      (shard.node (.transaction tx)).armed = true
  heldKept : ∀ tx, (shard.node (.transaction tx)).holdsAcquired = true →
    (after.node (.transaction tx)).holdsAcquired = true
  /-- Every grant added to the history is one of a waiter that was queued and owns its holds
  now. -/
  grants : ∃ added, after.grants = shard.grants ++ added ∧ ∀ grant ∈ added,
    ∃ waiter ∈ shard.live, grant = shard.queuedGrant waiter ∧ ∀ tx, waiter = .transaction tx →
        (after.node (.transaction tx)).holdsAcquired = true
  committed : ∀ bound, shard.committedTxid ≤ bound → (∀ waiter ∈ shard.live, shard.txid waiter ≤
    bound) →
    after.committedTxid ≤ bound

theorem PollFrame.refl (shard : TxShard) : PollFrame shard shard where
  live _ queued := queued
  transactions _ := Iff.rfl
  registered _ := Iff.rfl
  txid := rfl
  keys := rfl
  granted := rfl
  scheduleFailed := rfl
  busy _ := rfl
  armed _ ready := ready
  held _ owned := Or.inl owned
  heldKept _ owned := owned
  grants := ⟨[], by simp, by simp⟩
  committed _ below _ := below

variable {shard : TxShard}

theorem PollFrame.trans {middle after : TxShard} (first : PollFrame shard middle)
    (second : PollFrame middle after) : PollFrame shard after where
  live waiter queued := first.live waiter (second.live waiter queued)
  transactions tx := (second.transactions tx).trans (first.transactions tx)
  registered waiter := (second.registered waiter).trans (first.registered waiter)
  txid := second.txid.trans first.txid
  keys := second.keys.trans first.keys
  granted := second.granted.trans first.granted
  scheduleFailed := second.scheduleFailed.trans first.scheduleFailed
  busy tx := (second.busy tx).trans (first.busy tx)
  armed tx ready := first.armed tx (second.armed tx ready)
  held tx owned := by
    rcases second.held tx owned with before | ready
    · exact first.held tx before
    · exact Or.inr (first.armed tx ready)
  heldKept tx owned := second.heldKept tx (first.heldKept tx owned)
  grants := by
    obtain ⟨early, earlyEq, earlyFrom⟩ := first.grants
    obtain ⟨late, lateEq, lateFrom⟩ := second.grants
    refine ⟨early ++ late, by rw [lateEq, earlyEq, append_assoc], ?_⟩
    intro grant logged
    rcases mem_append.mp logged with old | new
    · obtain ⟨waiter, queued, same, held⟩ := earlyFrom grant old
      exact ⟨waiter, queued, same, fun tx isTransaction =>
        second.heldKept tx (held tx isTransaction)⟩
    obtain ⟨waiter, queued, same, held⟩ := lateFrom grant new
    refine ⟨waiter, first.live waiter queued, ?_, held⟩
    rw [same]
    simp [queuedGrant, first.keys, first.txid]
  committed bound below queued := by
    refine second.committed bound (first.committed bound below queued) fun waiter later => ?_
    rw [first.txid]
    exact queued waiter (first.live waiter later)

theorem PollFrame.publish {waiter : WaiterId} (queued : waiter ∈ shard.live) :
    PollFrame shard (shard.publish (shard.txid waiter)) :=
  { PollFrame.refl shard with
    committed := fun _ below members => Nat.max_le.mpr ⟨below, members waiter queued⟩ }

variable {tx : TransactionId}

/-- A step that writes the node of an armed entry only. -/
theorem PollFrame.setNode {node : TxWaiter} (ready : (shard.node (.transaction tx)).armed = true)
    (txid : node.txid = shard.txid (.transaction tx))
    (keys : node.keys = shard.keys (.transaction tx)) (busy : (node.armed || node.running) = true)
    (kept : (shard.node (.transaction tx)).holdsAcquired = true → node.holdsAcquired = true) :
    PollFrame shard (shard.setNode (.transaction tx) node) := by
  have nodes := fun other => setNode_transaction shard tx other node
  refine { PollFrame.refl shard with
    txid := setNode_txid txid
    keys := setNode_keys keys
    busy := fun other => ?_
    armed := fun other => ?_
    held := fun other => ?_
    heldKept := fun other => ?_
    grants := ⟨[], (append_nil _).symm, by simp⟩ } <;> rw [nodes] <;> split
  · next same => rw [busy, same, ready, Bool.true_or]
  · rfl
  · next same => exact fun _ => same ▸ ready
  · exact id
  · next same => exact fun _ => .inr (same ▸ ready)
  · exact .inl
  · next same => exact same ▸ kept
  · exact id

theorem PollFrame.withHolds {locks : Locks} (queued : .transaction tx ∈ shard.live)
    (ready : (shard.node (.transaction tx)).armed = true) :
    PollFrame shard (shard.withHolds tx locks) := by
  have node : PollFrame shard (shard.setNode (.transaction tx)
      { shard.node (.transaction tx) with holdsAcquired := true }) :=
    .setNode ready rfl rfl (by rw [ready, Bool.true_or]) fun _ => rfl
  refine { node with grants := ⟨[shard.queuedGrant (.transaction tx)], rfl, ?_⟩ }
  intro grant added
  obtain rfl := mem_singleton.mp added
  refine ⟨.transaction tx, queued, rfl, ?_⟩
  rintro _ ⟨⟩
  simp [TxShard.withHolds, TxShard.setNode, record]

theorem PollFrame.launchHop (ready : (shard.node (.transaction tx)).armed = true) :
    PollFrame shard (shard.launchHop tx) := by
  have node : PollFrame shard (shard.setNode (.transaction tx)
      { shard.node (.transaction tx) with armed := false, running := true }) :=
    .setNode ready rfl rfl rfl id
  exact { node with }

/-- A transaction entry that either loop of `Poll` may start. -/
structure Startable (shard : TxShard) (tx : TransactionId) : Prop where
  armed : (shard.node (.transaction tx)).armed = true
  free : (shard.node (.transaction tx)).holdsAcquired = true ∨
    shard.locks.canHoldAll (shard.keys (.transaction tx)).refs = true
  first : ∀ other ∈ shard.live, other ≠ .transaction tx → shard.holding other = false →
    Conflict (shard.keys (.transaction tx)).refs (shard.keys other).refs →
      shard.txid (.transaction tx) < shard.txid other

theorem startTransactionHop_spec (inv : shard.Consistent) (startable : Startable shard tx) :
    ∃ after, shard.startTransactionHop tx = .ok after ∧ after.Consistent ∧
      PollFrame shard after ∧ after.queue = shard.queue ∧
      after.bypassReady = shard.bypassReady ∧ after.polling = shard.polling := by
  have queued := inv.tasks.armedLive tx startable.armed
  have idle : (shard.node (.transaction tx)).running = false := by
    cases running : (shard.node (.transaction tx)).running with
    | false => rfl
    | true =>
      have busy := (inv.tasks.runningHeld tx running).2
      rw [startable.armed] at busy
      contradiction
  have published := inv.publish (shard.txid (.transaction tx))
  have publishing := PollFrame.publish queued
  cases owned : (shard.node (.transaction tx)).holdsAcquired with
  | true =>
    refine ⟨_, ?_, published.launchHop startable.armed owned,
      publishing.trans (.launchHop startable.armed), rfl, rfl, rfl⟩
    simp only [startTransactionHop, owned]
    rfl
  | false =>
    have free : shard.locks.canHoldAll (shard.keys (.transaction tx)).refs = true := by
      rcases startable.free with held | free
      · rw [owned] at held
        contradiction
      · exact free
    have takes : Takes (shard.publish (shard.txid (.transaction tx))) (.transaction tx) :=
      ⟨queued, owned, free, Nat.le_max_right _ _, startable.first⟩
    obtain ⟨locks, held, kept⟩ := holdTransaction_spec published takes idle
    have node := setNode_transaction { shard.publish (shard.txid (.transaction tx)) with
      locks } tx tx { shard.node (.transaction tx) with
        holdsAcquired := true }
    rw [if_pos rfl] at node
    have ready : (((shard.publish (shard.txid (.transaction tx))).withHolds tx
        locks).node (.transaction tx)).armed = true :=
      (congrArg TxWaiter.armed node).trans startable.armed
    have holding : PollFrame (shard.publish (shard.txid (.transaction tx)))
        ((shard.publish (shard.txid (.transaction tx))).withHolds tx locks) :=
      .withHolds queued startable.armed
    refine ⟨_, ?_, kept.launchHop ready (congrArg TxWaiter.holdsAcquired node),
      publishing.trans (holding.trans (.launchHop ready)), rfl, rfl, rfl⟩
    simp only [startTransactionHop, owned]
    exact bind_returns.mpr ⟨_, held, rfl⟩

theorem dropTombstones_frame (shard : TxShard) :
    { shard with queue := shard.queue.dropTombstones }.live = shard.live ∧
      { shard with queue := shard.queue.dropTombstones }.registered = shard.registered := by
  have live : { shard with queue := shard.queue.dropTombstones }.live = shard.live :=
    live_dropTombstones shard.queue
  exact ⟨live, by simp [TxShard.registered, live]⟩

theorem Consistent.dropTombstones (inv : shard.Consistent) :
    { shard with queue := shard.queue.dropTombstones }.Consistent := by
  obtain ⟨live, registered⟩ := dropTombstones_frame shard
  have tasks := inv.tasks
  have thins : Thins shard { shard with queue := shard.queue.dropTombstones } :=
    ⟨live ▸ .refl _, by rw [registered]; exact fun _ mem => mem,
      fun _ _ => ⟨rfl, rfl, rfl⟩, fun _ _ => rfl, rfl, rfl, rfl⟩
  exact thins.consistent inv ⟨tasks.hopsDistinct, tasks.hopsRunning, tasks.runningHeld,
    live ▸ tasks.heldLive, live ▸ tasks.armedLive⟩ (registered ▸ inv.distinct)
    (registered ▸ inv.counted)

theorem PollFrame.dropTombstones (shard : TxShard) :
    PollFrame shard { shard with queue := shard.queue.dropTombstones } := by
  obtain ⟨live, registered⟩ := dropTombstones_frame shard
  exact { PollFrame.refl shard with
    live := by simp [live]
    transactions := by simp [live]
    registered := by simp [registered] }

def withPopped (shard : TxShard) (acq : AcquisitionId) (locks : Locks)
    (queue : TxQueue WaiterId) : TxShard :=
  { shard with
    locks, queue
    queuedRuns := shard.queuedRuns + 1
    resumes := acq :: shard.resumes }.record (.plain acq)
      (shard.keys (.plain acq)) (shard.txid (.plain acq), 0)

variable {acq : AcquisitionId} {locks : Locks} {rest : TxQueue WaiterId}

theorem live_of_head {waiter : WaiterId} (head : shard.queue = some waiter :: rest) :
    shard.live = waiter :: TxQueue.live rest := by simp [TxShard.live, head]

theorem withPopped_registered (head : shard.queue = some (.plain acq) :: rest) :
    (shard.withPopped acq locks rest).registered.Perm shard.registered := by
  unfold registered
  rw [live_of_head head]
  exact perm_middle

theorem withPopped_holding : (shard.withPopped acq locks rest).holding =
      Function.update shard.holding (.plain acq) true := by
  funext waiter
  cases waiter with
  | plain other =>
    by_cases this : other = acq
    · subst this
      simp [holding, withPopped, record]
    · simp [holding, withPopped, record, this]
  | transaction other => simp [holding, withPopped, record]

theorem Consistent.withPopped (inv : shard.Consistent)
    (head : shard.queue = some (.plain acq) :: rest) (takes : Takes shard (.plain acq))
    (counted : Counted locks shard.registered shard.keys
      (Function.update shard.holding (.plain acq) true)) :
    (shard.withPopped acq locks rest).Consistent := by
  have whole := live_of_head head
  have registered := @withPopped_registered shard acq locks rest head
  have queuedRest : ∀ tx, .transaction tx ∈ shard.live → .transaction tx ∈ TxQueue.live rest := by
    intro tx queued
    simpa [whole] using queued
  have tasks := inv.tasks
  refine takes.consistent inv ⟨tasks.hopsDistinct, tasks.hopsRunning, tasks.runningHeld,
      fun tx held => queuedRest tx (tasks.heldLive tx held),
      fun tx armed => queuedRest tx (tasks.armedLive tx armed)⟩
    ?_ ?_ registered ?_ rfl rfl withPopped_holding rfl rfl rfl rfl
  · rw [withPopped_holding]
    exact counted.congr registered (fun _ _ => rfl) (fun _ _ => rfl)
  · rw [whole]
    exact sublist_cons_self _ _
  · intro _ _
    have nodup := (nodup_append.mp inv.distinct).1
    change shard.live.Nodup at nodup
    rw [whole] at nodup
    exact (nodup_cons.mp nodup).1

theorem PollFrame.withPopped (head : shard.queue = some (.plain acq) :: rest) :
    PollFrame shard (shard.withPopped acq locks rest) := by
  have whole := live_of_head head
  have registered := @withPopped_registered shard acq locks rest head
  exact { PollFrame.refl shard with
    live := by
      intro waiter queued
      rw [whole]
      exact mem_cons_of_mem _ queued
    transactions := by
      intro tx
      rw [whole]
      change .transaction tx ∈ TxQueue.live rest ↔ _
      simp
    registered := fun waiter => registered.mem_iff
    grants := by
      refine ⟨[shard.queuedGrant (.plain acq)], rfl, ?_⟩
      intro grant added
      obtain rfl := mem_singleton.mp added
      refine ⟨.plain acq, by simp [whole], rfl, ?_⟩
      rintro _ ⟨⟩ }

theorem startHead_spec (inv : shard.Consistent) :
    ∃ after, shard.startHead = .ok after ∧ after.Consistent ∧ PollFrame shard after ∧
      after.bypassReady = shard.bypassReady := by
  have settled := inv.dropTombstones
  have dropping := PollFrame.dropTombstones shard
  set dropped := { shard with queue := shard.queue.dropTombstones } with droppedEq
  have headless : ∀ waiter, dropped.queue.front = some waiter →
      ∃ rest, dropped.queue = some waiter :: rest := by
    intro waiter first
    have same : dropped.queue.front = shard.queue.front := by
      rw [front_eq, front_eq, droppedEq, live_dropTombstones]
    exact dropTombstones_of_front (same ▸ first)
  unfold startHead
  simp only [← droppedEq]
  cases first : dropped.queue.front with
  | none => exact ⟨dropped, rfl, settled, dropping, rfl⟩
  | some waiter =>
    obtain ⟨rest, head⟩ := headless waiter first
    have whole := live_of_head head
    have least : ∀ other ∈ dropped.live, other ≠ waiter → dropped.holding other = false →
        Conflict (dropped.keys waiter).refs (dropped.keys other).refs →
          dropped.txid waiter < dropped.txid other :=
      fun other queued apart _ _ => settled.head_least whole queued apart
    cases waiter with
    | transaction tx =>
      simp only
      split
      · exact ⟨dropped, rfl, settled, dropping, rfl⟩
      rename_i runnable
      split
      · exact ⟨dropped, rfl, settled, dropping, rfl⟩
      rename_i free
      simp only [Bool.or_eq_true, Bool.not_eq_eq_eq_not, Bool.not_true, not_or,
        Bool.not_eq_true, Bool.not_eq_false] at runnable
      simp only [Bool.and_eq_true, Bool.not_eq_eq_eq_not, Bool.not_true, not_and,
        Bool.not_eq_false] at free
      have startable : Startable dropped tx := by
        refine ⟨runnable.2, ?_, least⟩
        cases held : (dropped.node (.transaction tx)).holdsAcquired with
        | true => exact Or.inl rfl
        | false => exact Or.inr (free held)
      obtain ⟨after, started, kept, frame, -, ready, -⟩ :=
        startTransactionHop_spec settled startable
      exact ⟨after, started, kept, dropping.trans frame, ready⟩
    | plain acq =>
      simp only
      split
      · exact ⟨dropped, rfl, settled, dropping, rfl⟩
      rename_i free
      simp only [Bool.not_eq_eq_eq_not, Bool.not_true, Bool.not_eq_false] at free
      have queued : .plain acq ∈ dropped.live := by simp [whole]
      have published := settled.publish (dropped.txid (.plain acq))
      have takes : Takes (dropped.publish (dropped.txid (.plain acq))) (.plain acq) :=
        ⟨queued, settled.plain_waits queued, free, Nat.le_max_right _ _, least⟩
      obtain ⟨locks, held, counted⟩ := takes.locks published
      refine ⟨(dropped.publish (dropped.txid (.plain acq))).withPopped acq locks
        rest, ?_, published.withPopped head takes counted,
        dropping.trans ((PollFrame.publish queued).trans (PollFrame.withPopped head)), rfl⟩
      refine bind_returns.mpr ⟨locks, held, bind_returns.mpr ⟨rest, ?_, rfl⟩⟩
      change dropped.queue.popFront = .ok rest
      rw [head]
      rfl

/-- Every entry of the ready queue is a granted entry of the ordered queue. -/
def Ready (shard : TxShard) : Prop :=
  ∀ tx ∈ shard.bypassReady, .transaction tx ∈ shard.live ∧ shard.granted tx = true

theorem Ready.of_frame {after : TxShard} (ready : shard.Ready) (frame : PollFrame shard after)
    (fewer : ∀ tx ∈ after.bypassReady, tx ∈ shard.bypassReady) : after.Ready := by
  intro tx mem
  obtain ⟨queued, granted⟩ := ready tx (fewer tx mem)
  rw [frame.granted]
  exact ⟨(frame.transactions tx).mpr queued, granted⟩

/-- An iteration of the ready loop pops its entry and goes on: the branch that leaves the loop
with the entry put back is never taken. -/
theorem bypassIteration_spec {rest : List TransactionId} (inv : shard.Consistent)
    (ready : shard.Ready) (first : shard.bypassReady = tx :: rest) :
    ∃ after, shard.bypassIteration = .ok (after, true) ∧ after.Consistent ∧
      PollFrame shard after ∧ after.bypassReady = rest := by
  obtain ⟨queued, granted⟩ := ready tx (by simp [first])
  have popped : { shard with bypassReady := rest }.Consistent := inv.polled _ rest
  have popping : PollFrame shard { shard with bypassReady := rest } :=
    { PollFrame.refl shard with }
  unfold bypassIteration
  simp only [first]
  split
  · exact ⟨_, rfl, popped, popping, rfl⟩
  rename_i runnable
  simp only [Bool.or_eq_true, Bool.not_eq_eq_eq_not, Bool.not_true, not_or,
    Bool.not_eq_true, Bool.not_eq_false] at runnable
  have free : (shard.node (.transaction tx)).holdsAcquired = true ∨
      shard.locks.canHoldAll (shard.keys (.transaction tx)).refs = true := by
    cases held : (shard.node (.transaction tx)).holdsAcquired with
    | true => exact Or.inl rfl
    | false => exact Or.inr (inv.granted_free queued granted held)
  have open' : ¬ ((!(shard.node (.transaction tx)).holdsAcquired &&
      !shard.locks.canHoldAll (shard.node (.transaction tx)).keys.refs) = true) := by
    simp only [Bool.and_eq_true, Bool.not_eq_eq_eq_not, Bool.not_true, not_and, Bool.not_eq_false]
    intro waits
    rcases free with held | free
    · rw [waits] at held
      contradiction
    · exact free
  rw [if_neg open']
  have startable : Startable { shard with bypassReady := rest } tx :=
    ⟨runnable.1, free, fun other mem apart _ conflict =>
      (inv.alone tx queued granted other (registered_of_live mem) apart conflict).2⟩
  obtain ⟨after, started, kept, frame, -, left, -⟩ := startTransactionHop_spec popped startable
  exact ⟨after, bind_returns.mpr ⟨after, started, rfl⟩, kept, popping.trans frame, left⟩

theorem drainBypass_spec (inv : shard.Consistent) (ready : shard.Ready) :
    ∃ after, drainBypass shard.bypassReady.length shard = .ok after ∧ after.Consistent ∧
      PollFrame shard after ∧ after.bypassReady = [] := by
  induction pending : shard.bypassReady generalizing shard with
  | nil => exact ⟨shard, rfl, inv, .refl shard, pending⟩
  | cons tx rest ih =>
    obtain ⟨next, iterated, kept, frame, left⟩ := bypassIteration_spec inv ready pending
    have readyNext := ready.of_frame frame (by
      rw [left, pending]
      exact fun _ mem => mem_cons_of_mem _ mem)
    obtain ⟨after, drained, settled, rested, empty⟩ := ih kept readyNext left
    refine ⟨after, ?_, settled, frame.trans rested, empty⟩
    exact bind_returns.mpr ⟨(next, true), iterated, drained⟩

/-- `Poll` between two handlers of a consistent shard fails no assertion, keeps the invariant and
leaves the ready queue empty. -/
theorem poll_spec (inv : shard.Consistent) (ready : shard.Ready) (quiet : shard.polling = false) :
    ∃ after, shard.poll = .ok after ∧ after.Consistent ∧ PollFrame shard after ∧
      after.polling = false ∧ after.bypassReady = [] := by
  have settled := inv.dropTombstones
  have dropping := PollFrame.dropTombstones shard
  unfold poll
  rw [if_neg (by simp [quiet])]
  simp only
  split
  · rename_i empty
    refine ⟨_, rfl, settled, dropping, quiet, ?_⟩
    -- A ready entry would be queued, so an empty queue leaves none.
    rw [front_eq, head?_eq_none_iff, live_dropTombstones] at empty
    change shard.bypassReady = []
    rw [eq_nil_iff_forall_not_mem]
    intro tx mem
    have queued := (ready tx mem).1
    rw [TxShard.live, empty] at queued
    simp at queued
  · set entered : TxShard :=
      { shard with queue := shard.queue.dropTombstones, polling := true } with enteredEq
    have entering : PollFrame shard entered := { dropping with }
    obtain ⟨drained, drains, drainedKept, draining, empty⟩ :=
      drainBypass_spec (settled.polled true _) (ready.of_frame entering fun _ mem => mem)
    obtain ⟨started, starts, startedKept, starting, left⟩ := startHead_spec drainedKept
    refine ⟨{ started with polling := false }, ?_, startedKept.polled false _, ?_, rfl,
      left.trans empty⟩
    · exact bind_returns.mpr ⟨drained, drains, bind_returns.mpr ⟨started, starts, rfl⟩⟩
    · have whole := entering.trans (draining.trans starting)
      exact { whole with }

theorem Drains.ready {visited : TxShard} (drains : Drains shard visited)
    (inv : shard.Consistent) (ready : shard.Ready) : visited.Consistent ∧ visited.Ready := by
  induction drains with
  | here shard => exact ⟨inv, ready⟩
  | @next shard after visited iterated rest ih =>
    cases pending : shard.bypassReady with
    | nil => simp [bypassIteration, pending] at iterated
    | cons tx others =>
      obtain ⟨found, same, kept, frame, left⟩ := bypassIteration_spec inv ready pending
      rw [iterated] at same
      obtain rfl : after = found := congrArg Prod.fst (Except.ok.inj same)
      refine ih kept (ready.of_frame frame ?_)
      rw [left, pending]
      exact fun _ mem => mem_cons_of_mem _ mem

end TxShard

end Lavik.Tx
