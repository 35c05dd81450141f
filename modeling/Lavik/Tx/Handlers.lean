import Lavik.Tx.Poll
/-!
# The handlers of a shard

Each handler is a registration, a retirement or a change of flags, followed for most of them by
a poll; `Effect` says what it does to every other acquisition.
-/

namespace Lavik.Tx

open Base List WaiterId Function

namespace ShardEvent

def actor : ShardEvent → Option TransactionId
  | .schedule tx _ _ | .cancel tx | .arm tx | .hop tx _ =>
    some tx
  | .acquire .. | .resume _ | .release _ | .poll => none

def newcomer : ShardEvent → Option AcquisitionId
  | .acquire acq _ _ => some acq
  | _ => none

end ShardEvent

namespace TxShard

def busy (shard : TxShard) (tx : TransactionId) : Bool :=
  (shard.node (.transaction tx)).armed || (shard.node (.transaction tx)).running

structure Quiescent (shard : TxShard) : Prop where
  consistent : shard.Consistent
  quiet : shard.polling = false
  drained : shard.bypassReady = []

/-- An entry that is not armed, runs no hop and owns no holds. -/
def Idle (node : TxWaiter) : Prop :=
  node.armed = false ∧ node.running = false ∧ node.holdsAcquired = false

variable {shard : TxShard} {tx : TransactionId}

theorem Consistent.idle (inv : shard.Consistent) (absent : .transaction tx ∉ shard.live) :
    Idle (shard.node (.transaction tx)) := by
  have tasks := inv.tasks
  have held : (shard.node (.transaction tx)).holdsAcquired = false :=
    Bool.eq_false_iff.mpr fun owned => absent (tasks.heldLive tx owned)
  refine ⟨Bool.eq_false_iff.mpr fun armed => absent (tasks.armedLive tx armed), ?_, held⟩
  refine Bool.eq_false_iff.mpr fun running => ?_
  rw [(tasks.runningHeld tx running).1] at held
  contradiction

/-! ## What a handler does to the rest of the shard -/

/-- What a handler leaves alone of a transaction it does not act for. -/
structure Untouched (shard after : TxShard) (tx : TransactionId) : Prop where
  live : .transaction tx ∈ after.live ↔ .transaction tx ∈ shard.live
  txid : after.txid (.transaction tx) = shard.txid (.transaction tx)
  scheduleFailed : after.scheduleFailed tx = shard.scheduleFailed tx
  busy : after.busy tx = shard.busy tx
  held : (after.node (.transaction tx)).holdsAcquired = true →
    (shard.node (.transaction tx)).holdsAcquired = true ∨ shard.busy tx = true

structure Effect (shard after : TxShard) (event : ShardEvent) : Prop where
  others : ∀ tx, event.actor ≠ some tx → Untouched shard after tx
  queued : ∀ acq, event.newcomer ≠ some acq → .plain acq ∈ after.live → .plain acq ∈ shard.live ∧
      after.txid (.plain acq) = shard.txid (.plain acq)
  registered : ∀ acq, event.newcomer ≠ some acq →
    .plain acq ∈ after.registered → .plain acq ∈ shard.registered
  /-- Every grant added to the history is one of a registered plain acquisition, or one of a
  transaction that owns its holds and carries that transaction's id. -/
  history : ∃ added, after.grants = shard.grants ++ added ∧ ∀ grant ∈ added,
    (∀ acq, grant.owner = .plain acq → .plain acq ∈ after.registered) ∧
    ∀ tx, grant.owner = .transaction tx → (after.node (.transaction tx)).holdsAcquired = true ∧
        grant.serial = toLex (after.txid (.transaction tx), 0)
  committed : ∀ bound, shard.committedTxid ≤ bound →
    (∀ waiter ∈ shard.live, shard.txid waiter ≤ bound) → after.committedTxid ≤ bound

variable {after : TxShard} {event : ShardEvent}

theorem Untouched.of_node (live : .transaction tx ∈ after.live ↔ .transaction tx ∈ shard.live)
    (node : after.node (.transaction tx) = shard.node (.transaction tx))
    (failed : after.scheduleFailed tx = shard.scheduleFailed tx) : Untouched shard after tx :=
  ⟨live, congrArg TxWaiter.txid node, failed, by simp only [TxShard.busy, node],
    fun owned => Or.inl (node ▸ owned)⟩

/-- The effect of a handler that registers and grants nothing. -/
theorem Effect.of_fewer (others : ∀ tx, event.actor ≠ some tx → Untouched shard after tx)
    (fewer : ∀ waiter ∈ after.live, waiter ∈ shard.live ∧ after.txid waiter = shard.txid waiter)
    (registered : ∀ waiter ∈ after.registered, waiter ∈ shard.registered)
    (grants : after.grants = shard.grants) (committed : after.committedTxid = shard.committedTxid) :
    Effect shard after event :=
  ⟨others, fun _ _ => fewer _, fun _ _ => registered _, ⟨[], by simp [grants], by simp⟩,
    fun _ below _ => committed ▸ below⟩

theorem Effect.poll {middle : TxShard} (effect : Effect shard middle event)
    (frame : PollFrame middle after) (published : middle.committedTxid = shard.committedTxid)
    (fewer : ∀ waiter ∈ middle.live, waiter ∈ shard.live ∧ middle.txid waiter = shard.txid waiter) :
    Effect shard after event where
  others tx apart := by
    have before := effect.others tx apart
    refine ⟨(frame.transactions tx).trans before.live, ?_, ?_,
      (frame.busy tx).trans before.busy, fun owned => ?_⟩
    · rw [frame.txid]
      exact before.txid
    · rw [frame.scheduleFailed]
      exact before.scheduleFailed
    · rcases frame.held tx owned with held | armed
      · exact before.held held
      · refine Or.inr ?_
        rw [← before.busy]
        simp [busy, armed]
  queued acq apart member := by
    rw [frame.txid]
    exact effect.queued acq apart (frame.live _ member)
  registered acq apart member :=
    effect.registered acq apart ((frame.registered _).mp member)
  history := by
    obtain ⟨early, earlyEq, earlyFrom⟩ := effect.history
    obtain ⟨late, lateEq, lateFrom⟩ := frame.grants
    refine ⟨early ++ late, by rw [lateEq, earlyEq, append_assoc], fun grant logged => ?_⟩
    rcases mem_append.mp logged with old | new
    · obtain ⟨plain, transactions⟩ := earlyFrom grant old
      refine ⟨fun acq owner => (frame.registered _).mpr (plain acq owner), fun tx owner => ?_⟩
      obtain ⟨held, serial⟩ := transactions tx owner
      rw [frame.txid]
      exact ⟨frame.heldKept tx held, serial⟩
    · obtain ⟨waiter, member, rfl, held⟩ := lateFrom grant new
      refine ⟨fun acq owner => ?_, fun tx owner => ?_⟩
      · obtain rfl : waiter = .plain acq := owner
        exact (frame.registered _).mpr (registered_of_live member)
      · obtain rfl : waiter = .transaction tx := owner
        rw [frame.txid]
        exact ⟨held tx rfl, rfl⟩
  committed bound below members := by
    refine frame.committed bound (published ▸ below) fun waiter member => ?_
    obtain ⟨old, same⟩ := fewer waiter member
    rw [same]
    exact members waiter old

/-! ## Retirement -/

structure Retires (shard after : TxShard) (waiter : WaiterId) : Prop where
  live : after.live = shard.live.erase waiter
  registered : after.registered.Perm (shard.registered.erase waiter)
  txid : after.txid = shard.txid
  keys : after.keys = shard.keys
  holding : ∀ other, other ≠ waiter → after.holding other = shard.holding other
  node : ∀ tx, waiter ≠ .transaction tx →
    after.node (.transaction tx) = shard.node (.transaction tx)
  granted : ∀ tx, waiter ≠ .transaction tx → after.granted tx = shard.granted tx
  scheduleFailed : after.scheduleFailed = shard.scheduleFailed
  grants : after.grants = shard.grants
  committedTxid : after.committedTxid = shard.committedTxid
  fastpathRuns : after.fastpathRuns = shard.fastpathRuns
  polling : after.polling = shard.polling
  bypassReady : after.bypassReady = shard.bypassReady
  counted : Counted after.locks (shard.registered.erase waiter) shard.keys shard.holding

variable {waiter : WaiterId}

section

variable (retires : Retires shard after waiter)

include retires

theorem Retires.consistent (inv : shard.Consistent) (tasks : after.Tasks) : after.Consistent := by
  have nodup := inv.distinct
  have remaining : ∀ other ∈ after.registered, other ∈ shard.registered ∧ other ≠ waiter := by
    intro other mem
    have erased := retires.registered.mem_iff.mp mem
    exact ⟨mem_of_mem_erase erased, (nodup.mem_erase_iff.mp erased).1⟩
  have thins : Thins shard after := by
    refine ⟨?_, fun other mem => (remaining other mem).1, fun other mem =>
      ⟨congrFun retires.txid other, congrFun retires.keys other,
        retires.holding other (remaining other mem).2⟩, fun tx queued => ?_, retires.grants,
      retires.committedTxid, retires.fastpathRuns⟩
    · rw [retires.live]
      exact erase_sublist
    · exact retires.granted tx (Ne.symm (remaining _ (registered_of_live queued)).2)
  refine thins.consistent inv tasks (retires.registered.nodup_iff.mpr (nodup.erase _)) ?_
  rw [retires.keys]
  refine retires.counted.congr retires.registered (fun _ _ => rfl) fun other mem => ?_
  exact retires.holding other (nodup.mem_erase_iff.mp mem).1

theorem Retires.fewer :
    ∀ other ∈ after.live, other ∈ shard.live ∧ after.txid other = shard.txid other := by
  intro other queued
  rw [retires.live] at queued
  exact ⟨mem_of_mem_erase queued, congrFun retires.txid other⟩

theorem Retires.left (inv : shard.Consistent) : waiter ∉ after.live := by
  rw [retires.live]
  exact List.Nodup.not_mem_erase (nodup_append.mp inv.distinct).1

theorem Retires.effect (acts : ∀ tx, event.actor ≠ some tx → waiter ≠ .transaction tx) :
    Effect shard after event := by
  refine .of_fewer (fun tx apart => ?_) retires.fewer
    (fun _ member => mem_of_mem_erase (retires.registered.mem_iff.mp member)) retires.grants
    retires.committedTxid
  have other := acts tx apart
  refine .of_node ?_ (retires.node tx other) (congrFun retires.scheduleFailed _)
  rw [retires.live]
  exact mem_erase_of_ne (Ne.symm other)

end

theorem Retires.stays (retires : Retires shard after (.transaction tx)) (other : TransactionId)
    (apart : other ≠ tx) (queued : .transaction other ∈ shard.live) :
    .transaction other ∈ after.live := by
  rw [retires.live]
  exact (mem_erase_of_ne fun same => apart (transaction.inj same)).mpr queued

theorem registered_erase_live (queued : waiter ∈ shard.live) : shard.registered.erase waiter =
      shard.live.erase waiter ++ (shard.resumes ++ shard.guards).map .plain :=
  erase_append_left _ queued

section

variable (inv : shard.Consistent)

include inv

theorem dropGuard_spec {acq : AcquisitionId} (owned : acq ∈ shard.guards) :
    ∃ after, shard.dropGuard acq = .ok after ∧ Retires shard after (.plain acq) ∧
      after.Consistent := by
  have holds : shard.holding (.plain acq) = true := by simp [holding, owned]
  have inTail : plain acq ∈ (shard.resumes ++ shard.guards).map .plain :=
    mem_map_of_mem (mem_append_right _ owned)
  have mem : .plain acq ∈ shard.registered := mem_append_right _ inTail
  have unqueued : .plain acq ∉ shard.live := by
    intro queued
    have waits := inv.plain_waits queued
    rw [holds] at waits
    contradiction
  obtain ⟨locks, -, released, moved⟩ := Locks.release_spec inv.counted.sound
    (inv.counted.naming_le_held mem holds) (inv.counted.naming_le_intent mem)
  have counted := inv.counted.retire mem (by simp [holds]) moved
  have plainDistinct : (shard.resumes ++ shard.guards).Nodup :=
    List.Nodup.of_map _ (nodup_append.mp inv.distinct).2.1
  have notResumed : acq ∉ shard.resumes := by
    intro resumed
    exact (nodup_append.mp plainDistinct).2.2 _ resumed _ owned rfl
  have retires : Retires shard { shard with locks, guards := shard.guards.erase acq }
      (.plain acq) := by
    refine ⟨(erase_of_not_mem unqueued).symm, ?_, rfl, rfl, ?_, fun _ _ => rfl,
      fun _ _ => rfl, rfl, rfl, rfl, rfl, rfl, rfl, counted⟩
    · have tail : (shard.registered).erase (.plain acq) =
          shard.live ++ ((shard.resumes ++ shard.guards).map .plain).erase (.plain acq) :=
        erase_append_right _ unqueued
      have plain : ((shard.resumes ++ shard.guards).map plain).erase (.plain acq) =
          (shard.resumes ++ shard.guards.erase acq).map .plain := by
        rw [← map_erase (fun _ _ => plain.inj), erase_append_right _ notResumed]
      rw [tail, plain]
      exact List.Perm.refl _
    · intro other apart
      cases other with
      | transaction tx => rfl
      | plain other =>
        have ne : other ≠ acq := fun same => apart (by rw [same])
        simp [holding, mem_erase_of_ne ne]
  exact ⟨_, bind_returns.mpr ⟨locks, released, rfl⟩, retires,
    retires.consistent inv { inv.tasks with }⟩

theorem withdraw_spec (queued : .transaction tx ∈ shard.live)
    (unarmed : (shard.node (.transaction tx)).armed = false)
    (unheld : (shard.node (.transaction tx)).holdsAcquired = false) :
    ∃ after, shard.withdraw tx = .ok after ∧ Retires shard after (.transaction tx) ∧
      after.Consistent := by
  have mem := registered_of_live queued
  obtain ⟨locks, released, moved⟩ := Locks.releaseIntents_spec inv.counted.sound
    (inv.counted.naming_le_intent mem)
  obtain ⟨queue, removed, live⟩ := TxQueue.remove_live queued
  have waits : shard.holding (.transaction tx) = false := unheld
  have counted := inv.counted.retire mem (by simp [waits]) moved
  refine ⟨_, bind_returns.mpr ⟨locks, released, bind_returns.mpr ⟨queue, removed, rfl⟩⟩, ?_⟩
  have retires : Retires shard
      { shard with locks, queue, granted := update shard.granted tx false } (.transaction tx) := by
    refine ⟨live, ?_, rfl, rfl, fun _ _ => rfl, fun _ _ => rfl, ?_, rfl, rfl, rfl, rfl, rfl,
      rfl, counted⟩
    · rw [registered_erase_live queued]
      exact List.Perm.append_right _ (List.Perm.of_eq live)
    · intro other apart
      exact update_of_ne (fun same => apart (by rw [same])) _ _
  have tasks := inv.tasks
  refine ⟨retires, retires.consistent inv (tasks.change tasks.hopsDistinct
    (fun _ _ => Iff.rfl) (fun _ _ => rfl) retires.stays (tasks.hopsRunning tx)
    (tasks.runningHeld tx) (fun owned => ?_) fun armed => ?_)⟩
  · exact absurd owned (Bool.eq_false_iff.mp unheld)
  · exact absurd armed (Bool.eq_false_iff.mp unarmed)

theorem stopHop_spec : SameSchedule shard (shard.stopHop tx) ∧ (shard.stopHop tx).Tasks := by
  have tasks := inv.tasks
  have node : ∀ other, (shard.stopHop tx).node (.transaction other) = _ :=
    fun other => setNode_transaction shard tx other _
  have own := node tx
  rw [if_pos rfl] at own
  refine ⟨⟨rfl, rfl, rfl, rfl, rfl, rfl, rfl, rfl, setNode_txid rfl, setNode_keys rfl,
    @setNode_holding_same shard tx _ ?_⟩, tasks.change (tasks.hopsDistinct.erase _)
      (fun _ apart => mem_erase_of_ne apart)
      (fun other apart => by rw [node, if_neg apart]) (fun _ _ queued => queued) ?_ ?_ ?_ ?_⟩
  · rfl
  · rw [own]
    exact iff_of_false tasks.hopsDistinct.not_mem_erase Bool.false_ne_true
  · rw [own]
    exact fun running => absurd running Bool.false_ne_true
  · rw [own]
    exact tasks.heldLive tx
  · rw [own]
    exact tasks.armedLive tx

end

def withRetired (shard : TxShard) (tx : TransactionId) (locks : Locks)
    (queue : TxQueue WaiterId) : TxShard :=
  let waiter := transaction tx
  { (shard.stopHop tx).setNode waiter
      { (shard.stopHop tx).node waiter with holdsAcquired := false } with locks, queue }

theorem withRetired_node (shard : TxShard) (tx other : TransactionId) (locks : Locks)
    (queue : TxQueue WaiterId) :
    (shard.withRetired tx locks queue).node (.transaction other) =
      if other = tx then { shard.node (.transaction tx) with
        running := false, holdsAcquired := false }
      else shard.node (.transaction other) := by
  by_cases same : other = tx
  · subst same
    simp [withRetired, stopHop, setNode]
  · simp [withRetired, stopHop, setNode, same]

theorem retireHop_spec (inv : shard.Consistent) (spawned : tx ∈ shard.hops) :
    ∃ locks queue, shard.retireHop tx = .ok (shard.withRetired tx locks queue) ∧
      Retires shard (shard.withRetired tx locks queue) (.transaction tx) ∧
      (shard.withRetired tx locks queue).Consistent := by
  have tasks := inv.tasks
  obtain ⟨owned, unarmed⟩ := tasks.runningHeld tx ((tasks.hopsRunning _).mp spawned)
  have queued := tasks.heldLive tx owned
  have mem := registered_of_live queued
  have holds : shard.holding (.transaction tx) = true := owned
  obtain ⟨locks, layered, -, moved⟩ := Locks.release_spec inv.counted.sound
    (inv.counted.naming_le_held mem holds) (inv.counted.naming_le_intent mem)
  obtain ⟨unheld, releasedHolds, releasedIntents⟩ := bind_returns.mp layered
  obtain ⟨queue, removed, live⟩ := TxQueue.remove_live queued
  have counted := inv.counted.retire mem (by simp [holds]) moved
  have node := fun other => withRetired_node shard tx other locks queue
  refine ⟨locks, queue, bind_returns.mpr ⟨unheld, releasedHolds, bind_returns.mpr
    ⟨locks, releasedIntents, bind_returns.mpr ⟨queue, removed, rfl⟩⟩⟩, ?_⟩
  have retires : Retires shard (shard.withRetired tx locks queue) (.transaction tx) := by
    refine ⟨live, ?_, ?_, ?_, ?_, ?_, fun _ _ => rfl, rfl, rfl, rfl, rfl, rfl, rfl, counted⟩
    · rw [registered_erase_live queued]
      exact List.Perm.append_right _ (List.Perm.of_eq live)
    · exact (@setNode_txid (shard.stopHop tx) (.transaction tx)
        { (shard.stopHop tx).node (.transaction tx) with
          holdsAcquired := false } rfl).trans (setNode_txid rfl)
    · exact (@setNode_keys (shard.stopHop tx) (.transaction tx)
        { (shard.stopHop tx).node (.transaction tx) with
          holdsAcquired := false } rfl).trans (setNode_keys rfl)
    · intro other apart
      cases other with
      | plain acq => rfl
      | transaction other =>
        have ne : other ≠ tx := fun same => apart (by rw [same])
        simp only [holding, node, if_neg ne]
    · intro other apart
      rw [node, if_neg fun same => apart (by rw [same])]
  have own := node tx
  rw [if_pos rfl] at own
  refine ⟨retires, retires.consistent inv (tasks.change (tasks.hopsDistinct.erase _)
    (fun _ apart => mem_erase_of_ne apart) (fun other apart => by rw [node, if_neg apart])
    retires.stays ?_ ?_ ?_ ?_)⟩ <;> rw [own]
  · exact iff_of_false tasks.hopsDistinct.not_mem_erase Bool.false_ne_true
  · exact fun running => absurd running Bool.false_ne_true
  · exact fun owned => absurd owned Bool.false_ne_true
  · exact fun armed => absurd armed (Bool.eq_false_iff.mp unarmed)

/-! ## Registration -/

structure Joins (shard after : TxShard) (waiter : WaiterId) : Prop where
  fresh : waiter ∉ shard.registered
  place : ∃ smaller larger, shard.live = smaller ++ larger ∧
    after.live = smaller ++ waiter :: larger ∧
    (∀ other ∈ smaller, shard.txid other < after.txid waiter) ∧
    ∀ other ∈ larger, after.txid waiter < shard.txid other
  resumes : after.resumes = shard.resumes
  guards : after.guards = shard.guards
  hops : after.hops = shard.hops
  node : ∀ other, other ≠ waiter → after.node other = shard.node other
  clear : ∀ tx, waiter = .transaction tx → Idle (after.node waiter)
  granted : ∀ tx, waiter ≠ .transaction tx → after.granted tx = shard.granted tx
  free : ∀ tx, waiter = .transaction tx → after.granted tx = true →
    ∀ other ∈ shard.registered, ¬ Conflict (after.keys waiter).refs (shard.keys other).refs
  behind : ∀ tx, .transaction tx ∈ shard.live → shard.granted tx = true →
    Conflict (shard.keys (.transaction tx)).refs (after.keys waiter).refs →
      shard.txid (.transaction tx) < after.txid waiter
  grants : after.grants = shard.grants
  committedTxid : after.committedTxid = shard.committedTxid
  fastpathRuns : after.fastpathRuns = shard.fastpathRuns
  unpublished : shard.committedTxid < after.txid waiter
  ungranted : ∀ acq, waiter = .plain acq → ∀ grant ∈ shard.grants, grant.owner ≠ .plain acq
  counted : Counted after.locks (waiter :: shard.registered) after.keys after.holding

section

variable (joins : Joins shard after waiter)

include joins

theorem Joins.mem_live (other : WaiterId) :
    other ∈ after.live ↔ other = waiter ∨ other ∈ shard.live := by
  obtain ⟨smaller, larger, split, joined, -, -⟩ := joins.place
  rw [joined, split]
  simp only [mem_append, mem_cons]
  tauto

theorem Joins.registered : after.registered.Perm (waiter :: shard.registered) := by
  obtain ⟨smaller, larger, split, joined, -, -⟩ := joins.place
  unfold TxShard.registered
  rw [joined, split, joins.resumes, joins.guards]
  exact List.Perm.append_right _ perm_middle

theorem Joins.waits : after.holding waiter = false := by
  cases waiter with
  | transaction tx => exact (joins.clear tx rfl).2.2
  | plain acq =>
    simp only [holding, joins.resumes, joins.guards, decide_eq_false_iff_not]
    intro owned
    exact joins.fresh (mem_append_right _ (mem_map_of_mem owned))

theorem Joins.same {other : WaiterId} (apart : other ≠ waiter) :
    after.txid other = shard.txid other ∧ after.keys other = shard.keys other ∧
      after.holding other = shard.holding other := by
  have node := joins.node other apart
  refine ⟨congrArg TxWaiter.txid node, congrArg TxWaiter.keys node, ?_⟩
  cases other with
  | transaction tx => exact congrArg TxWaiter.holdsAcquired node
  | plain acq => simp only [holding, joins.resumes, joins.guards]

theorem Joins.flags (inv : shard.Consistent) (tx : TransactionId) :
    (after.node (.transaction tx)).armed = (shard.node (.transaction tx)).armed ∧
      (after.node (.transaction tx)).running = (shard.node (.transaction tx)).running ∧
      (after.node (.transaction tx)).holdsAcquired =
        (shard.node (.transaction tx)).holdsAcquired := by
  by_cases same : transaction tx = waiter
  · have absent : .transaction tx ∉ shard.live := fun queued =>
      joins.fresh (same ▸ registered_of_live queued)
    obtain ⟨armed, running, held⟩ := inv.idle absent
    have clear := joins.clear tx same.symm
    rw [← same] at clear
    rw [armed, running, held]
    exact clear
  · rw [joins.node _ same]
    exact ⟨rfl, rfl, rfl⟩

theorem Joins.tasks (inv : shard.Consistent) : after.Tasks := by
  have tasks := inv.tasks
  have flags := joins.flags inv
  refine ⟨joins.hops ▸ tasks.hopsDistinct, fun other => ?_, fun other running => ?_,
    fun other held => ?_, fun other armed => ?_⟩
  · rw [joins.hops, (flags other).2.1]
    exact tasks.hopsRunning other
  · rw [(flags other).2.1] at running
    rw [(flags other).1, (flags other).2.2]
    exact tasks.runningHeld other running
  · rw [(flags other).2.2] at held
    exact (joins.mem_live _).mpr (Or.inr (tasks.heldLive other held))
  · rw [(flags other).1] at armed
    exact (joins.mem_live _).mpr (Or.inr (tasks.armedLive other armed))

theorem Joins.ascending (inv : shard.Consistent) : TxQueue.Ascending after.txid after.queue := by
  obtain ⟨smaller, larger, split, joined, below, above⟩ := joins.place
  have old : ∀ other ∈ shard.live, after.txid other = shard.txid other := by
    intro other queued
    exact (joins.same fun same => joins.fresh (same ▸ registered_of_live queued)).1
  have sorted : shard.live.Pairwise fun a b => after.txid a < after.txid b := by
    refine List.Pairwise.imp_of_mem ?_ inv.ascending
    intro a b inA inB less
    rw [old a inA, old b inB]
    exact less
  have before : ∀ other ∈ smaller, after.txid other < after.txid waiter := by
    intro other mem
    rw [old other (by rw [split]; exact mem_append_left _ mem)]
    exact below other mem
  rw [split, pairwise_append] at sorted
  change after.live.Pairwise _
  rw [joined, pairwise_append, pairwise_cons]
  refine ⟨sorted.1, ⟨fun other mem => ?_, sorted.2.1⟩, fun first inSmaller second inLarger => ?_⟩
  · rw [old other (by rw [split]; exact mem_append_right _ mem)]
    exact above other mem
  · rcases mem_cons.mp inLarger with rfl | later
    · exact before first inSmaller
    · exact sorted.2.2 first inSmaller second later

theorem Joins.consistent (inv : shard.Consistent) : after.Consistent := by
  have apart : ∀ other ∈ shard.registered, other ≠ waiter :=
    fun other mem same => joins.fresh (same ▸ mem)
  have waits := joins.waits
  refine ⟨joins.tasks inv, ?_, ?_, joins.ascending inv, ?_, ?_, ?_, ?_, ?_, ?_, ?_, ?_⟩
  · exact joins.counted.congr joins.registered (fun _ _ => rfl) (fun _ _ => rfl)
  · exact joins.registered.nodup_iff.mpr (nodup_cons.mpr ⟨joins.fresh, inv.distinct⟩)
  · intro other queued
    rcases (joins.mem_live other).mp queued with rfl | old
    · exact Nat.zero_lt_of_lt joins.unpublished
    · rw [(joins.same (apart other (registered_of_live old))).1]
      exact inv.positive other old
  · intro tx queued granted other mem ne conflict
    rcases (joins.mem_live _).mp queued with same | old
    · -- The granted entry is the one that joined: nothing conflicts with it.
      subst same
      have earlier := (mem_cons.mp (joins.registered.mem_iff.mp mem)).resolve_left ne
      rw [(joins.same ne).2.1] at conflict
      exact absurd conflict (joins.free tx rfl granted other earlier)
    · have notJoined := apart _ (registered_of_live old)
      obtain ⟨txidSame, keysSame, -⟩ := joins.same notJoined
      rw [joins.granted tx (Ne.symm notJoined)] at granted
      rw [keysSame] at conflict
      rw [txidSame]
      rcases mem_cons.mp (joins.registered.mem_iff.mp mem) with rfl | earlier
      · exact ⟨waits, joins.behind tx old granted conflict⟩
      obtain ⟨otherTxid, otherKeys, otherHolding⟩ := joins.same (apart other earlier)
      rw [otherKeys] at conflict
      rw [otherTxid, otherHolding]
      exact inv.alone tx old granted other earlier ne conflict
  · rw [joins.grants, joins.committedTxid]
    exact inv.published
  · rw [joins.grants, joins.fastpathRuns]
    exact inv.numbered
  · intro grant logged other queued otherWaits conflict
    rw [joins.grants] at logged
    rcases (joins.mem_live other).mp queued with rfl | old
    · exact Nat.lt_of_le_of_lt (inv.published grant logged) joins.unpublished
    obtain ⟨otherTxid, otherKeys, otherHolding⟩ := joins.same (apart other (registered_of_live old))
    rw [otherKeys] at conflict
    rw [otherHolding] at otherWaits
    rw [otherTxid]
    exact inv.overtaken grant logged other old otherWaits conflict
  · rw [joins.grants]
    exact inv.ordered
  · intro acq queued grant logged
    rw [joins.grants] at logged
    rcases (joins.mem_live _).mp queued with same | old
    · exact joins.ungranted acq same.symm grant logged
    · exact inv.ungranted acq old grant logged
  · rw [joins.grants]
    exact inv.grantedOnce

theorem Joins.effect (acts : ∀ tx, event.actor ≠ some tx → waiter ≠ .transaction tx)
    (comes : ∀ acq, event.newcomer ≠ some acq → waiter ≠ .plain acq)
    (failed : ∀ tx, event.actor ≠ some tx → after.scheduleFailed tx = shard.scheduleFailed tx) :
    Effect shard after event where
  others tx apart := by
    have ne := Ne.symm (acts tx apart)
    refine .of_node ?_ (joins.node _ ne) (failed tx apart)
    rw [joins.mem_live]
    exact or_iff_right ne
  queued acq apart member := by
    have ne := Ne.symm (comes acq apart)
    exact ⟨((joins.mem_live _).mp member).resolve_left ne, (joins.same ne).1⟩
  registered acq apart member :=
    (mem_cons.mp (joins.registered.mem_iff.mp member)).resolve_left (Ne.symm (comes acq apart))
  history := ⟨[], by simp [joins.grants], by simp⟩
  committed bound below _ := joins.committedTxid ▸ below

end

/-- A shard on which the schedule of one transaction was refused: whatever it recorded is gone
again. -/
structure Refuses (shard after : TxShard) (tx : TransactionId) : Prop where
  absent : .transaction tx ∉ shard.live
  queue : after.queue = shard.queue
  resumes : after.resumes = shard.resumes
  guards : after.guards = shard.guards
  hops : after.hops = shard.hops
  node : ∀ other, other ≠ .transaction tx → after.node other = shard.node other
  clear : Idle (after.node (.transaction tx))
  granted : ∀ other, other ≠ tx → after.granted other = shard.granted other
  scheduleFailed : after.scheduleFailed = update shard.scheduleFailed tx true
  grants : after.grants = shard.grants
  committedTxid : after.committedTxid = shard.committedTxid
  fastpathRuns : after.fastpathRuns = shard.fastpathRuns
  counted : Counted after.locks shard.registered shard.keys shard.holding

section

variable (refuses : Refuses shard after tx)

include refuses

theorem Refuses.registered : after.registered = shard.registered := by
  simp only [TxShard.registered, TxShard.live, refuses.queue, refuses.resumes, refuses.guards]

theorem Refuses.same (mem : waiter ∈ shard.registered) : after.txid waiter = shard.txid waiter ∧
      after.keys waiter = shard.keys waiter ∧ after.holding waiter = shard.holding waiter := by
  have apart : waiter ≠ .transaction tx := fun same =>
    refuses.absent (live_of_registered (same ▸ mem))
  have node := refuses.node waiter apart
  refine ⟨congrArg TxWaiter.txid node, congrArg TxWaiter.keys node, ?_⟩
  cases waiter with
  | transaction other => exact congrArg TxWaiter.holdsAcquired node
  | plain acq => simp only [holding, refuses.resumes, refuses.guards]

theorem Refuses.consistent (inv : shard.Consistent) : after.Consistent := by
  have live : after.live = shard.live := by simp only [TxShard.live, refuses.queue]
  have registered := refuses.registered
  have tasks := inv.tasks
  obtain ⟨armed, running, held⟩ := refuses.clear
  have thins : Thins shard after := by
    refine ⟨live ▸ .refl _, registered ▸ fun _ mem => mem, fun waiter mem =>
      refuses.same (registered ▸ mem), fun other queued => refuses.granted other fun same => ?_,
      refuses.grants, refuses.committedTxid, refuses.fastpathRuns⟩
    rw [live, same] at queued
    exact refuses.absent queued
  refine thins.consistent inv (tasks.change (refuses.hops ▸ tasks.hopsDistinct)
    (fun _ _ => by rw [refuses.hops]) (fun other apart => refuses.node _ fun same =>
      apart (transaction.inj same)) (fun _ _ queued => live ▸ queued) ?_
    (fun runs => absurd runs (Bool.eq_false_iff.mp running))
    (fun owned => absurd owned (Bool.eq_false_iff.mp held))
    fun ready => absurd ready (Bool.eq_false_iff.mp armed)) (registered ▸ inv.distinct) ?_
  · rw [refuses.hops, tasks.hopsRunning, running, (inv.idle refuses.absent).2.1]
  · rw [registered]
    exact refuses.counted.congr (List.Perm.refl _) (fun _ mem => (refuses.same mem).2.1)
      fun _ mem => (refuses.same mem).2.2

theorem Refuses.effect (acts : ∀ other, event.actor ≠ some other → other ≠ tx) :
    Effect shard after event := by
  have live : after.live = shard.live := congrArg TxQueue.live refuses.queue
  refine .of_fewer (fun other apart => .of_node (by rw [live]) ?_ ?_) (fun waiter queued => ?_)
    (fun _ member => refuses.registered ▸ member) refuses.grants refuses.committedTxid
  · exact refuses.node _ fun same => acts other apart (transaction.inj same)
  · rw [refuses.scheduleFailed, update_of_ne (acts other apart)]
  · rw [live] at queued
    exact ⟨queued, (refuses.same (registered_of_live queued)).1⟩

end

end TxShard

end Lavik.Tx
