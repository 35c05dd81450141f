import Lavik.Tx.Ledger
import Lavik.Tx.TxShard
/-!
# The invariant of a shard

`Consistent` collects what holds on a shard between any two updates of its handlers. Each primitive
of the scheduler keeps it, and each is shown here once.
-/

namespace Lavik.Tx

open Base List Function

namespace TxShard

def holding (shard : TxShard) : WaiterId → Bool
  | .plain acq => acq ∈ shard.resumes ++ shard.guards
  | .transaction tx => (shard.node (.transaction tx)).holdsAcquired

/-- The flags of the transaction nodes agree with the queue and with the worker's tasks. -/
structure Tasks (shard : TxShard) : Prop where
  hopsDistinct : shard.hops.Nodup
  hopsRunning : ∀ tx, tx ∈ shard.hops ↔ (shard.node (.transaction tx)).running = true
  runningHeld : ∀ tx, (shard.node (.transaction tx)).running = true →
    (shard.node (.transaction tx)).holdsAcquired = true ∧
      (shard.node (.transaction tx)).armed = false
  heldLive : ∀ tx, (shard.node (.transaction tx)).holdsAcquired = true →
    .transaction tx ∈ shard.live
  armedLive : ∀ tx, (shard.node (.transaction tx)).armed = true → .transaction tx ∈ shard.live

structure Consistent (shard : TxShard) : Prop where
  tasks : shard.Tasks
  counted : Counted shard.locks shard.registered shard.keys shard.holding
  distinct : shard.registered.Nodup
  ascending : TxQueue.Ascending shard.txid shard.queue
  positive : ∀ waiter ∈ shard.live, 0 < shard.txid waiter
  /-- Whatever conflicts with a granted entry came after it and waits behind it. -/
  alone : ∀ tx, .transaction tx ∈ shard.live → shard.granted tx = true →
    ∀ waiter ∈ shard.registered, waiter ≠ .transaction tx →
      Conflict (shard.keys (.transaction tx)).refs (shard.keys waiter).refs →
        shard.holding waiter = false ∧ shard.txid (.transaction tx) < shard.txid waiter
  published : ∀ grant ∈ shard.grants, (ofLex grant.serial).1 ≤ shard.committedTxid
  numbered : ∀ grant ∈ shard.grants, (ofLex grant.serial).2 ≤ shard.fastpathRuns
  overtaken : ∀ grant ∈ shard.grants, ∀ waiter ∈ shard.live, shard.holding waiter = false →
    Conflict grant.keys.refs (shard.keys waiter).refs → (ofLex grant.serial).1 < shard.txid waiter
  ordered : shard.grants.Pairwise fun earlier later =>
    Conflict earlier.keys.refs later.keys.refs → earlier.serial < later.serial
  ungranted : ∀ acq, .plain acq ∈ shard.live → ∀ grant ∈ shard.grants, grant.owner ≠ .plain acq
  grantedOnce : shard.grants.Pairwise fun earlier later =>
    ∀ acq, earlier.owner = .plain acq → later.owner ≠ .plain acq

theorem consistent_initial : Consistent {} where
  tasks := ⟨nodup_nil, by simp, by simp, by simp, by simp⟩
  counted := Counted.nil
  distinct := nodup_nil
  ascending := List.Pairwise.nil
  positive := by simp [live]
  alone := by simp [live]
  published := by simp
  numbered := by simp
  overtaken := by simp
  ordered := List.Pairwise.nil
  ungranted := by simp
  grantedOnce := List.Pairwise.nil

/-- Two shards differ in nothing but flags that do not own holds, ready entries and tasks. -/
structure SameSchedule (shard after : TxShard) : Prop where
  locks : after.locks = shard.locks
  queue : after.queue = shard.queue
  resumes : after.resumes = shard.resumes
  guards : after.guards = shard.guards
  granted : after.granted = shard.granted
  committedTxid : after.committedTxid = shard.committedTxid
  fastpathRuns : after.fastpathRuns = shard.fastpathRuns
  grants : after.grants = shard.grants
  txid : after.txid = shard.txid
  keys : after.keys = shard.keys
  holding : after.holding = shard.holding

variable {shard after : TxShard} {tx : TransactionId}

/-- A shard that kept some of its acquisitions as they were and granted nothing. -/
structure Thins (shard after : TxShard) : Prop where
  live : after.live.Sublist shard.live
  registered : ∀ waiter ∈ after.registered, waiter ∈ shard.registered
  same : ∀ waiter ∈ after.registered, after.txid waiter = shard.txid waiter ∧
    after.keys waiter = shard.keys waiter ∧ after.holding waiter = shard.holding waiter
  granted : ∀ tx, .transaction tx ∈ after.live → after.granted tx = shard.granted tx
  grants : after.grants = shard.grants
  committedTxid : after.committedTxid = shard.committedTxid
  fastpathRuns : after.fastpathRuns = shard.fastpathRuns

theorem Thins.consistent (thins : Thins shard after) (inv : shard.Consistent)
    (tasks : after.Tasks) (nodup : after.registered.Nodup)
    (counted : Counted after.locks after.registered after.keys after.holding) :
    after.Consistent := by
  have queued : ∀ waiter ∈ after.live, waiter ∈ shard.live ∧ waiter ∈ after.registered :=
    fun waiter mem => ⟨thins.live.subset mem, mem_append_left _ mem⟩
  refine ⟨tasks, counted, nodup, ?_, ?_, ?_, ?_, ?_, ?_, ?_, ?_, ?_⟩
  · refine List.Pairwise.imp_of_mem ?_ (inv.ascending.sublist thins.live)
    intro a b inA inB less
    rw [(thins.same a (queued a inA).2).1, (thins.same b (queued b inB).2).1]
    exact less
  · intro waiter mem
    rw [(thins.same waiter (queued waiter mem).2).1]
    exact inv.positive waiter (queued waiter mem).1
  · intro tx mem granted waiter registered apart conflict
    obtain ⟨before, listed⟩ := queued _ mem
    obtain ⟨txid, keys, -⟩ := thins.same _ listed
    obtain ⟨otherTxid, otherKeys, holding⟩ := thins.same waiter registered
    rw [keys, otherKeys] at conflict
    rw [thins.granted tx mem] at granted
    rw [txid, otherTxid, holding]
    exact inv.alone tx before granted waiter (thins.registered waiter registered) apart conflict
  · rw [thins.grants, thins.committedTxid]
    exact inv.published
  · rw [thins.grants, thins.fastpathRuns]
    exact inv.numbered
  · intro grant logged waiter mem waits conflict
    obtain ⟨before, listed⟩ := queued waiter mem
    obtain ⟨txid, keys, holding⟩ := thins.same waiter listed
    rw [thins.grants] at logged
    rw [keys] at conflict
    rw [holding] at waits
    rw [txid]
    exact inv.overtaken grant logged waiter before waits conflict
  · rw [thins.grants]
    exact inv.ordered
  · intro acq mem grant logged
    rw [thins.grants] at logged
    exact inv.ungranted acq (queued _ mem).1 grant logged
  · rw [thins.grants]
    exact inv.grantedOnce

theorem Tasks.change (tasks : shard.Tasks) (nodup : after.hops.Nodup)
    (hops : ∀ other, other ≠ tx → (other ∈ after.hops ↔ other ∈ shard.hops))
    (node : ∀ other, other ≠ tx → after.node (.transaction other) = shard.node (.transaction other))
    (live : ∀ other, other ≠ tx → .transaction other ∈ shard.live → .transaction other ∈ after.live)
    (spawned : tx ∈ after.hops ↔ (after.node (.transaction tx)).running = true)
    (running : (after.node (.transaction tx)).running = true →
      (after.node (.transaction tx)).holdsAcquired = true ∧
        (after.node (.transaction tx)).armed = false)
    (held : (after.node (.transaction tx)).holdsAcquired = true → .transaction tx ∈ after.live)
    (armed : (after.node (.transaction tx)).armed = true → .transaction tx ∈ after.live) :
    after.Tasks := by
  refine ⟨nodup, fun other => ?_, fun other => ?_, fun other => ?_, fun other => ?_⟩ <;>
    by_cases same : other = tx
  · exact same ▸ spawned
  · rw [hops other same, node other same]
    exact tasks.hopsRunning other
  · exact same ▸ running
  · rw [node other same]
    exact tasks.runningHeld other
  · exact same ▸ held
  · rw [node other same]
    exact fun owned => live other same (tasks.heldLive other owned)
  · exact same ▸ armed
  · rw [node other same]
    exact fun ready => live other same (tasks.armedLive other ready)

theorem Consistent.retask (inv : shard.Consistent) (same : SameSchedule shard after)
    (tasks : after.Tasks) : after.Consistent := by
  have live : after.live = shard.live := congrArg TxQueue.live same.queue
  have registered : after.registered = shard.registered := by
    rw [TxShard.registered, live, same.resumes, same.guards]
    rfl
  have thins : Thins shard after :=
    ⟨live ▸ .refl _, by rw [registered]; exact fun _ mem => mem,
      fun waiter _ => ⟨congrFun same.txid waiter, congrFun same.keys waiter,
        congrFun same.holding waiter⟩,
      fun tx _ => congrFun same.granted tx, same.grants, same.committedTxid, same.fastpathRuns⟩
  refine thins.consistent inv tasks (registered ▸ inv.distinct) ?_
  rw [registered, same.locks, same.keys, same.holding]
  exact inv.counted

theorem Consistent.polled (inv : shard.Consistent) (polling : Bool)
    (bypassReady : List TransactionId) : { shard with polling, bypassReady }.Consistent :=
  inv.retask ⟨rfl, rfl, rfl, rfl, rfl, rfl, rfl, rfl, rfl, rfl, rfl⟩ { inv.tasks with }

/-! ## Reading registration off the state -/

variable {waiter : WaiterId}

theorem registered_of_live (queued : waiter ∈ shard.live) :
    waiter ∈ shard.registered := mem_append_left _ queued

theorem live_of_registered (mem : .transaction tx ∈ shard.registered) :
    .transaction tx ∈ shard.live := by
  rcases mem_append.mp mem with queued | plain
  · exact queued
  · simp at plain

variable {acq : AcquisitionId} {node : TxWaiter}

section

variable (inv : shard.Consistent)

include inv

theorem Consistent.plain_waits (queued : .plain acq ∈ shard.live) :
    shard.holding (.plain acq) = false := by
  have apart := (nodup_append.mp inv.distinct).2.2 _ queued
  simp only [holding, decide_eq_false_iff_not]
  intro owned
  exact apart _ (mem_map_of_mem owned) rfl

theorem Consistent.head_least {head : WaiterId} {rest : List WaiterId}
    (first : shard.live = head :: rest) (queued : waiter ∈ shard.live) (apart : waiter ≠ head) :
    shard.txid head < shard.txid waiter := by
  have ascending := inv.ascending
  change shard.live.Pairwise _ at ascending
  rw [first] at ascending queued
  rcases mem_cons.mp queued with same | later
  · exact absurd same apart
  · exact (pairwise_cons.mp ascending).1 waiter later

theorem Consistent.granted_free (queued : .transaction tx ∈ shard.live)
    (granted : shard.granted tx = true)
    (waits : (shard.node (.transaction tx)).holdsAcquired = false) :
    shard.locks.canHoldAll (shard.keys (.transaction tx)).refs = true := by
  rw [inv.counted.canHoldAll_iff]
  intro waiter mem owns conflict
  by_cases same : waiter = .transaction tx
  · subst same
    change (shard.node (.transaction tx)).holdsAcquired = true at owns
    rw [waits] at owns
    contradiction
  · have blocked := (inv.alone tx queued granted waiter mem same conflict).1
    rw [owns] at blocked
    contradiction

theorem Consistent.grant_unique {grant other : Grant} (logged : grant ∈ shard.grants)
    (otherLogged : other ∈ shard.grants) (owner : grant.owner = .plain acq)
    (otherOwner : other.owner = .plain acq) : other = grant := by
  obtain ⟨before, behind, split⟩ := append_of_mem logged
  have once := inv.grantedOnce
  rw [split] at once otherLogged
  obtain ⟨-, rest, cross⟩ := pairwise_append.mp once
  rcases mem_append.mp otherLogged with earlier | tail
  · exact absurd owner (cross other earlier grant mem_cons_self acq otherOwner)
  · rcases mem_cons.mp tail with same | later
    · exact same
    · exact absurd otherOwner ((pairwise_cons.mp rest).1 other later acq owner)

/-! ## Primitives of `Poll` -/

theorem Consistent.publish (txid : Nat) : (shard.publish txid).Consistent :=
  { inv with
    tasks := { inv.tasks with }
    published := fun grant logged =>
      Nat.le_trans (inv.published grant logged) (Nat.le_max_left _ _) }

end

/-- What taking the holds of a waiter adds to the history. The waiter must come before every
waiter it conflicts with. -/
structure Takes (shard : TxShard) (waiter : WaiterId) : Prop where
  queued : waiter ∈ shard.live
  waits : shard.holding waiter = false
  free : shard.locks.canHoldAll (shard.keys waiter).refs = true
  visible : shard.txid waiter ≤ shard.committedTxid
  first : ∀ other ∈ shard.live, other ≠ waiter → shard.holding other = false →
    Conflict (shard.keys waiter).refs (shard.keys other).refs → shard.txid waiter < shard.txid other

def queuedGrant (shard : TxShard) (waiter : WaiterId) : Grant :=
  ⟨waiter, shard.keys waiter, toLex (shard.txid waiter, 0)⟩

theorem Consistent.recorded (inv : shard.Consistent) (mem : waiter ∈ shard.registered) :
    ∀ key ∈ (shard.keys waiter).refs, 0 < (shard.locks.entry key.slot).intent key.mode := by
  intro key named
  exact Nat.lt_of_lt_of_le (naming_pos named) (inv.counted.naming_le_intent mem key.slot key.mode)

section

variable (takes : Takes shard waiter) (inv : shard.Consistent)

include takes inv

theorem Takes.no_granted (queued : .transaction tx ∈ shard.live) (granted : shard.granted tx = true)
    (apart : waiter ≠ .transaction tx) :
    ¬ Conflict (shard.keys (.transaction tx)).refs (shard.keys waiter).refs := by
  intro conflict
  have behind := (inv.alone tx queued granted waiter
    (registered_of_live takes.queued) apart conflict).2
  cases owns : shard.holding (.transaction tx) with
  | true =>
    exact (inv.counted.canHoldAll_iff _).mp takes.free _ (registered_of_live queued) owns
      conflict.symm
  | false =>
    have before := takes.first _ queued (Ne.symm apart) owns conflict.symm
    omega

/-- A step that takes the holds of one waiter and logs the grant keeps the invariant. A plain
acquisition leaves the queue with it. -/
theorem Takes.consistent (tasks : after.Tasks)
    (counted : Counted after.locks after.registered after.keys after.holding)
    (live : after.live.Sublist shard.live) (registered : after.registered.Perm shard.registered)
    (left : ∀ acq, waiter = .plain acq → waiter ∉ after.live) (txids : after.txid = shard.txid)
    (keySets : after.keys = shard.keys)
    (owners : after.holding = update shard.holding waiter true)
    (granted : after.granted = shard.granted)
    (grants : after.grants = shard.grants ++ [shard.queuedGrant waiter])
    (committed : after.committedTxid = shard.committedTxid)
    (runs : after.fastpathRuns = shard.fastpathRuns) : after.Consistent := by
  refine ⟨tasks, counted, registered.nodup_iff.mpr inv.distinct, ?_, ?_, ?_, ?_, ?_, ?_, ?_, ?_, ?_⟩
  · rw [txids]
    exact inv.ascending.sublist live
  · intro other queued
    rw [txids]
    exact inv.positive other (live.subset queued)
  · intro tx queued allowed other mem apart conflict
    rw [granted] at allowed
    rw [keySets] at conflict
    rw [txids, owners]
    by_cases this : other = waiter
    · subst this
      exact absurd conflict (takes.no_granted inv (live.subset queued) allowed apart)
    · rw [update_of_ne this]
      exact inv.alone tx (live.subset queued) allowed other (registered.mem_iff.mp mem) apart
        conflict
  all_goals rw [grants]
  · rw [committed]
    exact forall_mem_append.mpr ⟨inv.published, forall_mem_singleton.mpr takes.visible⟩
  · rw [runs]
    exact forall_mem_append.mpr ⟨inv.numbered, forall_mem_singleton.mpr (Nat.zero_le _)⟩
  · intro grant logged other queued waits conflict
    rw [keySets] at conflict
    rw [owners] at waits
    rw [txids]
    by_cases this : other = waiter
    · subst this
      simp at waits
    rw [update_of_ne this] at waits
    rcases mem_append.mp logged with old | new
    · exact inv.overtaken grant old other (live.subset queued) waits conflict
    · obtain rfl := mem_singleton.mp new
      exact takes.first other (live.subset queued) this waits conflict
  · refine pairwise_append.mpr ⟨inv.ordered, pairwise_singleton _ _, ?_⟩
    intro earlier logged later added conflict
    obtain rfl := mem_singleton.mp added
    exact Prod.Lex.lt_iff.mpr
      (Or.inl (inv.overtaken earlier logged waiter takes.queued takes.waits conflict))
  · intro acq queued grant logged owner
    rcases mem_append.mp logged with old | new
    · exact inv.ungranted acq (live.subset queued) grant old owner
    · obtain rfl := mem_singleton.mp new
      obtain rfl : waiter = .plain acq := owner
      exact left acq rfl queued
  · refine pairwise_append.mpr ⟨inv.grantedOnce, pairwise_singleton _ _, ?_⟩
    intro earlier logged later added acq owner same
    obtain rfl := mem_singleton.mp added
    obtain rfl : waiter = .plain acq := same
    exact inv.ungranted acq takes.queued earlier logged owner

theorem Takes.locks :
    ∃ after, shard.locks.acquireHolds (shard.keys waiter).refs = .ok after ∧
      Counted after shard.registered shard.keys (update shard.holding waiter true) := by
  have mem := registered_of_live takes.queued
  obtain ⟨after, held, moved⟩ := Locks.acquireHolds_spec inv.counted.sound
    (shard.keys waiter).distinct takes.free (inv.recorded mem)
  exact ⟨after, held, inv.counted.take inv.distinct mem takes.waits moved⟩

end

theorem txid_setNode (shard : TxShard) (waiter : WaiterId) (node : TxWaiter) :
    (shard.setNode waiter node).txid = update shard.txid waiter node.txid :=
  comp_update TxWaiter.txid shard.node waiter node

theorem keys_setNode (shard : TxShard) (waiter : WaiterId) (node : TxWaiter) :
    (shard.setNode waiter node).keys = update shard.keys waiter node.keys :=
  comp_update TxWaiter.keys shard.node waiter node

theorem setNode_txid (same : node.txid = shard.txid waiter) :
    (shard.setNode waiter node).txid = shard.txid := by
  rw [txid_setNode, same, update_eq_self]

theorem setNode_keys (same : node.keys = shard.keys waiter) :
    (shard.setNode waiter node).keys = shard.keys := by
  rw [keys_setNode, same, update_eq_self]

theorem setNode_holding :
    (shard.setNode (.transaction tx) node).holding =
      update shard.holding (.transaction tx) node.holdsAcquired := by
  funext other
  cases other with
  | plain acq => simp [holding, setNode]
  | transaction other =>
    by_cases this : other = tx
    · subst this
      simp [holding, setNode]
    · simp [holding, setNode, this]

theorem setNode_holding_same (same : node.holdsAcquired = shard.holding (.transaction tx)) :
    (shard.setNode (.transaction tx) node).holding = shard.holding := by
  rw [setNode_holding, same, update_eq_self]

theorem setNode_transaction (shard : TxShard) (tx other : TransactionId)
    (node : TxWaiter) : (shard.setNode (.transaction tx) node).node (.transaction other) =
      if other = tx then node else shard.node (.transaction other) := by
  by_cases this : other = tx
  · subst this
    simp [setNode]
  · simp [setNode, this]

def withHolds (shard : TxShard) (tx : TransactionId) (locks : Locks) : TxShard :=
  ({ shard with locks }.setNode (.transaction tx)
    { shard.node (.transaction tx) with holdsAcquired := true }).record
      (.transaction tx) (shard.keys (.transaction tx))
      (shard.txid (.transaction tx), 0)

/-- Taking the holds of a transaction entry that comes before its conflicts succeeds and keeps
the invariant. -/
theorem holdTransaction_spec (inv : shard.Consistent) (takes : Takes shard (.transaction tx))
    (idle : (shard.node (.transaction tx)).running = false) :
    ∃ after, shard.holdTransaction tx = .ok (shard.withHolds tx after) ∧
      (shard.withHolds tx after).Consistent := by
  obtain ⟨after, held, counted⟩ := takes.locks inv
  refine ⟨after, bind_returns.mpr ⟨after, held, rfl⟩, ?_⟩
  have txids : (shard.withHolds tx after).txid = shard.txid :=
    @setNode_txid { shard with locks := after } _ _ rfl
  have keySets : (shard.withHolds tx after).keys = shard.keys :=
    @setNode_keys { shard with locks := after } _ _ rfl
  have owners : (shard.withHolds tx after).holding = update shard.holding (.transaction tx) true :=
    @setNode_holding { shard with locks := after } _ _
  have node : ∀ other, (shard.withHolds tx after).node (.transaction other) = _ :=
    fun other => setNode_transaction { shard with locks := after } tx other _
  have tasks := inv.tasks
  have own := node tx
  rw [if_pos rfl] at own
  have kept : (shard.withHolds tx after).Tasks := by
    refine tasks.change tasks.hopsDistinct (fun _ _ => Iff.rfl)
      (fun other apart => by rw [node, if_neg apart]) (fun _ _ queued => queued) ?_ ?_
      (fun _ => takes.queued) fun _ => takes.queued <;> rw [own]
    · exact tasks.hopsRunning tx
    · simp [idle]
  refine takes.consistent inv kept ?_ (.refl _) (.refl _) (by simp) txids keySets owners rfl rfl
    rfl rfl
  rw [keySets, owners]
  exact counted

theorem Consistent.launchHop (inv : shard.Consistent)
    (armed : (shard.node (.transaction tx)).armed = true)
    (held : (shard.node (.transaction tx)).holdsAcquired = true) :
    (shard.launchHop tx).Consistent := by
  have tasks := inv.tasks
  have idle : tx ∉ shard.hops := by
    intro spawned
    have busy := (tasks.runningHeld tx ((tasks.hopsRunning tx).mp spawned)).2
    rw [armed] at busy
    contradiction
  have node : ∀ other, (shard.launchHop tx).node (.transaction other) = _ :=
    fun other => setNode_transaction shard tx other _
  refine inv.retask ⟨rfl, rfl, rfl, rfl, rfl, rfl, rfl, rfl, setNode_txid rfl,
    setNode_keys rfl, @setNode_holding_same shard tx _ ?_⟩
    (tasks.change (nodup_cons.mpr ⟨idle, tasks.hopsDistinct⟩)
      (fun other apart => ?_) (fun other apart => ?_) (fun _ _ queued => queued) ?_ ?_
      (fun _ => tasks.heldLive tx held) fun _ => tasks.heldLive tx held)
  · rfl
  · exact mem_cons.trans (or_iff_right apart)
  · rw [node, if_neg apart]
  · rw [node, if_pos rfl]
    exact iff_of_true mem_cons_self rfl
  · rw [node, if_pos rfl]
    exact fun _ => ⟨held, rfl⟩

end TxShard

end Lavik.Tx
