import Mathlib.Data.Prod.Lex
import Lavik.Tx.TxQueue
/-!
# One scheduling shard

Every handler below runs on the shard's worker without suspending. The nodes the queues point to are
kept in `node`, and the work handed to the worker in `resumes` and `hops` until it runs. The worker
is bound, so `Poll` never resumes a waiter inline. No handler reads `grants`.
-/

namespace Lavik.Tx

open Base

abbrev AcquisitionId := Nat

abbrev TransactionId := Nat

/-- What a queue slot of a shard points to: the waiter of a plain acquisition (`tx_` is null) or
the node of a multi-shard transaction on this shard. -/
inductive WaiterId
  | plain (acq : AcquisitionId)
  | transaction (tx : TransactionId)
deriving DecidableEq, Repr

def KeySet.empty : KeySet := ⟨[], List.nodup_nil⟩

structure TxWaiter where
  txid : Nat := 0
  keys : KeySet := KeySet.empty
  armed : Bool := false
  running : Bool := false
  holdsAcquired : Bool := false

/-- One entry of the history of a shard: an acquisition took the holds of its lock set. The
serial number orders grants: the transaction id for work that went through the queue, and for
the fast path the last id published before it followed by the count of fast-path runs. -/
structure Grant where
  owner : WaiterId
  keys : KeySet
  serial : Nat ×ₗ Nat

structure TxShard where
  locks : Locks := fun _ => .empty
  queue : TxQueue WaiterId := []
  committedTxid : Nat := 0
  polling : Bool := false
  bypassReady : List TransactionId := []
  fastpathRuns : Nat := 0
  queuedRuns : Nat := 0
  /-- The waiters of plain acquisitions and the nodes of transactions on this shard. -/
  node : WaiterId → TxWaiter := fun _ => {}
  granted : TransactionId → Bool := fun _ => false
  scheduleFailed : TransactionId → Bool := fun _ => false
  resumes : List AcquisitionId := []
  guards : List AcquisitionId := []
  hops : List TransactionId := []
  grants : List Grant := []

namespace TxShard

def txid (shard : TxShard) (waiter : WaiterId) : Nat := (shard.node waiter).txid

def keys (shard : TxShard) (waiter : WaiterId) : KeySet := (shard.node waiter).keys

def live (shard : TxShard) : List WaiterId := shard.queue.live

variable (shard : TxShard)

def setNode (waiter : WaiterId) (node : TxWaiter) : TxShard :=
  { shard with node := Function.update shard.node waiter node }

def record (owner : WaiterId) (keys : KeySet) (serial : Nat × Nat) : TxShard :=
  { shard with grants := shard.grants ++ [⟨owner, keys, toLex serial⟩] }

def publish (txid : Nat) : TxShard :=
  { shard with committedTxid := max shard.committedTxid txid }

variable (acq : AcquisitionId) (tx : TransactionId)

def holdTransaction : Except Assertion TxShard := do
  let waiter := WaiterId.transaction tx
  let node := shard.node waiter
  let locks ← shard.locks.acquireHolds node.keys.refs
  .ok (({ shard with locks }.setNode waiter { node with holdsAcquired := true }).record waiter
    node.keys (node.txid, 0))

def launchHop : TxShard :=
  let waiter := WaiterId.transaction tx
  { shard.setNode waiter { shard.node waiter with armed := false, running := true } with
    queuedRuns := shard.queuedRuns + 1, hops := tx :: shard.hops }

/-- The body both loops of `TxShard::Poll` share for a transaction entry: publish the id, take
the holds unless an earlier hop took them, and start the hop. -/
def startTransactionHop : Except Assertion TxShard := do
  let node := shard.node (.transaction tx)
  let published := shard.publish node.txid
  let held ← if node.holdsAcquired then .ok published else published.holdTransaction tx
  .ok (held.launchHop tx)

def enqueueBypassReady : Except Assertion TxShard :=
  let node := shard.node (.transaction tx)
  if node.armed && !node.running then
    .ok { shard with bypassReady := shard.bypassReady ++ [tx] }
  else .error .bypassNotArmed

/-- One iteration of the ready loop of `TxShard::Poll`; the flag tells whether the loop goes
on. -/
def bypassIteration : Except Assertion (TxShard × Bool) :=
  match shard.bypassReady with
  | [] => .ok (shard, false)
  | ready :: rest => do
    let popped := { shard with bypassReady := rest }
    let node := shard.node (.transaction ready)
    if !node.armed || node.running then .ok (popped, true)
    else if !node.holdsAcquired && !shard.locks.canHoldAll node.keys.refs then
      let again ← popped.enqueueBypassReady ready
      .ok (again, false)
    else
      let started ← popped.startTransactionHop ready
      .ok (started, true)

/-- The ready loop of `TxShard::Poll`. An iteration that goes on takes one entry from the ready
queue, so the length of the queue bounds the iterations. -/
def drainBypass : Nat → TxShard → Except Assertion TxShard
  | 0, shard => .ok shard
  | fuel + 1, shard => do
    let next ← shard.bypassIteration
    if next.2 then drainBypass fuel next.1 else .ok next.1

/-- The ordered loop of `TxShard::Poll`. With a bound worker every branch leaves the loop after
its first head. -/
def startHead : Except Assertion TxShard := do
  let shard := { shard with queue := shard.queue.dropTombstones }
  match shard.queue.front with
  | none => .ok shard
  | some (.transaction tx) =>
    let node := shard.node (.transaction tx)
    if node.running || !node.armed then .ok shard
    else if !node.holdsAcquired && !shard.locks.canHoldAll node.keys.refs then .ok shard
    else shard.startTransactionHop tx
  | some (.plain acq) =>
    let node := shard.node (.plain acq)
    if !shard.locks.canHoldAll node.keys.refs then .ok shard
    else
      let published := shard.publish node.txid
      let locks ← published.locks.acquireHolds node.keys.refs
      let queue ← published.queue.popFront
      .ok ({ published with
        locks, queue
        queuedRuns := published.queuedRuns + 1
        resumes := acq :: published.resumes }.record (.plain acq) node.keys (node.txid, 0))

def poll : Except Assertion TxShard := do
  if shard.polling then .ok shard
  else
    let settled := { shard with queue := shard.queue.dropTombstones }
    match settled.queue.front with
    | none => .ok settled
    | some _ =>
      let entered := { settled with polling := true }
      let drained ← drainBypass entered.bypassReady.length entered
      let started ← drained.startHead
      .ok { started with polling := false }

/-- `TxShard::Awaiter`: the fast path, or else an id is drawn and the waiter is queued. The flag
tells whether the acquisition goes on without suspending. -/
def acquireKeys (keys : KeySet) (txid : Nat) : Except Assertion (TxShard × Bool) := do
  let waiter := WaiterId.plain acq
  let (locks, granted) ← shard.locks.tryFastPath keys.refs
  let named := { shard with locks }.setNode waiter { keys }
  if granted then
    .ok ({ named with
      fastpathRuns := shard.fastpathRuns + 1
      guards := acq :: shard.guards }.record waiter keys
        (shard.committedTxid, shard.fastpathRuns + 1), true)
  else
    let waiting := named.setNode waiter { txid, keys }
    let queue ← waiting.queue.insert waiting.txid waiter
    .ok ({ waiting with queue }, false)

def resume : TxShard :=
  { shard with
    resumes := shard.resumes.erase acq
    guards := acq :: shard.guards }

def dropGuard : Except Assertion TxShard := do
  let locks ← shard.locks.release (shard.keys (.plain acq)).refs
  .ok { shard with locks, guards := shard.guards.erase acq }

def releaseGuard : Except Assertion TxShard :=
  shard.dropGuard acq >>= poll

def scheduleInShard (keys : KeySet) (txid : Nat) : Except Assertion TxShard := do
  let waiter := WaiterId.transaction tx
  let fail := Function.update shard.scheduleFailed tx true
  if txid ≤ shard.committedTxid then .ok { shard with scheduleFailed := fail }
  else
    let recorded := shard.locks.acquireIntents keys.refs
    let named := { shard with
      locks := recorded.1
      granted := Function.update shard.granted tx recorded.2 }.setNode waiter
        { shard.node waiter with txid, keys }
    let tail := named.queue.tailTxid named.txid
    if !recorded.2 && tail ≠ 0 && txid < tail then
      let locks ← named.locks.releaseIntents keys.refs
      .ok { named with locks, scheduleFailed := fail }
    else
      let queue ← named.queue.insert named.txid waiter
      .ok { named with
        queue, scheduleFailed := Function.update shard.scheduleFailed tx false }

def withdraw : Except Assertion TxShard := do
  let locks ← shard.locks.releaseIntents (shard.keys (.transaction tx)).refs
  let queue ← shard.queue.remove (.transaction tx)
  .ok { shard with locks, queue, granted := Function.update shard.granted tx false }

def cancelInShard : Except Assertion TxShard :=
  shard.withdraw tx >>= poll

def markArmed (bypassOrderedQueue : Bool) : Except Assertion TxShard :=
  let waiter := WaiterId.transaction tx
  let node := shard.node waiter
  if node.armed || node.running then .error .armBusy
  else
    let armed := shard.setNode waiter { node with armed := true }
    if bypassOrderedQueue then armed.enqueueBypassReady tx else .ok armed

def armTransaction (bypassOrderedQueue : Bool) : Except Assertion TxShard :=
  shard.markArmed tx bypassOrderedQueue >>= poll

def armInShard : Except Assertion TxShard :=
  shard.armTransaction tx (shard.granted tx)

def stopHop : TxShard :=
  let waiter := WaiterId.transaction tx
  { shard.setNode waiter { shard.node waiter with running := false } with
    hops := shard.hops.erase tx }

def retireHop : Except Assertion TxShard := do
  let waiter := WaiterId.transaction tx
  let stopped := shard.stopHop tx
  let unheld ← stopped.locks.releaseHolds (shard.keys waiter).refs
  let locks ← unheld.releaseIntents (shard.keys waiter).refs
  let queue ← stopped.queue.remove waiter
  .ok { stopped.setNode waiter { stopped.node waiter with holdsAcquired := false } with
    locks, queue }

def finishHop (releasing : Bool) : Except Assertion TxShard :=
  if releasing then shard.retireHop tx >>= poll else .ok (shard.stopHop tx)

end TxShard

inductive ShardEvent
  | acquire (acq : AcquisitionId) (keys : KeySet) (txid : Nat)
  | resume (acq : AcquisitionId)
  | release (acq : AcquisitionId)
  | schedule (tx : TransactionId) (keys : KeySet) (txid : Nat)
  | cancel (tx : TransactionId)
  | arm (tx : TransactionId)
  | hop (tx : TransactionId) (releasing : Bool)
  | poll

namespace TxShard

variable (shard : TxShard)

/-- Registered acquisitions: the waiters of the queue, and the plain acquisitions that were
popped or granted and have not released. -/
def registered : List WaiterId :=
  shard.live ++ (shard.resumes ++ shard.guards).map .plain

/-- The callers' contract. Ids come from one counter, so a plain acquisition that has to wait
draws an id above every id its shard has seen, and no two waiters share one. An acquisition is
made once. A transaction is scheduled while it is off the queue, cancelled before it was armed,
and armed once for each hop. Tasks run because they were handed to the worker. -/
def Enabled : ShardEvent → Prop
  | .acquire acq _ txid =>
    .plain acq ∉ shard.registered ∧ (∀ grant ∈ shard.grants, grant.owner ≠ .plain acq) ∧
      shard.committedTxid < txid ∧ ∀ waiter ∈ shard.live, shard.txid waiter < txid
  | .resume acq => acq ∈ shard.resumes
  | .release acq => acq ∈ shard.guards
  | .schedule tx _ txid =>
    .transaction tx ∉ shard.live ∧ 0 < txid ∧ ∀ waiter ∈ shard.live, shard.txid waiter ≠ txid
  | .cancel tx =>
    .transaction tx ∈ shard.live ∧ (shard.node (.transaction tx)).armed = false ∧
      (shard.node (.transaction tx)).holdsAcquired = false
  | .arm tx =>
    .transaction tx ∈ shard.live ∧ (shard.node (.transaction tx)).armed = false ∧
      (shard.node (.transaction tx)).running = false
  | .hop tx _ => tx ∈ shard.hops
  | .poll => True

instance (shard : TxShard) (event : ShardEvent) : Decidable (shard.Enabled event) := by
  cases event <;> unfold Enabled <;> infer_instance

def handle : ShardEvent → Except Assertion TxShard
  | .acquire acq keys txid => do
    let (after, _) ← shard.acquireKeys acq keys txid
    .ok after
  | .resume acq => .ok (shard.resume acq)
  | .release acq => shard.releaseGuard acq
  | .schedule tx keys txid => shard.scheduleInShard tx keys txid
  | .cancel tx => shard.cancelInShard tx
  | .arm tx => shard.armInShard tx
  | .hop tx releasing => shard.finishHop tx releasing
  | .poll => shard.poll

/-- The handler of an event up to the point where it polls, for the events whose handler ends
with `Poll`. -/
def prologue : ShardEvent → Option (Except Assertion TxShard)
  | .acquire .. | .resume _ | .schedule .. | .hop _ false => none
  | .release acq => some (shard.dropGuard acq)
  | .cancel tx => some (shard.withdraw tx)
  | .arm tx => some (shard.markArmed tx (shard.granted tx))
  | .hop tx true => some (shard.retireHop tx)
  | .poll => some (.ok shard)

theorem handle_prologue {shard : TxShard} {event : ShardEvent} {before : Except Assertion TxShard}
    (polls : shard.prologue event = some before) : shard.handle event = before >>= poll := by
  cases event with
  | acquire | resume | schedule => simp [prologue] at polls
  | release | cancel | arm | poll => rw [← Option.some.inj polls]; rfl
  | hop tx releasing =>
    cases releasing with
    | false => simp [prologue] at polls
    | true => rw [← Option.some.inj polls]; rfl

/-- States the ready loop passes through, each at the test of the loop. -/
inductive Drains : TxShard → TxShard → Prop
  | here (shard : TxShard) : Drains shard shard
  | next {shard after visited : TxShard} :
      shard.bypassIteration = .ok (after, true) → Drains after visited → Drains shard visited

/-- The states at which a `Poll` called on a shard tests its ready loop. -/
def PollVisits (shard visited : TxShard) : Prop :=
  shard.polling = false ∧ shard.queue.front ≠ none ∧
    Drains { shard with queue := shard.queue.dropTombstones, polling := true } visited

def machine : Machine TxShard ShardEvent Assertion where
  initial := {}
  Enabled := Enabled
  step := handle

instance (shard : TxShard) (event : ShardEvent) : Decidable (machine.Enabled shard event) :=
  inferInstanceAs (Decidable (shard.Enabled event))

end TxShard

end Lavik.Tx
