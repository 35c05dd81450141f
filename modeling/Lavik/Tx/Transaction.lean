import Lavik.Tx.TxShard
/-!
# Multi-shard transactions

A coordinator drives a transaction over its shards in rounds: a round stores the number of its
targets in a barrier, posts a message to each and suspends. A schedule round that failed on some
shard is cancelled on the others and retried with a fresh id; an arm round completes on a shard when
its hop has run. Messages are delivered once, in any order, and worker tasks run later in any order.
A transaction on one shard takes an owner-local guard and is a plain acquisition here.
-/

namespace Lavik.Tx

open Base

abbrev ShardId := Nat

inductive Phase
  | schedule
  | cancel
  | arm
deriving DecidableEq, Repr

inductive Stage
  | built
  | awaiting (phase : Phase)
  | runnable (phase : Phase)
  /-- Between `Schedule` or a hop that kept its locks and the next `Execute`. -/
  | idle
  | released
deriving DecidableEq, Repr

/-- What `Transaction::Seal` leaves in `shards_`: the distinct shards of the keys, and the lock set
of the transaction on each of them. -/
structure LockPlan where
  shards : List ShardId
  distinct : shards.Nodup
  keysOn : ShardId → KeySet

def LockPlan.empty : LockPlan := ⟨[], List.nodup_nil, fun _ => KeySet.empty⟩

structure Coordinator where
  plan : LockPlan := LockPlan.empty
  txid : Nat := 0
  releasing : Bool := false
  scheduled : Bool := false
  barrier : Nat := 0
  stage : Stage := .built
  posted : List ShardId := []

namespace Coordinator

variable (coord : Coordinator)

def targets (failed : ShardId → Bool) : Phase → List ShardId
  | .cancel => coord.plan.shards.filter fun shard => !failed shard
  | .schedule | .arm => coord.plan.shards

def startRound (failed : ShardId → Bool) (phase : Phase) : Coordinator :=
  let targets := coord.targets failed phase
  { coord with
    barrier := targets.length
    posted := targets
    stage := if targets = [] then .runnable phase else .awaiting phase }

def completeShardRound (phase : Phase) : Coordinator :=
  { coord with
    barrier := coord.barrier - 1
    stage := if coord.barrier = 1 then .runnable phase else coord.stage }

end Coordinator

structure System where
  nextTxid : Nat := 1
  shard : ShardId → TxShard := fun _ => {}
  coordinator : TransactionId → Coordinator := fun _ => {}
  begun : TransactionId := 0
  acquired : AcquisitionId := 0
  home : AcquisitionId → ShardId := fun _ => 0

inductive SystemEvent
  | acquire (shard : ShardId) (keys : KeySet)
  | resume (shard : ShardId) (acq : AcquisitionId)
  | release (shard : ShardId) (acq : AcquisitionId)
  | poll (shard : ShardId)
  | begin (plan : LockPlan)
  | schedule (tx : TransactionId)
  | deliver (tx : TransactionId) (shard : ShardId)
  | wake (tx : TransactionId)
  | execute (tx : TransactionId) (release : Bool)
  | hop (tx : TransactionId) (shard : ShardId)

namespace System

variable (system : System) (tx : TransactionId) (shard : ShardId)

def setShard (state : TxShard) : System :=
  { system with shard := Function.update system.shard shard state }

def setCoordinator (state : Coordinator) : System :=
  { system with coordinator := Function.update system.coordinator tx state }

def onShard (event : ShardEvent) : Except Assertion System := do
  let after ← (system.shard shard).handle event
  .ok (system.setShard shard after)

def failed : Bool :=
  (system.shard shard).scheduleFailed tx

def attempt : System :=
  let coord := { system.coordinator tx with txid := system.nextTxid }
  { system with nextTxid := system.nextTxid + 1 }.setCoordinator tx
    (coord.startRound (system.failed tx) .schedule)

def acquire (keys : KeySet) : Except Assertion System := do
  let (after, granted) ←
    (system.shard shard).acquireKeys system.acquired keys system.nextTxid
  .ok { system.setShard shard after with
    nextTxid := if granted then system.nextTxid else system.nextTxid + 1
    acquired := system.acquired + 1
    home := Function.update system.home system.acquired shard }

def shardPhase :
    Phase → ShardEvent
  | .schedule => .schedule tx ((system.coordinator tx).plan.keysOn shard)
      (system.coordinator tx).txid
  | .cancel => .cancel tx
  | .arm => .arm tx

/-- `Transaction::ShardPhaseEntry`: schedule and cancel complete their part of the round at once,
arm leaves that to the hop. -/
def deliver (phase : Phase) : Except Assertion System := do
  let coord := system.coordinator tx
  let received := { coord with posted := coord.posted.erase shard }
  let after ← system.onShard shard (system.shardPhase tx shard phase)
  .ok (after.setCoordinator tx
    (if phase = .arm then received else received.completeShardRound phase))

def wake : Phase → System
  | .schedule =>
    let coord := system.coordinator tx
    if coord.plan.shards.any (system.failed tx) then
      system.setCoordinator tx (coord.startRound (system.failed tx) .cancel)
    else system.setCoordinator tx { coord with scheduled := true, stage := .idle }
  | .cancel => system.attempt tx
  | .arm =>
    let coord := system.coordinator tx
    system.setCoordinator tx { coord with stage := if coord.releasing then .released else .idle }

def execute (release : Bool) : System :=
  let coord := { system.coordinator tx with releasing := release }
  system.setCoordinator tx (coord.startRound (system.failed tx) .arm)

def hop (system : System) (tx : TransactionId) (shard : ShardId) :
    Except Assertion System := do
  let coord := system.coordinator tx
  let after ← system.onShard shard (.hop tx coord.releasing)
  .ok (after.setCoordinator tx (coord.completeShardRound .arm))

/-- What the runtime and the callers guarantee: coroutines resume and messages arrive because they
were handed over, each once; `Schedule` is called once on a built transaction and `Execute` on a
scheduled one between rounds. -/
def Enabled : SystemEvent → Prop
  | .acquire .. | .poll _ | .begin _ => True
  | .resume shard acq => acq ∈ (system.shard shard).resumes
  | .release shard acq => acq ∈ (system.shard shard).guards
  | .schedule tx =>
    tx < system.begun ∧ (system.coordinator tx).stage = .built
  | .deliver tx shard =>
    shard ∈ (system.coordinator tx).posted ∧
      ∃ phase, (system.coordinator tx).stage = .awaiting phase
  | .wake tx => ∃ phase, (system.coordinator tx).stage = .runnable phase
  | .execute tx _ => (system.coordinator tx).stage = .idle
  | .hop tx shard => tx ∈ (system.shard shard).hops

instance (stage : Stage) : Decidable (∃ phase, stage = .awaiting phase) :=
  match stage with
  | .awaiting phase => isTrue ⟨phase, rfl⟩
  | .built | .runnable _ | .idle | .released => isFalse (by simp)

instance (stage : Stage) : Decidable (∃ phase, stage = .runnable phase) :=
  match stage with
  | .runnable phase => isTrue ⟨phase, rfl⟩
  | .built | .awaiting _ | .idle | .released => isFalse (by simp)

instance (system : System) (event : SystemEvent) : Decidable (system.Enabled event) := by
  cases event <;> unfold Enabled <;> infer_instance

def step : SystemEvent → Except Assertion System
  | .acquire shard keys => system.acquire shard keys
  | .resume shard acq => system.onShard shard (.resume acq)
  | .release shard acq => system.onShard shard (.release acq)
  | .poll shard => system.onShard shard .poll
  | .begin plan => .ok { system.setCoordinator system.begun { plan } with begun := system.begun + 1
      }
  | .schedule tx => .ok (system.attempt tx)
  | .deliver tx shard =>
    match (system.coordinator tx).stage with
    | .awaiting phase => system.deliver tx shard phase
    | _ => .ok system
  | .wake tx =>
    match (system.coordinator tx).stage with
    | .runnable phase => .ok (system.wake tx phase)
    | _ => .ok system
  | .execute tx release => .ok (system.execute tx release)
  | .hop tx shard => system.hop tx shard

def machine : Machine System SystemEvent Assertion where
  initial := {}
  Enabled := Enabled
  step := step

instance (system : System) (event : SystemEvent) : Decidable (machine.Enabled system event) :=
  inferInstanceAs (Decidable (system.Enabled event))

end System

end Lavik.Tx
