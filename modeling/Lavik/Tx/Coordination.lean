import Lavik.Tx.ShardSafety
import Lavik.Tx.Transaction
/-!
# Coordinators and their shards

`Coordinated` relates the coordinator of a transaction to what the shards know of it: where it is
queued, where a hop is armed or running, and how many shards the barrier still counts.
-/

namespace Lavik.Tx

open Base TxShard List Function

def TxShard.Seated (shard : TxShard) (tx : TransactionId) : Prop :=
  .transaction tx ∈ shard.live

namespace Coordinator

variable (coord : Coordinator) (shards : ShardId → TxShard) (tx : TransactionId)

def RoundHolds : Phase → Prop
  | .schedule => coord.scheduled = false ∧ ∀ shard ∈ coord.plan.shards,
      (shard ∈ coord.posted → ¬ (shards shard).Seated tx) ∧
      (shard ∉ coord.posted → ((shards shard).Seated tx ↔ (shards shard).scheduleFailed tx = false))
  | .cancel => coord.scheduled = false ∧ ∀ shard ∈ coord.plan.shards,
      ((shards shard).Seated tx ↔ shard ∈ coord.posted)
  | .arm => coord.scheduled = true ∧ ∀ shard ∈ coord.plan.shards,
      (shard ∈ coord.posted → (shards shard).Seated tx ∧ (shards shard).busy tx = false) ∧
      (shard ∉ coord.posted → (shards shard).busy tx = false →
        ((shards shard).Seated tx ↔ coord.releasing = false))

/-- Where a transaction is queued at each stage of its coordinator. -/
def StageHolds : Stage → Prop
  | .built => coord.barrier = 0 ∧ coord.scheduled = false ∧
      ∀ shard, ¬ (shards shard).Seated tx
  | .awaiting phase => 0 < coord.barrier ∧ 0 < coord.txid ∧
      coord.RoundHolds shards tx phase
  | .runnable phase => coord.barrier = 0 ∧ 0 < coord.txid ∧
      coord.RoundHolds shards tx phase
  | .idle => coord.barrier = 0 ∧ 0 < coord.txid ∧ coord.scheduled = true ∧
      ∀ shard ∈ coord.plan.shards, (shards shard).Seated tx
  | .released => coord.barrier = 0 ∧ ∀ shard, ¬ (shards shard).Seated tx

/-- The transaction is queued under its current id, on shards of its keys only, and it neither hops
nor holds a lock before it is scheduled. -/
structure Known : Prop where
  seated : ∀ shard, (shards shard).Seated tx → shard ∈ coord.plan.shards ∧
    (shards shard).txid (.transaction tx) = coord.txid
  unscheduled : coord.scheduled = false → ∀ shard, (shards shard).busy tx = false ∧
      ((shards shard).node (.transaction tx)).holdsAcquired = false

structure Coordinated : Prop extends coord.Known shards tx where
  postedDistinct : coord.posted.Nodup
  postedPlan : ∀ shard ∈ coord.posted, shard ∈ coord.plan.shards
  barrier : coord.barrier = coord.posted.length +
    coord.plan.shards.countP fun shard => (shards shard).busy tx
  stage : coord.StageHolds shards tx coord.stage

variable {coord shards tx}

theorem countP_idle {plan : List ShardId}
    (idle : ∀ shard ∈ plan, (shards shard).busy tx = false) :
    plan.countP (fun shard => (shards shard).busy tx) = 0 :=
  countP_eq_zero.mpr fun shard mem => Bool.eq_false_iff.mp (idle shard mem)

section

variable (inv : Coordinated coord shards tx)

include inv

theorem Coordinated.untouched {after : ShardId → TxShard}
    (same : ∀ shard, Untouched (shards shard) (after shard) tx) : Coordinated coord after tx := by
  have seats : ∀ shard, (after shard).Seated tx ↔ (shards shard).Seated tx :=
    fun shard => (same shard).live
  have busy : ∀ shard, (after shard).busy tx = (shards shard).busy tx :=
    fun shard => (same shard).busy
  have failed : ∀ shard, (after shard).scheduleFailed tx =
      (shards shard).scheduleFailed tx := fun shard => (same shard).scheduleFailed
  have rounds : ∀ phase, coord.RoundHolds after tx phase ↔ coord.RoundHolds shards tx phase := by
    intro phase
    cases phase <;> simp only [RoundHolds, seats, busy, failed]
  refine ⟨⟨fun shard seated => ?_, fun unscheduled shard => ?_⟩, inv.postedDistinct,
    inv.postedPlan, ?_, ?_⟩
  · rw [(same shard).txid]
    exact inv.seated shard ((seats shard).mp seated)
  · obtain ⟨idle, unheld⟩ := inv.unscheduled unscheduled shard
    refine ⟨(busy shard).trans idle, Bool.eq_false_iff.mpr fun held => ?_⟩
    rcases (same shard).held held with before | armed
    · rw [unheld] at before
      contradiction
    · rw [idle] at armed
      contradiction
  · simpa only [busy] using inv.barrier
  · have stage := inv.stage
    cases found : coord.stage with
    | built | idle | released => simpa only [found, StageHolds, seats] using stage
    | awaiting _ | runnable _ => simpa only [found, StageHolds, rounds] using stage

theorem Coordinated.at_stage {stage : Stage} (found : coord.stage = stage) :
    coord.StageHolds shards tx stage :=
  found ▸ inv.stage

theorem Coordinated.settled (down : coord.barrier = 0) : coord.posted = [] ∧
      ∀ shard ∈ coord.plan.shards, (shards shard).busy tx = false := by
  have counted := inv.barrier
  refine ⟨length_eq_zero_iff.mp (by omega), fun shard mem => ?_⟩
  have none := countP_eq_zero.mp (by omega : coord.plan.shards.countP
    (fun shard => (shards shard).busy tx) = 0) shard mem
  exact Bool.eq_false_iff.mpr none

end

/-! ## Steps of the coroutine -/

theorem startRound_coordinated {failed : ShardId → Bool} {phase : Phase}
    (known : coord.Known shards tx)
    (idle : ∀ shard ∈ coord.plan.shards, (shards shard).busy tx = false) (pos : 0 < coord.txid)
    (round : (coord.startRound failed phase).RoundHolds shards tx phase) :
    Coordinated (coord.startRound failed phase) shards tx := by
  obtain ⟨nodup, within⟩ : (coord.targets failed phase).Nodup ∧
      ∀ shard ∈ coord.targets failed phase, shard ∈ coord.plan.shards := by
    cases phase with
    | schedule | arm => exact ⟨coord.plan.distinct, fun _ mem => mem⟩
    | cancel => exact ⟨coord.plan.distinct.filter _, fun _ mem => mem_of_mem_filter mem⟩
  refine ⟨{ known with }, nodup, within, ?_, ?_⟩
  · change (coord.targets failed phase).length = (coord.targets failed phase).length +
      coord.plan.shards.countP (fun shard => (shards shard).busy tx)
    rw [countP_idle idle]
    rfl
  · by_cases empty : coord.targets failed phase = []
    · have stage : (coord.startRound failed phase).stage = .runnable phase := by
        simp [startRound, empty]
      rw [stage]
      exact ⟨length_eq_zero_iff.mpr empty, pos, round⟩
    · have stage : (coord.startRound failed phase).stage = .awaiting phase := by
        simp [startRound, empty]
      rw [stage]
      exact ⟨length_pos_iff.mpr empty, pos, round⟩

section

variable (inv : Coordinated coord shards tx)

include inv

theorem Coordinated.attempt (unscheduled : coord.scheduled = false)
    (absent : ∀ shard, ¬ (shards shard).Seated tx) (failed : ShardId → Bool) {txid : Nat}
    (pos : 0 < txid) : Coordinated ({ coord with txid }.startRound failed .schedule) shards tx := by
  refine startRound_coordinated
    ⟨fun shard seated => absurd seated (absent shard), inv.unscheduled⟩
    (fun shard _ => (inv.unscheduled unscheduled shard).1) pos
    ⟨unscheduled, fun shard mem => ⟨fun _ => absent shard, fun unposted => ?_⟩⟩
  exact absurd mem unposted

theorem Coordinated.accept (stage : coord.stage = .runnable .schedule)
    (ok : ∀ shard ∈ coord.plan.shards, (shards shard).scheduleFailed tx = false) :
    Coordinated { coord with scheduled := true, stage := .idle } shards tx := by
  obtain ⟨down, pos, -, round⟩ := inv.at_stage stage
  obtain ⟨empty, -⟩ := inv.settled down
  refine ⟨⟨inv.seated, by simp⟩, inv.postedDistinct, inv.postedPlan, inv.barrier, down, pos, rfl,
    fun shard mem => ?_⟩
  exact ((round shard mem).2 (by simp [empty])).mpr (ok shard mem)

theorem Coordinated.cancel (stage : coord.stage = .runnable .schedule) :
    Coordinated (coord.startRound
      (fun shard => (shards shard).scheduleFailed tx) .cancel) shards tx := by
  obtain ⟨down, pos, unscheduled, round⟩ := inv.at_stage stage
  obtain ⟨empty, idle⟩ := inv.settled down
  refine startRound_coordinated inv.toKnown idle pos ⟨unscheduled, fun shard mem => ?_⟩
  rw [(round shard mem).2 (by simp [empty])]
  simp only [startRound, targets, mem_filter, Bool.not_eq_eq_eq_not, Bool.not_true]
  exact (and_iff_right mem).symm

theorem Coordinated.cancelled (stage : coord.stage = .runnable .cancel) : coord.scheduled = false ∧
      ∀ shard, ¬ (shards shard).Seated tx := by
  obtain ⟨down, -, unscheduled, round⟩ := inv.at_stage stage
  obtain ⟨empty, -⟩ := inv.settled down
  refine ⟨unscheduled, fun shard seated => ?_⟩
  have posted := (round shard (inv.seated shard seated).1).mp seated
  simp [empty] at posted

theorem Coordinated.execute (stage : coord.stage = .idle) (failed : ShardId → Bool)
    (release : Bool) :
    Coordinated ({ coord with releasing := release }.startRound failed .arm) shards
      tx := by
  obtain ⟨down, pos, scheduled, queued⟩ := inv.at_stage stage
  obtain ⟨-, idle⟩ := inv.settled down
  refine startRound_coordinated { inv.toKnown with } idle pos
    ⟨scheduled, fun shard mem => ⟨fun _ => ⟨queued shard mem, idle shard mem⟩, ?_⟩⟩
  exact fun unposted => absurd mem unposted

theorem Coordinated.finish (stage : coord.stage = .runnable .arm) :
    Coordinated { coord with stage := if coord.releasing then .released else .idle } shards tx := by
  obtain ⟨down, pos, scheduled, round⟩ := inv.at_stage stage
  obtain ⟨empty, idle⟩ := inv.settled down
  have seats : ∀ shard ∈ coord.plan.shards, ((shards shard).Seated tx ↔ coord.releasing = false) :=
    fun shard mem => (round shard mem).2 (by simp [empty]) (idle shard mem)
  refine { inv with stage := ?_ }
  cases releasing : coord.releasing with
  | true =>
    refine ⟨down, fun shard seated => ?_⟩
    have kept := (seats shard (inv.seated shard seated).1).mp seated
    rw [releasing] at kept
    contradiction
  | false => exact ⟨down, pos, scheduled, fun shard mem => (seats shard mem).mpr
      releasing⟩

end

/-! ## Steps on a shard -/

/-- A shard that takes its part from the barrier keeps the agreement when the round's own facts
hold. -/
theorem completeShardRound_coordinated {phase : Phase} (stage : coord.stage = .awaiting phase)
    (nodup : coord.posted.Nodup) (within : ∀ shard ∈ coord.posted, shard ∈ coord.plan.shards)
    (known : coord.Known shards tx)
    (barrier : coord.barrier = coord.posted.length +
      coord.plan.shards.countP (fun shard => (shards shard).busy tx) + 1)
    (pos : 0 < coord.txid) (round : coord.RoundHolds shards tx phase) :
    Coordinated (coord.completeShardRound phase) shards tx := by
  have lowered : coord.barrier - 1 = coord.posted.length +
      coord.plan.shards.countP (fun shard => (shards shard).busy tx) := by omega
  have sameRound : (coord.completeShardRound phase).RoundHolds shards tx phase := by
    cases phase <;> exact round
  refine ⟨{ known with }, nodup, within, lowered, ?_⟩
  by_cases last : coord.barrier = 1
  · have woken : (coord.completeShardRound phase).stage = .runnable phase := by
      simp [completeShardRound, last]
    rw [woken]
    refine ⟨?_, pos, sameRound⟩
    simp [completeShardRound, last]
  · have waits : (coord.completeShardRound phase).stage = .awaiting phase := by
      simp [completeShardRound, last, stage]
    rw [waits]
    refine ⟨?_, pos, sameRound⟩
    simp only [completeShardRound]
    omega

variable {shard : ShardId} {after : TxShard}

theorem other_shard {other : ShardId} (apart : other ≠ shard) :
    update shards shard after other = shards other := update_of_ne apart _ _

section

variable (inv : Coordinated coord shards tx)

include inv

theorem posted_erase (posted : shard ∈ coord.posted) :
    (coord.posted.erase shard).Nodup ∧
      (∀ other ∈ coord.posted.erase shard, other ∈ coord.plan.shards) ∧
      (∀ other, other ∈ coord.posted.erase shard ↔ other ≠ shard ∧ other ∈ coord.posted) ∧
      (coord.posted.erase shard).length + 1 = coord.posted.length := by
  have nodup := inv.postedDistinct
  refine ⟨nodup.erase _, fun other mem => inv.postedPlan other
    (mem_of_mem_erase mem), fun other => nodup.mem_erase_iff, ?_⟩
  rw [length_erase_of_mem posted]
  have pos := length_pos_of_mem posted
  omega

theorem Coordinated.delivered_barrier (unscheduled : coord.scheduled = false)
    (posted : shard ∈ coord.posted)
    (idle : ∀ other, (update shards shard after other).busy tx = false) :
    coord.barrier = (coord.posted.erase shard).length + coord.plan.shards.countP
        (fun other => (update shards shard after other).busy tx) + 1 := by
  have counted := inv.barrier
  have shorter := (posted_erase inv posted).2.2.2
  rw [countP_idle fun shard _ => (inv.unscheduled unscheduled shard).1] at counted
  rw [countP_idle fun other _ => idle other]
  omega

theorem Coordinated.seated_update
    (own : after.Seated tx → shard ∈ coord.plan.shards ∧ after.txid (.transaction tx) = coord.txid)
    (other : ShardId) (seated : (update shards shard after other).Seated tx) :
    other ∈ coord.plan.shards ∧
      (update shards shard after other).txid (.transaction tx) = coord.txid := by
  by_cases same : other = shard
  · rw [same, update_self] at seated ⊢
    exact own seated
  · rw [other_shard same] at seated ⊢
    exact inv.seated other seated

theorem Coordinated.idle_update (shard : ShardId) (unscheduled : coord.scheduled = false)
    (own : after.busy tx = false ∧ (after.node (.transaction tx)).holdsAcquired = false)
    (other : ShardId) : (update shards shard after other).busy tx = false ∧
      ((update shards shard after other).node (.transaction tx)).holdsAcquired = false := by
  by_cases same : other = shard
  · rw [same, update_self]
    exact own
  · rw [other_shard same]
    exact inv.unscheduled unscheduled other

theorem Coordinated.delivered_schedule (stage : coord.stage = .awaiting .schedule)
    (posted : shard ∈ coord.posted) (scheduled : Scheduled after tx coord.txid) :
    Coordinated ({ coord with
      posted := coord.posted.erase shard }.completeShardRound .schedule)
      (update shards shard after) tx := by
  obtain ⟨-, pos, unscheduled, round⟩ := inv.at_stage stage
  obtain ⟨nodup, within, remains, -⟩ := posted_erase inv posted
  have mem := inv.postedPlan shard posted
  have idle := inv.idle_update shard unscheduled scheduled.idle
  refine completeShardRound_coordinated stage nodup within
    ⟨inv.seated_update fun seated => ⟨mem, scheduled.txid seated⟩, fun _ => idle⟩ ?_ pos
    ⟨unscheduled, fun other inPlan => ⟨fun pending => ?_, fun done => ?_⟩⟩
  · exact inv.delivered_barrier unscheduled posted fun other => (idle other).1
  · obtain ⟨apart, before⟩ := (remains other).mp pending
    rw [other_shard apart]
    exact (round other inPlan).1 before
  · by_cases same : other = shard
    · rw [same, update_self]
      exact scheduled.live
    · rw [other_shard same]
      exact (round other inPlan).2 fun before => done ((remains other).mpr ⟨same, before⟩)

theorem Coordinated.delivered_cancel (stage : coord.stage = .awaiting .cancel)
    (posted : shard ∈ coord.posted) (quiet : after.Quiescent) (left : ¬ after.Seated tx) :
    Coordinated ({ coord with
      posted := coord.posted.erase shard }.completeShardRound .cancel)
      (update shards shard after) tx := by
  obtain ⟨-, pos, unscheduled, round⟩ := inv.at_stage stage
  obtain ⟨nodup, within, remains, -⟩ := posted_erase inv posted
  obtain ⟨armed, running, held⟩ := quiet.consistent.idle left
  have idle := inv.idle_update shard unscheduled
    ⟨by simp only [busy, armed, running, Bool.or_self], held⟩
  refine completeShardRound_coordinated stage nodup within
    ⟨inv.seated_update fun seated => absurd seated left, fun _ => idle⟩ ?_ pos
    ⟨unscheduled, fun other inPlan => ?_⟩
  · exact inv.delivered_barrier unscheduled posted fun other => (idle other).1
  · change _ ↔ other ∈ coord.posted.erase shard
    rw [remains other]
    by_cases same : other = shard
    · rw [same, update_self]
      exact iff_of_false left fun both => both.1 rfl
    · rw [other_shard same, round other inPlan]
      exact (and_iff_right same).symm

end

theorem busy_count (mem : shard ∈ coord.plan.shards) :
    coord.plan.shards.countP (fun other => (update shards shard after other).busy tx) +
      (if (shards shard).busy tx then 1 else 0) =
    coord.plan.shards.countP (fun other => (shards other).busy tx) +
      (if after.busy tx then 1 else 0) := by
  have split := perm_cons_erase mem
  have rest : (coord.plan.shards.erase shard).countP
      (fun other => (update shards shard after other).busy tx) =
      (coord.plan.shards.erase shard).countP fun other => (shards other).busy tx := by
    refine countP_congr fun other inRest => ?_
    rw [other_shard (coord.plan.distinct.mem_erase_iff.mp inRest).1]
  rw [split.countP_eq, split.countP_eq, countP_cons, countP_cons, rest, update_self]
  omega

section

variable (inv : Coordinated coord shards tx)

include inv

theorem Coordinated.delivered_arm (stage : coord.stage = .awaiting .arm)
    (posted : shard ∈ coord.posted) (busyAfter : after.busy tx = true)
    (sameId : after.txid (.transaction tx) = (shards shard).txid (.transaction tx)) :
    Coordinated { coord with posted := coord.posted.erase shard }
      (update shards shard after) tx := by
  obtain ⟨up, pos, scheduled, round⟩ := inv.at_stage stage
  obtain ⟨nodup, within, remains, shorter⟩ := posted_erase inv posted
  have mem := inv.postedPlan shard posted
  obtain ⟨seatedBefore, idleBefore⟩ := (round shard mem).1 posted
  refine ⟨⟨inv.seated_update fun _ => sameId ▸ inv.seated shard seatedBefore,
    fun unscheduled => ?_⟩, nodup, within, ?_, ?_⟩
  · change coord.scheduled = false at unscheduled
    rw [scheduled] at unscheduled
    contradiction
  · have counted := inv.barrier
    have changed := @busy_count coord shards tx shard after mem
    simp only [idleBefore, busyAfter, if_true, Bool.false_eq_true, if_false] at changed
    change coord.barrier = (coord.posted.erase shard).length + coord.plan.shards.countP
        (fun other => (update shards shard after other).busy tx)
    omega
  · change StageHolds _ _ _ coord.stage
    rw [stage]
    refine ⟨up, pos, scheduled, fun other inPlan => ⟨fun pending => ?_, fun done idle => ?_⟩⟩
    · obtain ⟨apart, before⟩ := (remains other).mp pending
      rw [other_shard apart]
      exact (round other inPlan).1 before
    · by_cases same : other = shard
      · rw [same, update_self, busyAfter] at idle
        contradiction
      · rw [other_shard same] at idle ⊢
        exact (round other inPlan).2 (fun before => done ((remains other).mpr ⟨same, before⟩)) idle

theorem Coordinated.hopping (seated : (shards shard).Seated tx)
    (running : (shards shard).busy tx = true) :
    coord.stage = .awaiting .arm ∧ shard ∉ coord.posted := by
  have mem := (inv.seated shard seated).1
  have scheduled : coord.scheduled = true := by
    cases found : coord.scheduled with
    | true => rfl
    | false =>
      have idle := (inv.unscheduled found shard).1
      rw [running] at idle
      contradiction
  have up : coord.barrier ≠ 0 := by
    intro down
    have idle := (inv.settled down).2 shard mem
    rw [running] at idle
    contradiction
  have holds := inv.stage
  cases found : coord.stage with
  | built | runnable _ | idle | released =>
    rw [found] at holds
    exact absurd holds.1 up
  | awaiting phase =>
    rw [found] at holds
    obtain ⟨-, -, round⟩ := holds
    cases phase with
    | schedule | cancel =>
      rw [round.1] at scheduled
      contradiction
    | arm =>
      refine ⟨rfl, fun posted => ?_⟩
      have idle := ((round.2 shard mem).1 posted).2
      rw [running] at idle
      contradiction

theorem Coordinated.hopped (seatedBefore : (shards shard).Seated tx)
    (running : (shards shard).busy tx = true) (stopped : after.busy tx = false)
    (seatedAfter : after.Seated tx ↔ coord.releasing = false)
    (sameId : after.txid (.transaction tx) = (shards shard).txid (.transaction tx)) :
    Coordinated (coord.completeShardRound .arm) (update shards shard after)
      tx := by
  obtain ⟨stage, unposted⟩ := inv.hopping seatedBefore running
  obtain ⟨up, pos, scheduled, round⟩ := inv.at_stage stage
  have mem := (inv.seated shard seatedBefore).1
  refine completeShardRound_coordinated stage inv.postedDistinct inv.postedPlan
    ⟨inv.seated_update fun _ => sameId ▸ inv.seated shard seatedBefore, fun unscheduled => ?_⟩
    ?_ pos ⟨scheduled, fun other inPlan => ⟨fun pending => ?_, fun done idle => ?_⟩⟩
  · rw [scheduled] at unscheduled
    contradiction
  · have counted := inv.barrier
    have changed := @busy_count coord shards tx shard after mem
    simp only [running, stopped, if_true, Bool.false_eq_true, if_false] at changed
    omega
  · have apart : other ≠ shard := fun same => unposted (same ▸ pending)
    rw [other_shard apart]
    exact (round other inPlan).1 pending
  · by_cases same : other = shard
    · rw [same, update_self]
      exact seatedAfter
    · rw [other_shard same] at idle ⊢
      exact (round other inPlan).2 done idle

end

end Coordinator

end Lavik.Tx
