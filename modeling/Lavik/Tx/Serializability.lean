import Lavik.Tx.Coordination
/-!
# Serializability across shards

`Coherent` is the invariant of the whole system: the history of every shard carries the serial
number of the owner. Serial numbers increase along conflicting grants of every shard, so the order
in which conflicting holds were granted has no cycle over all shards.
-/

namespace Lavik.Tx

open Base TxShard List Function

namespace System

structure Known (system : System) (shard : ShardId) (state : TxShard) : Prop where
  quiescent : state.Quiescent
  plain : ∀ acq, .plain acq ∈ state.live → state.txid (.plain acq) < system.nextTxid ∧
      ∀ tx, (system.coordinator tx).txid ≠ state.txid (.plain acq)
  published : state.committedTxid < system.nextTxid
  located : ∀ acq, .plain acq ∈ state.registered → acq < system.acquired ∧ system.home acq = shard
  /-- A transaction in the history was scheduled, and its serial number is its id. -/
  loggedTransaction : ∀ grant ∈ state.grants, ∀ tx, grant.owner = .transaction tx →
      (system.coordinator tx).scheduled = true ∧
        grant.serial = toLex ((system.coordinator tx).txid, 0)
  loggedPlain : ∀ grant ∈ state.grants, ∀ acq, grant.owner = .plain acq →
    acq < system.acquired ∧ system.home acq = shard

structure Coherent (system : System) : Prop where
  shards : ∀ shard, system.Known shard (system.shard shard)
  coordinated : ∀ tx, (system.coordinator tx).Coordinated system.shard tx
  unbegun : ∀ tx, system.begun ≤ tx → system.coordinator tx = {}
  drawn : ∀ tx, (system.coordinator tx).txid < system.nextTxid
  apart : ∀ tx other, tx ≠ other → (system.coordinator tx).txid = (system.coordinator other).txid →
      (system.coordinator tx).txid = 0

theorem coherent_initial : Coherent {} where
  shards _ := ⟨⟨consistent_initial, rfl, rfl⟩, by simp [live], Nat.one_pos,
    by simp [registered, live], by simp, by simp⟩
  coordinated _ := ⟨⟨by simp [TxShard.Seated, live], by simp [busy]⟩, nodup_nil, by simp,
    by simp [LockPlan.empty], by simp [Coordinator.StageHolds, TxShard.Seated, live]⟩
  unbegun _ _ := rfl
  drawn _ := Nat.one_pos
  apart _ _ _ _ := rfl

structure Grows (system after : System) : Prop where
  nextTxid : system.nextTxid ≤ after.nextTxid
  ids : ∀ tx, (after.coordinator tx).txid = (system.coordinator tx).txid ∨
      (after.coordinator tx).txid = system.nextTxid ∧ (system.coordinator tx).scheduled = false
  scheduled : ∀ tx, (system.coordinator tx).scheduled = true →
    (after.coordinator tx).scheduled = true
  acquired : system.acquired ≤ after.acquired
  home : ∀ acq, acq < system.acquired → after.home acq = system.home acq

variable {system after : System} {shard : ShardId} {state : TxShard}

theorem Known.grows (known : system.Known shard state) (grows : Grows system after) :
    after.Known shard state := by
  have kept : ∀ acq, acq < system.acquired ∧ system.home acq = shard →
      acq < after.acquired ∧ after.home acq = shard := by
    rintro acq ⟨made, atHome⟩
    exact ⟨Nat.lt_of_lt_of_le made grows.acquired, (grows.home acq made).trans atHome⟩
  refine ⟨known.quiescent, fun acq queued => ?_, Nat.lt_of_lt_of_le known.published grows.nextTxid,
    fun acq mem => kept acq (known.located acq mem),
    fun grant logged tx owner => ?_,
    fun grant logged acq owner =>
      kept acq (known.loggedPlain grant logged acq owner)⟩
  · obtain ⟨below, alone⟩ := known.plain acq queued
    refine ⟨Nat.lt_of_lt_of_le below grows.nextTxid, fun tx => ?_⟩
    rcases grows.ids tx with same | ⟨fresh, -⟩
    · rw [same]
      exact alone tx
    · rw [fresh]
      exact Nat.ne_of_gt below
  · obtain ⟨scheduled, serial⟩ := known.loggedTransaction grant logged tx owner
    refine ⟨grows.scheduled tx scheduled, ?_⟩
    rcases grows.ids tx with same | ⟨-, unscheduled⟩
    · rw [same]
      exact serial
    · rw [scheduled] at unscheduled
      contradiction

variable {next : TxShard} {event : ShardEvent}

/-- What is known of a shard after one of its handlers: the acquisition that is made, if any, was
drawn and located, and whoever owns holds was scheduled under its current id. -/
theorem Known.handled (known : system.Known shard state) (quiet : next.Quiescent)
    (effect : Effect state next event)
    (made : ∀ acq, event.newcomer = some acq → (acq < system.acquired ∧ system.home acq = shard) ∧
        (.plain acq ∈ next.live → next.txid (.plain acq) < system.nextTxid ∧ ∀ tx,
            (system.coordinator tx).txid ≠ next.txid (.plain acq)))
    (drawn : ∀ waiter ∈ state.live, state.txid waiter < system.nextTxid)
    (owners : ∀ tx, (next.node (.transaction tx)).holdsAcquired = true →
        (system.coordinator tx).scheduled = true ∧
          next.txid (.transaction tx) = (system.coordinator tx).txid) :
    system.Known shard next := by
  have located : ∀ acq, .plain acq ∈ next.registered →
      acq < system.acquired ∧ system.home acq = shard := by
    intro acq mem
    by_cases new : event.newcomer = some acq
    · exact (made acq new).1
    · exact known.located acq (effect.registered acq new mem)
  obtain ⟨added, history, from_⟩ := effect.history
  refine ⟨quiet, fun acq queued => ?_, ?_, located,
    fun grant logged tx owner => ?_, fun grant logged acq owner => ?_⟩
  · by_cases new : event.newcomer = some acq
    · exact (made acq new).2 queued
    · obtain ⟨before, same⟩ := effect.queued acq new queued
      rw [same]
      exact known.plain acq before
  · have bound := effect.committed (system.nextTxid - 1) (Nat.le_pred_of_lt known.published)
      fun waiter queued => Nat.le_pred_of_lt (drawn waiter queued)
    have published := known.published
    omega
  · rw [history] at logged
    rcases mem_append.mp logged with old | new
    · exact known.loggedTransaction grant old tx owner
    obtain ⟨held, serial⟩ := (from_ grant new).2 tx owner
    obtain ⟨scheduled, sameId⟩ := owners tx held
    rw [serial, sameId]
    exact ⟨scheduled, rfl⟩
  · rw [history] at logged
    rcases mem_append.mp logged with old | new
    · exact known.loggedPlain grant old acq owner
    · exact located acq ((from_ grant new).1 acq owner)

theorem Coherent.queued_drawn (inv : system.Coherent) (shard : ShardId) :
    ∀ waiter ∈ (system.shard shard).live, (system.shard shard).txid waiter < system.nextTxid := by
  intro waiter queued
  cases waiter with
  | plain acq => exact ((inv.shards shard).plain acq queued).1
  | transaction tx =>
    rw [((inv.coordinated tx).seated shard queued).2]
    exact inv.drawn tx

variable {tx : TransactionId}

theorem Coherent.others (inv : system.Coherent)
    (effect : Effect (system.shard shard) next event) (idle : event.actor ≠ some tx) :
    (system.coordinator tx).Coordinated (update system.shard shard next)
      tx :=
  (inv.coordinated tx).untouched <|
    (forall_update_iff system.shard fun other state => Untouched (system.shard other) state tx).mpr
      ⟨effect.others tx idle, fun _ _ => ⟨Iff.rfl, rfl, rfl, rfl, Or.inl⟩⟩

variable {coordinator : Coordinator} {phase : Phase} {owner : WaiterId}

theorem scheduled_of_held {shards : ShardId → TxShard}
    (inv : coordinator.Coordinated (update shards shard next) tx)
    (quiet : next.Quiescent) (held : (next.node (.transaction tx)).holdsAcquired = true) :
    coordinator.scheduled = true ∧ next.txid (.transaction tx) = coordinator.txid := by
  have seated := inv.seated shard
  have unscheduled := fun found => inv.unscheduled found shard
  rw [update_self] at seated unscheduled
  refine ⟨?_, (seated (quiet.consistent.tasks.heldLive tx held)).2⟩
  cases found : coordinator.scheduled with
  | true => rfl
  | false =>
    have unheld := (unscheduled found).2
    rw [held] at unheld
    contradiction

theorem Known.update (grows : Grows system after)
    (known : ∀ other, system.Known other (system.shard other)) (step : after.Known shard next)
    (other : ShardId) : after.Known other (update system.shard shard next other) :=
  (forall_update_iff system.shard after.Known).mpr
    ⟨step, fun other _ => (known other).grows grows⟩ other

section

variable (inv : system.Coherent)

include inv

section Handled

variable (quiet : next.Quiescent) (effect : Effect (system.shard shard) next event)
  (stranger : event.newcomer = none)

include quiet effect stranger

/-- A handler of one shard keeps the system coherent when the coordinators keep their ids and
stay in agreement. -/
theorem Coherent.rebuild {coordinator : TransactionId → Coordinator}
    (ids : ∀ tx, (coordinator tx).txid = (system.coordinator tx).txid)
    (scheduled : ∀ tx, (coordinator tx).scheduled = (system.coordinator tx).scheduled)
    (unbegun : ∀ tx, system.begun ≤ tx → coordinator tx = {})
    (agree : ∀ tx, (coordinator tx).Coordinated (update system.shard shard next) tx) :
    Coherent { system with shard := update system.shard shard next, coordinator } := by
  set target : System :=
    { system with shard := update system.shard shard next, coordinator } with targetEq
  have grows : Grows system target := ⟨Nat.le_refl _, fun tx => Or.inl (ids tx),
    fun tx before => (scheduled tx).trans before, Nat.le_refl _, fun _ _ => rfl⟩
  have step : target.Known shard next := by
    refine ((inv.shards shard).grows grows).handled quiet effect ?_
      (inv.queued_drawn shard) fun tx => scheduled_of_held (agree tx) quiet
    intro acq new
    rw [stranger] at new
    contradiction
  refine ⟨Known.update grows inv.shards step, agree, unbegun, fun tx => ?_,
    fun tx other apart same => ?_⟩
  · exact (ids tx).symm ▸ inv.drawn tx
  · change (coordinator tx).txid = (coordinator other).txid at same
    rw [ids, ids] at same
    exact (ids tx).trans (inv.apart tx other apart same)

theorem Coherent.serve (nobody : event.actor = none) :
    (system.setShard shard next).Coherent :=
  inv.rebuild quiet effect stranger (fun _ => rfl) (fun _ => rfl) inv.unbegun
    fun _ => inv.others effect (by simp [nobody])

theorem Coherent.act (actor : event.actor = some tx) (begun : tx < system.begun)
    (sameId : coordinator.txid = (system.coordinator tx).txid)
    (sameScheduled : coordinator.scheduled = (system.coordinator tx).scheduled)
    (agrees : coordinator.Coordinated (update system.shard shard next) tx) :
    ((system.setShard shard next).setCoordinator tx coordinator).Coherent := by
  refine inv.rebuild quiet effect stranger (fun other => ?_) (fun other => ?_)
    (fun other later => ?_) fun other => ?_
  all_goals by_cases same : other = tx
  · rw [same, update_self, sameId]
  · rw [update_of_ne same]
    rfl
  · rw [same, update_self, sameScheduled]
  · rw [update_of_ne same]
    rfl
  · exact absurd begun (Nat.not_lt.mpr (same ▸ later))
  · rw [update_of_ne same]
    exact inv.unbegun other later
  · rw [same, update_self]
    exact agrees
  · rw [update_of_ne same]
    refine inv.others effect fun other => same ?_
    rw [actor] at other
    exact (Option.some.inj other).symm

end Handled

theorem Coherent.coordinate {nextTxid : Nat} (begun : tx < system.begun)
    (later : system.nextTxid ≤ nextTxid) (id : coordinator.txid = (system.coordinator tx).txid ∨
      coordinator.txid = system.nextTxid ∧ system.nextTxid < nextTxid ∧
        (system.coordinator tx).scheduled = false)
    (scheduled : (system.coordinator tx).scheduled = true → coordinator.scheduled = true)
    (agrees : coordinator.Coordinated system.shard tx) :
    ({ system with nextTxid }.setCoordinator tx coordinator).Coherent := by
  set target := { system with nextTxid }.setCoordinator tx coordinator with targetEq
  have self : target.coordinator tx = coordinator := by
    simp [targetEq, setCoordinator]
  have others : ∀ other, other ≠ tx → target.coordinator other = system.coordinator other := by
    intro other ne
    simp [targetEq, setCoordinator, ne]
  have grows : Grows system target := by
    refine ⟨later, (forall_update_iff system.coordinator fun other made =>
        made.txid = (system.coordinator other).txid ∨
          made.txid = system.nextTxid ∧ (system.coordinator other).scheduled = false).mpr
        ⟨id.imp_right fun fresh => ⟨fresh.1, fresh.2.2⟩, fun _ _ => Or.inl rfl⟩,
      (forall_update_iff system.coordinator fun other made =>
        (system.coordinator other).scheduled = true → made.scheduled = true).mpr
        ⟨scheduled, fun _ _ before => before⟩, Nat.le_refl _, fun _ _ => rfl⟩
  refine ⟨fun shard => (inv.shards shard).grows grows,
    (forall_update_iff system.coordinator fun other made =>
      made.Coordinated system.shard other).mpr ⟨agrees, fun other _ => inv.coordinated other⟩,
    fun other unbegun => ?_, (forall_update_iff system.coordinator fun _ made =>
      made.txid < nextTxid).mpr ⟨?_, fun other _ => Nat.lt_of_lt_of_le (inv.drawn other) later⟩,
    fun first second ne same => ?_⟩
  · change system.begun ≤ other at unbegun
    rw [others other fun same => Nat.not_lt.mpr (same ▸ unbegun) begun]
    exact inv.unbegun other unbegun
  · have before := inv.drawn tx
    omega
  · have old : ∀ other, (system.coordinator other).txid ≠ system.nextTxid :=
      fun other => Nat.ne_of_lt (inv.drawn other)
    -- A fresh id is new to every other coordinator.
    by_cases isFirst : first = tx
    · subst isFirst
      rw [self, others second (Ne.symm ne)] at same
      rw [self]
      rcases id with kept | ⟨fresh, -, -⟩
      · rw [kept] at same ⊢
        exact inv.apart first second ne same
      · exact absurd (same.symm.trans fresh) (old second)
    · rw [others first isFirst] at same ⊢
      by_cases isSecond : second = tx
      · subst isSecond
        rw [self] at same
        rcases id with kept | ⟨fresh, -, -⟩
        · exact inv.apart first second ne (same.trans kept)
        · exact absurd (same.trans fresh) (old first)
      · rw [others second isSecond] at same
        exact inv.apart first second ne same

theorem Coherent.begun (active : (system.coordinator tx).stage ≠ .built) : tx < system.begun := by
  refine Nat.lt_of_not_le fun later => active ?_
  rw [inv.unbegun tx later]

end

/-! ## Every step returns and keeps the invariant -/

/-- What one step does to one shard: nothing, or one of its handlers within its contract. -/
def ShardStep (before after : TxShard) : Prop :=
  after = before ∨ ∃ event, before.Enabled event ∧ before.handle event = .ok after

def Steps (system : System) (result : Except Assertion System) : Prop :=
  ∃ after, result = .ok after ∧ after.Coherent ∧
    ∀ shard, ShardStep (system.shard shard) (after.shard shard)

theorem shardStep_update (enabled : (system.shard shard).Enabled event)
    (handled : (system.shard shard).handle event = .ok next) (other : ShardId) :
    ShardStep (system.shard other) (update system.shard shard next other) :=
  (forall_update_iff system.shard fun other => ShardStep (system.shard other)).mpr
    ⟨Or.inr ⟨event, enabled, handled⟩, fun _ _ => Or.inl rfl⟩ other

section

variable (inv : system.Coherent)

include inv

theorem Coherent.onShard (enabled : (system.shard shard).Enabled event)
    (stranger : event.newcomer = none) (nobody : event.actor = none) :
    system.Steps (system.onShard shard event) := by
  obtain ⟨next, handled, quiet, effect, -⟩ :=
    handle_spec (inv.shards shard).quiescent enabled
  exact ⟨system.setShard shard next, bind_returns.mpr ⟨next, handled, rfl⟩,
    inv.serve quiet effect stranger nobody, shardStep_update enabled handled⟩

theorem Coherent.acquire (shard : ShardId) (keys : KeySet) :
    system.Steps (system.acquire shard keys) := by
  have known := inv.shards shard
  have enabled : (system.shard shard).Enabled (.acquire system.acquired keys system.nextTxid) :=
    ⟨fun mem => Nat.lt_irrefl _ (known.located _ mem).1, fun grant logged owner =>
      Nat.lt_irrefl _ (known.loggedPlain grant logged _ owner).1, known.published,
      inv.queued_drawn shard⟩
  obtain ⟨next, granted, acquired, quiet, effect, queued⟩ :=
    acquireKeys_spec known.quiescent enabled
  have handled : (system.shard shard).handle (.acquire system.acquired keys system.nextTxid) =
      .ok next := bind_returns.mpr ⟨(next, granted), acquired, rfl⟩
  set target : System := { system.setShard shard next with
    nextTxid := if granted then system.nextTxid else system.nextTxid + 1
    acquired := system.acquired + 1
    home := update system.home system.acquired shard } with targetEq
  refine ⟨target, bind_returns.mpr ⟨(next, granted), acquired, rfl⟩, ?_,
    shardStep_update enabled handled⟩
  have later : system.nextTxid ≤ target.nextTxid := by
    change system.nextTxid ≤ if granted then system.nextTxid else system.nextTxid + 1
    split <;> omega
  have grows : Grows system target := ⟨later, fun _ => Or.inl rfl, fun _ before => before,
    Nat.le_succ _, fun acq made => update_of_ne (Nat.ne_of_lt made) _ _⟩
  have agree : ∀ tx, (target.coordinator tx).Coordinated target.shard
      tx := fun tx => inv.others effect (by simp [ShardEvent.actor])
  have step : target.Known shard next := by
    refine ((inv.shards shard).grows grows).handled quiet effect ?_
      (fun waiter mem => Nat.lt_of_lt_of_le (inv.queued_drawn shard waiter mem) later)
      fun tx => scheduled_of_held (agree tx) quiet
    intro acq new
    obtain rfl : system.acquired = acq := Option.some.inj new
    refine ⟨⟨Nat.lt_succ_self _, update_self _ _ _⟩, fun waits => ?_⟩
    obtain ⟨rfl, drawn⟩ := queued waits
    rw [drawn]
    exact ⟨Nat.lt_succ_self _, fun tx => Nat.ne_of_lt (inv.drawn tx)⟩
  exact ⟨Known.update grows inv.shards step, agree, inv.unbegun,
    fun tx => Nat.lt_of_lt_of_le (inv.drawn tx) later, inv.apart⟩

theorem Coherent.enabled_deliver (stage : (system.coordinator tx).stage = .awaiting phase)
    (posted : shard ∈ (system.coordinator tx).posted) :
    (system.shard shard).Enabled (system.shardPhase tx shard phase) := by
  have coordinated := inv.coordinated tx
  have mem := coordinated.postedPlan shard posted
  have holds := coordinated.stage
  rw [stage] at holds
  obtain ⟨-, pos, round⟩ := holds
  cases phase with
  | schedule =>
    refine ⟨(round.2 shard mem).1 posted, pos, fun waiter queued same => ?_⟩
    cases waiter with
    | plain acq =>
      exact ((inv.shards shard).plain acq queued).2 tx same.symm
    | transaction other =>
      have apart : other ≠ tx := by
        rintro rfl
        exact (round.2 shard mem).1 posted queued
      rw [((inv.coordinated other).seated shard queued).2] at same
      have zero := inv.apart other tx apart same
      omega
  | cancel =>
    obtain ⟨idle, unheld⟩ := coordinated.unscheduled round.1 shard
    exact ⟨(round.2 shard mem).mpr posted, (Bool.or_eq_false_iff.mp idle).1, unheld⟩
  | arm =>
    obtain ⟨seated, idle⟩ := (round.2 shard mem).1 posted
    exact ⟨seated, Bool.or_eq_false_iff.mp idle⟩

theorem Coherent.deliver (stage : (system.coordinator tx).stage = .awaiting phase)
    (posted : shard ∈ (system.coordinator tx).posted) :
    system.Steps (system.deliver tx shard phase) := by
  have enabled := inv.enabled_deliver stage posted
  have coordinated := inv.coordinated tx
  have begun : tx < system.begun := inv.begun (by simp [stage])
  obtain ⟨next, handled, quiet, effect, outcome⟩ :=
    handle_spec (inv.shards shard).quiescent enabled
  have ran : system.onShard shard (system.shardPhase tx shard phase) =
      .ok (system.setShard shard next) := bind_returns.mpr ⟨next, handled, rfl⟩
  refine ⟨_, bind_returns.mpr ⟨_, ran, rfl⟩, ?_, shardStep_update enabled handled⟩
  cases phase with
  | schedule =>
    exact inv.act quiet effect rfl rfl begun rfl rfl
      (coordinated.delivered_schedule stage posted outcome)
  | cancel =>
    exact inv.act quiet effect rfl rfl begun rfl rfl
      (coordinated.delivered_cancel stage posted quiet outcome)
  | arm =>
    exact inv.act quiet effect rfl rfl begun rfl rfl
      (coordinated.delivered_arm stage posted outcome.2.1 outcome.2.2)

theorem Coherent.hop (spawned : tx ∈ (system.shard shard).hops) :
    system.Steps (system.hop tx shard) := by
  have coordinated := inv.coordinated tx
  have tasks := (inv.shards shard).quiescent.consistent.tasks
  have running := (tasks.hopsRunning tx).mp spawned
  have busy : (system.shard shard).busy tx = true := by
    simp only [busy, running, Bool.or_true]
  have seated : (system.shard shard).Seated tx :=
    tasks.heldLive tx (tasks.runningHeld tx running).1
  have stage := (coordinated.hopping seated busy).1
  have begun : tx < system.begun := inv.begun (by simp [stage])
  have enabled : (system.shard shard).Enabled (.hop tx (system.coordinator tx).releasing) := spawned
  obtain ⟨next, handled, quiet, effect, stopped, left, sameId⟩ :=
    handle_spec (inv.shards shard).quiescent enabled
  have ran : system.onShard shard (.hop tx (system.coordinator tx).releasing) =
      .ok (system.setShard shard next) := bind_returns.mpr ⟨next, handled, rfl⟩
  exact ⟨_, bind_returns.mpr ⟨_, ran, rfl⟩, inv.act quiet effect rfl rfl begun rfl rfl
    (coordinated.hopped seated busy stopped left sameId), shardStep_update enabled handled⟩

theorem Coherent.attempt (begun : tx < system.begun)
    (unscheduled : (system.coordinator tx).scheduled = false)
    (absent : ∀ shard, ¬ (system.shard shard).Seated tx) : (system.attempt tx).Coherent := by
  have pos : 0 < system.nextTxid := Nat.zero_lt_of_lt (inv.drawn tx)
  refine inv.coordinate begun (Nat.le_succ _)
    (Or.inr ⟨rfl, Nat.lt_succ_self _, unscheduled⟩) (fun before => ?_)
    ((inv.coordinated tx).attempt unscheduled absent _ pos)
  rw [unscheduled] at before
  contradiction

theorem Coherent.wake (stage : (system.coordinator tx).stage = .runnable phase) :
    (system.wake tx phase).Coherent := by
  have coordinated := inv.coordinated tx
  have begun : tx < system.begun := inv.begun (by simp [stage])
  cases phase with
  | schedule =>
    unfold System.wake
    simp only
    split
    · exact inv.coordinate begun (Nat.le_refl _) (Or.inl rfl) (fun before => before)
        (coordinated.cancel stage)
    rename_i ok
    refine inv.coordinate begun (Nat.le_refl _) (Or.inl rfl) (fun _ => rfl)
      (coordinated.accept stage fun shard mem => ?_)
    exact Bool.eq_false_iff.mpr fun failed =>
      ok (any_eq_true.mpr ⟨shard, mem, failed⟩)
  | cancel =>
    obtain ⟨unscheduled, absent⟩ := coordinated.cancelled stage
    exact inv.attempt begun unscheduled absent
  | arm =>
    exact inv.coordinate begun (Nat.le_refl _) (Or.inl rfl) (fun before => before)
      (coordinated.finish stage)

theorem Coherent.begin (plan : LockPlan) :
    { system.setCoordinator system.begun { plan } with begun := system.begun + 1 }.Coherent := by
  have fresh := inv.unbegun system.begun (Nat.le_refl _)
  have coordinated := inv.coordinated system.begun
  rw [fresh] at coordinated
  have absent : ∀ shard, ¬ (system.shard shard).Seated system.begun := coordinated.stage.2.2
  set target : System :=
    { system.setCoordinator system.begun { plan } with begun := system.begun + 1 } with targetEq
  have self : target.coordinator system.begun = { plan } := by simp [targetEq, setCoordinator]
  have others : ∀ other, other ≠ system.begun →
      target.coordinator other = system.coordinator other := by
    intro other ne
    simp [targetEq, setCoordinator, ne]
  have ids : ∀ other, (target.coordinator other).txid = (system.coordinator other).txid := by
    intro other
    by_cases same : other = system.begun
    · rw [same, self, fresh]
    · rw [others other same]
  have grows : Grows system target := by
    refine ⟨Nat.le_refl _, fun other => Or.inl (ids other), fun other before => ?_, Nat.le_refl _,
      fun _ _ => rfl⟩
    by_cases same : other = system.begun
    · rw [same, fresh] at before
      contradiction
    · rw [others other same]
      exact before
  refine ⟨fun shard => (inv.shards shard).grows grows, fun other => ?_, fun other later => ?_,
    fun other => ?_, fun first second ne same => ?_⟩
  · by_cases same : other = system.begun
    · rw [same, self]
      refine ⟨⟨fun shard seated => absurd seated (absent shard), coordinated.unscheduled⟩,
        nodup_nil, by simp, ?_, rfl, rfl, absent⟩
      change 0 = 0 + plan.shards.countP (fun shard => (system.shard shard).busy system.begun)
      rw [Coordinator.countP_idle fun shard _ => (coordinated.unscheduled rfl shard).1]
    · rw [others other same]
      exact inv.coordinated other
  · have apart : other ≠ system.begun := Nat.ne_of_gt later
    rw [others other apart]
    exact inv.unbegun other (Nat.le_of_succ_le later)
  · rw [ids]
    exact inv.drawn other
  · rw [ids, ids] at same
    exact (ids first).trans (inv.apart first second ne same)

/-- Every step within its contract returns: no assertion of any shard fails. It keeps the system
coherent, and what it does to a shard is one of the shard's handlers within its contract. -/
theorem Coherent.step {event : SystemEvent} (enabled : system.Enabled event) :
    system.Steps (system.step event) := by
  have still : ∀ after : System, after.shard = system.shard →
      ∀ shard, ShardStep (system.shard shard) (after.shard shard) :=
    fun after same shard => Or.inl (congrFun same shard)
  cases event with
  | acquire shard keys => exact inv.acquire shard keys
  | resume | release => exact inv.onShard enabled rfl rfl
  | poll shard => exact inv.onShard trivial rfl rfl
  | begin plan => exact ⟨_, rfl, inv.begin plan, still _ rfl⟩
  | schedule tx =>
    obtain ⟨begun, stage⟩ := enabled
    have holds := (inv.coordinated tx).stage
    rw [stage] at holds
    exact ⟨_, rfl, inv.attempt begun holds.2.1 holds.2.2, still _ rfl⟩
  | deliver tx shard =>
    obtain ⟨posted, phase, stage⟩ := enabled
    simp only [System.step, stage]
    exact inv.deliver stage posted
  | wake tx =>
    obtain ⟨phase, stage⟩ := enabled
    simp only [System.step, stage]
    refine ⟨_, rfl, inv.wake stage, still _ ?_⟩
    cases phase with
    | schedule =>
      unfold System.wake
      simp only
      split <;> rfl
    | cancel => rfl
    | arm => rfl
  | execute tx release =>
    have begun : tx < system.begun := inv.begun (by rw [enabled]; simp)
    exact ⟨_, rfl, inv.coordinate begun (Nat.le_refl _) (Or.inl rfl) (fun before => before)
      ((inv.coordinated tx).execute enabled _ release), still _ rfl⟩
  | hop tx shard => exact inv.hop enabled

end

theorem coherent_of_reachable (reached : machine.Reachable system) : system.Coherent := by
  refine Machine.Reachable.of_total coherent_initial (fun state event inv enabled => ?_) reached
  obtain ⟨after, step, kept, -⟩ := inv.step enabled
  exact ⟨after, step, kept⟩

/-! ## The order of conflicting holds -/

/-- On some shard the holds of one acquisition were granted before conflicting holds of another. -/
def HeldBefore (system : System) (first second : WaiterId) : Prop :=
  ∃ shard earlier later, [earlier, later].Sublist (system.shard shard).grants ∧
    earlier.owner = first ∧ later.owner = second ∧ Conflict earlier.keys.refs later.keys.refs

/-- The serial number under which an acquisition appears in the histories. -/
def SerialOf (system : System) (owner : WaiterId) (serial : Nat ×ₗ Nat) : Prop :=
  ∃ shard, ∃ grant ∈ (system.shard shard).grants, grant.owner = owner ∧ grant.serial = serial

theorem Coherent.serial_unique (inv : system.Coherent) {first second : Nat ×ₗ Nat}
    (inFirst : system.SerialOf owner first) (inSecond : system.SerialOf owner second) :
    first = second := by
  obtain ⟨shard, grant, logged, rfl, rfl⟩ := inFirst
  obtain ⟨other, again, loggedAgain, same, rfl⟩ := inSecond
  cases owner : grant.owner with
  | transaction tx =>
    rw [owner] at same
    rw [((inv.shards shard).loggedTransaction grant logged tx owner).2,
      ((inv.shards other).loggedTransaction again loggedAgain tx same).2]
  | plain acq =>
    rw [owner] at same
    have here := ((inv.shards shard).loggedPlain grant logged acq owner).2
    have there := ((inv.shards other).loggedPlain again loggedAgain acq same).2
    obtain rfl : shard = other := here.symm.trans there
    rw [(inv.shards shard).quiescent.consistent.grant_unique logged loggedAgain owner same]

theorem Coherent.serial_increases (inv : system.Coherent) {earlier later : Grant}
    (order : [earlier, later].Sublist (system.shard shard).grants)
    (conflict : Conflict earlier.keys.refs later.keys.refs) : earlier.serial < later.serial := by
  have ordered := (inv.shards shard).quiescent.consistent.ordered.sublist order
  exact (pairwise_cons.mp ordered).1 later mem_cons_self conflict

noncomputable def rank (system : System) (owner : WaiterId) : Nat ×ₗ Nat :=
  open Classical in
  if logged : ∃ serial, system.SerialOf owner serial then logged.choose else toLex (0, 0)

theorem Coherent.rank_eq (inv : system.Coherent) {serial : Nat ×ₗ Nat}
    (logged : system.SerialOf owner serial) : system.rank owner = serial := by
  have found : ∃ serial, system.SerialOf owner serial := ⟨serial, logged⟩
  unfold rank
  rw [dif_pos found]
  exact inv.serial_unique found.choose_spec logged

/-- The order in which conflicting holds were granted, over all shards and for every
interleaving, has no cycle. Two transactions that conflict on a shard were granted there in the
order of the ids under which they were scheduled. -/
theorem holds_serializable (reached : machine.Reachable system) :
    (∀ owner, ¬ Relation.TransGen system.HeldBefore owner owner) ∧
      ∀ first second shard earlier later, [earlier, later].Sublist (system.shard shard).grants →
        earlier.owner = .transaction first → later.owner = .transaction second →
        Conflict earlier.keys.refs later.keys.refs → (system.coordinator first).scheduled = true ∧
            (system.coordinator second).scheduled = true ∧
            (system.coordinator first).txid < (system.coordinator second).txid := by
  have coherent := coherent_of_reachable reached
  constructor
  · refine acyclic_of_rank system.rank ?_
    rintro first second ⟨shard, earlier, later, order, rfl, rfl, conflict⟩
    have inFirst := order.subset mem_cons_self
    have inSecond := order.subset (mem_cons_of_mem _ mem_cons_self)
    rw [coherent.rank_eq ⟨shard, earlier, inFirst, rfl, rfl⟩,
      coherent.rank_eq ⟨shard, later, inSecond, rfl, rfl⟩]
    exact coherent.serial_increases order conflict
  · intro first second shard earlier later order firstOwner secondOwner conflict
    have inFirst := order.subset mem_cons_self
    have inSecond := order.subset (mem_cons_of_mem _ mem_cons_self)
    have known := coherent.shards shard
    obtain ⟨firstScheduled, firstSerial⟩ := known.loggedTransaction earlier inFirst first firstOwner
    obtain ⟨secondScheduled, secondSerial⟩ :=
      known.loggedTransaction later inSecond second secondOwner
    refine ⟨firstScheduled, secondScheduled, ?_⟩
    have less := coherent.serial_increases order conflict
    rw [firstSerial, secondSerial] at less
    rcases Prod.Lex.lt_iff.mp less with smaller | ⟨-, tie⟩
    · exact smaller
    · exact absurd tie (Nat.lt_irrefl 0)

def twoShards : LockPlan := ⟨[0, 1], by decide, fun _ => oneExclusive⟩

/-- Two conflicting transactions whose schedule rounds cross: the first one is refused on the
second shard, is cancelled, and retries behind the other one. -/
def crossed : System :=
  (machine.play machine.initial [.begin twoShards, .begin twoShards, .schedule 0, .schedule 1,
    .deliver 0 0, .deliver 1 1, .deliver 0 1, .deliver 1 0, .wake 0, .deliver 0 0, .wake 0, .wake 1,
    .deliver 0 0, .deliver 0 1, .wake 0, .execute 1 true, .execute 0 true, .deliver 1 0,
    .deliver 0 0, .deliver 0 1, .deliver 1 1, .hop 1 1, .hop 0 1, .hop 1 0, .hop 0 0]).get
    (by decide)

/-- Both shards granted the second transaction first, in the order of the final ids. -/
theorem holds_serializable_crossed :
    (crossed.shard 0).grants.map Grant.owner = [.transaction 1, .transaction 0] ∧
      (crossed.shard 1).grants.map Grant.owner = [.transaction 1, .transaction 0] ∧
      (crossed.coordinator 1).txid < (crossed.coordinator 0).txid ∧
      ∀ owner, ¬ Relation.TransGen crossed.HeldBefore owner owner :=
  ⟨by decide, by decide, by decide,
    (holds_serializable (Machine.Reachable.play (.start rfl) (Option.some_get _).symm)).1⟩

end System

end Lavik.Tx
