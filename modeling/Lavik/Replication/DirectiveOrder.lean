import Lavik.Replication.GroupHistory
/-!
# The order of accepted directives

A directive that starts an attempt or moves the history is of the accepted group, not older than
any before it, and names an unused attempt. One entry point breaks the bound: `RecoverPopulation`
replaces the accepted directive by whatever it is given.
-/

namespace Lavik.Replication

open Base List

/-! ## What events accept -/

namespace Event

def accepted? : Event → Option RebuildIdentity
  | .began directive _ | .switched directive _ => some directive.identity
  | .recovered token => some token.identity
  | _ => none

def started? : Event → Option AttemptKey
  | .began directive _ | .switched directive _ => some directive.identity.attemptKey
  | _ => none

def authorization? : Event → Option ResetAuthorization
  | .began directive _ | .retried directive => some ⟨directive.identity⟩
  | _ => none

structure Precedes (earlier later : Event) : Prop where
  version : ∀ first ∈ earlier.accepted?, ∀ second ∈ later.accepted?, first.version ≤ second.version
  group : ∀ first ∈ earlier.accepted?, ∀ second ∈ later.accepted?, first.groupId = second.groupId
  attempt : ∀ key ∈ earlier.started?, key ∉ later.started?
  authorization : ∀ first ∈ earlier.accepted?, ∀ granted ∈ later.authorization?,
    first.version ≤ granted.identity.version
  running : ∀ identity, earlier ≠ .failStopped identity

theorem Precedes.of_silent {earlier later : Event} (ok : later.accepted? = none)
    (started : later.started? = none) (authorization : later.authorization? = none)
    (running : ∀ identity, earlier ≠ .failStopped identity) : earlier.Precedes later where
  version := by simp [ok]
  group := by simp [ok]
  attempt := by simp [started]
  authorization := by simp [authorization]
  running := running

theorem Within.accepted?_eq_none {directive : RebuildDirective} {event : Event}
    (within : event.Within directive) : event.accepted? = none := by
  cases event <;> first | rfl | exact absurd within (by simp [Within])

end Event

/-- The identity is of the accepted group and not older than what was accepted. -/
def ReplicationGroup.Forward (group : ReplicationGroup) (identity : RebuildIdentity) : Prop :=
  ∀ accepted ∈ group.lastDirective, accepted.identity.groupId = identity.groupId ∧
    accepted.identity.version ≤ identity.version

/-- A population that is to be recovered goes forward from what was accepted. -/
def Boot.RecoversForward (boot : Boot) : Operation → Prop
  | .recoverPopulation identity _ => boot.group.Forward identity
  | _ => True

open ReplicationGroup in
/-- Only `RecoverPopulation` recovers, and what it is given. -/
theorem ReplicationGroup.perform_recovered {group next : ReplicationGroup} {operation : Operation}
    {token : ReadyToken} (ok : group.perform operation = .ok (next, .recovered token)) :
    ∃ frontier, operation = .recoverPopulation token.identity frontier := by
  have returned (result : ReplicationGroup × Event) : (pure result : StatusOr _) = .ok result := rfl
  cases operation with
  | recoverPopulation identity frontier =>
    obtain ⟨-, rest⟩ := refuseIf_bind.mp ok
    cases rest
    exact ⟨frontier, rfl⟩
  | _ =>
    simp only [perform, beginPopulation, recordPartitionReset, recordPartitionHandoff,
      recordFlowCutVector, markFunctionCatalogComplete, markStoragePromoted, switchHistory,
      bindLocalSourceHistory, publishReady, abort, invalidateProof, failStop, returned] at ok
    grind [refuseIf_bind, bind_returns]

variable {boot : Boot}

/-- The log is in order and the last directive is the newest one accepted in it. -/
structure Boot.Ordered (boot : Boot) : Prop where
  /-- What the events of the boot say about later ones: versions do not decrease, the group does
  not change, no attempt is started twice, an authorization is not older than what was accepted
  before it, and nothing follows a failure. -/
  ordered : boot.log.Pairwise Event.Precedes
  newest : ∀ event ∈ boot.log, ∀ accepted ∈ event.accepted?, ∃ last ∈ boot.group.lastDirective,
    accepted.version ≤ last.identity.version ∧ accepted.groupId = last.identity.groupId
  attained : ∀ last ∈ boot.group.lastDirective, ∃ event ∈ boot.log,
    ∃ accepted ∈ event.accepted?, accepted.version = last.identity.version ∧
      accepted.groupId = last.identity.groupId

structure Watched (boot : Boot) : Prop extends boot.Ordered where
  used : ∀ event ∈ boot.log, ∀ key ∈ event.started?, key ∈ boot.group.usedAttempts
  failed : ∀ identity, .failStopped identity ∈ boot.log → boot.group.state = .failedStopped
  attempted : boot.Attempted

namespace Watched

open ReplicationGroup

variable {event earlier : Event} {next : ReplicationGroup} {accepted : RebuildIdentity}

theorem before_fresh (watched : Watched boot) {directive : RebuildDirective}
    (fresh : boot.group.Fresh directive) (mem : earlier ∈ boot.log)
    (made : accepted ∈ earlier.accepted?) {next : RebuildIdentity}
    (same : next ∈ some directive.identity) :
    accepted.version ≤ next.version ∧ accepted.groupId = next.groupId := by
  obtain rfl := Option.mem_some_iff.mp same
  obtain ⟨last, cur, bound, group⟩ := watched.newest earlier mem accepted made
  exact ⟨bound.trans (fresh.notOlder last cur), group.trans (fresh.sameGroup last cur)⟩

theorem before_active (watched : Watched boot) (attempt : Attempt boot)
    (mem : earlier ∈ boot.log) (made : accepted ∈ earlier.accepted?) :
    accepted.version ≤ attempt.directive.identity.version := by
  have ordered := watched.ordered
  rw [attempt.log_eq] at mem ordered
  rcases mem_append.mp mem with front | rest
  · have precedes := (pairwise_append.mp ordered).2.2 earlier front _ mem_cons_self
    exact precedes.version accepted made _ rfl
  rcases mem_cons.mp rest with rfl | since
  · exact (Option.mem_some_iff.mp made) ▸ le_refl _
  · rw [(attempt.within earlier since).accepted?_eq_none] at made
    exact absurd made (by simp)

theorem precedes (watched : Watched boot) (step : boot.group.Step event next)
    (forward : ∀ token, event = .recovered token → boot.group.Forward token.identity)
    (mem : earlier ∈ boot.log) : earlier.Precedes event := by
  have running : ∀ identity, earlier ≠ .failStopped identity := by
    rintro identity rfl
    exact step.running (watched.failed identity mem)
  have unused : ∀ {directive : RebuildDirective}, boot.group.Fresh directive →
      ∀ key ∈ earlier.started?, key ∉ some directive.identity.attemptKey := by
    intro directive fresh key started same
    exact fresh.unused (Option.mem_some_iff.mp same ▸ watched.used earlier mem key started)
  cases step with
  | began _ _ fresh =>
    exact {
      version := fun _ made _ same => (watched.before_fresh fresh mem made same).1
      group := fun _ made _ same => (watched.before_fresh fresh mem made same).2
      attempt := unused fresh
      authorization := fun first made granted same =>
        Option.mem_some_iff.mp same ▸ (watched.before_fresh fresh mem made rfl).1
      running }
  | switched _ _ fresh =>
    exact {
      version := fun _ made _ same => (watched.before_fresh fresh mem made same).1
      group := fun _ made _ same => (watched.before_fresh fresh mem made same).2
      attempt := unused fresh
      authorization := nofun
      running }
  | retried active =>
    obtain ⟨attempt⟩ := watched.attempted active.1
    have same : attempt.directive = _ := Option.some.inj (attempt.current.symm.trans active.2)
    exact {
      version := nofun
      group := nofun
      attempt := nofun
      authorization := fun first made granted given =>
        Option.mem_some_iff.mp given ▸ same ▸ watched.before_active attempt mem made
      running }
  | @recovered identity =>
    have bound : ∀ first ∈ earlier.accepted?, first.version ≤ identity.version ∧
        first.groupId = identity.groupId := by
      intro first made
      obtain ⟨last, cur, version, group⟩ := watched.newest earlier mem first made
      obtain ⟨sameGroup, notOlder⟩ := forward _ rfl last cur
      exact ⟨version.trans notOlder, group.trans sameGroup⟩
    exact {
      version := fun first made second same => Option.mem_some_iff.mp same ▸ (bound first made).1
      group := fun first made second same => Option.mem_some_iff.mp same ▸ (bound first made).2
      attempt := nofun
      authorization := nofun
      running }
  | partitionReset | resetAgain | partitionHandoff | handoffAgain | flowCut | cutAgain
  | catalogComplete | storagePromoted | repeated | published | aborted | invalidated
  | failStopped => exact .of_silent rfl rfl rfl running

end Watched

namespace ReplicationGroup

variable {group next : ReplicationGroup} {event : Event}

theorem Step.lastDirective (step : group.Step event next) :
    (∃ accepted ∈ event.accepted?, ∃ last ∈ next.lastDirective,
        last.identity.version = accepted.version ∧ last.identity.groupId = accepted.groupId) ∨
      event.accepted? = none ∧ next.lastDirective = group.lastDirective := by
  cases step with
  | @began directive manifest _ _ fresh =>
    refine .inl ⟨_, rfl, ?_⟩
    simp only [start]
    split
    · exact ⟨directive, rfl, rfl, rfl⟩
    rename_i notNewer
    push Not at notNewer
    obtain ⟨accepted, last, older⟩ := notNewer
    have reaches : directive.identity.version ≤ accepted.identity.version :=
      not_lt.mp fun newer => older (RebuildIdentity.newerThan_iff.mpr newer)
    exact ⟨accepted, last, le_antisymm (fresh.notOlder accepted last) reaches,
      fresh.sameGroup accepted last⟩
  | recovered | switched => exact .inl ⟨_, rfl, _, rfl, rfl, rfl⟩
  | retried | partitionReset | resetAgain | partitionHandoff | handoffAgain | flowCut | cutAgain
  | catalogComplete | storagePromoted | repeated | published | aborted | invalidated
  | failStopped => exact .inr ⟨rfl, rfl⟩

theorem Step.usedAttempts (step : group.Step event next) {key : AttemptKey}
    (old : key ∈ group.usedAttempts ∨ key ∈ event.started?) : key ∈ next.usedAttempts := by
  cases step with
  | began | switched =>
    rcases old with earlier | started
    · exact mem_cons_of_mem _ earlier
    · exact Option.mem_some_iff.mp started ▸ mem_cons_self
  | retried | partitionReset | resetAgain | partitionHandoff | handoffAgain | flowCut | cutAgain
  | catalogComplete | storagePromoted | recovered | repeated | published | aborted | invalidated
  | failStopped => exact old.resolve_right nofun

end ReplicationGroup

namespace Watched

variable {event : Event} {next : ReplicationGroup}

theorem step (watched : Watched boot) (step : boot.group.Step event next)
    (forward : ∀ token, event = .recovered token → boot.group.Forward token.identity) :
    Watched ⟨next, boot.log ++ [event]⟩ := by
  have precedes : ∀ earlier ∈ boot.log, earlier.Precedes event :=
    fun _ mem => watched.precedes step forward mem
  refine ⟨⟨?_, ?_, ?_⟩, ?_, ?_, watched.attempted.step step⟩
  · refine pairwise_append.mpr ⟨watched.ordered, pairwise_singleton _ _, ?_⟩
    intro earlier mem later last
    exact mem_singleton.mp last ▸ precedes earlier mem
  · intro other mem accepted made
    rcases step.lastDirective with ⟨identity, now, last, cur, version, group⟩ | ⟨none, same⟩
    · refine ⟨last, cur, ?_⟩
      rw [version, group]
      rcases mem_append.mp mem with earlier | final
      · exact ⟨(precedes other earlier).version accepted made identity now,
          (precedes other earlier).group accepted made identity now⟩
      · rw [mem_singleton.mp final] at made
        rw [Option.mem_unique made now]
        exact ⟨le_refl _, rfl⟩
    · rcases mem_append.mp mem with earlier | final
      · exact same ▸ watched.newest other earlier accepted made
      · rw [mem_singleton.mp final, none] at made
        exact absurd made (by simp)
  · intro last cur
    rcases step.lastDirective with ⟨identity, now, other, held, version, group⟩ | ⟨-, same⟩
    · obtain rfl := Option.mem_unique cur held
      exact ⟨event, by simp, identity, now, version.symm, group.symm⟩
    · obtain ⟨earlier, mem, rest⟩ := watched.attained last (same ▸ cur)
      exact ⟨earlier, mem_append_left _ mem, rest⟩
  · intro other mem key started
    rcases mem_append.mp mem with earlier | final
    · exact step.usedAttempts (.inl (watched.used other earlier key started))
    · exact step.usedAttempts (.inr (mem_singleton.mp final ▸ started))
  · intro identity mem
    rcases mem_append.mp mem with earlier | final
    · exact absurd rfl ((precedes _ earlier).running identity)
    cases mem_singleton.mp final with
    | refl =>
      cases step with
      | failStopped => rfl

end Watched

/-! ## Every boot -/

structure DirectiveGuarded (boot : Boot) : Prop extends boot.Ordered where
  valid : ∀ authorization, boot.group.validateResetAuthorization authorization = .ok () →
    ∃ attempt : Attempt boot, attempt.directive.identity = authorization.identity
  stopped : boot.group.state = .failedStopped → ∀ operation, boot.call operation = boot

theorem Watched.guarded (watched : Watched boot) : DirectiveGuarded boot where
  toOrdered := watched.toOrdered
  valid := by
    intro authorization valid
    have active := ReplicationGroup.validateCurrent_returns.mp valid
    obtain ⟨attempt⟩ := watched.attempted active.1
    exact ⟨attempt, (attempt.identity_eq active).symm⟩
  stopped := by
    intro failed operation
    rcases boot.call_cases operation with same | ⟨event, next, -, step, -⟩
    · exact same
    · exact absurd failed step.running

theorem watched_reachable {localNodeId localBootId : String}
    (reached : ((Boot.system localNodeId localBootId).restrict Boot.RecoversForward).Reachable
      boot) : Watched boot := by
  refine reached.invariant ?_ ?_
  · rintro boot rfl
    exact {
      ordered := .nil
      newest := fun _ mem => absurd mem not_mem_nil
      attained := nofun
      used := fun _ mem => absurd mem not_mem_nil
      failed := fun _ mem => absurd mem not_mem_nil
      attempted := nofun }
  · rintro boot operation after - watched ⟨rfl, forward⟩
    rcases boot.call_cases operation with same | ⟨event, next, performed, step, called⟩
    · rw [same]
      exact watched
    · rw [called]
      refine watched.step step fun token recovered => ?_
      obtain ⟨frontier, rfl⟩ := ReplicationGroup.perform_recovered (recovered ▸ performed)
      exact forward

/-- In every boot that is given populations to recover only of the accepted group and not older than
what was accepted, stale control input authorizes no destructive reset. -/
theorem forward_recovery_guards_directives {localNodeId localBootId : String} {boot : Boot}
    (reached : ((Boot.system localNodeId localBootId).restrict Boot.RecoversForward).Reachable
      boot) : DirectiveGuarded boot :=
  (watched_reachable reached).guarded

/-- Version 5.3 is accepted and aborted, its population is recovered and invalidated, and then
version 5.4 begins. -/
def forwardOperations : List Operation :=
  [.beginRebuild (exampleDirective "g" 5 3 "a") exampleManifest,
    .abort (exampleDirective "g" 5 3 "a").identity,
    .recoverPopulation (exampleDirective "g" 5 3 "recovery").identity [1],
    .invalidateProof (exampleDirective "g" 5 3 "recovery").identity,
    .beginRebuild (exampleDirective "g" 5 4 "b") exampleManifest]

theorem forward_recovery_is_guarded :
    (forwardOperations.foldl Boot.call exampleBoot).log.filterMap Event.accepted? =
        [(exampleDirective "g" 5 3 "a").identity, (exampleDirective "g" 5 3 "recovery").identity,
          (exampleDirective "g" 5 4 "b").identity] ∧
      DirectiveGuarded (forwardOperations.foldl Boot.call exampleBoot) := by
  let system := (Boot.system "node" "boot").restrict Boot.RecoversForward
  have next : ∀ operation {boot : Boot}, system.Reachable boot → boot.RecoversForward operation →
      system.Reachable (boot.call operation) :=
    fun _ _ reached forward => .next reached ⟨rfl, forward⟩
  have held : ((forwardOperations.take 2).foldl Boot.call exampleBoot).group.lastDirective =
      some (exampleDirective "g" 5 3 "a") := by decide +kernel
  have reached : system.Reachable (forwardOperations.foldl Boot.call exampleBoot) := by
    simp only [forwardOperations, foldl_cons, foldl_nil]
    refine next _ (next _ (next _ (next _ (next _ (.start rfl) ?_) ?_) ?_) ?_) ?_
    · trivial
    · trivial
    · intro accepted last
      obtain rfl := Option.some.inj (held.symm.trans last)
      exact ⟨rfl, le_refl _⟩
    · trivial
    · trivial
  exact ⟨by decide +kernel, forward_recovery_guards_directives reached⟩

/-- Version 5.3 of one group is accepted and aborted, a population of another group is recovered
with version 5.1 and invalidated, and then the stale version 5.2 authorizes a reset. -/
def staleOperations : List Operation :=
  [.beginRebuild (exampleDirective "g" 5 3 "a") exampleManifest,
    .abort (exampleDirective "g" 5 3 "a").identity,
    .recoverPopulation (exampleDirective "h" 5 1 "recovery").identity [1],
    .invalidateProof (exampleDirective "h" 5 1 "recovery").identity,
    .beginRebuild (exampleDirective "h" 5 2 "b") exampleManifest]

theorem recovery_lets_stale_directive_reset :
    (Boot.system "node" "boot").Reachable (staleOperations.foldl Boot.call exampleBoot) ∧
      (staleOperations.foldl Boot.call exampleBoot).log.filterMap Event.accepted? =
        [(exampleDirective "g" 5 3 "a").identity, (exampleDirective "h" 5 1 "recovery").identity,
          (exampleDirective "h" 5 2 "b").identity] ∧
      (staleOperations.foldl Boot.call exampleBoot).log.filterMap Event.authorization? =
        [⟨(exampleDirective "g" 5 3 "a").identity⟩, ⟨(exampleDirective "h" 5 2 "b").identity⟩] ∧
      (exampleDirective "h" 5 2 "b").identity.version <
        (exampleDirective "g" 5 3 "a").identity.version :=
  ⟨Boot.reachable_calls (.start rfl) staleOperations, by decide +kernel, by decide +kernel,
    RebuildIdentity.newerThan_iff.mp (by decide)⟩

end Lavik.Replication
