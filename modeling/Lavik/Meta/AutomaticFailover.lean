import Lavik.Base.AssocMap
import Lavik.Base.Status
import Lavik.Base.TransitionSystem
import Lavik.Meta.Commands
/-!
# The automatic failover detector

`Advance` feeds one reading of a group into its suspicion clock. Time is suspected from a reading
that was an exact failure to the next one, frozen while the evidence is not exact, and thrown away
by a reset. What it counted is at most what a record of the readings since the last reset adds up.
-/

namespace Lavik.Meta

open Base

inductive ServiceabilityState
  | serviceable | unserviceable | indeterminate | blocked
deriving DecidableEq

inductive ServiceabilityReason
  | none | sessionMissing | heartbeatExpired | draining | storageUnready | populationUnready
  | staleOwnerAnchor | causalLeasePending
deriving DecidableEq

inductive ServiceabilityBlocker
  | none | leaderIneligible | leadershipWarmup | authorityHandoff | failoverTransition

structure ServiceabilityDecision where
  state : ServiceabilityState
  reason : ServiceabilityReason
  blocker : ServiceabilityBlocker

def ServiceabilityReason.isExactFailure : ServiceabilityReason → Bool
  | .sessionMissing | .heartbeatExpired | .draining | .storageUnready | .populationUnready => true
  | .none | .staleOwnerAnchor | .causalLeasePending => false

structure AutomaticFailoverAnchor where
  groupId : String := ""
  leadershipGeneration : UInt64 := 0
  leaderAuthorityEligibilityRevision : UInt64 := 0
  ownerNodeId : String := ""
  ownerAssignmentId : Identity := zeroes 16
  groupTerm : UInt64 := 0
  automaticFailoverPolicyVersion : UInt64 := 0
  authorityLeasePolicyVersion : UInt64 := 0
deriving DecidableEq

inductive AutomaticFailoverState
  | healthy | suspect | blocked | triggering
deriving DecidableEq

inductive AutomaticFailoverBlocker
  | none | leaderIneligible | leadershipWarmup | authorityHandoff | failoverTransition
  | staleOwnerAnchor | causalLeasePending | indeterminateEvidence

structure AutomaticFailoverStatus where
  anchor : AutomaticFailoverAnchor := {}
  state : AutomaticFailoverState := .blocked
  currentReason : ServiceabilityReason := .none
  blocker : AutomaticFailoverBlocker := .none
  accumulatedSuspectMs : UInt64 := 0
  effectiveThresholdMs : UInt64 := 0

def ServiceabilityDecision.blockerFor (decision : ServiceabilityDecision) :
    AutomaticFailoverBlocker :=
  match decision.state, decision.blocker, decision.reason with
  | .blocked, .leaderIneligible, _ => .leaderIneligible
  | .blocked, .leadershipWarmup, _ => .leadershipWarmup
  | .blocked, .authorityHandoff, _ => .authorityHandoff
  | .blocked, .failoverTransition, _ => .failoverTransition
  | .blocked, .none, _ => .indeterminateEvidence
  | _, _, .staleOwnerAnchor => .staleOwnerAnchor
  | _, _, .causalLeasePending => .causalLeasePending
  | _, _, _ => .indeterminateEvidence

namespace AutomaticFailover

def saturatingAdd (lhs rhs : UInt64) : UInt64 := if maxU64 - lhs < rhs then maxU64 else lhs + rhs

structure Input where
  anchor : AutomaticFailoverAnchor
  leaderAuthorityEligible : Bool
  suspectAfterMs : UInt64
  ownerServiceability : ServiceabilityDecision

structure AdvanceResult where
  status : AutomaticFailoverStatus
  triggerNow : Bool := false

structure GroupRuntime where
  leaderAuthorityEligible : Bool := false
  suspectAfterMs : UInt64 := 0
  status : AutomaticFailoverStatus := {}
  activeSinceMs : Option UInt64 := none
  frozenSuspectMs : UInt64 := 0
  lastNowMs : UInt64 := 0

variable (runtime : GroupRuntime) (input : Input) (now : UInt64)

def Input.exactFailure : Bool :=
  input.ownerServiceability.state == .unserviceable &&
    input.ownerServiceability.reason.isExactFailure

def Input.discards : Bool :=
  !input.leaderAuthorityEligible || input.ownerServiceability.state == .serviceable

def GroupRuntime.reset : GroupRuntime :=
  { runtime with status := {}, activeSinceMs := none, frozenSuspectMs := 0 }

def GroupRuntime.inputChanged : Bool :=
  runtime.status.anchor != input.anchor ||
    runtime.leaderAuthorityEligible != input.leaderAuthorityEligible ||
    runtime.suspectAfterMs != input.suspectAfterMs

def GroupRuntime.classify : GroupRuntime × AdvanceResult :=
  let status : AutomaticFailoverStatus :=
    { anchor := input.anchor, state := .blocked, effectiveThresholdMs := input.suspectAfterMs }
  let runtime := { runtime with lastNowMs := now }
  let settle (runtime : GroupRuntime) (status : AutomaticFailoverStatus) (triggerNow : Bool) :
      GroupRuntime × AdvanceResult := ({ runtime with status }, ⟨status, triggerNow⟩)
  if !input.leaderAuthorityEligible then
    settle runtime.reset { status with blocker := .leaderIneligible } false
  else if input.ownerServiceability.state = .serviceable then
    settle runtime.reset { status with state := .healthy } false
  else if !input.exactFailure then
    let frozen := match runtime.activeSinceMs with
      | some since => saturatingAdd runtime.frozenSuspectMs (now - since)
      | none => runtime.frozenSuspectMs
    settle { runtime with activeSinceMs := none, frozenSuspectMs := frozen }
      { status with
        blocker := input.ownerServiceability.blockerFor
        accumulatedSuspectMs := frozen } false
  else
    let since := runtime.activeSinceMs.getD now
    let elapsed := saturatingAdd runtime.frozenSuspectMs (now - since)
    let fires := input.suspectAfterMs ≤ elapsed
    settle { runtime with activeSinceMs := some since }
      { status with
        state := if fires then .triggering else .suspect
        currentReason := input.ownerServiceability.reason
        accumulatedSuspectMs := elapsed } fires

def GroupRuntime.advance : GroupRuntime × AdvanceResult :=
  let runtime := if runtime.inputChanged input then { runtime.reset with
      leaderAuthorityEligible := input.leaderAuthorityEligible
      suspectAfterMs := input.suspectAfterMs } else runtime
  if runtime.status.state = .triggering then (runtime, ⟨runtime.status, false⟩)
  else (if now < runtime.lastNowMs then runtime.reset else runtime).classify input now

structure StateMachine where
  maxGroups : Nat
  groups : AssocMap String GroupRuntime := []

def StateMachine.advance (machine : StateMachine) : StatusOr (StateMachine × AdvanceResult) := do
  refuseIf (input.suspectAfterMs = 0) .invalidArgument
    "automatic failover suspect threshold must be nonzero"
  let groupId := input.anchor.groupId
  refuseIf ((machine.groups.get groupId).isNone ∧ machine.maxGroups ≤ machine.groups.length)
    .resourceExhausted "automatic failover detector group capacity exceeded"
  let (runtime, result) := ((machine.groups.get groupId).getD {}).advance input now
  .ok ({ machine with groups := machine.groups.set groupId runtime }, result)

inductive Operation
  | advance (input : Input) (now : UInt64)
  | eraseGroup (groupId : String)
  | clear

/-! ## What was read -/

structure Reading where
  input : Input
  now : UInt64
  fired : Bool

def Reading.changedBy (last : Reading) : Bool :=
  last.input.anchor != input.anchor ||
    last.input.leaderAuthorityEligible != input.leaderAuthorityEligible ||
    last.input.suspectAfterMs != input.suspectAfterMs

def Reading.resetBy (last : Reading) : Bool :=
  last.changedBy input || now < last.now || input.discards

def sinceReset : List Reading → List Reading
  | [] => []
  | [only] => [only]
  | latest :: last :: older =>
    if last.resetBy latest.input latest.now then [latest] else latest :: sinceReset (last :: older)

def suspectedMs : List Reading → Nat
  | latest :: last :: older =>
    (if last.input.exactFailure then latest.now.toNat - last.now.toNat else 0) +
      suspectedMs (last :: older)
  | _ => 0

structure Monitored where
  machine : StateMachine
  readings : String → List Reading

def Monitored.apply (monitored : Monitored) : Operation → Monitored
  | .advance input now => match monitored.machine.advance input now with
    | .error _ => monitored
    | .ok (machine, result) => ⟨machine, Function.update monitored.readings input.anchor.groupId
        (⟨input, now, result.triggerNow⟩ :: monitored.readings input.anchor.groupId)⟩
  | .eraseGroup groupId =>
    ⟨{ monitored.machine with groups := monitored.machine.groups.erase groupId },
      Function.update monitored.readings groupId []⟩
  | .clear => ⟨{ monitored.machine with groups := [] }, fun _ => []⟩

def detectorSystem : TransitionSystem Monitored Operation where
  init monitored := monitored.machine.groups = [] ∧ monitored.readings = fun _ => []
  step monitored operation after := after = monitored.apply operation

/-! ## The clock and the record -/

theorem toNat_saturatingAdd (lhs rhs : UInt64) :
    (saturatingAdd lhs rhs).toNat ≤ lhs.toNat + rhs.toNat := by
  unfold saturatingAdd
  split
  next full =>
    have below : lhs ≤ maxU64 := UInt64.le_iff_toNat_le.mpr (Nat.le_of_lt_succ lhs.toNat_lt)
    rw [UInt64.lt_iff_toNat_lt, UInt64.toNat_sub_of_le _ _ below] at full
    omega
  · rw [UInt64.toNat_add]
    exact Nat.mod_le _ _

variable {runtime input now} {last : Reading} {older : List Reading} {fired : Bool} {bound : Nat}

/-- The suspicion of a clock that is read now. -/
structure Within (runtime : GroupRuntime) (now : UInt64) (bound : Nat) : Prop where
  opened : ∀ since, runtime.activeSinceMs = some since → since ≤ now
  total : runtime.frozenSuspectMs.toNat +
    (runtime.activeSinceMs.elim 0 fun since => now.toNat - since.toNat) ≤ bound

theorem Within.elapsed (within : Within runtime now bound) {since : UInt64}
    (active : runtime.activeSinceMs = some since) :
    (saturatingAdd runtime.frozenSuspectMs (now - since)).toNat ≤ bound := by
  have total := within.total
  have added := toNat_saturatingAdd runtime.frozenSuspectMs (now - since)
  rw [UInt64.toNat_sub_of_le _ _ (within.opened since active)] at added
  rw [active, Option.elim_some] at total
  omega

/-- What one reading leaves of a clock, whichever branch it takes. -/
structure Classified (runtime : GroupRuntime) (input : Input) (now : UInt64) (bound : Nat)
    (after : GroupRuntime) (result : AdvanceResult) : Prop where
  anchor : after.status.anchor = input.anchor
  eligible : after.leaderAuthorityEligible = runtime.leaderAuthorityEligible
  threshold : after.suspectAfterMs = runtime.suspectAfterMs
  clock : after.lastNowMs = now
  within : Within after now (if input.discards then 0 else bound)
  exact : after.activeSinceMs.isSome = true → input.exactFailure = true
  latched : after.status.state = .triggering ↔ result.triggerNow = true
  fires : result.triggerNow = true → input.exactFailure = true ∧ input.discards = false ∧
    input.suspectAfterMs.toNat ≤ bound

theorem classified (within : Within runtime now bound) :
    Classified runtime input now bound (runtime.classify input now).1
      (runtime.classify input now).2 := by
  unfold GroupRuntime.classify
  split
  next ineligible =>
    have discards : input.discards = true := by simp_all [Input.discards]
    constructor <;> simp [GroupRuntime.reset, discards]
    constructor <;> simp
  next eligible =>
  split
  next serviceable =>
    have discards : input.discards = true := by simp_all [Input.discards]
    constructor <;> simp [GroupRuntime.reset, discards]
    constructor <;> simp
  next unserviceable =>
  have kept : input.discards = false := by simp_all [Input.discards]
  split
  next inexact =>
    constructor <;> simp [kept]
    constructor
    · simp
    · cases active : runtime.activeSinceMs with
      | none => simpa [active] using within.total
      | some since => simpa using within.elapsed active
  next failure =>
    have counting : Within { runtime with activeSinceMs := some (runtime.activeSinceMs.getD now) }
        now bound := by
      cases active : runtime.activeSinceMs with
      | none => exact ⟨by simp, by simpa [active] using within.total⟩
      | some since =>
        exact ⟨by simpa using within.opened since active, by simpa [active] using within.total⟩
    have elapsed := counting.elapsed rfl
    have exact : input.exactFailure = true := by simpa using failure
    constructor <;> simp [kept, exact]
    · exact ⟨counting.opened, counting.total⟩
    · exact fun fires => Nat.le_trans (UInt64.le_iff_toNat_le.mp fires) elapsed

/-- What the readings of a group say about its runtime. -/
structure Follows (last : Reading) (older : List Reading) (runtime : GroupRuntime) : Prop where
  anchor : runtime.status.anchor = last.input.anchor
  eligible : runtime.leaderAuthorityEligible = last.input.leaderAuthorityEligible
  threshold : runtime.suspectAfterMs = last.input.suspectAfterMs
  clock : runtime.status.state ≠ .triggering → runtime.lastNowMs = last.now
  within : runtime.status.state ≠ .triggering →
    Within runtime last.now (suspectedMs (sinceReset (last :: older)))
  exact : runtime.status.state ≠ .triggering → runtime.activeSinceMs.isSome = true →
    last.input.exactFailure = true
  quiet : runtime.status.state ≠ .triggering →
    ∀ reading ∈ sinceReset (last :: older), reading.fired = false

theorem sinceReset_cons (reading : Reading) (older : List Reading) :
    sinceReset (reading :: older) = reading :: (sinceReset (reading :: older)).tail := by
  cases older with
  | nil => rfl
  | cons last rest =>
    rw [sinceReset]
    split <;> rfl

/-- A firing comes after enough suspicion, and is the first since the last reset. -/
def Timely (readings : List Reading) (reading : Reading) : Prop :=
  reading.input.exactFailure = true ∧
    reading.input.suspectAfterMs.toNat ≤ suspectedMs (sinceReset (reading :: readings)) ∧
    ∀ earlier ∈ (sinceReset (reading :: readings)).tail, earlier.fired = false

theorem follows_of_classify (same : fired = (runtime.classify input now).2.triggerNow)
    (eligible : runtime.leaderAuthorityEligible = input.leaderAuthorityEligible)
    (threshold : runtime.suspectAfterMs = input.suspectAfterMs) (within : Within runtime now bound)
    (sum : (if input.discards then 0 else bound) =
      suspectedMs (sinceReset (⟨input, now, fired⟩ :: older)))
    (quiet : ∀ earlier ∈ (sinceReset (⟨input, now, fired⟩ :: older)).tail, earlier.fired = false) :
    Follows ⟨input, now, fired⟩ older (runtime.classify input now).1 ∧
      (fired = true → Timely older ⟨input, now, fired⟩) := by
  have read : Classified runtime input now bound _ _ := classified within
  refine ⟨⟨read.anchor, read.eligible.trans eligible, read.threshold.trans threshold,
    fun _ => read.clock, fun _ => sum ▸ read.within, fun _ => read.exact, fun calm => ?_⟩,
    fun fires => ?_⟩
  · rw [sinceReset_cons, List.forall_mem_cons]
    refine ⟨?_, quiet⟩
    rw [same, ← Bool.not_eq_true]
    exact fun fires => calm (read.latched.mpr fires)
  · obtain ⟨exact, kept, enough⟩ := read.fires (same ▸ fires)
    rw [kept] at sum
    exact ⟨exact, sum ▸ enough, quiet⟩

def Tracked : List Reading → GroupRuntime → Prop
  | [], runtime => runtime = {}
  | last :: older, runtime => Follows last older runtime

theorem within_zero (idle : runtime.activeSinceMs = none) (empty : runtime.frozenSuspectMs = 0) :
    Within runtime now 0 := by
  constructor <;> simp [idle, empty]

theorem Follows.changed_iff (follows : Follows last older runtime) :
    runtime.inputChanged input = last.changedBy input := by
  rw [GroupRuntime.inputChanged, Reading.changedBy, follows.anchor, follows.eligible,
    follows.threshold]

theorem Follows.within_now (follows : Follows last older runtime)
    (calm : runtime.status.state ≠ .triggering) (forward : ¬ now < runtime.lastNowMs) :
    Within runtime now ((if last.input.exactFailure then now.toNat - last.now.toNat else 0) +
      suspectedMs (sinceReset (last :: older))) := by
  have earlier := follows.within calm
  rw [follows.clock calm, UInt64.lt_iff_toNat_lt] at forward
  refine ⟨fun since active => UInt64.le_trans (earlier.opened since active)
    (UInt64.le_iff_toNat_le.mpr (Nat.le_of_not_lt forward)), ?_⟩
  have total := earlier.total
  cases active : runtime.activeSinceMs with
  | none =>
    rw [active] at total
    exact Nat.le_trans total (Nat.le_add_left _ _)
  | some since =>
    rw [if_pos (follows.exact calm (by simp [active]))]
    simp only [active, Option.elim_some] at total ⊢
    omega

theorem advance_follows {readings : List Reading} (known : Tracked readings runtime)
    (pos : input.suspectAfterMs ≠ 0) (same : fired = (runtime.advance input now).2.triggerNow) :
    Follows ⟨input, now, fired⟩ readings (runtime.advance input now).1 ∧
      (fired = true → Timely readings ⟨input, now, fired⟩) := by
  unfold GroupRuntime.advance at same ⊢
  by_cases changed : runtime.inputChanged input = true
  · have alone : sinceReset (⟨input, now, fired⟩ :: readings) = [⟨input, now, fired⟩] := by
      cases readings with
      | nil => rfl
      | cons last older => simp [sinceReset, Reading.resetBy, ← known.changed_iff, changed]
    rw [if_pos changed] at same ⊢
    refine follows_of_classify same ?_ ?_ (within_zero ?_ ?_) (by simp [alone, suspectedMs])
      (by simp [alone])
    all_goals split <;> rfl
  rw [if_neg changed] at same ⊢
  cases readings with
  | nil =>
    cases known
    exact absurd (by simp [GroupRuntime.inputChanged, pos.symm]) changed
  | cons last older =>
    have unchanged : last.changedBy input = false := by
      rw [← known.changed_iff]
      exact Bool.eq_false_of_not_eq_true changed
    have fits : last.input.anchor = input.anchor ∧
        last.input.leaderAuthorityEligible = input.leaderAuthorityEligible ∧
        last.input.suspectAfterMs = input.suspectAfterMs := by
      simpa [Reading.changedBy, and_assoc] using unchanged
    have eligible := known.eligible.trans fits.2.1
    have threshold := known.threshold.trans fits.2.2
    by_cases latched : runtime.status.state = .triggering
    · rw [if_pos latched] at same ⊢
      subst same
      exact ⟨⟨known.anchor.trans fits.1, eligible, threshold, absurd latched, absurd latched,
        absurd latched, absurd latched⟩, nofun⟩
    rw [if_neg latched] at same ⊢
    by_cases back : now < runtime.lastNowMs
    · rw [if_pos back] at same ⊢
      have reset : last.resetBy input now = true := by
        simp [Reading.resetBy, ← known.clock latched, back]
      exact follows_of_classify same eligible threshold (within_zero rfl rfl)
        (by simp [sinceReset, reset, suspectedMs]) (by simp [sinceReset, reset])
    · rw [if_neg back] at same ⊢
      have reset : last.resetBy input now = input.discards := by
        simp [Reading.resetBy, unchanged, ← known.clock latched, back]
      refine follows_of_classify same eligible threshold (known.within_now latched back) ?_ ?_
      · cases discards : input.discards
        · rw [sinceReset, reset, discards]
          rw [sinceReset_cons last older]
          rfl
        · simp [sinceReset, reset, discards, suspectedMs]
      · cases discards : input.discards
        · simpa [sinceReset, reset, discards] using known.quiet latched
        · simp [sinceReset, reset, discards]

/-! ## Every sequence of readings -/

def Monitored.Sound (monitored : Monitored) : Prop := ∀ groupId,
  Tracked (monitored.readings groupId) ((monitored.machine.groups.get groupId).getD {})

theorem StateMachine.advance_returns {machine after : StateMachine} {result : AdvanceResult}
    (done : machine.advance input now = .ok (after, result)) : input.suspectAfterMs ≠ 0 ∧
      after.groups = machine.groups.set input.anchor.groupId
        (((machine.groups.get input.anchor.groupId).getD {}).advance input now).1 ∧
      result = (((machine.groups.get input.anchor.groupId).getD {}).advance input now).2 := by
  simp only [advance, refuseIf_bind, Except.ok.injEq, Prod.mk.injEq] at done
  obtain ⟨pos, _, rfl, rfl⟩ := done
  exact ⟨pos, rfl, rfl⟩

variable {monitored : Monitored}

theorem Monitored.Sound.apply (sound : monitored.Sound) (operation : Operation) :
    (monitored.apply operation).Sound := by
  intro groupId
  cases operation with
  | advance input now =>
    cases done : monitored.machine.advance input now with
    | error status => simpa [Monitored.apply, done] using sound groupId
    | ok ret =>
      obtain ⟨pos, groups, fired⟩ := StateMachine.advance_returns done
      simp only [Monitored.apply, done, groups, AssocMap.get_set, Function.update_apply]
      split
      next here =>
        exact (advance_follows (sound input.anchor.groupId) pos
          (congrArg AdvanceResult.triggerNow fired)).1
      · exact sound groupId
  | eraseGroup erased =>
    simp only [Monitored.apply, AssocMap.get_erase, Function.update_apply]
    split
    · rfl
    · exact sound groupId
  | clear => rfl

theorem detectorSystem_sound (reached : detectorSystem.Reachable monitored) : monitored.Sound := by
  apply reached.invariant
  · rintro state ⟨empty, unread⟩ groupId
    rw [empty, unread]
    rfl
  · rintro state operation _ _ sound rfl
    exact sound.apply operation

def Monitored.ReportsTriggering (monitored : Monitored) (groupId : String) : Prop :=
  ∃ runtime, monitored.machine.groups.get groupId = some runtime ∧
    runtime.status.state = .triggering

/-- An operation that ends what a group reports. -/
def Operation.Ends (readings : List Reading) (groupId : String) : Operation → Prop
  | .advance input _ =>
    input.anchor.groupId = groupId ∧ ∃ last ∈ readings.head?, last.changedBy input = true
  | .eraseGroup erased => erased = groupId
  | .clear => True

theorem Monitored.Sound.stays (sound : monitored.Sound) {groupId : String}
    (triggering : monitored.ReportsTriggering groupId) (operation : Operation) :
    (monitored.apply operation).ReportsTriggering groupId ∨
      operation.Ends (monitored.readings groupId) groupId := by
  obtain ⟨runtime, found, state⟩ := triggering
  have inv := sound groupId
  rw [found, Option.getD_some] at inv
  cases operation with
  | advance input now =>
    cases done : monitored.machine.advance input now with
    | error status => exact .inl ⟨runtime, by simpa [Monitored.apply, done] using found, state⟩
    | ok ret =>
      obtain ⟨_, groups, _⟩ := StateMachine.advance_returns done
      by_cases here : groupId = input.anchor.groupId
      · cases readings : monitored.readings groupId with
        | nil =>
          rw [readings] at inv
          subst inv
          cases state
        | cons last older =>
          rw [readings] at inv
          by_cases changed : last.changedBy input = true
          · exact .inr ⟨here.symm, last, rfl, changed⟩
          refine .inl ⟨runtime, ?_, state⟩
          subst here
          rw [← Follows.changed_iff inv] at changed
          simp [Monitored.apply, done, groups, found, GroupRuntime.advance, changed, state]
      · refine .inl ⟨runtime, ?_, state⟩
        simp only [Monitored.apply, done, groups]
        rwa [AssocMap.get_set_of_ne _ _ here]
  | eraseGroup erased =>
    by_cases same : erased = groupId
    · exact .inr same
    · exact .inl ⟨runtime, (AssocMap.get_erase_of_ne _ (Ne.symm same)).trans found, state⟩
  | clear => exact .inr trivial

/-- **Automatic failover fires neither early nor twice.** After any operations on the detector, a
reading that fires is an exact failure, the intervals since the last reset that started with one
add up to the threshold, and nothing fired since that reset; and a group that reports triggering
goes on to, unless its anchor, eligibility or threshold changes or it is erased. -/
theorem automatic_failover_fires_late_and_once {monitored : Monitored}
    (reached : detectorSystem.Reachable monitored) :
    (∀ input now machine result, monitored.machine.advance input now = .ok (machine, result) →
      result.triggerNow = true →
      Timely (monitored.readings input.anchor.groupId) ⟨input, now, true⟩) ∧
    ∀ groupId operation, monitored.ReportsTriggering groupId →
      (monitored.apply operation).ReportsTriggering groupId ∨
        operation.Ends (monitored.readings groupId) groupId := by
  have sound := detectorSystem_sound reached
  refine ⟨fun input now machine result done fired => ?_,
    fun groupId operation triggering => sound.stays triggering operation⟩
  obtain ⟨positive, -, same⟩ := StateMachine.advance_returns done
  exact (advance_follows (sound input.anchor.groupId) positive
    (fired.symm.trans (congrArg AdvanceResult.triggerNow same))).2 rfl

def missingOwner : Input :=
  ⟨{ groupId := "g" }, true, 10, ⟨.unserviceable, .sessionMissing, .none⟩⟩

theorem owner_missing_for_ten_fires : ∃ monitored machine result,
    detectorSystem.Reachable monitored ∧
      monitored.machine.advance missingOwner 15 = .ok (machine, result) ∧
      Timely (monitored.readings "g") ⟨missingOwner, 15, true⟩ := by
  have reached : detectorSystem.Reachable (Monitored.apply ⟨⟨512, []⟩, fun _ => []⟩
      (.advance missingOwner 5)) := .next (.start ⟨rfl, rfl⟩) rfl
  exact ⟨_, _, _, reached, rfl,
    (automatic_failover_fires_late_and_once reached).1 _ 15 _ _ rfl (by decide)⟩

end AutomaticFailover

end Lavik.Meta
