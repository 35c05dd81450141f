import Lavik.Meta.DirectiveSafety
/-!
# Replay of audit and manifest commands

`ApplyCommitted` means a log entry that is applied again to change nothing. The commands here read
what their own record was just appended to: the audit window, and the size of the snapshot it is
part of.
-/

namespace Lavik.Meta

open Base List AuditStore PopulationManifestStore

namespace AuditStore

variable {store after : AuditStore} {record : AuditRecord} {force : Bool}

theorem rotated_keeps (store : AuditStore) :
    store.rotated.policy = store.policy ∧ store.rotated.prunedFloor = store.prunedFloor ∧
      store.rotated.windowCapacity = store.windowCapacity ∧
      store.window.length ≤ store.rotated.window.length + 1 ∧
      store.rotated.window ⊆ store.window := by
  unfold rotated
  split
  next oldest rest window =>
    split
    · exact ⟨rfl, rfl, rfl, by simp [window], by simp [window]⟩
    · exact ⟨rfl, rfl, rfl, Nat.le_succ _, List.Subset.refl _⟩
  · exact ⟨rfl, rfl, rfl, Nat.le_succ _, List.Subset.refl _⟩

/-- What a command that is applied again reads of the window its record went into. -/
structure Recorded (store : AuditStore) (record : AuditRecord) (after : AuditStore) : Prop where
  policy : after.policy = store.policy
  floor : after.prunedFloor = store.prunedFloor
  full : store.windowCapacity ≤ store.window.length → after.windowCapacity ≤ after.window.length
  listed : ∀ held ∈ after.window, held ∈ store.window ∨ held = record

section

variable (done : store.append record force = some after)

include done

theorem append_returns :
    record ∈ store.window ∧ after = store ∨ store.prunedFloor < record.logIndex ∧
        (∀ held ∈ store.window, held.logIndex ≠ record.logIndex) ∧
          if store.policy = .disabled ∧ force = false then after = store
          else after = { store.rotated with window := store.rotated.window ++ [record] } := by
  unfold append at done
  split at done
  next existing found =>
    split at done <;> cases done
    next same => exact .inl ⟨same ▸ mem_of_find?_eq_some found, rfl⟩
  next absent =>
  simp only [find?_eq_none, decide_eq_true_eq] at absent
  split at done
  · cases done
  split at done
  · cases done
  next above =>
  refine .inr ⟨UInt64.not_le.mp above, absent, ?_⟩
  split at done
  next unrecorded =>
    cases done
    rw [if_pos unrecorded]
  next recording =>
    split at done <;> cases done
    rw [if_neg recording]

/-- A record that was appended is found again, so a replay of `Append` is a no-op. -/
theorem append_again : after.append record force = some after := by
  obtain ⟨_, rfl⟩ | ⟨_, absent, written⟩ := append_returns done
  · exact done
  split at written <;> subst written
  · exact done
  have found : (store.rotated.window ++ [record]).find? (·.logIndex = record.logIndex) =
      some record := by
    rw [find?_append, find?_eq_none.mpr fun held mem => by
      simpa using absent held (store.rotated_keeps.2.2.2.2 mem)]
    simp
  simp [append, found]

theorem append_recorded : store.Recorded record after := by
  obtain ⟨_, rfl⟩ | ⟨_, _, written⟩ := append_returns done
  · exact ⟨rfl, rfl, id, fun _ => .inl⟩
  split at written <;> subst written
  · exact ⟨rfl, rfl, id, fun _ => .inl⟩
  obtain ⟨policy, floor, capacity, longer, fewer⟩ := store.rotated_keeps
  refine ⟨policy, floor, fun full => ?_, fun held mem => ?_⟩
  · rw [capacity, length_append]
    exact Nat.le_trans full longer
  · exact (mem_append.mp mem).imp (@fewer held) mem_singleton.mp

end

/-! ## The commands on the audit store -/

variable {policy : AuditPolicy} {text : String} {through : UInt64} {decided : AuditStore}

theorem setPolicy_again (set : store.setPolicy policy = .ok decided)
    (done : decided.append record force = some after) : after.setPolicy policy = .ok after := by
  simp only [setPolicy, require_bind, Except.ok.injEq] at set ⊢
  obtain ⟨_, rfl⟩ := set
  have same : after.policy = policy := (append_recorded done).policy
  subst same
  refine ⟨?_, rfl⟩
  cases strict : after.policy == .strictExport <;> simp [bne, strict]

theorem setPolicy_refused_again (refused : store.setPolicy policy = .error text)
    (done : store.append record force = some after) : after.setPolicy policy = .error text := by
  have recorded := append_recorded done
  simp only [setPolicy, require_bind_fails, reduceCtorEq, and_false, or_false] at refused ⊢
  rw [recorded.policy]
  refine refused.imp_left fun strict => ?_
  simp only [Bool.not_eq_false', Bool.and_eq_true, decide_eq_true_eq] at strict ⊢
  exact strict.imp_right recorded.full

theorem pruneThrough_again (pruned : store.pruneThrough through = .ok decided)
    (done : decided.append record force = some after) : after.pruneThrough through = .ok after := by
  have reached : through ≤ decided.prunedFloor := by
    unfold pruneThrough at pruned
    split at pruned
    · cases pruned
      assumption
    · simp only [require_bind, Except.ok.injEq] at pruned
      obtain ⟨_, rfl⟩ := pruned
      exact UInt64.le_refl _
  rw [← (append_recorded done).floor] at reached
  exact if_pos reached

theorem pruneThrough_refused :
    store.pruneThrough through = .error text ↔ ¬ through ≤ store.prunedFloor ∧
      (∀ held ∈ store.window, held.logIndex ≠ through) ∧
        "prune watermark must name a record in the window" = text := by
  unfold pruneThrough
  split
  next below => simp [below]
  next above => simp [above, require_bind_fails]

theorem pruneThrough_refused_again (refused : store.pruneThrough through = .error text)
    (apart : through ≠ record.logIndex) (done : store.append record force = some after) :
    after.pruneThrough through = .error text := by
  have recorded := append_recorded done
  rw [pruneThrough_refused] at refused ⊢
  obtain ⟨above, unnamed, same⟩ := refused
  refine ⟨recorded.floor ▸ above, fun held mem => ?_, same⟩
  obtain old | rfl := recorded.listed held mem
  · exact unnamed held old
  · exact apart.symm

end AuditStore

/-! ## Manifests -/

variable {env : Environment} {before decided after : Stores} {manifest : PutPopulationManifest}

def overSnapshotBudget : String := "population manifest exceeds the remaining snapshot byte budget"

variable {formats : Formats} {text : String}

theorem PopulationManifestStore.put_again {store later : PopulationManifestStore}
    (stored : store.put formats manifest = .ok later) :
    later.put formats manifest = .ok later ∧ later.contains manifest.manifestDigest = true := by
  simp only [put, require_bind] at stored ⊢
  obtain ⟨short, sorted, inDomain, digest, stored⟩ := stored
  cases known : store.documents.get manifest.manifestDigest with
  | some entries =>
    simp only [known, require_bind, Except.ok.injEq] at stored
    obtain ⟨same, rfl⟩ := stored
    simp [contains, known, short, sorted, inDomain, digest, require_bind, same]
  | none =>
    simp only [known, Except.ok.injEq] at stored
    subst stored
    simp [contains, short, sorted, inDomain, digest, require_bind]

theorem PopulationManifestStore.put_fails {store : PopulationManifestStore}
    (failed : store.put formats manifest = .error text) : text ≠ overSnapshotBudget := by
  simp only [put, require_bind_fails] at failed
  obtain ⟨_, rfl⟩ | ⟨_, ⟨_, rfl⟩ | ⟨_, ⟨_, rfl⟩ | ⟨_, ⟨_, rfl⟩ | ⟨_, failed⟩⟩⟩⟩ := failed
  · decide
  · decide
  · decide
  · decide
  split at failed
  · simp only [require_bind_fails, reduceCtorEq, and_false, or_false] at failed
    obtain ⟨_, rfl⟩ := failed
    decide
  · cases failed

/-- The snapshot has room for the manifest and for the audit records to come. -/
def SnapshotRoom (env : Environment) (stores : Stores) (manifest : PutPopulationManifest) : Prop :=
  env.snapshotBytes stores + (32 + 4 + 12 * manifest.entries.length) +
    maximumAuditSnapshotGrowth ≤ maxSnapshotBytes

/-- A manifest whose snapshot budget is weighed stays on its side of the budget. -/
def BudgetKept (env : Environment) (before after : Stores) (manifest : PutPopulationManifest) :
    Prop :=
  before.populationManifest.contains manifest.manifestDigest = false →
    manifest.entries.length ≤ maxPopulationManifestEntries →
    (SnapshotRoom env after manifest ↔ SnapshotRoom env before manifest)

theorem budgetKept_iff (same : after.populationManifest = before.populationManifest) :
    BudgetKept env before after manifest ↔
      checkManifestBudget env after manifest = checkManifestBudget env before manifest := by
  unfold checkManifestBudget BudgetKept SnapshotRoom
  rw [same]
  cases before.populationManifest.contains manifest.manifestDigest with
  | true => simp
  | false =>
    by_cases short : manifest.entries.length ≤ maxPopulationManifestEntries
    · generalize env.snapshotBytes after + _ + _ = grown
      generalize env.snapshotBytes before + _ + _ = size
      by_cases fits : grown ≤ maxSnapshotBytes <;> by_cases fitted : size ≤ maxSnapshotBytes <;>
        simp [short, fits, fitted, require, bind, Except.bind]
    · simp [short, require, bind, Except.bind]

/-- With the same manifests, only the snapshot's size can change what the budget check says. -/
theorem checkManifestBudget_cases (env : Environment) (manifest : PutPopulationManifest)
    (same : after.populationManifest = before.populationManifest) :
    checkManifestBudget env after manifest = checkManifestBudget env before manifest ∨
      checkManifestBudget env after manifest = .ok () ∧
        checkManifestBudget env before manifest = .error overSnapshotBudget ∨
      checkManifestBudget env after manifest = .error overSnapshotBudget ∧
        checkManifestBudget env before manifest = .ok () := by
  unfold checkManifestBudget
  rw [same]
  split
  · exact .inl rfl
  generalize decide (manifest.entries.length ≤ maxPopulationManifestEntries) = short
  generalize decide (env.snapshotBytes after + _ + _ ≤ maxSnapshotBytes) = fits
  generalize decide (env.snapshotBytes before + _ + _ ≤ maxSnapshotBytes) = fitted
  cases short <;> cases fits <;> cases fitted <;>
    simp [require, overSnapshotBudget, bind, Except.bind]

theorem fromStatus_rejected {outcome : Except String Stores} :
    fromStatus before outcome = (after, .rejected text) ↔
      outcome = .error text ∧ after = before := by
  cases outcome <;> simp [fromStatus, refuse, eq_comm, and_comm]

theorem putPopulationManifest_again {verdict : Verdict}
    (first : dispatchPutPopulationManifest env before manifest = (decided, verdict))
    (same : after.populationManifest = decided.populationManifest) :
    ∃ again judged, dispatchPutPopulationManifest env after manifest = (again, judged) ∧
      (judged = verdict → again = after) ∧ (judged = verdict ↔
        ∀ text, verdict = .rejected text → BudgetKept env before after manifest) := by
  unfold dispatchPutPopulationManifest at first ⊢
  cases verdict with
  | accepted =>
    simp only [fromStatus_accepted, bind_returns, Except.ok.injEq] at first
    obtain ⟨⟨⟩, -, stored, put, rfl⟩ := first
    obtain ⟨again, contained⟩ := put_again put
    have known : checkManifestBudget env after manifest = .ok () := by
      rw [checkManifestBudget, same, if_pos contained]
    have unchanged : { after with populationManifest := stored } = after := by
      cases after
      cases same
      rfl
    refine ⟨after, .accepted, ?_, fun _ => rfl, by simp⟩
    simp only [fromStatus_accepted, known, same, again, bind_returns, Except.ok.injEq]
    exact ⟨(), trivial, stored, rfl, unchanged⟩
  | rejected text =>
    obtain ⟨failed, rfl⟩ := fromStatus_rejected.mp first
    rw [budgetKept_iff same]
    simp only [← same, bind_fails, reduceCtorEq, and_false, exists_false, or_false] at failed
    obtain budget | ⟨budget, earlier⟩ | ⟨budget, earlier⟩ :=
      checkManifestBudget_cases env manifest same
    · refine ⟨after, .rejected text, fromStatus_rejected.mpr ⟨?_, rfl⟩, fun _ => rfl,
        by simp [budget]⟩
      simpa only [budget, bind_fails, reduceCtorEq, and_false, exists_false, or_false] using failed
    -- The budget let the replay through to checks that cannot fail with the budget's text.
    · have exceeded : text = overSnapshotBudget := by simpa [earlier, eq_comm] using failed
      cases put : after.populationManifest.put env.toFormats manifest with
      | ok stored =>
        simp [budget, earlier, bind, Except.bind, fromStatus]
      | error refused =>
        have other := put_fails put
        simp [budget, earlier, bind, Except.bind, fromStatus, refuse, exceeded, other]
    · have under : text ≠ overSnapshotBudget :=
        put_fails (by simpa [earlier] using failed)
      simp [budget, earlier, bind, Except.bind, fromStatus, refuse, under.symm]

/-! ## Replay -/

theorem invalidateStale_settled {state : MetaState} (reached : (metaSystem env).Reachable state) :
    state.stores.invalidateStaleCurrentDirectives = state.stores := by
  have fresh : state.stores.staleKeys = [] := by
    refine flatMap_eq_nil_iff.mpr fun record live => map_eq_nil_iff.mpr ?_
    refine filter_eq_nil_iff.mpr fun cur mem => ?_
    obtain ⟨⟨id, held⟩, stored, rfl⟩ := mem_map.mp live
    have found := AssocMap.get_of_mem (metaSystem_keyed reached).distinct stored
    simp [metaSystem_anchored reached ⟨held, found, mem⟩]
  change { state.stores with
    operation := state.stores.operation.invalidateCurrentDirectives state.stores.staleKeys } = _
  rw [fresh]
  simp [OperationStore.invalidateCurrentDirectives, OperationStore.invalidated]

variable {index : UInt64} {cmd : CommittedCommand} {verdict : Verdict}

/-- The actor does not fit an audit record, so the command is refused without one. -/
def CommittedCommand.OverCaps (cmd : CommittedCommand) : Prop :=
  maxPrincipalBytes < cmd.actor.principal.utf8ByteSize ∨
    maxAuditReadableTimeBytes < cmd.actor.readableTime.utf8ByteSize

/-- A command applied again where its own record was appended has the effect it had before exactly
if it is judged as before. -/
theorem applyCommitted_again (valid : index ≠ 0)
    (done : applyCommitted env before index cmd = some (after, verdict))
    (settled : after.invalidateStaleCurrentDirectives = after) :
    cmd.OverCaps ∧ applyCommitted env after index cmd = some (after, verdict) ∨
      ¬ cmd.OverCaps ∧ ∃ decided,
        dispatch env before index cmd.actor cmd.body = some (decided, verdict) ∧
        decided.audit.append (auditRecord env index cmd verdict)
          cmd.body.changesAuditPolicy = some after.audit ∧
        after = { reconcile decided verdict with audit := after.audit } ∧
        ∀ again judged, dispatch env after index cmd.actor cmd.body = some (again, judged) →
          (judged = verdict → again = after) →
          (applyCommitted env after index cmd = some (after, verdict) ↔ judged = verdict) := by
  unfold applyCommitted at done ⊢
  rw [if_neg valid] at done ⊢
  split at done
  next capped =>
    cases done
    exact .inl ⟨capped, if_pos capped⟩
  next admitted =>
  simp only [Option.bind_eq_bind, Option.bind_eq_some_iff] at done
  obtain ⟨⟨decided, first⟩, dispatched, audit, appended, ret⟩ := done
  simp only [Option.some.injEq, Prod.mk.injEq] at ret
  obtain ⟨written, rfl⟩ := ret
  have kept : after.audit = audit := by rw [← written]
  subst kept
  have unchanged : (reconcile decided first).audit = decided.audit := by cases first <;> rfl
  rw [unchanged] at appended
  refine .inr ⟨admitted, decided, dispatched, appended, written.symm,
    fun again judged repeated same => ?_⟩
  rw [if_neg admitted, repeated]
  constructor
  · intro ret
    simp only [Option.bind_eq_bind, Option.bind_some, Option.bind_eq_some_iff, Option.some.injEq,
      Prod.mk.injEq] at ret
    obtain ⟨_, _, _, judgement⟩ := ret
    exact judgement
  · rintro rfl
    rw [same rfl]
    cases judged <;> simp [reconcile, settled, append_again appended]

/-- A change of the audit store that answers as before is judged as before. -/
theorem onAudit_again (change : AuditStore → Except String AuditStore)
    (first : fromStatus before ((change before.audit).map fun audit => { before with audit }) =
      (decided, verdict))
    (accepted : change before.audit = .ok decided.audit → change after.audit = .ok after.audit)
    (refused : ∀ text, decided = before → change before.audit = .error text →
      change after.audit = .error text) :
    fromStatus after ((change after.audit).map fun audit => { after with audit }) =
      (after, verdict) := by
  cases changed : change before.audit with
  | ok audit =>
    rw [changed] at first accepted
    cases first
    rw [accepted rfl]
    rfl
  | error text =>
    rw [changed] at first
    cases first
    rw [refused text rfl changed]
    rfl

/-- The stores with the audit record of a refused command. -/
def refusalRecorded (env : Environment) (before : Stores) (index : UInt64) (cmd : CommittedCommand)
    (text : String) : Stores :=
  { before with
    audit := (before.audit.append (auditRecord env index cmd (.rejected text)) false).getD
      before.audit }

/-- What makes a second application a no-op: a prune names the record of its own command only if
that is not recorded or the floor is there already, and a manifest that is refused stays on its side
of the snapshot budget when the refusal is recorded. -/
def Replayable (env : Environment) (before : Stores) (index : UInt64) (cmd : CommittedCommand) :
    Prop :=
  cmd.OverCaps ∨ match cmd.body with
    | .pruneAudit through => through = index →
        before.audit.policy = .disabled ∨ index ≤ before.audit.prunedFloor
    | .putPopulationManifest manifest => ∀ text,
        dispatchPutPopulationManifest env before manifest = (before, .rejected text) →
        BudgetKept env before (refusalRecorded env before index cmd text) manifest
    | _ => True

def Command.onAuditOrManifest : Command → Bool
  | .pruneAudit _ | .setAuditPolicy .. | .putPopulationManifest _ => true
  | _ => false

/-- A prune that names its own record leaves the audit store as it is, or is refused for want of
the record that is then appended. -/
theorem own_prune_judged {record : AuditRecord}
    (first : fromStatus before ((before.audit.pruneThrough record.logIndex).map fun audit =>
      { before with audit }) = (decided, verdict))
    (appended : decided.audit.append record false = some after.audit) :
    if before.audit.policy = .disabled ∨ record.logIndex ≤ before.audit.prunedFloor then
      after.audit = before.audit
    else verdict ≠ .accepted ∧ ∃ audit, after.audit.pruneThrough record.logIndex = .ok audit := by
  cases pruned : before.audit.pruneThrough record.logIndex with
  | ok audit =>
    rw [pruned] at first
    cases first
    unfold pruneThrough at pruned
    split at pruned
    next below =>
      cases pruned
      rw [if_pos (.inr below)]
      obtain ⟨_, same⟩ | ⟨above, _⟩ := append_returns appended
      · exact same
      · exact absurd below (UInt64.not_le.mpr above)
    · -- The floor went up to the record, so that it could not have been appended.
      simp only [require_bind, Except.ok.injEq] at pruned
      obtain ⟨_, rfl⟩ := pruned
      obtain ⟨mem, _⟩ | ⟨above, _⟩ := append_returns appended
      · simp at mem
      · exact absurd above (UInt64.lt_irrefl _)
  | error text =>
    rw [pruned] at first
    cases first
    obtain ⟨above, unnamed, -⟩ := pruneThrough_refused.mp pruned
    obtain ⟨mem, _⟩ | ⟨_, _, written⟩ := append_returns appended
    · exact absurd rfl (unnamed record mem)
    simp only [above, and_true, or_false] at written ⊢
    split at written
    next disabled => rw [if_pos disabled, written]
    next recording =>
    rw [if_neg recording]
    refine ⟨nofun, ?_⟩
    cases again : after.audit.pruneThrough record.logIndex with
    | ok audit => exact ⟨audit, rfl⟩
    | error text =>
      exact absurd rfl ((pruneThrough_refused.mp again).2.1 record (by simp [written]))

/-- **When audit and manifest commands can be replayed.** Applied at a new log index to stores that
committed commands reach, and then once more to the result, such a command returns its verdict
and leaves all stores as they are exactly if it is replayable: otherwise the process aborts or the
verdict changes. -/
theorem audit_commands_replay_iff (env : Environment) {state : MetaState}
    (reached : (metaSystem env).Reachable state) {index : UInt64} (new : state.lastIndex < index)
    {cmd : CommittedCommand} (chosen : cmd.body.onAuditOrManifest = true) {after : Stores}
    {verdict : Verdict}
    (first : applyCommitted env state.stores index cmd = some (after, verdict)) :
    applyCommitted env after index cmd = some (after, verdict) ↔
      Replayable env state.stores index cmd := by
  have applied : (metaSystem env).step state (index, cmd) ⟨after, index⟩ :=
    ⟨new, rfl, verdict, first⟩
  have valid : index ≠ 0 := fun zero => UInt64.not_lt_zero (zero ▸ new)
  obtain ⟨capped, again⟩ | ⟨admitted, decided, dispatched, appended, written, replay⟩ :=
    applyCommitted_again valid first (invalidateStale_settled (reached.next applied))
  · exact iff_of_true again (.inl capped)
  obtain ⟨requestId, actor, body⟩ := cmd
  rw [Replayable, or_iff_right admitted]
  cases body with
  | pruneAudit through =>
    have judged := Option.some.inj dispatched
    by_cases own : through = index
    · subst own
      have outcome := own_prune_judged judged appended
      split at outcome
      next unrecorded =>
        refine iff_of_true ((replay after verdict (congrArg some ?_) fun _ => rfl).mpr rfl)
          fun _ => unrecorded
        exact onAudit_again (·.pruneThrough through) judged (pruneThrough_again · appended)
          fun text _ refused => outcome ▸ refused
      next recorded =>
        obtain ⟨refused, audit, again⟩ := outcome
        refine iff_of_false (fun replayed => ?_) fun replayable => recorded (replayable rfl)
        have repeated : dispatch env after through actor (.pruneAudit through) =
            some ({ after with audit }, .accepted) :=
          congrArg some (fromStatus_accepted.mpr (congrArg (Except.map _) again))
        exact refused ((replay _ _ repeated fun same => absurd same.symm refused).mp replayed).symm
    · refine iff_of_true ((replay after verdict (congrArg some ?_) fun _ => rfl).mpr rfl)
        (absurd · own)
      exact onAudit_again (·.pruneThrough through) judged (pruneThrough_again · appended)
        fun text same refused => pruneThrough_refused_again refused own (same ▸ appended)
  | setAuditPolicy policy attestation =>
    refine iff_of_true ((replay after verdict (congrArg some ?_) fun _ => rfl).mpr rfl) trivial
    exact onAudit_again (·.setPolicy policy) (Option.some.inj dispatched)
      (setPolicy_again · appended)
      fun text same refused => setPolicy_refused_again refused (same ▸ appended)
  | putPopulationManifest manifest =>
    have same : after.populationManifest = decided.populationManifest := by
      rw [written]
      cases verdict <;> rfl
    obtain ⟨again, judged, repeated, restored, iff⟩ :=
      putPopulationManifest_again (Option.some.inj dispatched) same
    refine (replay again judged (congrArg some repeated) restored).trans (iff.trans ?_)
    cases verdict with
    | accepted => simp [Option.some.inj dispatched]
    | rejected text =>
      obtain ⟨-, rfl⟩ := fromStatus_rejected.mp (Option.some.inj dispatched)
      have recorded : after = refusalRecorded env state.stores index
          ⟨requestId, actor, .putPopulationManifest manifest⟩ text := by
        rw [written, refusalRecorded]
        exact congrArg _ (appended ▸ rfl)
      simp [Option.some.inj dispatched, recorded]
  | _ => cases chosen

theorem prune_of_older_record_replays : ∃ before after,
    applyCommitted permissive {} 1 (unattributed (.setAuditPolicy .strictExport [])) =
        some (before, .accepted) ∧
      applyCommitted permissive before 2 (unattributed (.pruneAudit 1)) =
        some (after, .accepted) ∧
      applyCommitted permissive after 2 (unattributed (.pruneAudit 1)) =
        some (after, .accepted) := by
  have changed : (metaSystem permissive).step {}
      (1, unattributed (.setAuditPolicy .strictExport [])) ⟨_, 1⟩ := ⟨by decide, rfl, _, rfl⟩
  have apart : (1 : UInt64) ≠ 2 := by decide
  exact ⟨_, _, rfl, rfl, (audit_commands_replay_iff permissive (.next (.start rfl) changed)
    (by decide) rfl rfl).mpr (.inr fun own => absurd own apart)⟩

theorem own_prune_aborts_on_replay : ∃ after verdict,
    applyCommitted permissive {} 1 (unattributed (.pruneAudit 1)) = some (after, verdict) ∧
      applyCommitted permissive after 1 (unattributed (.pruneAudit 1)) = none :=
  ⟨_, _, rfl, rfl⟩

end Lavik.Meta
