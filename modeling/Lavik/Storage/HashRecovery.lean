import Lavik.Base.RecordLog
import Lavik.Storage.HashRefinement
/-!
# Recovery of a grouped hash agrees with the live directory

Every record a hash ever wrote may still be found after a crash, in any order, next to relocated
copies. The latest record of an identity is the one the live directory holds, active or retired.
-/

namespace Lavik.Storage.HashGroupDirectory

open Base List OrderedMap

/-! ## Records and the directory they lead to -/

/-- Records of the same version of a group. Relocation gives a new LSN, and a transaction that is
promoted loses its tags. -/
structure SameVersion (left right : RecoveredHashGroup) : Prop where
  incarnation : left.incarnation = right.incarnation
  id : left.id = right.id
  sequence : left.sequence = right.sequence
  fieldCount : left.fieldCount = right.fieldCount
  retired : left.retired = right.retired

variable (dir : HashGroupDirectory)

/-- The records a directory holds: those of its routes and of its retired groups. -/
def Current (record : RecoveredHashGroup) : Prop :=
  (record.id.prefixWord, record) ∈ dir.groups.entries ∨ (record.id, record) ∈ dir.retired.entries

structure Logged (written : List RecoveredHashGroup) : Prop where
  admissible : ∀ record ∈ written, record.incarnation = dir.root.incarnation ∧
    record.sequence ≤ dir.root.revision ∧ checkCandidate record = .ok ()
  log : RecordLog RecoveredHashGroup.id RecoveredHashGroup.sequence (Current dir) written
  marked : ∀ entry ∈ dir.retired.entries, entry.2.id = entry.1 ∧ entry.2.retired = true

/-- What a crash may leave: a committed copy of every written record, and otherwise such copies and
records that recovery passes over. -/
abbrev Surviving (root : GroupedHashRoot) (committed : List Nat)
    (written candidates : List RecoveredHashGroup) : Prop :=
  Survives (winnerReader root committed) SameVersion written candidates

/-- The winners of a recovery are the records a directory holds, up to relocation. -/
structure Matches (winners : OrderedMap HashGroupId RecoveredHashGroup) : Prop where
  held : ∀ record, Current dir record →
    ∃ winner, (record.id, winner) ∈ winners.entries ∧ SameVersion winner record
  winner : ∀ entry ∈ winners.entries,
    ∃ record, Current dir record ∧ record.id = entry.1 ∧ SameVersion entry.2 record

theorem winnerReader_copying (root : GroupedHashRoot) (committed : List Nat) :
    Copying (winnerReader root committed) RecoveredHashGroup.sequence SameVersion where
  identity := fun _ _ same => same.id
  revised := fun _ _ same => same.sequence
  version := by
    intro left right above
    rcases Prod.Lex.le_iff.mp above with below | ⟨eq, -⟩
    · exact below.le
    · exact eq.le
  apart := fun left right ne => by simp [winnerReader, ne]
  alike := fun left right record first second => by
    simp [winnerReader, first.fieldCount, first.retired, second.fieldCount, second.retired]

theorem SameVersion.check {cand record : RecoveredHashGroup}
    (same : SameVersion cand record) (ok : checkCandidate record = .ok ()) :
    checkCandidate cand = .ok () := by
  unfold checkCandidate at ok ⊢
  rwa [same.id, same.sequence, same.fieldCount, same.retired]

variable {dir after : HashGroupDirectory} {candidates written changes : List RecoveredHashGroup}
  {committed : List Nat} {rootSequence sequence : Nat} {root : GroupedHashRoot}

theorem Logged.matches (logged : Logged dir written)
    (surviving : Surviving dir.root committed written candidates) :
    ∃ winners, (winnerReader dir.root committed).collect candidates = .ok winners ∧
      Matches dir winners := by
  have copying := winnerReader_copying dir.root committed
  obtain ⟨winners, collected⟩ := surviving.collects copying logged.log
    fun cand record mem same => same.check (logged.admissible record mem).2.2
  have restored := surviving.restores copying logged.log collected
  exact ⟨winners, collected, restored.held, restored.winner⟩

/-! ## Routes from the winners -/

def routeFact (route : UInt64 × RecoveredHashGroup) : UInt64 × HashGroupId × Nat × UInt64 :=
  (route.1, route.2.id, route.2.sequence, route.2.fieldCount)

def retiredFact (entry : HashGroupId × RecoveredHashGroup) : HashGroupId × Nat :=
  (entry.1, entry.2.sequence)

theorem routeFact_fst (route : UInt64 × RecoveredHashGroup) : (routeFact route).1 = route.1 := rfl

theorem routeFact_inj {left right : UInt64 × RecoveredHashGroup}
    (same : routeFact left = routeFact right) : left.1 = right.1 ∧ left.2.id = right.2.id := by
  rw [Prod.mk.injEq, Prod.mk.injEq] at same
  exact ⟨same.1, same.2.1⟩

variable (groups : OrderedMap UInt64 RecoveredHashGroup)

theorem fieldTotal_eq :
    fieldTotal groups = ((groups.entries.map routeFact).map fun fact => fact.2.2.2.toNat).sum := by
  rw [map_map]
  rfl

theorem widthTotal_eq :
    widthTotal groups = ((groups.entries.map routeFact).map fun fact => fact.2.1.width).sum := by
  rw [map_map]
  rfl

section Routes

variable {dir : HashGroupDirectory} {winners : OrderedMap HashGroupId RecoveredHashGroup}
  (matching : Matches dir winners) (total : Total dir)
  (marked : ∀ entry ∈ dir.retired.entries, entry.2.id = entry.1 ∧ entry.2.retired = true)

include matching

variable {entry : HashGroupId × RecoveredHashGroup} {root : GroupedHashRoot}

theorem Matches.own (won : entry ∈ winners.entries) : entry.2.id = entry.1 := by
  obtain ⟨record, -, named, same⟩ := matching.winner entry won
  rw [same.id, named]

include marked

theorem Matches.route (won : entry ∈ winners.entries) (active : entry.2.retired = false) :
    routeFact (entry.1.prefixWord, entry.2) ∈ dir.groups.entries.map routeFact := by
  obtain ⟨record, cur, named, same⟩ := matching.winner entry won
  rcases cur with routed | remembered
  · refine mem_map.mpr ⟨_, routed, ?_⟩
    unfold routeFact
    rw [named, same.id, named, same.sequence, same.fieldCount]
  · have retired : record.retired = true := (marked _ remembered).2
    rw [same.retired, retired] at active
    cases active

theorem Matches.subset {gone : List (HashGroupId × RecoveredHashGroup)} {routes : Routes}
    (routing : Routing root gone routes) (listed : ∀ entry ∈ gone, entry ∈ winners.entries) :
    ∀ fact ∈ routes.groups.entries.map routeFact, fact ∈ dir.groups.entries.map routeFact := by
  intro fact mem
  obtain ⟨route, held, rfl⟩ := mem_map.mp mem
  obtain ⟨entry, earlier, active, rfl⟩ := (routing.routed route).mp held
  exact matching.route marked (listed entry earlier) active

include total

theorem Matches.routes {memory : RoutingMemory} (granted : ∀ update id, memory update id = true) :
    ∃ routes, winners.entries.foldlM (addWinner memory dir.root) ⟨.empty, .empty, 0⟩ =
        .ok routes ∧ Routing dir.root winners.entries routes := by
  apply foldlM_succeeds
  · exact ⟨by simp, by simp, rfl, UInt64.le_iff_toNat_le.mpr (Nat.zero_le _)⟩
  · intro gone entry rest routes whole routing
    have fresh : ∀ earlier ∈ gone, earlier.1 ≠ entry.1 := by
      have sorted := winners.sorted
      rw [whole, pairwise_append] at sorted
      exact fun earlier before => (sorted.2.2 earlier before entry mem_cons_self).ne
    have won : entry ∈ winners.entries := by simp [whole]
    have listed : ∀ earlier ∈ gone, earlier ∈ winners.entries := by
      intro earlier before
      simp [whole, before]
    suffices returns : ∃ after, addWinner memory dir.root routes entry = .ok after by
      obtain ⟨after, ret⟩ := returns
      exact ⟨after, ret, routing.step fresh ret⟩
    unfold addWinner
    split
    · exact ⟨_, bind_returns.mpr ⟨_, reserved_succeeds granted _ _ _, rfl⟩⟩
    next active =>
    rw [Bool.not_eq_true] at active
    obtain ⟨live, liveHeld, liveFact⟩ := mem_map.mp (matching.route marked won active)
    have absent : routes.groups.get entry.1.prefixWord = none := by
      rw [get_eq_none]
      intro route held same
      obtain ⟨other, otherHeld, otherFact⟩ := mem_map.mp
        (matching.subset marked routing listed _ (mem_map_of_mem held))
      obtain ⟨earlier, before, -, rfl⟩ := (routing.routed route).mp held
      obtain ⟨otherKey, otherId⟩ := routeFact_inj otherFact
      obtain ⟨liveKey, liveId⟩ := routeFact_inj liveFact
      have key : other.1 = live.1 := by rw [otherKey, liveKey, same]
      have record : other.2 = live.2 := value_unique otherHeld (key ▸ liveHeld)
      apply fresh earlier before
      rw [← matching.own (listed earlier before), ← matching.own won, ← otherId, ← liveId, record]
    have subset : ∀ fact ∈ (routes.groups.set entry.1.prefixWord entry.2).entries.map routeFact,
        fact ∈ dir.groups.entries.map routeFact := by
      intro fact mem
      obtain ⟨route, held, rfl⟩ := mem_map.mp mem
      rcases mem_set.mp held with rfl | ⟨before, -⟩
      · exact matching.route marked won active
      · exact matching.subset marked routing listed _ (mem_map_of_mem before)
    have room : entry.2.fieldCount ≤ dir.root.fieldCount - routes.count := by
      have bound := sum_le_of_subset routeFact_fst (fun fact => fact.2.2.2.toNat) subset
      rw [← fieldTotal_eq, ← fieldTotal_eq, total.counted] at bound
      have sum : fieldTotal (routes.groups.set entry.1.prefixWord entry.2) =
          entry.2.fieldCount.toNat + fieldTotal routes.groups :=
        sum_set routes.groups entry.2 absent _
      rw [UInt64.le_iff_toNat_le, UInt64.toNat_sub_of_le _ _ routing.bounded, routing.counted]
      omega
    refine ⟨_, refuseIf_bind.mpr ⟨?_, bind_returns.mpr ⟨_, reserved_succeeds granted _ _ _, rfl⟩⟩⟩
    rw [absent]
    simpa using room

theorem Matches.facts {routes : Routes} (routing : Routing root winners.entries routes) :
    routes.groups.entries.map routeFact = dir.groups.entries.map routeFact ∧
      routes.retired.entries.map retiredFact = dir.retired.entries.map retiredFact := by
  constructor
  · apply map_entries_eq routeFact_fst
    intro fact
    constructor
    · exact matching.subset marked routing (fun _ => id) fact
    · intro mem
      obtain ⟨route, held, rfl⟩ := mem_map.mp mem
      have keyed := total.laid.keyed route held
      have cur : Current dir route.2 := .inl (by rw [keyed]; exact held)
      obtain ⟨winner, won, same⟩ := matching.held route.2 cur
      have active : winner.retired = false :=
        same.retired.trans (total.laid.placeable route held).active
      refine mem_map.mpr ⟨(route.2.id.prefixWord, winner),
        (routing.routed _).mpr ⟨_, won, active, rfl⟩, ?_⟩
      unfold routeFact
      rw [keyed, same.id, same.sequence, same.fieldCount]
  · apply map_entries_eq (show ∀ entry, (retiredFact entry).1 = entry.1 from fun _ => rfl)
    intro fact
    constructor
    · intro mem
      obtain ⟨entry, held, rfl⟩ := mem_map.mp mem
      obtain ⟨won, retired⟩ := (routing.remembered entry).mp held
      obtain ⟨record, cur, named, same⟩ := matching.winner entry won
      rcases cur with routed | remembered
      · have active := (total.laid.placeable _ routed).active
        have eq : record.retired = true := same.retired.symm.trans retired
        exact (Bool.false_ne_true (active.symm.trans eq)).elim
      · refine mem_map.mpr ⟨_, remembered, ?_⟩
        unfold retiredFact
        rw [named, same.sequence]
    · intro mem
      obtain ⟨entry, held, rfl⟩ := mem_map.mp mem
      obtain ⟨named, retired⟩ := marked entry held
      have cur : Current dir entry.2 := .inr (by rw [named]; exact held)
      obtain ⟨winner, won, same⟩ := matching.held entry.2 cur
      refine mem_map.mpr ⟨(entry.2.id, winner),
        (routing.remembered _).mpr ⟨won, same.retired.trans retired⟩, ?_⟩
      unfold retiredFact
      rw [named, same.sequence]

end Routes

/-- Recovery with the root of a directory whose records survive returns its routes and its retired
groups. -/
theorem Logged.recovers (total : Total dir) (valid : dir.root.valid = true)
    (logged : Logged dir written) (surviving : Surviving dir.root committed written candidates)
    {memory : RoutingMemory} (granted : ∀ update id, memory update id = true)
    (sequenced : rootSequence ≠ 0) :
    ∃ recovered, recover memory dir.root rootSequence candidates committed = .ok recovered ∧
      recovered.groups.entries.map routeFact = dir.groups.entries.map routeFact ∧
      recovered.retired.entries.map retiredFact = dir.retired.entries.map retiredFact := by
  obtain ⟨winners, collected, matching⟩ := logged.matches surviving
  obtain ⟨routes, built, routing⟩ := matching.routes total logged.marked granted
  obtain ⟨groups, retired⟩ := matching.facts total logged.marked routing
  have count : routes.count = dir.root.fieldCount := by
    apply UInt64.toNat_inj.mp
    rw [routing.counted, ← total.counted, fieldTotal_eq, fieldTotal_eq, groups]
  have size : routes.groups.size = dir.root.groupCount.toNat := by
    rw [← total.sized, size_eq, size_eq, ← length_map (f := routeFact), groups, length_map]
  have widths : widthTotal routes.groups = UInt64.size := by
    rw [← total.filled, widthTotal_eq, widthTotal_eq, groups]
  -- every route of the recovery has the key and the identity of a live one
  have live : ∀ route ∈ routes.groups.entries,
      ∃ held ∈ dir.groups.entries, held.1 = route.1 ∧ held.2.id = route.2.id := by
    intro route mem
    have fact := mem_map_of_mem (f := routeFact) mem
    rw [groups] at fact
    obtain ⟨held, listed, same⟩ := mem_map.mp fact
    exact ⟨held, listed, routeFact_inj same⟩
  have walked : checkRoutes 0 false routes.groups.entries = .ok () := by
    refine (checkRoutes_iff ?_ ?_).mpr ⟨fun _ _ => Nat.zero_le _, ?_, widths⟩
    · intro route mem
      obtain ⟨held, listed, key, same⟩ := live route mem
      rw [← same, ← key]
      exact total.laid.keyed held listed
    · intro route mem
      obtain ⟨held, listed, -, same⟩ := live route mem
      rw [← same]
      exact (total.laid.placeable held listed).valid
    · apply routes.groups.sorted.imp_of_mem
      intro left right first second less
      obtain ⟨leftHeld, leftListed, leftKey, leftSame⟩ := live left first
      obtain ⟨rightHeld, rightListed, rightKey, rightSame⟩ := live right second
      have keys : leftHeld.1 < rightHeld.1 := by rwa [leftKey, rightKey]
      have apart := total.laid.apart leftHeld leftListed rightHeld rightListed keys.ne
      have low := total.laid.first_eq leftListed
      have high := total.laid.first_eq rightListed
      rw [← leftSame, ← rightSame]
      rw [UInt64.lt_iff_toNat_lt] at keys
      unfold HashGroupId.Apart at apart
      omega
  refine ⟨⟨dir.root, dir.root.revision, rootSequence, routes.groups, routes.retired⟩,
    ?_, groups, retired⟩
  refine refuseIf_bind.mpr ⟨?_, bind_returns.mpr ⟨winners, collected, bind_returns.mpr
    ⟨routes, built, refuseIf_bind.mpr ⟨?_, bind_returns.mpr ⟨(), walked, rfl⟩⟩⟩⟩⟩
  · simp [valid, sequenced]
  · simp [count, size]

/-! ## Records of a run -/

theorem Applied.current_iff (applied : Applied dir root sequence changes after)
    (record : RecoveredHashGroup) :
    Current after record ↔ record ∈ changes ∨
      Current dir record ∧ ∀ change ∈ changes, change.id ≠ record.id := by
  have route : ∀ change ∈ changes, change.retired = false →
      (change.id.prefixWord, change) ∈ after.groups.entries :=
    fun change mem active => (applied.routed _).mpr (.inr ⟨change, mem, active, rfl⟩)
  constructor
  · rintro (routed | remembered)
    · rcases (applied.routed _).mp routed with ⟨before, free⟩ | ⟨change, mem, -, same⟩
      · exact .inr ⟨.inl before, free⟩
      · obtain ⟨-, rfl⟩ := Prod.mk.inj same
        exact .inl mem
    · rcases (applied.remembered _).mp remembered with ⟨change, mem, -, same⟩ | ⟨before, free⟩
      · obtain ⟨-, rfl⟩ := Prod.mk.inj same
        exact .inl mem
      · refine .inr ⟨.inr before, fun change mem same => ?_⟩
        -- a change of a retired identity would have to be active, and is not
        cases retired : change.retired with
        | true => exact free change mem retired same
        | false =>
          have gone := applied.total.unretired _ (route change mem retired)
          rw [show change.id = record.id from same] at gone
          exact get_eq_none.mp gone _ remembered rfl
  · rintro (mem | ⟨routed | remembered, free⟩)
    · cases retired : record.retired with
      | false => exact .inl (route record mem retired)
      | true => exact .inr ((applied.remembered _).mpr (.inl ⟨record, mem, retired, rfl⟩))
    · exact .inl ((applied.routed _).mpr (.inl ⟨routed, free⟩))
    · exact .inr ((applied.remembered _).mpr (.inr ⟨remembered,
        fun change mem _ => free change mem⟩))

theorem Logged.apply (logged : Logged dir written) (sequenced : dir.sequence = dir.root.revision)
    (applied : Applied dir root sequence changes after) : Logged after (written ++ changes) := by
  have newer := applied.newer
  have older : ∀ record ∈ written, record.sequence < root.revision := by
    intro record mem
    have bound := (logged.admissible record mem).2.1
    omega
  constructor
  case admissible =>
    intro record mem
    rw [applied.header.1]
    rcases mem_append.mp mem with before | late
    · obtain ⟨incarnation, -, ok⟩ := logged.admissible record before
      exact ⟨incarnation.trans applied.incarnation.symm, (older record before).le, ok⟩
    have recordable := applied.recordable record late
    refine ⟨recordable.incarnation, recordable.sequence.le, refuseIf_returns.mpr ?_⟩
    simp only [not_or, not_and, not_not, not_lt, Bool.not_eq_false]
    exact ⟨recordable.valid, by rw [recordable.sequence]; omega, recordable.emptied,
      recordable.bounded⟩
  case log =>
    exact logged.log.update older (fun change listed => (applied.recordable change listed).sequence)
      applied.named applied.current_iff
  case marked =>
    intro entry remembered
    rcases (applied.remembered entry).mp remembered with
      ⟨change, listed, retired, rfl⟩ | ⟨before, -⟩
    · exact ⟨rfl, retired⟩
    · exact logged.marked entry before

theorem Recovered.logged {records : List RecoveredHashGroup}
    {winners : OrderedMap HashGroupId RecoveredHashGroup}
    (recovered : Recovered root rootSequence records committed winners dir)
    (admitted : ∀ record ∈ records, excluded root committed record = false)
    (nodup : records.Pairwise fun left right => left.id ≠ right.id) : Logged dir records := by
  have all : records.filter (fun record => !excluded root committed record) = records :=
    filter_eq_self.mpr fun record mem => by rw [admitted record mem]; rfl
  have holds := recovered.holds
  rw [all] at holds
  constructor
  case admissible =>
    intro record mem
    have ok := recovered.checked record mem (admitted record mem)
    have kept := admitted record mem
    simp only [excluded, Bool.or_eq_false_iff, decide_eq_false_iff_not, not_not, not_lt] at kept
    rw [recovered.header.1]
    exact ⟨kept.1.1.1, kept.1.1.2, ok⟩
  case log =>
    apply RecordLog.of_distinct nodup
    intro record
    constructor
    · rintro (routed | remembered)
      · obtain ⟨winner, won, -, same⟩ := (recovered.routed _).mp routed
        obtain ⟨-, rfl⟩ := Prod.mk.inj same
        exact (holds.listed winner won).1
      · obtain ⟨won, -⟩ := (recovered.remembered _).mp remembered
        exact (holds.listed _ won).1
    · intro mem
      obtain ⟨winner, won, -⟩ := holds.latest record mem
      have named : (record.id, winner) ∈ winners.entries := won
      have own : winner.id = record.id := (holds.listed _ named).2
      have same : winner = record :=
        inj_on_of_nodup_map (pairwise_map.mpr nodup) (holds.listed _ named).1 mem own
      rw [same] at named
      cases retired : record.retired with
      | false => exact .inl ((recovered.routed _).mpr ⟨_, named, retired, rfl⟩)
      | true => exact .inr ((recovered.remembered _).mpr ⟨named, retired⟩)
  case marked =>
    intro entry remembered
    obtain ⟨won, retired⟩ := (recovered.remembered entry).mp remembered
    exact ⟨(holds.listed entry won).2, retired⟩

end Lavik.Storage.HashGroupDirectory
