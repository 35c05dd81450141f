import Lavik.Storage.HashReplacement
/-!
# A planned mutation refines the plain hash

A plan that succeeds counts the fields its command adds or removes. It changes nothing, or it
deletes the key because no field is left, or its writes and its root make an update that the
directory accepts, after which the pages stand for the plain hash after the whole command.
-/

namespace Lavik.Storage

open Base HashGroupDirectory List

section Refinement

variable {digestOf : DigestSeed → List UInt8 → UInt64} {dir : HashGroupDirectory}
  {pages : Pages} {kind : HashGroupMutationKind}

/-! ## The steps of a plan -/

variable {fields values : List (List UInt8)} {groups : OrderedMap HashGroupId HashGroupSnapshot}
  {loadedGroups : List LoadedHashGroup} {memory : RoutingMemory}

theorem map_operands (matching : kind ≠ .delete → fields.length = values.length) :
    (operands kind fields values).map Prod.fst = fields := by
  unfold operands
  split
  · rw [map_map]
    exact map_id _
  · next setting => exact map_fst_zip (matching setting).le

theorem meaning_empty_iff :
    (∀ field, meaning dir pages field = none) ↔ pageTotal dir pages = 0 := by
  have total : pageTotal dir pages = (contents dir pages).length := by
    unfold pageTotal contents
    rw [length_flatMap]
  rw [total, length_eq_zero_iff]
  unfold meaning
  constructor
  · intro empty
    apply eq_nil_iff_forall_not_mem.mpr
    intro entry held
    exact lookup_eq_none.mp (empty entry.field) (mem_map_of_mem held)
  · intro none field
    rw [none]
    rfl

theorem Mutated.start (fit : PagesFit digestOf dir pages) (copies : Copies dir groups)
    (same : overlay pages groups = pages) :
    Mutated digestOf dir pages kind [] { groups } where
  copies := copies
  fit := by rwa [same]
  stands := by rw [same, foldl_nil]
  unchanged := fun id _ => congrFun same id
  loaded := fun entry held => by cases held
  affected := by rfl
  total := by
    rw [same]
    split <;> rfl

variable {given : List (List UInt8 × List UInt8)} {scratch : Scratch}

variable {plan : HashGroupMutationPlan}

theorem countFields_returns (stored : Stored digestOf dir pages)
    (mutated : Mutated digestOf dir pages kind given scratch)
    {counted : HashGroupMutationPlan} (begun : plan.root = dir.root)
    (affected : plan.affectedFields = scratch.affected)
    (ret : countFields kind plan = .ok counted) :
    counted = { plan with root := { plan.root with fieldCount := counted.root.fieldCount } } ∧
      counted.root.fieldCount.toNat = pageTotal dir (overlay pages scratch.groups) ∧
      counted.root.fieldCount.toNat ≤ maxU32 := by
  have before := stored.pageTotal_eq
  have total := mutated.total
  obtain ⟨-, -, -, -, bounded⟩ := GroupedHashRoot.valid_iff.mp stored.valid
  have range : maxU32 < 2 ^ 64 := by decide
  unfold countFields at ret
  split at ret
  · next deleting =>
    rw [if_pos deleting] at total
    cases ret
    have difference : (plan.root.fieldCount - UInt64.ofNat plan.affectedFields).toNat =
        plan.root.fieldCount.toNat - plan.affectedFields := by
      have small : (UInt64.ofNat plan.affectedFields).toNat = plan.affectedFields := by
        apply Nat.mod_eq_of_lt
        omega
      rw [UInt64.toNat_sub_of_le, small]
      rw [UInt64.le_iff_toNat_le, small, begun]
      omega
    rw [difference, begun]
    exact ⟨rfl, by omega, by omega⟩
  · next setting =>
    rw [if_neg setting] at total
    obtain ⟨room, stored⟩ := refuseIf_bind.mp ret
    cases stored
    rw [begun] at room
    have sum : (plan.root.fieldCount + UInt64.ofNat plan.affectedFields).toNat =
        plan.root.fieldCount.toNat + plan.affectedFields := by
      rw [UInt64.toNat_add, UInt64.toNat_ofNat', begun, Nat.mod_eq_of_lt (a := plan.affectedFields)]
      · apply Nat.mod_eq_of_lt
        omega
      · omega
    rw [sum, begun]
    exact ⟨rfl, by omega, by omega⟩

/-! ## The writes of a plan -/

variable {targetBytes : Nat}

theorem Planned.replacing (mutated : Mutated digestOf dir pages kind given scratch)
    {start : HashGroupMutationPlan}
    (planned : Planned digestOf dir.root.seed targetBytes scratch.groups start
      scratch.changed.entries plan) :
    Replacing digestOf dir pages (overlay pages scratch.groups)
      (scratch.changed.entries.map Prod.fst)
      (replacementsOf digestOf dir.root.seed targetBytes scratch.groups) where
  distinct := scratch.changed.keys_nodup
  routed := by
    refine forall_mem_map.mpr fun entry held => ?_
    obtain ⟨group, found⟩ := mutated.loaded entry held
    exact (mutated.copies entry.1 group found).2.2.2
  leaves := by
    refine forall_mem_map.mpr fun entry held => ?_
    obtain ⟨group, found, leaves⟩ := planned.split entry held
    obtain ⟨named, incarnation, active, -⟩ := mutated.copies entry.1 group found
    have whole : HashGroupSnapshot.mk dir.root.incarnation entry.1 false
        (overlay pages scratch.groups entry.1) = group := by
      unfold overlay
      rw [found, ← incarnation, ← named]
      cases group
      cases active
      rfl
    rw [whole]
    exact leaves
  kept := by
    intro id free
    apply mutated.unchanged
    rw [OrderedMap.get_eq_none]
    intro entry held same
    exact free (mem_map.mpr ⟨entry, held, same⟩)
  fit := mutated.fit

theorem Replacing.publishes {current : Pages} {ids : List HashGroupId}
    {leavesOf : HashGroupId → List HashGroupSnapshot} {root : GroupedHashRoot} {sequence : Nat}
    {stamps : HashGroupId → RecordStamp}
    (replacing : Replacing digestOf dir pages current ids leavesOf)
    (stored : Stored digestOf dir pages) (granted : ∀ update id, memory update id = true)
    (valid : root.valid = true) (incarnation : root.incarnation = dir.root.incarnation)
    (seed : root.seed = dir.root.seed) (notOlder : dir.commandSequence ≤ sequence)
    (newer : dir.sequence < root.revision) (some : ids ≠ [])
    (fields : root.fieldCount.toNat = pageTotal dir current)
    (counted : root.groupCount.toNat + ids.length =
      dir.root.groupCount.toNat + (ids.map fun id => (leavesOf id).length).sum) :
    ∃ after, dir.apply memory root sequence
      (replacementRecords root.revision stamps dir ids leavesOf) = .ok after := by
  have ne : replacementRecords root.revision stamps dir ids leavesOf ≠ [] := by
    obtain ⟨id, mem⟩ := exists_mem_of_ne_nil ids some
    obtain ⟨write, written, -⟩ := replacing.named mem
    exact ne_nil_of_mem (mem_replacementRecords.mpr ⟨id, mem, write, written, rfl⟩)
  refine apply_succeeds granted stored.total (replacing.acceptable stored incarnation rfl) valid
    incarnation seed notOlder newer ne fun groups laid routed => ?_
  obtain ⟨total, widths, size⟩ := replacing.totals stored routed
  exact ⟨total.trans fields.symm, widths, by omega⟩

theorem planWrites_returns (mutated : Mutated digestOf dir pages kind given scratch)
    {start : HashGroupMutationPlan} (fresh : start.writes = [])
    (ret : planWrites digestOf dir scratch targetBytes start = .ok plan) :
    if start.root.fieldCount = 0 then
      plan = { start with deleteKey := true, root := { start.root with groupCount := 0 } }
    else Planned digestOf dir.root.seed targetBytes scratch.groups start
      scratch.changed.entries plan := by
  unfold planWrites at ret
  split
  · next empty =>
    rw [if_pos empty] at ret
    cases ret
    rfl
  · next some =>
    rw [if_neg some] at ret
    apply foldlM_invariant _ _ ret
    · exact ⟨fun id held => (not_mem_nil held).elim, fresh, rfl, rfl⟩
    · intro gone id rest before after whole planned step
      exact planned.step (mutated.loaded id (by simp [whole])) step

/-! ## Plans -/

/-- A plan that writes its changed groups, from a root with the fields of the scratch groups. -/
structure Writing (digestOf : DigestSeed → List UInt8 → UInt64) (dir : HashGroupDirectory)
    (pages : Pages) (targetBytes : Nat) (scratch : Scratch)
    (start plan : HashGroupMutationPlan) : Prop where
  some : scratch.changed.entries ≠ []
  root : start.root = { dir.root with fieldCount := start.root.fieldCount }
  fields : start.root.fieldCount.toNat = pageTotal dir (overlay pages scratch.groups)
  bounded : start.root.fieldCount ≠ 0 ∧ start.root.fieldCount.toNat ≤ maxU32
  planned : Planned digestOf dir.root.seed targetBytes scratch.groups start
    scratch.changed.entries plan

inductive PlanOutcome (digestOf : DigestSeed → List UInt8 → UInt64)
    (dir : HashGroupDirectory) (pages : Pages) (targetBytes : Nat) (scratch : Scratch)
    (plan : HashGroupMutationPlan) : Prop
  | unchanged (flags : plan.changed = false ∧ plan.deleteKey = false) (idle : plan.writes = [])
      (none : scratch.changed.entries = [])
  | deleted (flags : plan.changed = true ∧ plan.deleteKey = true) (idle : plan.writes = [])
      (empty : pageTotal dir (overlay pages scratch.groups) = 0)
  | written (start : HashGroupMutationPlan) (flags : plan.changed = true ∧ plan.deleteKey = false)
      (writing : Writing digestOf dir pages targetBytes scratch start plan)

theorem planHashGroupMutation_returns (stored : Stored digestOf dir pages)
    (cur : ∀ loaded ∈ loadedGroups, loaded.snapshot.entries = pages loaded.snapshot.id)
    (ret : planHashGroupMutation digestOf dir loadedGroups kind fields values
      targetBytes = .ok plan) :
    (operands kind fields values).map Prod.fst = fields ∧
      ∃ scratch, Mutated digestOf dir pages kind (operands kind fields values) scratch ∧
        plan.affectedFields = scratch.affected ∧
        PlanOutcome digestOf dir pages targetBytes scratch plan := by
  obtain ⟨guards, cont⟩ := refuseIf_bind.mp ret
  obtain ⟨groups, loading, cont⟩ := bind_returns.mp cont
  obtain ⟨scratch, mutating, cont⟩ := bind_returns.mp cont
  obtain ⟨copies, same⟩ := loadGroups_returns cur loading
  have mutated := foldlM_invariant (Mutated.start stored.fit copies same)
    (fun _ _ _ _ _ _ mutated => mutated.step stored.total) mutating
  refine ⟨map_operands fun setting => ?_, scratch, mutated, ?_⟩
  · by_contra different
    exact guards (.inl ⟨setting, different⟩)
  dsimp only at cont
  split at cont
  · next unchanged =>
    cases cont
    rw [decide_eq_false_iff_not, not_not] at unchanged
    exact ⟨rfl, .unchanged ⟨by simp [unchanged], rfl⟩ rfl unchanged⟩
  · next changed =>
    rw [Bool.not_eq_false, decide_eq_true_eq] at changed
    obtain ⟨counted, counting, writing⟩ := bind_returns.mp cont
    obtain ⟨kept, total, bounded⟩ := countFields_returns stored mutated rfl rfl counting
    have begun : counted.writes = [] := by rw [kept]
    have outcome := planWrites_returns mutated begun writing
    split at outcome
    · next empty =>
      rw [outcome, kept]
      rw [empty] at total
      exact ⟨rfl, .deleted ⟨by simp [changed], rfl⟩ rfl total.symm⟩
    · next some =>
      have same := outcome.kept
      refine ⟨by rw [same, kept], .written counted ⟨?_, ?_⟩
        ⟨changed, by rw [kept], total, ⟨some, bounded⟩, outcome⟩⟩
      · rw [same, kept]
        simp [changed]
      · rw [same, kept]

def plainResult (kind : HashGroupMutationKind) (before : PlainHash)
    (fields values : List (List UInt8)) : PlainHash :=
  (operands kind fields values).foldl (operate kind) before

def applyPlan (memory : RoutingMemory) (dir : HashGroupDirectory)
    (plan : HashGroupMutationPlan) (revision sequence : Nat)
    (stamps : HashGroupId → RecordStamp) : StatusOr HashGroupDirectory :=
  dir.apply memory { plan.root with revision } sequence
    (plan.writes.map (publishedRecord revision stamps))

section Writing

variable (stored : Stored digestOf dir pages)
  (mutated : Mutated digestOf dir pages kind given scratch) {start : HashGroupMutationPlan}
  (writing : Writing digestOf dir pages targetBytes scratch start plan)
  {revision sequence : Nat} {stamps : HashGroupId → RecordStamp}

include writing

theorem Writing.writes : plan.writes = replacementWrites dir (scratch.changed.entries.map Prod.fst)
    (replacementsOf digestOf dir.root.seed targetBytes scratch.groups) := by
  rw [writing.planned.writes, writing.root, replacementWrites, flatMap_map]

include stored mutated

theorem Writing.refines {after : HashGroupDirectory}
    (updated : applyPlan memory dir plan revision sequence stamps = .ok after) :
    Stored digestOf after (storePages pages plan.writes) ∧
      meaning after (storePages pages plan.writes) =
        given.foldl (operate kind) (meaning dir pages) := by
  have replacing := writing.planned.replacing mutated
  unfold applyPlan at updated
  rw [writing.writes] at updated ⊢
  have applied := apply_returns stored.total updated
  exact ⟨replacing.stored_after stored applied,
    (replacing.meaning_after stored applied).trans mutated.stands⟩

theorem Writing.publishes (granted : ∀ update id, memory update id = true)
    (newer : dir.sequence < revision) (notOlder : dir.commandSequence ≤ sequence) :
    ∃ after, applyPlan memory dir plan revision sequence stamps = .ok after := by
  have planned := writing.planned
  have replacing := planned.replacing mutated
  have kept : plan.root = { start.root with groupCount := plan.root.groupCount } :=
    congrArg HashGroupMutationPlan.root planned.kept
  have incarnation : start.root.incarnation = dir.root.incarnation := by rw [writing.root]
  have counted : plan.root.groupCount.toNat + (scratch.changed.entries.map Prod.fst).length =
      dir.root.groupCount.toNat + ((scratch.changed.entries.map Prod.fst).map fun id =>
        (replacementsOf digestOf dir.root.seed targetBytes scratch.groups id).length).sum := by
    rw [length_map, planned.counted, writing.root, map_map]
    rfl
  obtain ⟨identified, -, routed, -, -⟩ := GroupedHashRoot.valid_iff.mp stored.valid
  -- every changed group has a leaf, so the groups do not get fewer
  have groups : plan.root.groupCount ≠ 0 := by
    have leaves : (scratch.changed.entries.map Prod.fst).length ≤
        ((scratch.changed.entries.map Prod.fst).map fun id =>
          (replacementsOf digestOf dir.root.seed targetBytes scratch.groups id).length).sum := by
      rw [← length_map (f := fun id => (replacementsOf digestOf dir.root.seed
        targetBytes scratch.groups id).length)]
      apply length_le_sum_of_one_le
      intro length listed
      obtain ⟨id, mem, rfl⟩ := mem_map.mp listed
      exact length_pos_of_ne_nil (replacing.leaves id mem).nonempty
    have pos : dir.root.groupCount.toNat ≠ 0 := fun zero => routed (UInt32.toNat_inj.mp zero)
    intro zero
    rw [zero] at counted
    have none : (0 : UInt32).toNat = 0 := rfl
    omega
  have valid : GroupedHashRoot.valid { plan.root with revision } = true := by
    refine GroupedHashRoot.valid_iff.mpr ⟨?_, Nat.ne_zero_of_lt newer, groups, ?_⟩
    · rw [kept]
      exact incarnation ▸ identified
    · rw [kept]
      exact writing.bounded
  unfold applyPlan
  rw [writing.writes]
  exact replacing.publishes stored granted valid (by rw [kept]; exact incarnation)
    (by rw [kept, writing.root]) notOlder newer (fun none => writing.some (map_eq_nil_iff.mp none))
    (by rw [kept]; exact writing.fields) counted

end Writing

/-- A plan of current copies that is applied leaves a stored directory. -/
theorem Stored.applyPlan (stored : Stored digestOf dir pages)
    (cur : ∀ loaded ∈ loadedGroups, loaded.snapshot.entries = pages loaded.snapshot.id)
    (ret : planHashGroupMutation digestOf dir loadedGroups kind fields values
      targetBytes = .ok plan) {revision sequence : Nat} {stamps : HashGroupId → RecordStamp}
    {after : HashGroupDirectory}
    (updated : applyPlan memory dir plan revision sequence stamps = .ok after) :
    Stored digestOf after (storePages pages plan.writes) := by
  obtain ⟨-, scratch, mutated, -, outcome⟩ := planHashGroupMutation_returns stored cur ret
  obtain ⟨guards, -⟩ := refuseIf_bind.mp updated
  have some : plan.writes ≠ [] := by
    intro none
    simp [none] at guards
  cases outcome with
  | unchanged _ idle | deleted _ idle => exact (some idle).elim
  | written start _ writing => exact (writing.refines stored mutated updated).1

/-- A planned mutation refines the plain hash. For every stored directory, every kind of command and
all of its fields and values, a plan that succeeds counts the different fields that are added or
removed; it is unchanged only if the hash is; it deletes the key exactly when no field is left; and
otherwise its root and writes make an update that the directory accepts at any later revision, and
the directory and pages after it stand for the hash after the command. -/
theorem plan_refines_plain_hash (stored : Stored digestOf dir pages)
    {loadedGroups : List LoadedHashGroup}
    (current : ∀ loaded ∈ loadedGroups, loaded.snapshot.entries = pages loaded.snapshot.id)
    {fields values : List (List UInt8)} {targetBytes : Nat} {plan : HashGroupMutationPlan}
    (returned : planHashGroupMutation digestOf dir loadedGroups kind fields values
      targetBytes = .ok plan) :
    plan.affectedFields = countOf kind (meaning dir pages) fields ∧ (plan.changed = false →
        plainResult kind (meaning dir pages) fields values = meaning dir pages) ∧
      (plan.deleteKey = true ↔
        ∀ field, plainResult kind (meaning dir pages) fields values field = none) ∧
      (plan.changed = true → plan.deleteKey = false →
        ∀ memory : RoutingMemory, (∀ update id, memory update id = true) →
        ∀ revision sequence stamps, dir.sequence < revision → dir.commandSequence ≤ sequence →
          ∃ after, applyPlan memory dir plan revision sequence stamps = .ok after ∧
            Stored digestOf after (storePages pages plan.writes) ∧
            meaning after (storePages pages plan.writes) =
              plainResult kind (meaning dir pages) fields values) := by
  obtain ⟨named, scratch, mutated, affected, outcome⟩ :=
    planHashGroupMutation_returns stored current returned
  have counted : plan.affectedFields = countOf kind (meaning dir pages) fields := by
    rw [affected, mutated.affected, named]
  have result : plainResult kind (meaning dir pages) fields values =
      meaning dir (overlay pages scratch.groups) := mutated.stands.symm
  have empty : (∀ field, plainResult kind (meaning dir pages) fields values field = none) ↔
      pageTotal dir (overlay pages scratch.groups) = 0 := by
    rw [result]
    exact meaning_empty_iff
  refine ⟨counted, ?_⟩
  rw [empty]
  cases outcome with
  | unchanged flags _ none =>
    have same : overlay pages scratch.groups = pages := by
      funext id
      apply mutated.unchanged
      rw [OrderedMap.get_eq_none, none]
      intro entry held
      cases held
    refine ⟨fun _ => by rw [result, same], ?_, fun changed => ?_⟩
    · rw [flags.2, same, stored.pageTotal_eq]
      obtain ⟨-, -, -, filled, -⟩ := GroupedHashRoot.valid_iff.mp stored.valid
      constructor
      · intro impossible
        cases impossible
      · intro zero
        exact (filled (UInt64.toNat_inj.mp zero)).elim
    · rw [flags.1] at changed
      cases changed
  | deleted flags _ none =>
    refine ⟨fun unchanged => ?_, ?_, fun _ kept => ?_⟩
    · rw [flags.1] at unchanged
      cases unchanged
    · exact ⟨fun _ => none, fun _ => flags.2⟩
    · rw [flags.2] at kept
      cases kept
  | written start flags writing =>
    refine ⟨fun unchanged => ?_, ?_, ?_⟩
    · rw [flags.1] at unchanged
      cases unchanged
    · rw [flags.2, ← writing.fields]
      constructor
      · intro impossible
        cases impossible
      · intro zero
        exact (writing.bounded.1 (UInt64.toNat_inj.mp zero)).elim
    · intro _ _ memory granted revision sequence stamps newer notOlder
      obtain ⟨after, updated⟩ := writing.publishes stored mutated granted newer notOlder
      exact ⟨after, updated, writing.refines stored mutated updated⟩

end Refinement

/-! ## A split of one half -/

def leadingDigest (_ : DigestSeed) (field : List UInt8) : UInt64 :=
  UInt64.ofNat (field.headD 0).toNat <<< 56

def halvesPages : Pages := fun id =>
  if id = ⟨0, 1⟩ then [⟨[0x01], [1]⟩] else [⟨[0x81], [2]⟩]

def loadedHalf : LoadedHashGroup where
  sequence := 1
  snapshot := { incarnation := 17, id := ⟨0, 1⟩, entries := [⟨[0x01], [1]⟩] }

def pagesMatch (dir : HashGroupDirectory) : Bool :=
  dir.retired.entries.isEmpty && dir.groups.entries.all fun route =>
    ((halvesPages route.2.id).map HashEntry.field).Nodup &&
      (halvesPages route.2.id).all (fun entry =>
        route.2.id.contains (leadingDigest dir.root.seed entry.field)) &&
      (halvesPages route.2.id).length = route.2.fieldCount.toNat

/-- Setting a second field of the lower half splits it, and the hash has the new field then. -/
theorem split_half_refines : ∃ dir plan after, Stored leadingDigest dir halvesPages ∧
    planHashGroupMutation leadingDigest dir [loadedHalf] .set [[0x41]] [[3]] 50 = .ok plan ∧
    plan.affectedFields = 1 ∧ plan.writes.length = 3 ∧
    applyPlan (fun _ _ => true) dir plan 2 1 (fun _ => ⟨1, 0, 0⟩) = .ok after ∧
    meaning after (storePages halvesPages plan.writes) [0x41] = some [3] := by
  have evaluated : ((recover (fun _ _ => true) halvesRoot 1 halves [] >>= fun dir =>
      planHashGroupMutation leadingDigest dir [loadedHalf] .set [[0x41]] [[3]] 50 >>=
        fun plan => .ok (dir, plan)).toOption.any fun both =>
          pagesMatch both.1 && both.1.sequence = 1 && both.1.commandSequence = 1 &&
            both.2.affectedFields = 1 && both.2.writes.length = 3 && both.2.changed &&
            !both.2.deleteKey) = true := by decide +kernel
  obtain ⟨⟨dir, plan⟩, both, facts⟩ := returns_of_any evaluated
  obtain ⟨recovered, recovery, continued⟩ := bind_returns.mp both
  obtain ⟨mutation, planning, same⟩ := bind_returns.mp continued
  cases same
  simp only [pagesMatch, Bool.and_eq_true, decide_eq_true_eq, List.isEmpty_iff, List.all_eq_true,
    Bool.not_eq_true'] at facts
  obtain ⟨⟨⟨⟨⟨⟨⟨none, routes⟩, first⟩, second⟩, affected⟩, length⟩, changed⟩, kept⟩ := facts
  obtain ⟨winners, result⟩ := recover_returns recovery
  have stored : Stored leadingDigest dir halvesPages :=
    ⟨result.header.1 ▸ result.valid, result.total,
      ⟨fun route held => (routes route held).1.1, fun route held => (routes route held).1.2⟩,
      fun route held => (routes route held).2,
      fun route held gone remembered => by rw [none] at remembered; cases remembered⟩
  have loaded : ∀ group ∈ [loadedHalf],
      group.snapshot.entries = halvesPages group.snapshot.id := by decide
  obtain ⟨-, -, -, publishes⟩ := plan_refines_plain_hash stored loaded planning
  obtain ⟨after, applied, -, stands⟩ := publishes changed kept (fun _ _ => true) (fun _ _ => rfl)
    2 1 (fun _ => ⟨1, 0, 0⟩) (by omega) (by omega)
  refine ⟨dir, plan, after, stored, planning, affected, length, applied, ?_⟩
  rw [stands]
  rfl

end Lavik.Storage
