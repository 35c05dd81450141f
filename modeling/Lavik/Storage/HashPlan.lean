import Lavik.Storage.HashContents
import Lavik.Storage.HashPublication
/-!
# What a plan of a mutation holds

The scratch groups of a plan lie over the pages. Every field changes one scratch group, which is the
command on one field of the plain hash, and the groups that changed are split into leaves.
-/

namespace Lavik.Storage

open Base HashGroupDirectory List OrderedMap

section Plan

variable {digestOf : DigestSeed → List UInt8 → UInt64} {dir : HashGroupDirectory}
  {pages : Pages}

/-- A directory with its pages: the routes are total, every page fits its group and has as many
entries as its route counts, and no retired group lies inside the range of an active one. -/
structure Stored (digestOf : DigestSeed → List UInt8 → UInt64)
    (dir : HashGroupDirectory) (pages : Pages) : Prop where
  valid : dir.root.valid = true
  total : Total dir
  fit : PagesFit digestOf dir pages
  sized : ∀ route ∈ dir.groups.entries, (pages route.2.id).length = route.2.fieldCount.toNat
  fresh : ∀ route ∈ dir.groups.entries, ∀ gone ∈ dir.retired.entries, ¬gone.1.Within route.2.id

theorem Stored.pageTotal_eq (stored : Stored digestOf dir pages) :
    pageTotal dir pages = dir.root.fieldCount.toNat := by
  rw [← stored.total.counted]
  unfold pageTotal fieldTotal
  rw [map_congr_left stored.sized]

/-! ## Scratch groups -/

def overlay (pages : Pages) (groups : OrderedMap HashGroupId HashGroupSnapshot) : Pages :=
  fun id => ((groups.get id).map HashGroupSnapshot.entries).getD (pages id)

theorem overlay_set (groups : OrderedMap HashGroupId HashGroupSnapshot) (id : HashGroupId)
    (group : HashGroupSnapshot) :
    overlay pages (groups.set id group) = Function.update (overlay pages groups) id group.entries
    := by
  funext other
  unfold overlay
  rw [get_set]
  by_cases same : other = id
  · subst same
    simp
  · simp [same]

def Copies (dir : HashGroupDirectory)
    (groups : OrderedMap HashGroupId HashGroupSnapshot) : Prop :=
  ∀ id group, groups.get id = some group →
    group.id = id ∧ group.incarnation = dir.root.incarnation ∧ group.retired = false ∧
      ∃ route ∈ dir.groups.entries, route.2.id = id

variable {groups : OrderedMap HashGroupId HashGroupSnapshot}

theorem loadGroups_returns {loadedGroups : List LoadedHashGroup}
    (cur : ∀ loaded ∈ loadedGroups, loaded.snapshot.entries = pages loaded.snapshot.id)
    (ret : loadedGroups.foldlM (loadGroup digestOf dir) .empty = .ok groups) :
    Copies dir groups ∧ overlay pages groups = pages := by
  apply foldlM_invariant _ _ ret
  · refine ⟨fun id group found => ?_, rfl⟩
    cases get_eq_some.mp found
  · rintro gone loaded rest groups after whole ⟨copies, same⟩ step
    obtain ⟨guards, cont⟩ := refuseIf_bind.mp step
    obtain ⟨done, -, stored⟩ := bind_returns.mp cont
    cases stored
    simp only [not_or, Bool.not_eq_true, not_not, Bool.not_eq_false] at guards
    obtain ⟨active, incarnation, cur', -⟩ := guards
    obtain ⟨route, held, matching⟩ := (Option.any_eq_true _ _).mp cur'
    rw [decide_eq_true_eq] at matching
    constructor
    · intro id group found
      rw [get_set] at found
      split at found
      · next eq =>
        cases found
        exact ⟨eq.symm, incarnation, active, _, get_eq_some.mp held, matching.1.trans eq.symm⟩
      · exact copies id group found
    · rw [overlay_set, same, cur loaded (by simp [whole])]
      exact Function.update_eq_self _ _

/-! ## The loop over the fields -/

structure Mutated (digestOf : DigestSeed → List UInt8 → UInt64)
    (dir : HashGroupDirectory) (pages : Pages) (kind : HashGroupMutationKind)
    (operands : List (List UInt8 × List UInt8)) (scratch : Scratch) : Prop where
  copies : Copies dir scratch.groups
  fit : PagesFit digestOf dir (overlay pages scratch.groups)
  stands : meaning dir (overlay pages scratch.groups) =
    operands.foldl (operate kind) (meaning dir pages)
  unchanged : ∀ id, scratch.changed.get id = none → overlay pages scratch.groups id = pages id
  loaded : ∀ entry ∈ scratch.changed.entries, ∃ group, scratch.groups.get entry.1 = some group
  affected : scratch.affected = countOf kind (meaning dir pages) (operands.map Prod.fst)
  total : if kind = .delete
    then pageTotal dir (overlay pages scratch.groups) + scratch.affected = pageTotal dir pages
    else pageTotal dir (overlay pages scratch.groups) = pageTotal dir pages + scratch.affected

variable {operand : List UInt8 × List UInt8} {scratch after : Scratch}
  {kind : HashGroupMutationKind}

theorem mutateField_returns (ret : mutateField digestOf dir kind scratch operand = .ok after) :
    ∃ selected group, dir.find digestOf operand.1 = some selected ∧
      scratch.groups.get selected.id = some group ∧
      after = scratch.mutate kind operand.1 operand.2 selected.id group := by
  obtain ⟨-, cont⟩ := refuseIf_bind.mp ret
  split at cont
  · cases cont
  next selected found =>
  split at cont
  · cases cont
  · next group held =>
    cases cont
    exact ⟨selected, group, found, held, rfl⟩

theorem Total.find_eq_some (total : Total dir) {field : List UInt8}
    {group : RecoveredHashGroup} (found : dir.find digestOf field = some group) :
    (group.id.prefixWord, group) ∈ dir.groups.entries ∧
      group.id.contains (digestOf dir.root.seed field) = true := by
  unfold find findHash at found
  split at found
  · next start selected floored =>
    split at found
    · next inside =>
      cases found
      have held := (floor_eq_some floored).1
      have keyed : group.id.prefixWord = start := total.laid.keyed _ held
      rw [keyed]
      exact ⟨held, inside⟩
    · cases found
  · cases found

theorem Mutated.step (total : Total dir) {operands : List (List UInt8 × List UInt8)}
    (mutated : Mutated digestOf dir pages kind operands scratch)
    (ret : mutateField digestOf dir kind scratch operand = .ok after) :
    Mutated digestOf dir pages kind (operands ++ [operand]) after := by
  obtain ⟨selected, group, found, held, rfl⟩ := mutateField_returns ret
  obtain ⟨route, inside⟩ := Total.find_eq_some total found
  have page : overlay pages scratch.groups selected.id = group.entries := by
    unfold overlay
    rw [held]
    rfl
  have here : meaning dir (overlay pages scratch.groups) operand.1 =
      lookup group.entries operand.1 := by
    rw [← page]
    exact meaning_eq total mutated.fit route inside
  have nodup : (group.entries.map HashEntry.field).Nodup := by
    rw [← page]
    exact mutated.fit.distinct _ route
  have counting : Counts kind (operands.foldl (operate kind) (meaning dir pages)) operand.1 ↔
      Counts kind (lookup group.entries) operand.1 := by
    unfold Counts
    rw [← mutated.stands, here]
  unfold Scratch.mutate
  split
  · next unchanged =>
    obtain ⟨same, uncounted⟩ := mutateEntries_none unchanged
    refine ⟨mutated.copies, mutated.fit, ?_, mutated.unchanged, mutated.loaded, ?_, mutated.total⟩
    · rw [foldl_append, ← mutated.stands]
      exact (Function.update_eq_self_iff.mpr (here ▸ same)).symm
    · rw [countOf_append, if_neg (fun counts => uncounted (counting.mp counts)), mutated.affected,
        Nat.add_zero]
  · next entries counted changed =>
    have mutation := mutateEntries_some nodup changed
    rw [← page] at mutation
    have belongs : ∀ entry ∈ entries,
        selected.id.contains (digestOf dir.root.seed entry.field) = true := by
      intro entry listed
      rcases mutation.fields entry listed with own | before
      · rwa [own]
      · obtain ⟨other, mem, same⟩ := mem_map.mp before
        rw [← same]
        exact mutated.fit.belongs _ route other mem
    have fit := PagesFit.update mutated.fit mutation.distinct belongs
    have covers : overlay pages (scratch.groups.set selected.id { group with entries }) =
        Function.update (overlay pages scratch.groups) selected.id entries := overlay_set _ _ _
    have counts : Counts kind (operands.foldl (operate kind) (meaning dir pages)) operand.1 ↔
        counted = true := by
      rw [counting, ← page]
      exact mutation.counts.symm
    constructor
    case copies =>
      intro id copy found
      rw [get_set] at found
      split at found
      · next same =>
        cases found
        rw [same]
        exact mutated.copies selected.id group held
      · exact mutated.copies id copy found
    case fit =>
      rw [covers]
      exact fit
    case stands =>
      rw [covers, meaning_update total route mutated.fit inside mutation fit, mutated.stands,
        foldl_append]
      rfl
    case unchanged =>
      intro id absent
      rw [get_set] at absent
      split at absent
      · cases absent
      · next ne =>
        rw [covers, Function.update_of_ne ne]
        exact mutated.unchanged id absent
    case loaded =>
      intro entry listed
      rw [get_set]
      split
      · exact ⟨_, rfl⟩
      next ne =>
      rcases mem_set.mp listed with same | ⟨before, -⟩
      · exact (ne (congrArg Prod.fst same)).elim
      · exact mutated.loaded entry before
    case affected =>
      rw [countOf_append, ← mutated.affected]
      cases counted <;> simp [counts]
    case total =>
      have moved := @pageTotal_update dir (overlay pages scratch.groups) _ _ total route entries
      have before := mutated.total
      have length := mutation.length
      rw [covers]
      by_cases deleting : kind = .delete <;> cases counted <;>
        simp only [deleting, reduceIte, Bool.true_eq_false, Bool.false_eq_true] at before length ⊢
        <;> omega

/-! ## The writes of the changed groups -/

variable (digestOf)

def replacementsOf (seed : DigestSeed) (targetBytes : Nat)
    (groups : OrderedMap HashGroupId HashGroupSnapshot) (id : HashGroupId) :
    List HashGroupSnapshot :=
  match groups.get id with
  | none => []
  | some group => (splitHashGroup digestOf group seed targetBytes).toOption.getD []

def writesOf (incarnation : Nat) (id : HashGroupId) (replacements : List HashGroupSnapshot) :
    List HashGroupSnapshot :=
  if 1 < replacements.length then
    { incarnation, id, retired := true } :: replacements
  else replacements

structure Planned (seed : DigestSeed) (targetBytes : Nat)
    (groups : OrderedMap HashGroupId HashGroupSnapshot) (start : HashGroupMutationPlan)
    (ids : List (HashGroupId × Unit)) (plan : HashGroupMutationPlan) : Prop where
  split : ∀ id ∈ ids, ∃ group, groups.get id.1 = some group ∧
    Leaves digestOf seed group (replacementsOf digestOf seed targetBytes groups id.1)
  writes : plan.writes = ids.flatMap fun id => writesOf start.root.incarnation id.1
    (replacementsOf digestOf seed targetBytes groups id.1)
  counted : plan.root.groupCount.toNat + ids.length = start.root.groupCount.toNat +
    (ids.map fun id => (replacementsOf digestOf seed targetBytes groups id.1).length).sum
  kept : plan = { start with
    root := { start.root with groupCount := plan.root.groupCount }
    writes := plan.writes }

variable {digestOf}

theorem writeReplacements_returns {id : HashGroupId} {replacements : List HashGroupSnapshot}
    (some : replacements ≠ []) {plan after : HashGroupMutationPlan}
    (ret : writeReplacements id replacements plan = .ok after) :
    after.writes = plan.writes ++ writesOf plan.root.incarnation id replacements ∧
      after.root.groupCount.toNat + 1 = plan.root.groupCount.toNat + replacements.length ∧
      after = { plan with
        root := { plan.root with groupCount := after.root.groupCount }
        writes := after.writes } := by
  have pos := length_pos_of_ne_nil some
  unfold writeReplacements at ret
  unfold writesOf
  split at ret
  · next many =>
    obtain ⟨fits, stored⟩ := refuseIf_bind.mp ret
    cases stored
    rw [if_pos many]
    refine ⟨rfl, ?_, rfl⟩
    unfold maxU32 at fits
    have sum : (plan.root.groupCount + UInt32.ofNat (replacements.length - 1)).toNat =
        plan.root.groupCount.toNat + (replacements.length - 1) := by
      rw [UInt32.toNat_add, UInt32.toNat_ofNat', Nat.mod_eq_of_lt (a := replacements.length - 1)]
      · apply Nat.mod_eq_of_lt
        omega
      · omega
    dsimp only
    omega
  · next single =>
    cases ret
    rw [if_neg single]
    refine ⟨rfl, ?_, rfl⟩
    dsimp only
    omega

theorem Planned.step {targetBytes : Nat} {start plan after : HashGroupMutationPlan}
    {ids : List (HashGroupId × Unit)}
    (planned : Planned digestOf dir.root.seed targetBytes groups start ids plan)
    {id : HashGroupId × Unit} (loaded : ∃ group, groups.get id.1 = some group)
    (ret : planGroup digestOf dir groups targetBytes plan id = .ok after) :
    Planned digestOf dir.root.seed targetBytes groups start (ids ++ [id]) after := by
  obtain ⟨group, held⟩ := loaded
  unfold planGroup at ret
  simp only [held] at ret
  obtain ⟨replacements, splitting, writing⟩ := bind_returns.mp ret
  obtain ⟨-, -, leaves⟩ := splitHashGroup_returns splitting
  have same : replacementsOf digestOf dir.root.seed targetBytes groups id.1 =
      replacements := by
    simp only [replacementsOf, held, splitting]
    rfl
  obtain ⟨writes, counted, kept⟩ := writeReplacements_returns leaves.nonempty writing
  have incarnation : plan.root.incarnation = start.root.incarnation := by rw [planned.kept]
  constructor
  case split =>
    intro other mem
    rcases mem_append.mp mem with before | last
    · exact planned.split other before
    · rw [mem_singleton.mp last, same]
      exact ⟨group, held, leaves⟩
  case writes =>
    rw [writes, planned.writes, incarnation, flatMap_append]
    simp [same]
  case counted =>
    have before := planned.counted
    simp only [length_append, length_singleton, map_append, sum_append,
      map_cons, map_nil, sum_cons, sum_nil, same]
    omega
  case kept =>
    rw [kept, planned.kept]

end Plan

end Lavik.Storage
