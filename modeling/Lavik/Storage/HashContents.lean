import Lavik.Storage.HashSplit
/-!
# The plain hash behind the groups

A grouped hash stands for one finite map, the union of the pages of its active groups; a field is
looked up in the page it is routed to.
-/

namespace Lavik.Storage

open Base List Function OrderedMap

/-! ## Entries of one page -/

def lookup (entries : List HashEntry) (field : List UInt8) : Option (List UInt8) :=
  (entries.find? (·.field = field)).map HashEntry.value

abbrev PlainHash := List UInt8 → Option (List UInt8)

variable (kind : HashGroupMutationKind)

def operateValue (current : Option (List UInt8)) (value : List UInt8) : Option (List UInt8) :=
  match kind with
  | .set => some value
  | .setIfAbsent => some (current.getD value)
  | .delete => none

def operate (hash : PlainHash) (operand : List UInt8 × List UInt8) : PlainHash :=
  update hash operand.1 (operateValue kind (hash operand.1) operand.2)

def Counts (hash : PlainHash) (field : List UInt8) : Prop :=
  if kind = .delete then hash field ≠ none else hash field = none

instance (kind : HashGroupMutationKind) (hash : PlainHash) : DecidablePred (Counts kind hash) :=
  fun field => inferInstanceAs (Decidable (if kind = .delete then hash field ≠ none
    else hash field = none))

@[simp]
theorem lookup_nil (field : List UInt8) : lookup [] field = none := rfl

theorem lookup_cons (entry : HashEntry) (rest : List HashEntry) (field : List UInt8) :
    lookup (entry :: rest) field =
      if entry.field = field then some entry.value else lookup rest field := by
  unfold lookup
  by_cases same : entry.field = field
  · simp [same]
  · simp [same]

variable {entries : List HashEntry} {field : List UInt8}

theorem lookup_eq_none : lookup entries field = none ↔ field ∉ entries.map HashEntry.field := by
  induction entries with
  | nil => simp
  | cons entry rest ih =>
    rw [lookup_cons, map_cons, mem_cons, not_or, ← ih]
    by_cases same : entry.field = field
    · simp [same]
    · simp [same, Ne.symm same]

theorem lookup_append (entries : List HashEntry) (entry : HashEntry) (field : List UInt8) :
    lookup (entries ++ [entry]) field =
      (lookup entries field).or (if entry.field = field then some entry.value else none) := by
  induction entries with
  | nil => simp [lookup_cons]
  | cons first rest ih =>
    rw [cons_append, lookup_cons, lookup_cons, ih]
    split <;> simp

theorem lookup_eraseP (nodup : (entries.map HashEntry.field).Nodup) (erased field : List UInt8) :
    lookup (entries.eraseP (·.field = erased)) field =
      if field = erased then none else lookup entries field := by
  induction entries with
  | nil => simp
  | cons entry rest ih =>
    rw [map_cons, nodup_cons] at nodup
    by_cases found : entry.field = erased
    · rw [eraseP_cons_of_pos (by simpa using found), lookup_cons, found]
      split
      · next same =>
        rw [lookup_eq_none, same, ← found]
        exact nodup.1
      · next other => rw [if_neg (Ne.symm other)]
    · rw [eraseP_cons_of_neg (by simpa using found), lookup_cons, lookup_cons,
        ih nodup.2]
      by_cases same : field = erased
      · rw [if_pos same, if_pos same, if_neg (fun eq => found (eq.trans same))]
      · rw [if_neg same, if_neg same]

theorem map_field_assignValue (field value : List UInt8) (entries : List HashEntry) :
    (assignValue field value entries).map HashEntry.field = entries.map HashEntry.field := by
  induction entries with
  | nil => rfl
  | cons entry rest ih =>
    unfold assignValue
    split
    · rfl
    · rw [map_cons, map_cons, ih]

theorem lookup_assignValue {assigned : List UInt8} (held : assigned ∈ entries.map HashEntry.field)
    (value field : List UInt8) :
    lookup (assignValue assigned value entries) field =
      if field = assigned then some value else lookup entries field := by
  induction entries with
  | nil => simp at held
  | cons entry rest ih =>
    unfold assignValue
    by_cases found : entry.field = assigned
    · rw [if_pos found, lookup_cons, lookup_cons, found]
      by_cases same : field = assigned
      · simp [same]
      · rw [if_neg (Ne.symm same), if_neg same, if_neg (Ne.symm same)]
    · have inRest : assigned ∈ rest.map HashEntry.field := by
        rw [map_cons, mem_cons] at held
        exact held.resolve_left (Ne.symm found)
      rw [if_neg found, lookup_cons, lookup_cons, ih inRest]
      by_cases same : field = assigned
      · rw [if_pos same, if_pos same, if_neg (fun eq => found (eq.trans same))]
      · rw [if_neg same, if_neg same]

/-- What a mutation of the entries of a page does: the command on one field. -/
structure Mutation (field value : List UInt8) (entries after : List HashEntry) (counted : Bool) :
    Prop where
  lookup : Storage.lookup after = operate kind (Storage.lookup entries) (field, value)
  distinct : (after.map HashEntry.field).Nodup
  fields : ∀ entry ∈ after, entry.field = field ∨ entry.field ∈ entries.map HashEntry.field
  counts : counted = true ↔ Counts kind (Storage.lookup entries) field
  length : if counted = false then after.length = entries.length
    else if kind = .delete then after.length + 1 = entries.length
    else after.length = entries.length + 1

variable {kind : HashGroupMutationKind} {value : List UInt8}

theorem Mutation.append (setting : kind ≠ .delete) (distinct : (entries.map HashEntry.field).Nodup)
    (missing : Storage.lookup entries field = none) :
    Mutation kind field value entries (entries ++ [⟨field, value⟩]) true where
  lookup := by
    have set : operateValue kind (Storage.lookup entries field) value = some value := by
      cases kind with
      | set => rfl
      | setIfAbsent => rw [missing]; rfl
      | delete => exact (setting rfl).elim
    funext other
    rw [lookup_append, operate, set, update_apply]
    by_cases same : other = field
    · simp [same, missing]
    · simp [same, Ne.symm same]
  distinct := by
    rw [lookup_eq_none] at missing
    simpa [nodup_append, distinct] using missing
  fields := forall_mem_append.mpr
    ⟨fun _ before => .inr (mem_map_of_mem before), forall_mem_singleton.mpr (.inl rfl)⟩
  counts := by simp [Counts, setting, missing]
  length := by simp [setting]

theorem Mutation.assign (distinct : (entries.map HashEntry.field).Nodup)
    (held : Storage.lookup entries field ≠ none) :
    Mutation .set field value entries (assignValue field value entries) false where
  lookup := by
    rw [Ne, lookup_eq_none, not_not] at held
    funext other
    rw [lookup_assignValue held, operate, update_apply]
    rfl
  distinct := by rwa [map_field_assignValue]
  fields := by
    intro entry found
    right
    rw [← map_field_assignValue field value]
    exact mem_map_of_mem found
  counts := by simpa [Counts] using held
  length := by
    have fields := congrArg List.length (map_field_assignValue field value entries)
    simpa using fields

theorem Mutation.erase (distinct : (entries.map HashEntry.field).Nodup)
    (held : Storage.lookup entries field ≠ none) :
    Mutation .delete field value entries (entries.eraseP (·.field = field)) true where
  lookup := by
    funext other
    rw [lookup_eraseP distinct, operate, update_apply]
    rfl
  distinct := distinct.sublist (eraseP_sublist.map HashEntry.field)
  fields := by
    intro entry found
    exact .inr (mem_map_of_mem (mem_of_mem_eraseP found))
  counts := by simpa [Counts] using held
  length := by
    rw [Ne, lookup_eq_none, not_not] at held
    obtain ⟨entry, mem, same⟩ := mem_map.mp held
    have pos := length_pos_of_mem mem
    have erased := length_eraseP_of_mem (p := (·.field = field)) mem (by simpa using same)
    simp [erased]
    omega

theorem mutateEntries_none (unchanged : mutateEntries kind field value entries = none) :
    operateValue kind (lookup entries field) value = lookup entries field ∧
      ¬Counts kind (lookup entries) field := by
  unfold mutateEntries at unchanged
  have found : lookup entries field = (entries.find? (·.field = field)).map HashEntry.value := rfl
  split at unchanged
  · cases unchanged
  · next absent => simp [Counts, operateValue, found, absent]
  · cases unchanged
  · next entry present =>
    split at unchanged
    · cases unchanged
    · next same =>
      rw [not_not] at same
      simp [Counts, operateValue, found, present, same]
  · next entry present => simp [Counts, operateValue, found, present]

theorem mutateEntries_some {after : List HashEntry} {counted : Bool}
    (nodup : (entries.map HashEntry.field).Nodup)
    (changed : mutateEntries kind field value entries = some (after, counted)) :
    Mutation kind field value entries after counted := by
  unfold mutateEntries at changed
  have found : lookup entries field = (entries.find? (·.field = field)).map HashEntry.value := rfl
  split at changed
  · next entry present =>
    cases changed
    exact Mutation.erase nodup (by simp [found, present])
  · cases changed
  · next setting absent =>
    cases changed
    exact Mutation.append (fun eq => setting eq) nodup (by simp [found, absent])
  · next entry present =>
    split at changed
    · cases changed
      exact Mutation.assign nodup (by simp [found, present])
    · cases changed
  · cases changed

/-! ## The command on many fields -/

variable {hash : PlainHash}

theorem counts_operate {operand : List UInt8 × List UInt8} :
    Counts kind (operate kind hash operand) field ↔ Counts kind hash field ∧ field ≠ operand.1 := by
  unfold Counts operate operateValue
  cases kind <;> by_cases same : field = operand.1 <;> simp [same]

theorem counts_foldl {operands : List (List UInt8 × List UInt8)} :
    Counts kind (operands.foldl (operate kind) hash) field ↔
      Counts kind hash field ∧ field ∉ operands.map Prod.fst := by
  induction operands generalizing hash with
  | nil => simp
  | cons operand rest ih =>
    rw [foldl_cons, ih, counts_operate, map_cons, mem_cons, not_or, and_assoc]

def countOf (kind : HashGroupMutationKind) (hash : PlainHash) (fields : List (List UInt8)) : Nat :=
  (fields.toFinset.filter (Counts kind hash)).card

theorem countOf_append (operands : List (List UInt8 × List UInt8))
    (operand : List UInt8 × List UInt8) :
    countOf kind hash ((operands ++ [operand]).map Prod.fst) =
      countOf kind hash (operands.map Prod.fst) +
        if Counts kind (operands.foldl (operate kind) hash) operand.1 then 1 else 0 := by
  have joined : ((operands ++ [operand]).map Prod.fst).toFinset =
      insert operand.1 (operands.map Prod.fst).toFinset := by
    ext field
    simp
  unfold countOf
  rw [joined, Finset.filter_insert]
  by_cases counted : Counts kind hash operand.1
  · rw [if_pos counted]
    by_cases reached : operand.1 ∈ operands.map Prod.fst
    · have mem : operand.1 ∈ (operands.map Prod.fst).toFinset.filter (Counts kind hash) :=
        Finset.mem_filter.mpr ⟨mem_toFinset.mpr reached, counted⟩
      have again : ¬Counts kind (operands.foldl (operate kind) hash) operand.1 := fun counts =>
        (counts_foldl.mp counts).2 reached
      rw [Finset.insert_eq_of_mem mem, if_neg again, Nat.add_zero]
    · have fresh : operand.1 ∉ (operands.map Prod.fst).toFinset.filter (Counts kind hash) := by
        intro mem
        exact reached (mem_toFinset.mp (Finset.mem_filter.mp mem).1)
      rw [Finset.card_insert_of_notMem fresh, if_pos (counts_foldl.mpr ⟨counted, reached⟩)]
  · have never : ¬Counts kind (operands.foldl (operate kind) hash) operand.1 := fun counts =>
      counted (counts_foldl.mp counts).1
    rw [if_neg counted, if_neg never, Nat.add_zero]

/-! ## Pages of a directory -/

section Pages

variable (digestOf : DigestSeed → List UInt8 → UInt64)

abbrev Pages := HashGroupId → List HashEntry

variable (dir : HashGroupDirectory)

def contents (pages : Pages) : List HashEntry :=
  dir.groups.entries.flatMap fun route => pages route.2.id

def meaning (pages : Pages) : PlainHash :=
  lookup (contents dir pages)

def pageTotal (pages : Pages) : Nat :=
  (dir.groups.entries.map fun route => (pages route.2.id).length).sum

structure PagesFit (pages : Pages) : Prop where
  distinct : ∀ route ∈ dir.groups.entries, ((pages route.2.id).map HashEntry.field).Nodup
  belongs : ∀ route ∈ dir.groups.entries, ∀ entry ∈ pages route.2.id,
    route.2.id.contains (digestOf dir.root.seed entry.field) = true

variable {digestOf}

theorem findSome?_eq {Item Value : Type} {items : List Item} {search : Item → Option Value}
    {result : Option Value} (only : ∀ item ∈ items, search item = none ∨ search item = result)
    (reached : ∃ item ∈ items, search item = result) : items.findSome? search = result := by
  induction items with
  | nil => simp at reached
  | cons item rest ih =>
    rw [findSome?_cons]
    cases found : search item with
    | some value =>
      rcases only item (mem_cons_self ..) with none | same
      · rw [none] at found
        cases found
      · exact found.symm.trans same
    | none =>
      obtain ⟨other, mem, same⟩ := reached
      have restOnly := fun item held => only item (mem_cons_of_mem _ held)
      rcases mem_cons.mp mem with rfl | later
      · rw [found] at same
        subst same
        apply findSome?_eq_none_iff.mpr
        intro item held
        exact (restOnly item held).elim (fun none => none) (fun none => none)
      · exact ih restOnly ⟨other, later, same⟩

theorem meaning_eq {dir : HashGroupDirectory} {pages : Pages} (total : dir.Total)
    (fit : PagesFit digestOf dir pages) {start : UInt64} {group : RecoveredHashGroup}
    (held : (start, group) ∈ dir.groups.entries)
    (inside : group.id.contains (digestOf dir.root.seed field) = true) :
    meaning dir pages field = lookup (pages group.id) field := by
  obtain ⟨routed, -, -, unique⟩ := total.findHash (digestOf dir.root.seed field)
  have own : ∀ route ∈ dir.groups.entries,
      route.2.id.contains (digestOf dir.root.seed field) = true → route.2 = group := by
    intro route mem contained
    exact (unique route mem contained).trans (unique _ held inside).symm
  unfold meaning contents lookup
  rw [find?_flatMap]
  congr 1
  apply findSome?_eq
  · intro route mem
    by_cases same : route.2 = group
    · exact .inr (by rw [same])
    left
    rw [find?_eq_none]
    intro entry listed found
    rw [decide_eq_true_eq] at found
    have contained := fit.belongs route mem entry listed
    rw [found] at contained
    exact same (own route mem contained)
  · exact ⟨(start, group), held, rfl⟩

variable {groups : OrderedMap UInt64 RecoveredHashGroup} {right left : UInt64 × RecoveredHashGroup}

theorem HashGroupDirectory.Laid.route_unique (laid : HashGroupDirectory.Laid groups)
    (first : left ∈ groups.entries) (second : right ∈ groups.entries)
    (same : left.2.id = right.2.id) : left = right := by
  have start : left.1 = right.1 := by
    rw [← laid.keyed left first, ← laid.keyed right second, same]
  exact Prod.ext start (value_unique first (start ▸ second))

theorem HashGroupDirectory.Laid.apart_of_ne (laid : HashGroupDirectory.Laid groups)
    (first : left ∈ groups.entries) (second : right ∈ groups.entries)
    (ne : left.2.id ≠ right.2.id) : left.2.id.Apart right.2.id := by
  apply laid.apart left first right second
  intro same
  obtain ⟨start, group⟩ := left
  obtain ⟨otherStart, other⟩ := right
  cases same
  exact ne (congrArg RecoveredHashGroup.id (value_unique first second))

section Update

variable {dir : HashGroupDirectory} {pages : Pages} {start : UInt64}
  {group : RecoveredHashGroup} (total : dir.Total)
  (held : (start, group) ∈ dir.groups.entries) {after : List HashEntry}

theorem PagesFit.update (fit : PagesFit digestOf dir pages)
    (distinct : (after.map HashEntry.field).Nodup)
    (belongs : ∀ entry ∈ after, group.id.contains (digestOf dir.root.seed entry.field) = true) :
    PagesFit digestOf dir (update pages group.id after) where
  distinct := by
    intro route mem
    by_cases same : route.2.id = group.id
    · rwa [same, update_self]
    · rw [update_of_ne same]
      exact fit.distinct route mem
  belongs := by
    intro route mem
    by_cases same : route.2.id = group.id
    · rw [same, update_self]
      exact belongs
    · rw [update_of_ne same]
      exact fit.belongs route mem

include total held

theorem meaning_update (fit : PagesFit digestOf dir pages) {counted : Bool}
    (inside : group.id.contains (digestOf dir.root.seed field) = true)
    (mutation : Mutation kind field value (pages group.id) after counted)
    (updated : PagesFit digestOf dir (update pages group.id after)) :
    meaning dir (update pages group.id after) =
      operate kind (meaning dir pages) (field, value) := by
  have here : meaning dir pages field = lookup (pages group.id) field :=
    meaning_eq total fit held inside
  funext other
  obtain ⟨route, mem, contained⟩ := total.laid.covered total.filled (digestOf dir.root.seed other)
  have before := meaning_eq total fit mem contained
  have commanded : operate kind (meaning dir pages) (field, value) other =
      if other = field then operateValue kind (lookup (pages group.id) field) value
      else meaning dir pages other := by
    rw [operate, update_apply, here]
  rw [meaning_eq total updated mem contained, commanded]
  by_cases same : route.2.id = group.id
  · rw [same] at before
    rw [same, update_self, mutation.lookup, operate, update_apply, before]
  have ne : other ≠ field := by
    rintro rfl
    obtain ⟨_, _, _, unique⟩ := total.findHash (digestOf dir.root.seed other)
    exact same (congrArg RecoveredHashGroup.id
      ((unique route mem contained).trans (unique _ held inside).symm))
  rw [update_of_ne same, if_neg ne, before]

theorem pageTotal_update :
    pageTotal dir (update pages group.id after) + (pages group.id).length =
      pageTotal dir pages + after.length := by
  have found : dir.groups.get start = some group := get_eq_some.mpr held
  have others : ∀ route ∈ (dir.groups.erase start).entries,
      update pages group.id after route.2.id = pages route.2.id := by
    intro route mem
    obtain ⟨listed, ne⟩ := mem_erase.mp mem
    apply update_of_ne
    intro same
    have eq := total.laid.route_unique listed held same
    rw [eq] at ne
    exact ne rfl
  unfold pageTotal
  rw [sum_erase found, sum_erase found, update_self]
  rw [map_congr_left fun route mem => congrArg length (others route mem)]
  dsimp only
  omega

end Update

end Pages

end Lavik.Storage
