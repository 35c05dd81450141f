import Lavik.Storage.GroupRouting
import Lavik.Storage.HashMutation
/-!
# What a split leaves

Splitting a group returns leaves whose ranges follow each other through the range of the group, and
whose entries are the entries of the group that belong to them. A group that is not split is its own
only leaf; every leaf of a split one is narrower than the group.
-/

namespace Lavik.Storage

open Base List HashGroupId HashEntry

namespace HashGroupId

def Within (inner outer : HashGroupId) : Prop :=
  outer.first ≤ inner.first ∧ inner.first + inner.width ≤ outer.first + outer.width

theorem Within.trans {inner middle outer : HashGroupId} (first : inner.Within middle)
    (second : middle.Within outer) : inner.Within outer := by
  unfold Within at *
  omega

def lower (id : HashGroupId) : HashGroupId := ⟨id.prefixWord, id.bits + 1⟩

def upper (id : HashGroupId) : HashGroupId := ⟨id.prefixWord ||| branchBit id, id.bits + 1⟩

section Halves

variable {id : HashGroupId} (valid : id.valid = true) (divisible : id.bits.toNat < 64)

include divisible

theorem toNat_bits_succ : (id.bits + 1).toNat = id.bits.toNat + 1 := by
  rw [UInt8.toNat_add, Nat.mod_eq_of_lt]
  · rfl
  · show id.bits.toNat + 1 < 256
    omega

theorem width_lower : id.lower.width = 2 ^ (64 - (id.bits.toNat + 1)) := by
  unfold width lower rangeWidth
  rw [toNat_bits_succ divisible]

theorem width_half : id.width = id.lower.width * 2 := by
  rw [width_lower divisible, ← Nat.pow_succ]
  unfold width rangeWidth
  congr 1
  omega

omit divisible in
theorem width_upper (id : HashGroupId) : id.upper.width = id.lower.width := rfl

include valid

theorem first_upper : id.upper.first = id.first + id.lower.width := by
  obtain ⟨bounded, aligned⟩ := valid_iff.mp valid
  rw [width_half divisible, width_lower divisible, ← Nat.pow_succ] at aligned
  rw [width_lower divisible]
  exact toNat_or_bit (by omega) aligned

theorem valid_halves : id.lower.valid = true ∧ id.upper.valid = true := by
  obtain ⟨bounded, aligned⟩ := valid_iff.mp valid
  have deeper : (id.bits + 1).toNat ≤ 64 := by
    rw [toNat_bits_succ divisible]
    omega
  rw [width_half divisible] at aligned
  have start := dvd_of_mul_right_dvd aligned
  rw [valid_iff, valid_iff, first_upper valid divisible, width_upper]
  exact ⟨⟨deeper, start⟩, deeper, Nat.dvd_add start dvd_rfl⟩

theorem within_halves : id.lower.Within id ∧ id.upper.Within id := by
  have half := width_half divisible
  have high := id.width_upper
  have start := first_upper valid divisible
  have same : id.lower.first = id.first := rfl
  unfold Within
  omega

theorem branchBit_eq_zero {hash : UInt64} (inside : id.contains hash = true) :
    (hash &&& branchBit id = 0 ↔ id.lower.contains hash = true) ∧
      (¬hash &&& branchBit id = 0 ↔ id.upper.contains hash = true) := by
  obtain ⟨bounded, aligned⟩ := valid_iff.mp valid
  rw [contains_iff valid] at inside
  obtain ⟨lower, upper⟩ := valid_halves valid divisible
  rw [contains_iff lower, contains_iff upper, first_upper valid divisible, width_upper]
  have half := width_half divisible
  have same : id.lower.first = id.first := rfl
  have decided : hash &&& branchBit id = 0 ↔ hash.toNat < id.first + id.lower.width := by
    unfold branchBit
    rw [and_bit_eq_zero hash (by omega), ← width_lower divisible]
    rw [half] at aligned inside
    exact div_even_iff id.lower.width_pos aligned inside.1 inside.2
  rw [decided]
  omega

end Halves

end HashGroupId

section Digest

variable {digestOf : DigestSeed → List UInt8 → UInt64} {seed : DigestSeed}
  {targetBytes : Nat}

variable (digestOf)

def entriesOf (seed : DigestSeed) (id : HashGroupId) (entries : List HashEntry) : List HashEntry :=
  entries.filter fun entry => id.contains (digestOf seed entry.field)

/-- What a split returns: encodable groups with the entries of their ranges, which follow each
other through the range of the group. -/
structure Leaves (seed : DigestSeed) (group : HashGroupSnapshot) (leaves : List HashGroupSnapshot) :
    Prop where
  incarnation : ∀ leaf ∈ leaves, leaf.incarnation = group.incarnation
  active : ∀ leaf ∈ leaves, leaf.retired = false
  valid : ∀ leaf ∈ leaves, leaf.id.valid = true
  bounded : ∀ leaf ∈ leaves, leaf.entries.length ≤ maxU32
  within : ∀ leaf ∈ leaves, leaf.id.Within group.id
  contents : ∀ leaf ∈ leaves, leaf.entries = entriesOf digestOf seed leaf.id group.entries
  ordered : leaves.Pairwise fun left right => left.id.first + left.id.width ≤ right.id.first
  covered : ∀ hash, group.id.contains hash = true → ∃ leaf ∈ leaves, leaf.id.contains hash = true
  widths : (leaves.map fun leaf => leaf.id.width).sum = group.id.width
  counts : (leaves.map fun leaf => leaf.entries.length).sum = group.entries.length
  narrower : leaves = [group] ∨ 1 < leaves.length ∧ ∀ leaf ∈ leaves, leaf.id.width < group.id.width

structure Splittable (seed : DigestSeed) (group : HashGroupSnapshot) : Prop where
  valid : group.id.valid = true
  active : group.retired = false
  belongs : ∀ entry ∈ group.entries, group.id.contains (digestOf seed entry.field) = true

/-- One half of the range of a group, with the entries of it. -/
structure HalfOf (seed : DigestSeed) (group half : HashGroupSnapshot) : Prop where
  valid : half.id.valid = true
  active : half.retired = false
  within : half.id.Within group.id
  width : group.id.width = half.id.width * 2
  entries : half.entries = entriesOf digestOf seed half.id group.entries

variable {digestOf}

variable {entries : List HashEntry} {bytes depth : Nat} {id : HashGroupId}
  {fields : List (List UInt8)} {done : Unit}

theorem payloadBytes_returns (ret : payloadBytes entries = .ok bytes) :
    entries.length ≤ maxU32 := by
  exact not_lt.mp (refuseIf_bind.mp ret).1

variable {group half : HashGroupSnapshot} {leaves : List HashGroupSnapshot}

section

variable (splittable : Splittable digestOf seed group)

include splittable

theorem keepLeaf_leaves (ret : keepLeaf group = .ok leaves) :
    Leaves digestOf seed group leaves := by
  obtain ⟨bytes, encoded, stored⟩ := bind_returns.mp ret
  cases stored
  have own : group.entries = entriesOf digestOf seed group.id group.entries :=
    (filter_eq_self.mpr splittable.belongs).symm
  constructor
  case incarnation => simp
  case active => simpa using splittable.active
  case valid => simpa using splittable.valid
  case bounded => simpa using payloadBytes_returns encoded
  case within => simp [HashGroupId.Within]
  case contents => simpa using own
  case ordered => simp
  case covered => simp
  case widths => simp
  case counts => simp
  case narrower => exact .inl rfl

theorem Splittable.halves (divisible : group.id.bits.toNat < 64) :
    HalfOf digestOf seed group (leftHalf digestOf seed group) ∧
      HalfOf digestOf seed group (rightHalf digestOf seed group) := by
  obtain ⟨lowerValid, upperValid⟩ := valid_halves splittable.valid divisible
  obtain ⟨lowerWithin, upperWithin⟩ := within_halves splittable.valid divisible
  have half := width_half divisible
  have sides := fun entry held =>
    branchBit_eq_zero splittable.valid divisible (splittable.belongs entry held)
  refine ⟨⟨lowerValid, rfl, lowerWithin, half, ?_⟩, upperValid, rfl, upperWithin, half, ?_⟩
  · refine filter_congr fun entry held => ?_
    rw [Bool.eq_iff_iff, decide_eq_true_eq]
    exact (sides entry held).1
  · refine filter_congr fun entry held => ?_
    rw [Bool.eq_iff_iff, decide_eq_true_eq]
    exact (sides entry held).2

end

theorem HalfOf.splittable (part : HalfOf digestOf seed group half) :
    Splittable digestOf seed half := by
  refine ⟨part.valid, part.active, fun entry held => ?_⟩
  rw [part.entries] at held
  exact (mem_filter.mp held).2

theorem contains_of_within {inner outer : HashGroupId} (innerValid : inner.valid = true)
    (outerValid : outer.valid = true) (within : inner.Within outer) {hash : UInt64}
    (inside : inner.contains hash = true) : outer.contains hash = true := by
  rw [contains_iff innerValid] at inside
  rw [contains_iff outerValid]
  unfold HashGroupId.Within at within
  omega

theorem entriesOf_half {outer : HashGroupId} (idValid : id.valid = true)
    (outerValid : outer.valid = true) (within : id.Within outer) :
    entriesOf digestOf seed id (entriesOf digestOf seed outer entries) =
      entriesOf digestOf seed id entries := by
  unfold entriesOf
  rw [filter_filter]
  apply filter_congr
  intro entry held
  cases owned : id.contains (digestOf seed entry.field) with
  | false => rfl
  | true => simp [contains_of_within idValid outerValid within owned]

theorem Leaves.nonempty (split : Leaves digestOf seed group leaves) : leaves ≠ [] := by
  rintro rfl
  have pos := group.id.width_pos
  have total := split.widths
  simp at total
  omega

/-- The leaves of a half are leaves of the group. -/
theorem HalfOf.inherits (part : HalfOf digestOf seed group half)
    (split : Leaves digestOf seed half leaves) :
    (∀ leaf ∈ leaves, leaf.id.Within group.id) ∧
    (∀ leaf ∈ leaves, leaf.entries = entriesOf digestOf seed leaf.id group.entries) ∧
      ∀ leaf ∈ leaves, leaf.id.width < group.id.width := by
  refine ⟨fun leaf held => (split.within leaf held).trans part.within, fun leaf held => ?_,
    fun leaf held => ?_⟩
  · rw [split.contents leaf held, part.entries,
      entriesOf_half (split.valid leaf held) part.valid (split.within leaf held)]
  · have inner := split.within leaf held
    have pos := half.id.width_pos
    have width := part.width
    unfold HashGroupId.Within at inner
    omega

theorem Leaves.join {lower upper : List HashGroupSnapshot}
    (splittable : Splittable digestOf seed group) (divisible : group.id.bits.toNat < 64)
    (below : Leaves digestOf seed (leftHalf digestOf seed group) lower)
    (above : Leaves digestOf seed (rightHalf digestOf seed group) upper) :
    Leaves digestOf seed group (lower ++ upper) := by
  obtain ⟨left, right⟩ := splittable.halves divisible
  obtain ⟨lowerWithin, lowerEntries, lowerWidth⟩ := left.inherits below
  obtain ⟨upperWithin, upperEntries, upperWidth⟩ := right.inherits above
  constructor
  case incarnation => exact forall_mem_append.mpr ⟨below.incarnation, above.incarnation⟩
  case active => exact forall_mem_append.mpr ⟨below.active, above.active⟩
  case valid => exact forall_mem_append.mpr ⟨below.valid, above.valid⟩
  case bounded => exact forall_mem_append.mpr ⟨below.bounded, above.bounded⟩
  case within => exact forall_mem_append.mpr ⟨lowerWithin, upperWithin⟩
  case contents => exact forall_mem_append.mpr ⟨lowerEntries, upperEntries⟩
  case ordered =>
    rw [pairwise_append]
    refine ⟨below.ordered, above.ordered, fun low listed high held => ?_⟩
    have upperFirst : (rightHalf digestOf seed group).id.first = _ :=
      first_upper splittable.valid divisible
    have lowEnd : _ ≤ group.id.first + group.id.lower.width := (below.within low listed).2
    have highStart := (above.within high held).1
    omega
  case covered =>
    intro hash inside
    have halves := branchBit_eq_zero splittable.valid divisible inside
    by_cases low : hash &&& branchBit group.id = 0
    · obtain ⟨leaf, held, found⟩ := below.covered hash (halves.1.mp low)
      exact ⟨leaf, mem_append_left _ held, found⟩
    · obtain ⟨leaf, held, found⟩ := above.covered hash (halves.2.mp low)
      exact ⟨leaf, mem_append_right _ held, found⟩
  case widths =>
    have leftWidth := left.width
    have rightWidth := right.width
    rw [map_append, sum_append, below.widths, above.widths]
    omega
  case counts =>
    rw [map_append, sum_append, below.counts, above.counts]
    have split := length_eq_length_filter_add (l := group.entries)
      fun entry => decide (digestOf seed entry.field &&& branchBit group.id = 0)
    rw [split]
    simp [leftHalf, rightHalf]
  case narrower =>
    right
    refine ⟨?_, forall_mem_append.mpr ⟨lowerWidth, upperWidth⟩⟩
    have lowerSome := length_pos_of_ne_nil below.nonempty
    have upperSome := length_pos_of_ne_nil above.nonempty
    rw [length_append]
    omega

theorem splitPending_leaves (remaining : depth = 64 - group.id.bits.toNat)
    (splittable : Splittable digestOf seed group)
    (ret : splitPending digestOf seed targetBytes depth group = .ok leaves) :
    Leaves digestOf seed group leaves := by
  induction depth generalizing group leaves with
  | zero => exact keepLeaf_leaves splittable ret
  | succ depth ih =>
    unfold splitPending at ret
    split at ret
    · exact keepLeaf_leaves splittable ret
    have divisible : group.id.bits.toNat < 64 := by omega
    have bits := toNat_bits_succ divisible
    obtain ⟨lower, first, cont⟩ := bind_returns.mp ret
    obtain ⟨upper, second, stored⟩ := bind_returns.mp cont
    cases stored
    obtain ⟨left, right⟩ := splittable.halves divisible
    have deeper : depth = 64 - (group.id.bits + 1).toNat := by omega
    exact Leaves.join splittable divisible (ih deeper left.splittable first)
      (ih deeper right.splittable second)

theorem validateEntries_iff : validateEntries digestOf (some seed) id fields entries = .ok done ↔
    (entries.map field).Nodup ∧ (∀ entry ∈ entries, entry.field ∉ fields) ∧
      ∀ entry ∈ entries, id.contains (digestOf seed entry.field) = true := by
  induction entries generalizing fields with
  | nil => simp [validateEntries]
  | cons entry rest ih =>
    simp only [validateEntries, refuseIf_bind, ih, map_cons, nodup_cons, forall_mem_cons]
    grind

theorem validateFields_returns (ret : validateFields digestOf group (some seed) = .ok done) :
    group.incarnation ≠ 0 ∧ group.id.valid = true ∧ (group.entries.map field).Nodup ∧
      ∀ entry ∈ group.entries, group.id.contains (digestOf seed entry.field) = true := by
  obtain ⟨guards, cont⟩ := refuseIf_bind.mp ret
  obtain ⟨nodup, -, belong⟩ := validateEntries_iff.mp cont
  simp only [not_or, Bool.not_eq_false] at guards
  exact ⟨guards.1, guards.2.1, nodup, belong⟩

theorem splitHashGroup_returns (ret : splitHashGroup digestOf group seed targetBytes = .ok leaves) :
    (group.entries.map field).Nodup ∧ Splittable digestOf seed group ∧
      Leaves digestOf seed group leaves := by
  obtain ⟨guards, cont⟩ := refuseIf_bind.mp ret
  obtain ⟨done, validated, cont⟩ := bind_returns.mp cont
  obtain ⟨ok, -, split⟩ := bind_returns.mp cont
  obtain ⟨-, valid, nodup, belong⟩ := validateFields_returns validated
  have active : group.retired = false := by simpa using fun retired => guards (.inr retired)
  have splittable : Splittable digestOf seed group := ⟨valid, active, belong⟩
  exact ⟨nodup, splittable, splitPending_leaves rfl splittable split⟩

/-! ## Splits that succeed -/

def HashEntry.encodedBytes (entry : HashEntry) : Nat :=
  8 + entry.field.length + entry.value.length

/-- An entry that fits the payload of a group of its own. -/
def HashEntry.Fits (entry : HashEntry) : Prop :=
  entry.field.length ≤ maxStringBytes ∧ entry.value.length ≤ maxStringBytes ∧
    compactHeaderBytes + entry.encodedBytes ≤ hashGroupPayloadLimit

def compactBytes (entries : List HashEntry) : Nat :=
  (if entries = [] then 0 else compactHeaderBytes) + (entries.map encodedBytes).sum

theorem HashEntry.Fits.append {entry : HashEntry} (fits : entry.Fits)
    (room : bytes + entry.encodedBytes ≤ hashGroupPayloadLimit) :
    appendHashEntrySize bytes entry.field.length entry.value.length hashGroupPayloadLimit =
      .ok (bytes + entry.encodedBytes) := by
  obtain ⟨field, value, -⟩ := fits
  unfold encodedBytes at *
  refine refuseIf_bind.mpr ⟨?_, by rw [Nat.add_assoc, Nat.add_assoc, Nat.add_assoc]⟩
  omega

theorem payloadBytes_of_fits (fits : ∀ entry ∈ entries, entry.Fits)
    (room : compactBytes entries ≤ hashGroupPayloadLimit) :
    payloadBytes entries = .ok (compactBytes entries) := by
  refine refuseIf_bind.mpr ⟨?_, ?_⟩
  · have bound : hashGroupPayloadLimit ≤ maxU32 := by decide
    have ones := length_le_sum_of_one_le (entries.map encodedBytes) (by simp [encodedBytes]; omega)
    rw [length_map] at ones
    unfold compactBytes at room
    omega
  · unfold compactBytes at room ⊢
    generalize (if entries = [] then 0 else compactHeaderBytes) = bytes at room ⊢
    induction entries generalizing bytes with
    | nil => rfl
    | cons entry rest ih =>
      rw [map_cons, sum_cons, ← Nat.add_assoc] at room ⊢
      rw [foldlM_cons, (fits entry mem_cons_self).append (by omega)]
      exact ih (fun other held => fits other (mem_cons_of_mem _ held)) _ room

theorem checkEntries_succeeds (fits : ∀ entry ∈ entries, entry.Fits) :
    checkEntries entries = .ok () := by
  induction entries with
  | nil => rfl
  | cons entry rest ih =>
    obtain ⟨single, others⟩ := forall_mem_cons.mp fits
    exact bind_returns.mpr ⟨(), bind_returns.mpr ⟨_, single.append single.2.2, rfl⟩, ih others⟩

/-- A leaf that is within the target, indivisible, or of one digest. -/
def HashGroupSnapshot.Final (leaf : HashGroupSnapshot) (targetBytes : Nat) : Prop :=
  (∃ bytes, payloadBytes leaf.entries = .ok bytes ∧ bytes ≤ targetBytes) ∨
    leaf.entries.length ≤ 1 ∨ leaf.id.bits = 64

/-- The fields of one digest do not fit one record. -/
def Collides (digestOf : DigestSeed → List UInt8 → UInt64) (seed : DigestSeed)
    (group : HashGroupSnapshot) : Prop :=
  ∃ id : HashGroupId, id.bits = 64 ∧ id.valid = true ∧ id.Within group.id ∧
    hashGroupPayloadLimit < compactBytes (entriesOf digestOf seed id group.entries)

theorem HalfOf.collides (part : HalfOf digestOf seed group half)
    (collides : Collides digestOf seed half) : Collides digestOf seed group := by
  obtain ⟨id, bits, valid, inside, large⟩ := collides
  rw [part.entries, entriesOf_half valid part.valid inside] at large
  exact ⟨id, bits, valid, inside.trans part.within, large⟩

theorem payloadBytes_short (fits : ∀ entry ∈ entries, entry.Fits) (short : entries.length ≤ 1) :
    ∃ bytes, payloadBytes entries = .ok bytes := by
  refine ⟨_, payloadBytes_of_fits fits ?_⟩
  match entries, short with
  | [], _ => exact Nat.zero_le _
  | [entry], _ => simpa [compactBytes] using (fits entry mem_cons_self).2.2

theorem keepLeaf_final (encoded : payloadBytes group.entries = .ok bytes)
    (final : group.Final targetBytes) : ∃ leaves, keepLeaf group = .ok leaves ∧
      (leaves.flatMap HashGroupSnapshot.entries).Perm group.entries ∧
      ∀ leaf ∈ leaves, leaf.Final targetBytes :=
  ⟨[group], bind_returns.mpr ⟨bytes, encoded, rfl⟩, by simp, by simpa using final⟩

theorem splitPending_succeeds (remaining : depth = 64 - group.id.bits.toNat)
    (splittable : Splittable digestOf seed group) (fits : ∀ entry ∈ group.entries, entry.Fits) :
    (∃ leaves, splitPending digestOf seed targetBytes depth group = .ok leaves ∧
        (leaves.flatMap HashGroupSnapshot.entries).Perm group.entries ∧
        ∀ leaf ∈ leaves, leaf.Final targetBytes) ∨
      ∃ status, splitPending digestOf seed targetBytes depth group = .error status ∧
        Collides digestOf seed group := by
  induction depth generalizing group with
  | zero =>
    have bounded := (valid_iff.mp splittable.valid).1
    have full : group.id.bits = 64 := UInt8.toNat_inj.mp (by simp; omega)
    rcases encoded : payloadBytes group.entries with status | bytes
    · refine .inr ⟨status, bind_fails.mpr (.inl encoded), group.id, full, splittable.valid,
        ⟨le_refl _, le_refl _⟩, not_le.mp fun room => ?_⟩
      rw [entriesOf, filter_eq_self.mpr splittable.belongs] at room
      cases encoded.symm.trans (payloadBytes_of_fits fits room)
    · exact .inl (keepLeaf_final encoded (.inr (.inr full)))
  | succ depth ih =>
    unfold splitPending
    split
    · rename_i leaf
      rcases (Bool.or_eq_true _ _).mp leaf with small | short
      · obtain ⟨bytes, encoded, within⟩ := returns_of_any small
        exact .inl (keepLeaf_final encoded (.inl ⟨bytes, encoded, by simpa using within⟩))
      · obtain ⟨bytes, encoded⟩ := payloadBytes_short fits (by simpa using short)
        exact .inl (keepLeaf_final encoded (.inr (.inl (by simpa using short))))
    have divisible : group.id.bits.toNat < 64 := by omega
    have bits := toNat_bits_succ divisible
    have deeper : depth = 64 - (group.id.bits + 1).toNat := by omega
    obtain ⟨left, right⟩ := splittable.halves divisible
    rcases ih deeper left.splittable fun entry held => fits entry (mem_of_mem_filter held) with
      ⟨lower, first, lowerPerm, lowerFinal⟩ | ⟨status, failed, collides⟩
    · rcases ih deeper right.splittable fun entry held => fits entry (mem_of_mem_filter held) with
        ⟨upper, second, upperPerm, upperFinal⟩ | ⟨status, failed, collides⟩
      · refine .inl ⟨lower ++ upper, by rw [first, second]; rfl, ?_,
          forall_mem_append.mpr ⟨lowerFinal, upperFinal⟩⟩
        rw [flatMap_append]
        refine (lowerPerm.append upperPerm).trans ?_
        simpa [leftHalf, rightHalf] using filter_append_perm
          (fun entry => decide (digestOf seed entry.field &&& branchBit group.id = 0)) group.entries
      · exact .inr ⟨status, by rw [first, failed]; rfl, right.collides collides⟩
    · exact .inr ⟨status, by rw [failed]; rfl, left.collides collides⟩

/-- A live group of distinct fields in its range, each of which fits a record, is split into leaves
that share its range out among them and hold its entries, each leaf the ones of its range and none
of them worth splitting further. Only fields of one digest that do not fit one record stop it. -/
theorem split_is_lossless (digestOf : DigestSeed → List UInt8 → UInt64) (seed : DigestSeed)
    (group : HashGroupSnapshot) (targetBytes : Nat) (target : compactHeaderBytes ≤ targetBytes)
    (live : group.retired = false) (incarnation : group.incarnation ≠ 0)
    (valid : group.id.valid = true) (distinct : (group.entries.map field).Nodup)
    (belongs : ∀ entry ∈ group.entries, group.id.contains (digestOf seed entry.field) = true)
    (fits : ∀ entry ∈ group.entries, entry.Fits) :
    (∃ leaves, splitHashGroup digestOf group seed targetBytes = .ok leaves ∧
        (leaves.Pairwise fun left right => ∀ hash,
          left.id.contains hash = true → right.id.contains hash = false) ∧
        (∀ hash, group.id.contains hash = true ↔ ∃ leaf ∈ leaves, leaf.id.contains hash = true) ∧
        (leaves.flatMap HashGroupSnapshot.entries).Perm group.entries ∧
        (∀ leaf ∈ leaves, leaf.entries = entriesOf digestOf seed leaf.id group.entries ∧
          leaf.Final targetBytes)) ∨
      ∃ status, splitHashGroup digestOf group seed targetBytes = .error status ∧
        Collides digestOf seed group := by
  have splittable : Splittable digestOf seed group := ⟨valid, live, belongs⟩
  have validated : validateFields digestOf group (some seed) = .ok () :=
    refuseIf_bind.mpr ⟨by simp [incarnation, valid, live],
      validateEntries_iff.mpr ⟨distinct, by simp, belongs⟩⟩
  have begun : splitHashGroup digestOf group seed targetBytes =
      splitPending digestOf seed targetBytes (64 - group.id.bits.toNat) group := by
    rw [splitHashGroup, refuseIf, if_neg (by simp [live, target]), validated,
      checkEntries_succeeds fits]
    rfl
  rw [begun]
  rcases splitPending_succeeds rfl splittable fits with ⟨leaves, split, perm, final⟩ | failed
  · have shape := splitPending_leaves rfl splittable split
    refine .inl ⟨leaves, split, shape.ordered.imp_of_mem ?_,
      fun hash => ⟨shape.covered hash, ?_⟩, perm,
      fun leaf held => ⟨shape.contents leaf held, final leaf held⟩⟩
    · intro left right leftHeld rightHeld order hash inside
      rw [contains_iff (shape.valid left leftHeld)] at inside
      rw [Bool.eq_false_iff, Ne, contains_iff (shape.valid right rightHeld)]
      omega
    · rintro ⟨leaf, held, inside⟩
      exact contains_of_within (shape.valid leaf held) valid (shape.within leaf held) inside
  · exact .inr failed

/-- Two fields in different halves, with room for one of them. -/
theorem split_is_lossless_halves :
    ∃ leaves, splitHashGroup (fun _ field => UInt64.ofNat (field.headD 0).toNat <<< 56)
        { incarnation := 1, entries := [⟨[0x01], [1]⟩, ⟨[0x81], [2]⟩] }
        (List.Vector.replicate 16 0) 42 = .ok leaves ∧
      (leaves.flatMap HashGroupSnapshot.entries).Perm [⟨[0x01], [1]⟩, ⟨[0x81], [2]⟩] := by
  have fits : ∀ entry ∈ [(⟨[0x01], [1]⟩ : HashEntry), ⟨[0x81], [2]⟩], entry.Fits := by
    simp [HashEntry.Fits, encodedBytes, maxStringBytes, compactHeaderBytes, hashGroupPayloadLimit]
  rcases split_is_lossless (fun _ field => UInt64.ofNat (field.headD 0).toNat <<< 56)
      (List.Vector.replicate 16 0) { incarnation := 1, entries := _ } 42 (by decide) rfl (by decide)
      (by decide) (by decide) (by decide) fits with ⟨leaves, split, -, -, perm, -⟩ | ⟨_, failed, -⟩
  · exact ⟨leaves, split, perm⟩
  · cases failed

end Digest

end Lavik.Storage
