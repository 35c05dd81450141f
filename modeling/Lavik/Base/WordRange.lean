import Mathlib.Algebra.Order.BigOperators.Group.Finset
import Mathlib.Data.Nat.Bitwise
import Mathlib.Order.Interval.Finset.Nat
/-!
# Aligned ranges of 64-bit words

A mask of high bits cuts the words into aligned ranges of one power of two. Masking rounds a word
down to the start of its range, and filling the low bits goes to the end of it. Ranges that do not
meet and whose widths add up to the whole space leave no word out.
-/

namespace Lavik.Base

open UInt64

instance uint64Order : LinearOrder UInt64 where
  le_refl := UInt64.le_refl
  le_trans := fun _ _ _ => UInt64.le_trans
  le_antisymm := fun _ _ => UInt64.le_antisymm
  le_total := UInt64.le_total
  lt_iff_le_not_ge := fun left right => by
    rw [lt_iff_toNat_lt, le_iff_toNat_le, le_iff_toNat_le]
    omega
  toDecidableLE := inferInstance

@[reducible] def uint8Order : LinearOrder UInt8 where
  le_refl := UInt8.le_refl
  le_trans := fun _ _ _ => UInt8.le_trans
  le_antisymm := fun _ _ => UInt8.le_antisymm
  le_total := UInt8.le_total
  lt_iff_le_not_ge := fun left right => by
    rw [UInt8.lt_iff_toNat_lt, UInt8.le_iff_toNat_le, UInt8.le_iff_toNat_le]
    omega
  toDecidableLE := inferInstance

variable (bits : Nat)

/-- The word with its `bits` highest bits set. -/
def highMask : UInt64 :=
  if bits = 0 then 0 else (0 - 1 : UInt64) <<< ofNat (64 - bits)

/-- The number of words that share their `bits` highest bits. -/
def rangeWidth : Nat := 2 ^ (64 - bits)

theorem rangeWidth_pos : 0 < rangeWidth bits := Nat.two_pow_pos _

theorem rangeWidth_dvd : rangeWidth bits ∣ size :=
  Nat.pow_dvd_pow 2 (Nat.sub_le 64 bits)

variable {bits : Nat}

theorem testBit_highMask (bounded : bits ≤ 64) (position : Nat) :
    (highMask bits).toNat.testBit position = decide (64 - bits ≤ position ∧ position < 64) := by
  unfold highMask
  split
  · next none => simp [none]
  next some =>
  have shift : (ofNat (64 - bits)).toNat % 64 = 64 - bits := by
    rw [toNat_ofNat']
    omega
  have ones : (0 - 1 : UInt64).toNat = 2 ^ 64 - 1 := rfl
  rw [UInt64.toNat_shiftLeft, shift, ones, Nat.testBit_mod_two_pow, Nat.shiftLeft_eq,
    Nat.testBit_mul_two_pow, Nat.testBit_two_pow_sub_one, ← Bool.decide_and, ← Bool.decide_and]
  apply decide_eq_decide.mpr
  omega

theorem toNat_not_highMask (bounded : bits ≤ 64) :
    (~~~highMask bits).toNat = rangeWidth bits - 1 := by
  apply Nat.eq_of_testBit_eq
  intro position
  have flipped : (~~~highMask bits).toNat.testBit position =
      (decide (position < 64) && !(highMask bits).toNat.testBit position) :=
    BitVec.getLsbD_not
  rw [flipped, testBit_highMask bounded, rangeWidth, Nat.testBit_two_pow_sub_one, ← decide_not,
    ← Bool.decide_and]
  apply decide_eq_decide.mpr
  omega

theorem toNat_and_highMask (word : UInt64) (bounded : bits ≤ 64) :
    (word &&& highMask bits).toNat = word.toNat / rangeWidth bits * rangeWidth bits := by
  apply Nat.eq_of_testBit_eq
  intro position
  rw [UInt64.toNat_and, Nat.testBit_and, testBit_highMask bounded, rangeWidth,
    Nat.testBit_mul_two_pow, Nat.testBit_div_two_pow]
  by_cases high : 64 - bits ≤ position
  · by_cases inside : position < 64
    · simp [high, inside]
    · have beyond : word.toNat.testBit position = false := by
        apply Nat.testBit_lt_two_pow
        exact lt_of_lt_of_le word.toNat_lt (Nat.pow_le_pow_right (by omega) (by omega))
      simp [high, beyond]
  · simp [high]

theorem and_not_highMask_eq_zero (word : UInt64) (bounded : bits ≤ 64) :
    word &&& ~~~highMask bits = 0 ↔ rangeWidth bits ∣ word.toNat := by
  rw [← UInt64.toNat_inj, UInt64.toNat_and, toNat_not_highMask bounded, rangeWidth,
    Nat.and_two_pow_sub_one_eq_mod, Nat.dvd_iff_mod_eq_zero]
  rfl

variable {word : UInt64} {value position : Nat}

theorem toNat_or_not_highMask (bounded : bits ≤ 64) (aligned : rangeWidth bits ∣ word.toNat) :
    (word ||| ~~~highMask bits).toNat = word.toNat + (rangeWidth bits - 1) := by
  obtain ⟨multiple, start⟩ := aligned
  rw [UInt64.toNat_or, toNat_not_highMask bounded, start, rangeWidth,
    Nat.two_pow_add_eq_or_of_lt (Nat.sub_one_lt (Nat.two_pow_pos _).ne')]

theorem range_bounded (aligned : rangeWidth bits ∣ word.toNat) :
    word.toNat + rangeWidth bits ≤ size := by
  obtain ⟨multiple, start⟩ := aligned
  obtain ⟨total, space⟩ := rangeWidth_dvd bits
  have inside := word.toNat_lt
  have size : size = 2 ^ 64 := rfl
  rw [← size, start, space] at inside
  have smaller : multiple < total := Nat.lt_of_mul_lt_mul_left inside
  rw [start, space, ← Nat.mul_succ]
  exact Nat.mul_le_mul_left _ smaller

theorem div_mul_eq_iff {start width : Nat} (pos : 0 < width) (aligned : width ∣ start) :
    value / width * width = start ↔ start ≤ value ∧ value < start + width := by
  obtain ⟨multiple, rfl⟩ := aligned
  rw [mul_comm width multiple, Nat.mul_left_inj pos.ne', Nat.div_eq_iff pos]
  constructor
  · rintro ⟨low, high⟩
    omega
  · rintro ⟨low, high⟩
    omega

/-! ## Halving a range -/

theorem toNat_one_shiftLeft (bounded : position < 64) :
    ((1 : UInt64) <<< UInt64.ofNat position).toNat = 2 ^ position := by
  have shift : (ofNat position).toNat % 64 = position := by
    rw [toNat_ofNat']
    omega
  rw [UInt64.toNat_shiftLeft, shift, Nat.shiftLeft_eq, Nat.mod_eq_of_lt]
  · exact Nat.one_mul _
  · show 1 * 2 ^ position < 2 ^ 64
    rw [Nat.one_mul]
    exact Nat.pow_lt_pow_right (by omega) bounded

theorem and_bit_eq_zero (word : UInt64) (bounded : position < 64) :
    word &&& 1 <<< UInt64.ofNat position = 0 ↔ word.toNat / 2 ^ position % 2 = 0 := by
  rw [← UInt64.toNat_inj, UInt64.toNat_and, toNat_one_shiftLeft bounded, Nat.and_two_pow,
    Nat.testBit_eq_decide_div_mod_eq]
  show _ = 0 ↔ _
  rcases Nat.mod_two_eq_zero_or_one (word.toNat / 2 ^ position) with even | odd
  · simp [even]
  · simp [odd]

theorem toNat_or_bit (bounded : position < 64) (aligned : 2 ^ (position + 1) ∣ word.toNat) :
    (word ||| 1 <<< UInt64.ofNat position).toNat = word.toNat + 2 ^ position := by
  obtain ⟨multiple, start⟩ := aligned
  rw [UInt64.toNat_or, toNat_one_shiftLeft bounded, start,
    Nat.two_pow_add_eq_or_of_lt (Nat.pow_lt_pow_right (by omega) (by omega))]

theorem div_even_iff {start half : Nat} (pos : 0 < half) (aligned : half * 2 ∣ start)
    (low : start ≤ value) (high : value < start + half * 2) :
    value / half % 2 = 0 ↔ value < start + half := by
  obtain ⟨multiple, rfl⟩ := aligned
  obtain ⟨rest, rfl⟩ := Nat.exists_eq_add_of_le low
  rw [Nat.mul_assoc, Nat.mul_add_div pos, Nat.mul_add_mod]
  by_cases lower : rest < half
  · simp [Nat.div_eq_of_lt lower, lower]
  · have once : rest / half = 1 := Nat.div_eq_of_lt_le (by omega) (by omega)
    simp [once, lower]

/-! ## Ranges that fill the space -/

section Cover

variable {Item : Type} {start width : Item → Nat} {total : Nat} {items : List Item}
  (inside : ∀ item ∈ items, start item + width item ≤ total)
  (apart : items.Pairwise fun left right =>
    start left + width left ≤ start right ∨ start right + width right ≤ start left)

include inside

theorem width_sum_le_above {low : Nat} (bounded : low ≤ total)
    (above : ∀ item ∈ items, low ≤ start item)
    (ordered : items.Pairwise fun left right => start left + width left ≤ start right) :
    (items.map width).sum + low ≤ total := by
  induction items generalizing low with
  | nil => simpa using bounded
  | cons item rest ih =>
    obtain ⟨follow, restOrdered⟩ := List.pairwise_cons.mp ordered
    obtain ⟨ends, restInside⟩ := List.forall_mem_cons.mp inside
    have own := above item List.mem_cons_self
    have remaining := ih restInside ends follow restOrdered
    rw [List.map_cons, List.sum_cons]
    omega

include apart

theorem exists_covered : ∃ covered ⊆ Finset.range total, covered.card = (items.map width).sum ∧
    ∀ value, value ∈ covered ↔
      ∃ item ∈ items, start item ≤ value ∧ value < start item + width item := by
  induction items with
  | nil => exact ⟨∅, by simp⟩
  | cons item rest covers =>
    obtain ⟨separate, restApart⟩ := List.pairwise_cons.mp apart
    obtain ⟨ends, restInside⟩ := List.forall_mem_cons.mp inside
    obtain ⟨covered, within, count, held⟩ := covers restInside restApart
    have disjoint : Disjoint (Finset.Ico (start item) (start item + width item)) covered := by
      rw [Finset.disjoint_left]
      intro value first second
      obtain ⟨other, mem, low, high⟩ := (held value).mp second
      rw [Finset.mem_Ico] at first
      rcases separate other mem with before | behind <;> omega
    refine ⟨Finset.Ico (start item) (start item + width item) ∪ covered, ?_, ?_, ?_⟩
    · refine Finset.union_subset (fun value mem => ?_) within
      rw [Finset.mem_Ico] at mem
      exact Finset.mem_range.mpr (mem.2.trans_le ends)
    · rw [Finset.card_union_of_disjoint disjoint, count, Nat.card_Ico]
      simp
    · intro value
      rw [Finset.mem_union, Finset.mem_Ico, held]
      simp

theorem width_sum_le : (items.map width).sum ≤ total := by
  obtain ⟨covered, within, count, -⟩ := exists_covered inside apart
  rw [← count, ← Finset.card_range total]
  exact Finset.card_le_card within

theorem covered_of_width_sum (full : (items.map width).sum = total) (bounded : value < total) :
    ∃ item ∈ items, start item ≤ value ∧ value < start item + width item := by
  obtain ⟨covered, within, count, held⟩ := exists_covered inside apart
  have everything : covered = Finset.range total := by
    apply Finset.eq_of_subset_of_card_le within
    rw [count, full, Finset.card_range]
  rw [← held, everything, Finset.mem_range]
  exact bounded

end Cover

end Lavik.Base
