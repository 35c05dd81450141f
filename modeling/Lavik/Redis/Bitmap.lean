import Mathlib.Data.Nat.Bitwise
import Lavik.Redis.RedisParse
/-!
# Bitmaps

BITCOUNT and BITPOS turn a range of bytes or bits, in which a negative end counts from the back,
into a range of bits and go through its bytes. The first and the last byte may be covered in part.
-/

namespace Lavik.Redis

open List

/-! ## Counting and searching -/

/-- The bit of a byte that is numbered from the most significant one. -/
def byteBit (byte : UInt8) (bit : Nat) : Bool := byte &&& 1 <<< UInt8.ofNat (7 - bit) ≠ 0

variable (value : Text)

def bitmapBit (offset : Nat) : Bool :=
  value[offset / 8]?.any (byteBit · (offset % 8))

def normalizeBitmapIndex (index length : Int) (clampHigh : Bool) : Int :=
  let index := if index < 0 then index + length else index
  if index < 0 then 0 else if clampHigh ∧ length ≤ index then length - 1 else index

/-- The first and the last bit, as both commands compute them from their arguments. -/
def bitmapRange (start finish : Int) (bitUnit : Bool) : Option (Nat × Nat) :=
  let length := if bitUnit then value.length * 8 else value.length
  let start := normalizeBitmapIndex start length false
  let finish := normalizeBitmapIndex finish length true
  if length = 0 ∨ finish < start then none
  else if bitUnit then some (start.toNat, finish.toNat)
  else some (start.toNat * 8, finish.toNat * 8 + 7)

def popcount (byte : UInt8) : Nat := (range 8).countP (byteBit byte)

def selectedByte (first last byte : Nat) (current : UInt8) : UInt8 :=
  let selected := if byte = first / 8 then current &&& 0xff >>> UInt8.ofNat (first % 8) else current
  if byte = last / 8 then selected &&& 0xff <<< UInt8.ofNat (7 - last % 8) else selected

/-- The loop over the bytes, which are given as how many there are from the first. -/
def countBytes (first last bytes : Nat) : Nat :=
  (range' (first / 8) bytes).foldl (fun count byte =>
    count + popcount (selectedByte first last byte (value.getD byte 0))) 0

def countBitmapBits (start finish : Int) (bitUnit : Bool) : Nat :=
  if start < 0 ∧ finish < 0 ∧ finish < start then 0
  else match bitmapRange value start finish bitUnit with
    | none => 0
    | some (first, last) => countBytes value first last (last / 8 + 1 - first / 8)

/-- The loop over the bits of a byte, which is skipped where the whole byte cannot match. -/
def findInByte (wanted : Bool) (current : UInt8) (start finish : Nat) : Option Nat :=
  if start = 0 ∧ finish = 7 ∧ current = (if wanted then 0 else 0xff) then none
  else (range' start (finish + 1 - start)).find? fun bit => byteBit current bit = wanted

def findInBytes (wanted : Bool) (first last bytes : Nat) : Option Nat :=
  (range' (first / 8) bytes).findSome? fun byte =>
    (findInByte wanted (value.getD byte 0) (if byte = first / 8 then first - byte * 8 else 0)
      (if byte = last / 8 then last - byte * 8 else 7)).map (byte * 8 + ·)

def findBitmapBit (wanted : Bool) (start finish : Int) (bitUnit endGiven : Bool) : Int :=
  match bitmapRange value start finish bitUnit with
  | none => -1
  | some (first, last) =>
    match findInBytes value wanted first last (last / 8 + 1 - first / 8) with
    | some index => index
    | none => if !wanted && !endGiven then value.length * 8 else -1

/-! ## What a range covers -/

def fromFront (index : Int) (length : Nat) : Nat :=
  (if index < 0 then index + length else index).toNat

/-- A bit is covered if it, or its byte, lies between the ends, where a negative end is counted from
the back and one before the value is its begin. -/
def Covered (start finish : Int) (bitUnit : Bool) (index : Nat) : Prop :=
  let length : Nat := if bitUnit then value.length * 8 else value.length
  let place : Nat := if bitUnit then index else index / 8
  fromFront start length ≤ place ∧ place ≤ fromFront finish length ∧ place < length

instance decidableCovered (value : Text) (start finish : Int) (bitUnit : Bool) (index : Nat) :
    Decidable (Covered value start finish bitUnit index) :=
  inferInstanceAs (Decidable (_ ∧ _ ∧ _))

variable {value : Text} {start finish : Int} {bitUnit : Bool} {first last index : Nat}

theorem normalizeBitmapIndex_eq (index : Int) {length : Nat} (some : 0 < length) :
    normalizeBitmapIndex index length false = fromFront index length ∧
      normalizeBitmapIndex index length true =
        if length ≤ fromFront index length then length - 1 else fromFront index length := by
  unfold normalizeBitmapIndex fromFront
  dsimp only
  generalize (if index < 0 then index + length else index) = place
  simp only [Bool.false_eq_true, false_and, true_and, if_false]
  constructor <;> split_ifs <;> omega

theorem bitmapRange_spec (value : Text) (start finish : Int) (bitUnit : Bool) :
    match bitmapRange value start finish bitUnit with
    | none => ∀ index, ¬Covered value start finish bitUnit index
    | some (first, last) => last < value.length * 8 ∧ first ≤ last ∧
        ∀ index, Covered value start finish bitUnit index ↔ first ≤ index ∧ index ≤ last := by
  unfold bitmapRange Covered
  generalize sized : (if bitUnit then value.length * 8 else value.length) = length
  rcases Nat.eq_zero_or_pos length with rfl | some
  · simp
  simp only [normalizeBitmapIndex_eq _ some]
  generalize fromFront start length = low, fromFront finish length = high
  by_cases reversed : high < low ∨ length ≤ low
  · rw [if_pos (by split <;> omega)]
    cases bitUnit <;> simp <;> omega
  · rw [if_neg (by split <;> omega)]
    cases bitUnit
    · simp only [Bool.false_eq_true, if_false] at sized ⊢
      split <;> exact ⟨by omega, by omega, fun index => by omega⟩
    · simp only [if_true] at sized ⊢
      split <;> exact ⟨by omega, by omega, fun index => by omega⟩

/-! ## Bits of a byte -/

variable {byte other : UInt8} {bit : Nat}

theorem byteBit_eq (byte : UInt8) (bit : Nat) :
    byteBit byte bit = byte.toNat.testBit (7 - bit) := by
  have power : ∀ place < 8, (1 <<< UInt8.ofNat place : UInt8).toNat = 2 ^ place := by decide
  have zero : (byte &&& 1 <<< UInt8.ofNat (7 - bit)).toNat = 0 ↔ _ := UInt8.toNat_inj (b := 0)
  rw [byteBit, ← Bool.decide_coe (Nat.testBit ..), decide_eq_decide, ne_eq, ← zero, UInt8.toNat_and,
    power _ (by omega), Nat.and_two_pow]
  cases byte.toNat.testBit (7 - bit) <;> simp

theorem byteBit_and : byteBit (byte &&& other) bit = (byteBit byte bit && byteBit other bit) := by
  rw [byteBit_eq, byteBit_eq, byteBit_eq, UInt8.toNat_and, Nat.testBit_and]

theorem byteBit_masks : ∀ from_ < 8, ∀ bit < 8,
    byteBit (0xff >>> UInt8.ofNat from_) bit = decide (from_ ≤ bit) ∧
      byteBit (0xff <<< UInt8.ofNat (7 - from_)) bit = decide (bit ≤ from_) := by
  decide

/-! ## The loops -/

theorem bitmapBit_byte {place : Nat} (inside : place < value.length) (small : bit < 8) :
    bitmapBit value (place * 8 + bit) = byteBit (value.getD place 0) bit := by
  rw [bitmapBit, show (place * 8 + bit) / 8 = place by omega, getElem?_eq_getElem inside,
    show (place * 8 + bit) % 8 = bit by omega, getD_eq_getElem _ _ inside]
  rfl

theorem countBytes_eq (bounded : last < value.length * 8) {bytes : Nat}
    (within : first / 8 + bytes ≤ last / 8 + 1) :
    countBytes value first last bytes = (range ((first / 8 + bytes) * 8)).countP fun index =>
      (first ≤ index ∧ index ≤ last) ∧ bitmapBit value index := by
  induction bytes with
  | zero =>
    symm
    rw [countBytes, range'_zero, foldl_nil, countP_eq_zero]
    simp only [mem_range, decide_eq_true_eq]
    omega
  | succ bytes ih =>
    rw [← Nat.add_assoc, Nat.add_mul _ 1, range_add, countP_append, ← ih (by omega), countP_map,
      countBytes, range'_1_concat, foldl_append]
    refine congrArg (countBytes value first last bytes + ·) (countP_congr fun bit small => ?_)
    rw [mem_range] at small
    have front := (byteBit_masks (first % 8) (by omega) bit small).1
    have back := (byteBit_masks (last % 8) (by omega) bit small).2
    simp only [Function.comp, bitmapBit_byte (by omega : first / 8 + bytes < value.length) small,
      selectedByte, apply_ite (byteBit · bit), byteBit_and, front, back]
    cases byteBit (value.getD (first / 8 + bytes) 0) bit
    · simp
    · split <;> split <;> simp <;> omega

/-- The first hit of a search through the numbers from `low` to before `high`. -/
def FindsFirst (low high : Nat) (hits : Nat → Prop) : Option Nat → Prop
  | none => ∀ index, low ≤ index → index < high → ¬hits index
  | some index => low ≤ index ∧ index < high ∧ hits index ∧
      ∀ earlier, low ≤ earlier → earlier < index → ¬hits earlier

theorem FindsFirst.append {low middle high : Nat} {hits : Nat → Prop} {left right : Option Nat}
    (front : FindsFirst low middle hits left) (back : FindsFirst middle high hits right)
    (above : low ≤ middle) (below : middle ≤ high) : FindsFirst low high hits (left.or right) := by
  cases left with
  | some index => exact ⟨front.1, by have := front.2.1; omega, front.2.2⟩
  | none =>
    have skipped : ∀ bound, (∀ index, middle ≤ index → index < bound → ¬hits index) →
        ∀ index, low ≤ index → index < bound → ¬hits index := by
      intro bound none index from_ within
      rcases Nat.lt_or_ge index middle with early | late
      · exact front index from_ early
      · exact none index late within
    cases right with
    | none => exact skipped high back
    | some index => exact ⟨by have := back.1; omega, back.2.1, back.2.2.1, skipped index back.2.2.2⟩

theorem findInByte_first {hits : Nat → Prop} {base low high : Nat} {current : UInt8} {wanted : Bool}
    (small : high < 8) (agree : ∀ bit < 8, hits (base + bit) ↔
      (low ≤ bit ∧ bit ≤ high) ∧ byteBit current bit = wanted) :
    FindsFirst base (base + 8) hits ((findInByte wanted current low high).map (base + ·)) := by
  have uniform : ∀ wanted, ∀ bit < 8, byteBit (if wanted then 0 else 0xff) bit ≠ wanted := by decide
  have misses : ∀ bound ≤ 8,
      (∀ bit < bound, low ≤ bit ∧ bit ≤ high → byteBit current bit ≠ wanted) →
      ∀ index, base ≤ index → index < base + bound → ¬hits index := by
    intro bound _ none index above below hit
    obtain ⟨bit, rfl⟩ := Nat.exists_eq_add_of_le above
    obtain ⟨inside, same⟩ := (agree bit (by omega)).mp hit
    exact none bit (by omega) inside same
  rw [findInByte]
  by_cases skipped : low = 0 ∧ high = 7 ∧ current = if wanted then 0 else 0xff
  · rw [if_pos skipped]
    exact misses 8 le_rfl fun bit inside _ => skipped.2.2 ▸ uniform wanted bit inside
  rw [if_neg skipped]
  cases found : (range' low (high + 1 - low)).find? fun bit => byteBit current bit = wanted with
  | none =>
    refine misses 8 le_rfl fun bit _ inside => ?_
    simpa using find?_range'_eq_none.mp found bit inside.1 (by omega)
  | some bit =>
    obtain ⟨hit, inside, first⟩ := find?_range'_eq_some.mp found
    rw [mem_range'_1] at inside
    refine ⟨Nat.le_add_right .., Nat.add_lt_add_left (by omega) _, (agree bit (by omega)).mpr
      ⟨by omega, of_decide_eq_true hit⟩, misses bit (by omega) fun earlier early inside => ?_⟩
    simpa using first earlier inside.1 early

theorem findInBytes_first (wanted : Bool) (bounded : last < value.length * 8) {bytes : Nat}
    (within : first / 8 + bytes ≤ last / 8 + 1) :
    FindsFirst (first / 8 * 8) ((first / 8 + bytes) * 8)
      (fun index => (first ≤ index ∧ index ≤ last) ∧ bitmapBit value index = wanted)
      (findInBytes value wanted first last bytes) := by
  induction bytes with
  | zero => exact fun index _ _ => by omega
  | succ bytes ih =>
    rw [findInBytes, range'_1_concat, findSome?_append, findSome?_singleton]
    refine (ih (by omega)).append ?_ (by omega) (by omega)
    rw [← Nat.add_assoc, Nat.add_mul _ 1]
    refine findInByte_first (by split <;> omega) fun bit small => ?_
    rw [bitmapBit_byte (by omega) small]
    exact and_congr_left fun _ => by split_ifs <;> omega

/-- BITCOUNT counts the set bits of its range, which is empty if both ends are counted from the back
and reversed. BITPOS finds the first bit of its range that it looks for. Without an end, a clear bit
is found behind the value. -/
theorem bitmap_queries_exact (value : Text) (start finish : Int) (bitUnit : Bool) :
    countBitmapBits value start finish bitUnit =
      (if start < 0 ∧ finish < 0 ∧ finish < start then 0 else (range (value.length * 8)).countP
        fun index => Covered value start finish bitUnit index ∧ bitmapBit value index) ∧
    ∀ wanted endGiven, let result := findBitmapBit value wanted start finish bitUnit endGiven
      let covered := Covered value start finish bitUnit
      (∀ index : Nat, covered index → bitmapBit value index = wanted →
        (∀ earlier < index, covered earlier → bitmapBit value earlier ≠ wanted) → result = index) ∧
      ((∀ index, covered index → bitmapBit value index ≠ wanted) →
        (wanted = false → endGiven = false → (∃ index, covered index) → result = value.length * 8) ∧
        (wanted = true ∨ endGiven = true ∨ (∀ index, ¬covered index) → result = -1)) := by
  have range := bitmapRange_spec value start finish bitUnit
  unfold countBitmapBits findBitmapBit
  cases given : bitmapRange value start finish bitUnit with
  | none =>
    simp only [given] at range
    simp [range]
  | some bounds =>
    simp only [given] at range
    obtain ⟨bounded, ordered, covered⟩ := range
    have whole : bounds.1 / 8 + (bounds.2 / 8 + 1 - bounds.1 / 8) = bounds.2 / 8 + 1 := by omega
    simp only [covered]
    constructor
    · split
      · rfl
      · -- no bit behind the last byte is covered
        obtain ⟨more, rest⟩ := Nat.exists_eq_add_of_le
          (by omega : (bounds.2 / 8 + 1) * 8 ≤ value.length * 8)
        rw [countBytes_eq bounded whole.le, whole, rest, range_add, countP_append, countP_map]
        symm
        refine Nat.add_eq_left.mpr (countP_eq_zero.mpr fun index _ => ?_)
        simp only [Function.comp_apply, decide_eq_true_eq]
        omega
    · intro wanted endGiven
      have search := findInBytes_first wanted bounded whole.le
      cases found : findInBytes value wanted bounds.1 bounds.2 _ with
      | none =>
        rw [found] at search
        have absent : ∀ index, bounds.1 ≤ index ∧ index ≤ bounds.2 →
            bitmapBit value index ≠ wanted :=
          fun index inside hit => search index (by omega) (by omega) ⟨inside, hit⟩
        refine ⟨fun index inside hit => (absent index inside hit).elim, fun _ => ⟨?_, ?_⟩⟩
        · rintro rfl rfl _
          rfl
        · rintro (rfl | rfl | none)
          · rfl
          · simp
          · exact (none bounds.1 ⟨le_rfl, ordered⟩).elim
      | some index =>
        rw [found] at search
        obtain ⟨-, -, ⟨inside, hit⟩, first⟩ := search
        refine ⟨fun other within again earliest => ?_, fun absent => (absent index inside hit).elim⟩
        rcases Nat.lt_trichotomy index other with early | rfl | late
        · exact (earliest index early inside hit).elim
        · rfl
        · exact (first other (by omega) late ⟨within, again⟩).elim

/-- No one range serves both commands at the ends -2 and -3 of one byte: the set bit that BITPOS
finds is not counted. -/
theorem reversed_ends_have_no_common_range : ¬ ∃ covered : Nat → Bool,
    countBitmapBits [0xff] (-2) (-3) false =
        (range 8).countP (fun index => covered index && bitmapBit [0xff] index) ∧
      ∀ index : Nat, findBitmapBit [0xff] true (-2) (-3) false true = index → covered index := by
  rintro ⟨covered, counted, found⟩
  have first : covered 0 = true := found 0 (by decide)
  have none : countBitmapBits [0xff] (-2) (-3) false = 0 := by decide
  have absent := countP_eq_zero.mp (counted.symm.trans none) 0 (by decide)
  rw [first] at absent
  exact absurd absent (by decide)

end Lavik.Redis
