import Mathlib.Data.List.Basic
import Mathlib.Tactic.Ring
/-!
# Little-endian fields

Fixed-width fields stored one after another in a list of bytes, least significant byte first, and
loads of a field by its offset. A load skips whole fields in front of it; what it reads of a
stored number is that number up to its width.
-/

namespace Lavik.Base

/-- The low bytes of a number, least significant first. -/
def leBytes : Nat → Nat → List UInt8
  | 0, _ => []
  | width + 1, value => UInt8.ofNat value :: leBytes width (value / 256)

/-- The number that bytes stand for, least significant first. -/
def leValue : List UInt8 → Nat
  | [] => 0
  | byte :: bytes => byte.toNat + 256 * leValue bytes

/-- The number in the field of a width at an offset. -/
def load (width offset : Nat) (input : List UInt8) : Nat :=
  leValue ((input.drop offset).take width)

/-- A field has its width. -/
@[simp]
theorem length_leBytes (width value : Nat) : (leBytes width value).length = width := by
  induction width generalizing value with
  | zero => rfl
  | succ width ih => simp [leBytes, ih]

/-- A stored number reads back up to its width. -/
theorem leValue_leBytes (width value : Nat) :
    leValue (leBytes width value) = value % 256 ^ width := by
  induction width generalizing value with
  | zero => simp [leBytes, leValue, Nat.mod_one]
  | succ width ih =>
    rw [leBytes, leValue, ih, UInt8.toNat_ofNat', pow_succ' 256 width, Nat.mod_mul]

/-- Zero bytes stand for zero. -/
theorem leValue_zeroes {bytes : List UInt8} (zeroes : ∀ byte ∈ bytes, byte = 0) :
    leValue bytes = 0 := by
  induction bytes with
  | nil => rfl
  | cons byte bytes ih =>
    rw [leValue, zeroes byte (by simp), ih fun other mem => zeroes other (by simp [mem])]
    rfl

/-- The field in front reads back. -/
theorem load_zero (width value : Nat) (rest : List UInt8) :
    load width 0 (leBytes width value ++ rest) = value % 256 ^ width := by
  have front : (leBytes width value ++ rest).take width = leBytes width value := by
    rw [List.take_append_of_le_length (by simp), List.take_of_length_le (by simp)]
  rw [load, List.drop_zero, front, leValue_leBytes]

/-- A load skips bytes in front of it. -/
theorem load_skip {front rest : List UInt8} {width offset : Nat} (behind : front.length ≤ offset) :
    load width offset (front ++ rest) = load width (offset - front.length) rest := by
  unfold load
  rw [List.drop_append, List.drop_eq_nil_of_le behind, List.nil_append]

/-- A load skips a field in front of it. -/
theorem load_leBytes {size value width offset : Nat} {rest : List UInt8} (behind : size ≤ offset) :
    load width offset (leBytes size value ++ rest) = load width (offset - size) rest := by
  rw [load_skip (by simpa using behind), length_leBytes]

end Lavik.Base
