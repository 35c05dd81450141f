import Lavik.Base.Bytes
/-!
# Byte memories

A memory maps every address to a byte: a buffer, a block of a device, what is left of one after a
crash. Contents are compared on ranges of addresses, and what is read of a range depends on that
range only.
-/

namespace Lavik.Base

/-- Bytes by their address. -/
def Memory := Nat → UInt8

namespace Memory

variable {memory left middle right : Memory}

/-- The bytes from an address on. -/
def slice (memory : Memory) (start length : Nat) : List UInt8 :=
  (List.range length).map fun index => memory (start + index)

/-- Bytes are written at an address. -/
def store (memory : Memory) (start : Nat) (bytes : List UInt8) : Memory := fun address =>
  if start ≤ address then (bytes[address - start]?).getD (memory address) else memory address

/-- A range is taken from another memory. -/
def copy (memory source : Memory) (start stop : Nat) : Memory := fun address =>
  if start ≤ address ∧ address < stop then source address else memory address

/-- Two memories agree on a range. -/
def Agree (left right : Memory) (start stop : Nat) : Prop :=
  ∀ address, start ≤ address → address < stop → left address = right address

/-- A slice has the length asked for. -/
@[simp]
theorem length_slice (start length : Nat) : (memory.slice start length).length = length := by
  simp [slice]

/-- Two slices in a row make one. -/
theorem slice_add (memory : Memory) (start first second : Nat) :
    memory.slice start (first + second) =
    memory.slice start first ++ memory.slice (start + first) second := by
  simp [slice, List.range_add, Nat.add_assoc]

variable {start stop first last : Nat} {bytes : List UInt8} {source : Memory}

/-- Where memories agree, slices do. -/
theorem Agree.slice_eq {length : Nat} (agree : left.Agree right start stop)
    (lower : start ≤ first) (upper : first + length ≤ stop) :
    left.slice first length = right.slice first length := by
  apply List.map_congr_left
  intro index inside
  have bound := List.mem_range.mp inside
  exact agree _ (by omega) (by omega)

/-- Agreement on a range gives it on a smaller one. -/
theorem Agree.mono (agree : left.Agree right start stop) (lower : start ≤ first)
    (upper : last ≤ stop) : left.Agree right first last := by
  intro address above below
  exact agree address (by omega) (by omega)

/-- Agreement is transitive. -/
theorem Agree.trans (first : left.Agree middle start stop)
    (second : middle.Agree right start stop) : left.Agree right start stop := by
  intro address above below
  rw [first address above below, second address above below]

/-- Agreement is symmetric. -/
theorem Agree.symm (agree : left.Agree right start stop) : right.Agree left start stop := by
  intro address above below
  exact (agree address above below).symm

/-- Agreement on two ranges in a row. -/
theorem Agree.append {between : Nat} (first : left.Agree right start between)
    (second : left.Agree right between stop) : left.Agree right start stop := by
  intro address above below
  by_cases early : address < between
  · exact first address above early
  · exact second address (by omega) below

/-- What was stored reads back. -/
theorem slice_store (memory : Memory) (start : Nat) (bytes : List UInt8) :
    (memory.store start bytes).slice start bytes.length = bytes := by
  apply List.ext_getElem
  · simp
  · intro index _ inside
    simp [slice, store, inside]

/-- A store leaves the other addresses. -/
theorem store_outside {address : Nat} (apart : address < start ∨ start + bytes.length ≤ address) :
    memory.store start bytes address = memory address := by
  unfold store
  split
  · rw [List.getElem?_eq_none (by omega), Option.getD_none]
  · rfl

/-- A store leaves the ranges beside it. -/
theorem store_agree (apart : last ≤ start ∨ start + bytes.length ≤ first) :
    (memory.store start bytes).Agree memory first last := by
  intro address above below
  exact store_outside (by omega)

/-- The copied range is that of the source. -/
theorem copy_agree_source : (memory.copy source start stop).Agree source start stop := by
  intro address above below
  exact if_pos ⟨above, below⟩

/-- A copy leaves the ranges beside it. -/
theorem copy_agree (apart : last ≤ start ∨ stop ≤ first) :
    (memory.copy source start stop).Agree memory first last := by
  intro address above below
  exact if_neg (by omega)

/-- A copy keeps agreement with its source. -/
theorem copy_agree_of (agree : memory.Agree source first last) :
    (memory.copy source start stop).Agree source first last := by
  intro address above below
  unfold copy
  split
  · rfl
  · exact agree address above below

end Memory

end Lavik.Base
