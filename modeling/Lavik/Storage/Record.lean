import Mathlib.Data.Prod.Lex
/-!
# Records on a device

The newest record of a key wins: by mutation sequence, then, between two roots of a grouped
collection, by root revision, then by LSN. Sizes, value types and payloads are left out.
-/

namespace Lavik.Storage

def logicalStorageShards : Nat := 16384

abbrev Key := List UInt8

inductive RecordKind
  | value
  | tombstone
  | txCommit
deriving DecidableEq, Repr

structure GroupedRoot where
  revision : Nat
  incarnation : Nat
deriving DecidableEq, Repr

structure ExtentRef where
  blockId : Nat
  allocationEpoch : Nat
deriving DecidableEq, Repr

structure RecordLocation where
  blockId : Nat
  recordOffset : Nat
  allocationEpoch : Nat
  mutationSequence : Nat
  expireAtMs : Nat
  kind : RecordKind
  grouped : Bool := false
  external : Bool := false
  keyExternal : Bool := false
  shielding : Bool := false
  txTagged : Bool := false
deriving DecidableEq, Repr

/-- A value that is not out of date by the time a newer record may be dropped: it never expires,
or it expires after both the newer record's own deadline and the clock. -/
def outlives (expireAtMs deadline now : Nat) : Bool :=
  expireAtMs = 0 || decide (max deadline now < expireAtMs)

variable {now deadline expireAtMs : Nat}

theorem outlives_eq_false_iff :
    outlives expireAtMs deadline now = false ↔ expireAtMs ≠ 0 ∧ expireAtMs ≤ max deadline now := by
  simp only [outlives, Bool.or_eq_false_iff, decide_eq_false_iff_not]
  omega

theorem outlives_mono {later : Nat} (order : now ≤ later)
    (gone : outlives expireAtMs deadline now = false) :
    outlives expireAtMs deadline later = false := by
  rw [outlives_eq_false_iff] at gone ⊢
  omega

theorem outlives_trans {first second : Nat} (gone : outlives first second now = false)
    (next : outlives second deadline now = false) : outlives first deadline now = false := by
  rw [outlives_eq_false_iff] at gone next ⊢
  omega

end Lavik.Storage
