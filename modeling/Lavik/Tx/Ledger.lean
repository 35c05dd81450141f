import Lavik.Tx.LockTable
/-!
# What the counters count

For every entry the intent counter of a mode is the number of registered acquisitions that name the
entry in that mode, and the hold counter is the number of those that own their holds.
-/

namespace Lavik.Tx

open Base List

/-- A lock set names an entry in a mode. -/
def KeySet.Names (keys : KeySet) (slot : Slot) (mode : LockMode) : Prop :=
  ∃ key ∈ keys.refs, key.slot = slot ∧ key.mode = mode

instance (keys : KeySet) (slot : Slot) (mode : LockMode) : Decidable (keys.Names slot mode) :=
  inferInstanceAs (Decidable (∃ key ∈ keys.refs, key.slot = slot ∧ key.mode = mode))

/-- References to distinct entries name an entry at most once. -/
theorem naming_le_one {refs : List KeyRef} (nodup : (refs.map KeyRef.slot).Nodup) (slot : Slot)
    (mode : LockMode) : naming refs slot mode ≤ 1 := by
  induction refs with
  | nil => simp
  | cons key rest ih =>
    simp only [map_cons, nodup_cons] at nodup
    rw [naming_cons]
    by_cases same : key.slot = slot ∧ key.mode = mode
    · have absent : slot ∉ rest.map KeyRef.slot := same.1 ▸ nodup.1
      have zero : naming rest slot mode = 0 := by
        refine countP_eq_zero.mpr fun key named => ?_
        simp only [decide_eq_true_eq, not_and]
        exact fun same => absurd (mem_map.mpr ⟨key, named, same⟩) absent
      rw [if_pos same]
      omega
    · rw [if_neg same]
      exact ih nodup.2

/-- A lock set counts one for what it names. -/
theorem KeySet.naming_eq (keys : KeySet) (slot : Slot) (mode : LockMode) :
    naming keys.refs slot mode = if keys.Names slot mode then 1 else 0 := by
  have bound := naming_le_one keys.distinct slot mode
  have pos : 0 < naming keys.refs slot mode ↔ keys.Names slot mode := by
    simp only [naming, countP_pos_iff, decide_eq_true_eq, KeySet.Names]
  split
  · rename_i named
    have := pos.mpr named
    omega
  · rename_i unnamed
    have := mt pos.mp unnamed
    omega

/-- Lock sets conflict at an entry both name, one of them exclusively. -/
theorem conflict_iff {left right : KeySet} : Conflict left.refs right.refs ↔
    ∃ slot mode other, left.Names slot mode ∧ right.Names slot other ∧
      (mode = .exclusive ∨ other = .exclusive) := by
  constructor
  · rintro ⟨slot, a, inLeft, b, inRight, atA, atB, modes⟩
    exact ⟨slot, a.mode, b.mode, ⟨a, inLeft, atA, rfl⟩, ⟨b, inRight, atB, rfl⟩, modes⟩
  · rintro ⟨slot, mode, other, ⟨a, inLeft, atA, rfl⟩, ⟨b, inRight, atB, rfl⟩, modes⟩
    exact ⟨slot, a, inLeft, b, inRight, atA, atB, modes⟩

section Ledger

variable {Waiter : Type} {locks after : Locks} {registered : List Waiter}
  {keys : Waiter → KeySet} {holding : Waiter → Bool}

/-- How many acquisitions name an entry in a mode. -/
def intentCount (registered : List Waiter) (keys : Waiter → KeySet) (slot : Slot)
    (mode : LockMode) : Nat :=
  registered.countP fun waiter => (keys waiter).Names slot mode

/-- How many acquisitions hold an entry in a mode. -/
def holdCount (registered : List Waiter) (keys : Waiter → KeySet) (holding : Waiter → Bool)
    (slot : Slot) (mode : LockMode) : Nat :=
  registered.countP fun waiter => holding waiter ∧ (keys waiter).Names slot mode

/-- The counters of the locks are the numbers of acquisitions. -/
structure Counted (locks : Locks) (registered : List Waiter) (keys : Waiter → KeySet)
    (holding : Waiter → Bool) : Prop where
  intents : ∀ slot mode, (locks.entry slot).intent mode = intentCount registered keys slot mode
  holds : ∀ slot mode, (locks.entry slot).held mode = holdCount registered keys holding slot mode
  sound : locks.Sound

/-- The intents of one more acquisition. -/
theorem intentCount_cons (waiter : Waiter) (rest : List Waiter) (slot : Slot) (mode : LockMode) :
    intentCount (waiter :: rest) keys slot mode =
      intentCount rest keys slot mode + naming (keys waiter).refs slot mode := by
  rw [KeySet.naming_eq]
  simp [intentCount, countP_cons]

/-- The holds of one more acquisition. -/
theorem holdCount_cons (waiter : Waiter) (rest : List Waiter) (slot : Slot) (mode : LockMode) :
    holdCount (waiter :: rest) keys holding slot mode = holdCount rest keys holding slot mode +
        if holding waiter then naming (keys waiter).refs slot mode else 0 := by
  rw [KeySet.naming_eq]
  cases owns : holding waiter <;> simp [holdCount, countP_cons, owns]

/-- The count is of the acquisitions in any order. -/
theorem Counted.congr {others : List Waiter} {otherKeys : Waiter → KeySet}
    {otherHolding : Waiter → Bool} (counted : Counted locks registered keys holding)
    (same : others.Perm registered) (sameKeys : ∀ waiter ∈ registered, otherKeys waiter = keys
    waiter) (sameHolding : ∀ waiter ∈ registered, otherHolding waiter = holding waiter) :
    Counted locks others otherKeys otherHolding where
  intents slot mode := by
    rw [counted.intents]
    unfold intentCount
    rw [same.countP_eq]
    exact countP_congr fun waiter mem => by simp [sameKeys waiter mem]
  holds slot mode := by
    rw [counted.holds]
    unfold holdCount
    rw [same.countP_eq]
    exact countP_congr fun waiter mem => by
      simp [sameKeys waiter mem, sameHolding waiter mem]
  sound := counted.sound

/-- What is held was announced. -/
theorem Counted.bounded (counted : Counted locks registered keys holding) (slot : Slot)
    (mode : LockMode) : (locks.entry slot).held mode ≤ (locks.entry slot).intent mode := by
  rw [counted.holds, counted.intents]
  refine countP_mono_left fun waiter _ owned => ?_
  simp only [decide_eq_true_eq] at owned ⊢
  exact owned.2

/-- Empty tables count no acquisitions. -/
theorem Counted.nil : Counted (fun _ => LockTable.empty) ([] : List Waiter) keys holding where
  intents slot mode := by cases mode <;> rfl
  holds slot mode := by cases mode <;> rfl
  sound := ⟨fun _ => rfl, fun _ => ⟨Nat.zero_le _, fun _ => rfl⟩⟩

variable {waiter : Waiter}

section

variable (counted : Counted locks registered keys holding)

include counted

/-- The intents of a registered acquisition are counted. -/
theorem Counted.naming_le_intent [DecidableEq Waiter] (mem : waiter ∈ registered) (slot : Slot)
    (mode : LockMode) : naming (keys waiter).refs slot mode ≤ (locks.entry slot).intent mode := by
  have split := (counted.congr (perm_cons_erase mem).symm (fun _ _ => rfl)
    (fun _ _ => rfl)).intents slot mode
  rw [intentCount_cons] at split
  omega

/-- The holds of an owner are counted. -/
theorem Counted.naming_le_held [DecidableEq Waiter] (mem : waiter ∈ registered)
    (owns : holding waiter = true) (slot : Slot) (mode : LockMode) :
    naming (keys waiter).refs slot mode ≤ (locks.entry slot).held mode := by
  have split := (counted.congr (perm_cons_erase mem).symm (fun _ _ => rfl)
    (fun _ _ => rfl)).holds slot mode
  rw [holdCount_cons, if_pos owns] at split
  omega

/-- Locks that admit a lock set have no conflicting acquisition. -/
theorem Counted.no_conflict_of_admits {wanted : KeySet}
    (admitted : ∀ key ∈ wanted.refs, (locks.entry key.slot).admits key.mode)
    (mem : waiter ∈ registered) : ¬ Conflict wanted.refs (keys waiter).refs := by
  rw [conflict_iff]
  rintro ⟨slot, mode, other, ⟨key, named, rfl, rfl⟩, otherNames, modes⟩
  have zero := IntentLock.admits_iff.mp (admitted key named) other modes
  rw [counted.intents] at zero
  have absent := countP_eq_zero.mp zero waiter mem
  simp only [decide_eq_true_eq] at absent
  exact absent otherNames

/-- All can be held exactly if no owner conflicts. -/
theorem Counted.canHoldAll_iff (wanted : KeySet) : locks.canHoldAll wanted.refs = true ↔
      ∀ waiter ∈ registered, holding waiter = true → ¬ Conflict wanted.refs (keys waiter).refs := by
  rw [Locks.canHoldAll_iff]
  constructor
  · intro free waiter mem owns
    rw [conflict_iff]
    rintro ⟨slot, mode, other, ⟨key, named, rfl, rfl⟩, otherNames, modes⟩
    have zero := IntentLock.canHold_iff.mp (free key named) other modes
    rw [counted.holds] at zero
    have absent := countP_eq_zero.mp zero waiter mem
    simp only [decide_eq_true_eq, not_and] at absent
    exact absent owns otherNames
  · intro free key named
    refine IntentLock.canHold_iff.mpr fun other modes => ?_
    rw [counted.holds]
    refine countP_eq_zero.mpr fun waiter mem => ?_
    simp only [decide_eq_true_eq, not_and]
    intro owns otherNames
    exact free waiter mem owns
      (conflict_iff.mpr ⟨key.slot, key.mode, other, ⟨key, named, rfl, rfl⟩, otherNames, modes⟩)

/-- Locks that moved nothing count the same. -/
theorem Counted.unmoved {refs : List KeyRef} (moved : locks.Moves after refs 0 0) :
    Counted after registered keys holding := by
  refine ⟨fun slot mode => ?_, fun slot mode => ?_, moved.sound⟩
  · have kept := moved.intent slot mode
    rw [← counted.intents]
    omega
  · have kept := moved.held slot mode
    rw [← counted.holds]
    omega

/-- A waiter takes its holds. -/
theorem Counted.take [DecidableEq Waiter] (nodup : registered.Nodup)
    (mem : waiter ∈ registered) (waits : holding waiter = false)
    (moved : locks.Moves after (keys waiter).refs 0 1) :
    Counted after registered keys (Function.update holding waiter true) := by
  have split := counted.congr (perm_cons_erase mem).symm (fun _ _ => rfl) (fun _ _ => rfl)
  suffices reordered : Counted after (waiter :: registered.erase waiter) keys
      (Function.update holding waiter true) from
    reordered.congr (perm_cons_erase mem) (fun _ _ => rfl) (fun _ _ => rfl)
  have others : ∀ slot mode, holdCount (registered.erase waiter) keys
      (Function.update holding waiter true) slot mode =
        holdCount (registered.erase waiter) keys holding slot mode := by
    intro slot mode
    refine countP_congr fun other later => ?_
    have apart : other ≠ waiter := by
      rintro rfl
      exact nodup.not_mem_erase later
    simp [apart]
  refine ⟨fun slot mode => ?_, fun slot mode => ?_, moved.sound⟩
  · have kept := moved.intent slot mode
    rw [← split.intents]
    omega
  · have taken := moved.held slot mode
    have counts := split.holds slot mode
    rw [holdCount_cons, waits] at counts
    rw [holdCount_cons, others, Function.update_self]
    simp only [Bool.false_eq_true, if_false, if_true] at counts ⊢
    omega

/-- An acquisition leaves with its intents and holds. -/
theorem Counted.retire [DecidableEq Waiter] (mem : waiter ∈ registered) {released : Int}
    (owned : released = if holding waiter then -1 else 0)
    (moved : locks.Moves after (keys waiter).refs (-1) released) :
    Counted after (registered.erase waiter) keys holding := by
  have split := counted.congr (perm_cons_erase mem).symm (fun _ _ => rfl) (fun _ _ => rfl)
  refine ⟨fun slot mode => ?_, fun slot mode => ?_, moved.sound⟩
  · have counts := split.intents slot mode
    have dropped := moved.intent slot mode
    rw [intentCount_cons] at counts
    omega
  · have counts := split.holds slot mode
    have dropped := moved.held slot mode
    rw [holdCount_cons] at counts
    cases owns : holding waiter <;> simp [owns] at counts owned <;> subst owned <;> omega

end

end Ledger

end Lavik.Tx
