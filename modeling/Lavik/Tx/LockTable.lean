import Mathlib.Data.List.Nodup
import Lavik.Base.Checked
import Lavik.Base.TransitionSystem
/-!
# The intent and hold counters of a shard

The counters are 32-bit words in the source; they are natural numbers here, since a wrap needs 2^32
acquisitions registered on one key at once. Every `assert` is kept: an operation returns the
assertion that failed instead of a table.
-/

namespace Lavik.Tx

open Base List Function

def logicalDatabaseCount : Nat := 16

abbrev LockFp := UInt64

inductive LockMode
  | shared
  | exclusive
deriving DecidableEq, Repr

structure KeyRef where
  fp : LockFp
  mode : LockMode
  db : Fin logicalDatabaseCount
deriving DecidableEq, Repr

abbrev Slot := Fin logicalDatabaseCount × LockFp

def KeyRef.slot (key : KeyRef) : Slot := (key.db, key.fp)

/-- A lock set: at most one reference for each database and fingerprint, as `AcquireKeys`
requires of its callers and `Transaction::Seal` builds. -/
structure KeySet where
  refs : List KeyRef
  distinct : (refs.map KeyRef.slot).Nodup
deriving DecidableEq

def naming (keys : List KeyRef) (slot : Slot) (mode : LockMode) : Nat :=
  keys.countP fun key => key.slot = slot ∧ key.mode = mode

@[simp] theorem naming_nil (slot : Slot) (mode : LockMode) : naming [] slot mode = 0 := rfl

theorem naming_cons (key : KeyRef) (rest : List KeyRef) (slot : Slot) (mode : LockMode) :
    naming (key :: rest) slot mode =
      naming rest slot mode + if key.slot = slot ∧ key.mode = mode then 1 else 0 := by
  simp [naming, countP_cons]

variable {keys : List KeyRef}

theorem naming_pos {key : KeyRef} (named : key ∈ keys) : 0 < naming keys key.slot key.mode :=
  countP_pos_iff.mpr ⟨key, named, by simp⟩

/-- Two lists of references conflict on an entry both name, one of them exclusively. -/
def ConflictAt (left right : List KeyRef) (slot : Slot) : Prop :=
  ∃ a ∈ left, ∃ b ∈ right, a.slot = slot ∧ b.slot = slot ∧
    (a.mode = .exclusive ∨ b.mode = .exclusive)

def Conflict (left right : List KeyRef) : Prop := ∃ slot, ConflictAt left right slot

theorem Conflict.symm {left right : List KeyRef} (conflict : Conflict left right) :
    Conflict right left := by
  obtain ⟨slot, a, inLeft, b, inRight, atA, atB, modes⟩ := conflict
  exact ⟨slot, b, inRight, a, inLeft, atB, atA, modes.symm⟩

inductive Assertion
  | fastPathConflict
  | releaseMissingEntry
  | releaseUnderflow
  | releaseIntentMissingEntry
  | releaseIntentUnderflow
  | acquireHoldConflict
  | acquireHoldExclusive
  | releaseHoldMissingEntry
  | releaseHoldUnderflow
  | insertWithoutTxid
  | popFrontEmpty
  | waiterNotFound
  | armBusy
  | bypassNotArmed
deriving DecidableEq, Repr

structure IntentLock where
  sharedIntent : Nat := 0
  exclusiveIntent : Nat := 0
  sharedHeld : Nat := 0
  exclusiveHeld : Nat := 0
deriving DecidableEq, Repr

namespace IntentLock

variable (lock : IntentLock)

def isFree : Bool :=
  lock.sharedIntent = 0 ∧ lock.exclusiveIntent = 0 ∧ lock.sharedHeld = 0 ∧ lock.exclusiveHeld = 0

def intent : LockMode → Nat
  | .shared => lock.sharedIntent
  | .exclusive => lock.exclusiveIntent

def held : LockMode → Nat
  | .shared => lock.sharedHeld
  | .exclusive => lock.exclusiveHeld

variable {lock : IntentLock}

theorem isFree_iff : lock.isFree = true ↔ lock = {} := by
  cases lock
  simp [isFree]

variable (mode : LockMode)

theorem isFree_false_of_intent (pos : 0 < lock.intent mode) : lock.isFree = false := by
  rw [Bool.eq_false_iff]
  intro free
  obtain rfl := isFree_iff.mp free
  cases mode <;> exact absurd pos (by decide)

variable (lock)

def addIntent : LockMode → IntentLock
  | .shared => { lock with sharedIntent := lock.sharedIntent + 1 }
  | .exclusive => { lock with exclusiveIntent := lock.exclusiveIntent + 1 }

def dropIntent : LockMode → IntentLock
  | .shared => { lock with sharedIntent := lock.sharedIntent - 1 }
  | .exclusive => { lock with exclusiveIntent := lock.exclusiveIntent - 1 }

def addHold : LockMode → IntentLock
  | .shared => { lock with sharedHeld := lock.sharedHeld + 1 }
  | .exclusive => { lock with exclusiveHeld := lock.exclusiveHeld + 1 }

def dropHold : LockMode → IntentLock
  | .shared => { lock with sharedHeld := lock.sharedHeld - 1 }
  | .exclusive => { lock with exclusiveHeld := 0 }

@[simp] theorem addIntent_intent (mode other : LockMode) :
    (lock.addIntent mode).intent other = lock.intent other + if mode = other then 1 else 0 := by
  cases mode <;> cases other <;> simp [addIntent, intent]

@[simp] theorem addIntent_held (mode other : LockMode) :
    (lock.addIntent mode).held other = lock.held other := by
  cases mode <;> cases other <;> rfl

@[simp] theorem addHold_held (mode other : LockMode) :
    (lock.addHold mode).held other = lock.held other + if mode = other then 1 else 0 := by
  cases mode <;> cases other <;> simp [addHold, held]

@[simp] theorem addHold_intent (mode other : LockMode) :
    (lock.addHold mode).intent other = lock.intent other := by
  cases mode <;> cases other <;> rfl

variable {lock}

theorem dropIntent_intent {mode : LockMode} (recorded : 0 < lock.intent mode) (other : LockMode) :
    ((lock.dropIntent mode).intent other : Int) =
      lock.intent other + -1 * (if mode = other then 1 else 0 : Nat) := by
  cases mode <;> cases other <;> simp_all [dropIntent, intent] <;> omega

variable (lock)

@[simp] theorem dropIntent_held (mode other : LockMode) :
    (lock.dropIntent mode).held other = lock.held other := by
  cases mode <;> cases other <;> rfl

@[simp] theorem dropHold_intent (mode other : LockMode) :
    (lock.dropHold mode).intent other = lock.intent other := by
  cases mode <;> cases other <;> rfl

def Exclusion : Prop :=
  lock.exclusiveHeld ≤ 1 ∧ (lock.exclusiveHeld = 1 → lock.sharedHeld = 0)

/-- Whether the intents recorded on an entry let a new acquisition in a mode be granted. -/
def admits : LockMode → Prop
  | .shared => lock.exclusiveIntent = 0
  | .exclusive => lock.sharedIntent = 0 ∧ lock.exclusiveIntent = 0

variable {lock}

instance (lock : IntentLock) (mode : LockMode) : Decidable (lock.admits mode) :=
  match mode with
  | .shared => inferInstanceAs (Decidable (lock.exclusiveIntent = 0))
  | .exclusive => inferInstanceAs (Decidable (lock.sharedIntent = 0 ∧ lock.exclusiveIntent = 0))

def canHold (lock : IntentLock) : LockMode → Bool
  | .shared => lock.exclusiveHeld = 0
  | .exclusive => lock.sharedHeld = 0 ∧ lock.exclusiveHeld = 0

theorem canHold_iff {mode : LockMode} : lock.canHold mode = true ↔
    ∀ other, mode = .exclusive ∨ other = .exclusive → lock.held other = 0 := by
  constructor
  · intro free other conflict
    cases mode <;> cases other <;> simp_all [canHold, held]
  · intro free
    have exclusiveFree := free .exclusive (Or.inr rfl)
    cases mode with
    | shared => simpa [canHold, held] using exclusiveFree
    | exclusive =>
      have sharedFree := free .shared (Or.inl rfl)
      simp only [held] at exclusiveFree sharedFree
      simp [canHold, exclusiveFree, sharedFree]

theorem admits_iff {mode : LockMode} :
    lock.admits mode ↔ ∀ other, mode = .exclusive ∨ other = .exclusive → lock.intent other = 0 := by
  constructor
  · intro admitted other conflict
    cases mode <;> cases other <;> simp_all [admits, intent]
  · intro free
    have exclusiveFree := free .exclusive (Or.inr rfl)
    cases mode with
    | shared => exact exclusiveFree
    | exclusive => exact ⟨free .shared (Or.inl rfl), exclusiveFree⟩

theorem Exclusion.of_held {other : IntentLock} (safe : lock.Exclusion)
    (same : ∀ mode, other.held mode = lock.held mode) : other.Exclusion := by
  have sharedSame := same .shared
  have exclusiveSame := same .exclusive
  simp only [held] at sharedSame exclusiveSame
  unfold Exclusion
  rw [sharedSame, exclusiveSame]
  exact safe

theorem Exclusion.addHold {mode : LockMode} (safe : lock.Exclusion)
    (admissible : lock.canHold mode = true) : (lock.addHold mode).Exclusion := by
  cases mode <;> simp_all [Exclusion, canHold, IntentLock.addHold]

theorem Exclusion.dropHold (safe : lock.Exclusion) : (lock.dropHold mode).Exclusion := by
  cases mode <;> simp_all [Exclusion, dropHold]

theorem dropHold_held (safe : lock.Exclusion) (present : 0 < lock.held mode) (other : LockMode) :
    ((lock.dropHold mode).held other : Int) =
      lock.held other + -1 * (if mode = other then 1 else 0 : Nat) := by
  have single := safe.1
  cases mode <;> cases other <;> simp_all [dropHold, held] <;> omega

end IntentLock

structure LockTable where
  /-- The entry of each fingerprint, absent while its four counters are zero. -/
  map : LockFp → Option IntentLock

namespace LockTable

def empty : LockTable := ⟨fun _ => none⟩

variable (table : LockTable) (fp : LockFp)

def entry : IntentLock := (table.map fp).getD {}

def put (lock : IntentLock) : LockTable :=
  ⟨update table.map fp (some lock)⟩

def settle (lock : IntentLock) : LockTable :=
  ⟨update table.map fp (if lock.isFree then none else some lock)⟩

def acquireIntentAndHoldIfGranted :
    LockMode → Except Assertion (LockTable × Bool)
  | .shared =>
    let lock := { table.entry fp with sharedIntent := (table.entry fp).sharedIntent + 1 }
    if lock.exclusiveIntent ≠ 0 then .ok (table.put fp lock, false)
    else if lock.exclusiveHeld = 0 then
      .ok (table.put fp { lock with sharedHeld := lock.sharedHeld + 1 }, true)
    else .error .fastPathConflict
  | .exclusive =>
    let lock := { table.entry fp with exclusiveIntent := (table.entry fp).exclusiveIntent + 1 }
    if lock.sharedIntent ≠ 0 ∨ lock.exclusiveIntent ≠ 1 then .ok (table.put fp lock, false)
    else if lock.sharedHeld = 0 ∧ lock.exclusiveHeld = 0 then
      .ok (table.put fp { lock with exclusiveHeld := 1 }, true)
    else .error .fastPathConflict

variable (mode : LockMode)

def releaseHoldAndIntent : Except Assertion LockTable :=
  match table.map fp with
  | none => .error .releaseMissingEntry
  | some lock =>
    match mode with
    | .shared =>
      if 0 < lock.sharedIntent ∧ 0 < lock.sharedHeld then
        .ok (table.settle fp { lock with
          sharedIntent := lock.sharedIntent - 1, sharedHeld := lock.sharedHeld - 1 })
      else .error .releaseUnderflow
    | .exclusive =>
      if 0 < lock.exclusiveIntent ∧ lock.exclusiveHeld = 1 then
        .ok (table.settle fp { lock with
          exclusiveIntent := lock.exclusiveIntent - 1, exclusiveHeld := 0 })
      else .error .releaseUnderflow

def acquireIntent : LockMode → LockTable × Bool
  | .shared =>
    let lock := { table.entry fp with sharedIntent := (table.entry fp).sharedIntent + 1 }
    (table.put fp lock, lock.exclusiveIntent = 0)
  | .exclusive =>
    let lock := { table.entry fp with exclusiveIntent := (table.entry fp).exclusiveIntent + 1 }
    (table.put fp lock, lock.sharedIntent = 0 ∧ lock.exclusiveIntent = 1)

def releaseIntent : Except Assertion LockTable :=
  match table.map fp with
  | none => .error .releaseIntentMissingEntry
  | some lock =>
    match mode with
    | .shared =>
      if 0 < lock.sharedIntent then
        .ok (table.settle fp { lock with sharedIntent := lock.sharedIntent - 1 })
      else .error .releaseIntentUnderflow
    | .exclusive =>
      if 0 < lock.exclusiveIntent then
        .ok (table.settle fp { lock with exclusiveIntent := lock.exclusiveIntent - 1 })
      else .error .releaseIntentUnderflow

def canHold (table : LockTable) (fp : LockFp) (mode : LockMode) : Bool :=
  match table.map fp with
  | none => true
  | some lock => lock.canHold mode

def acquireHold : Except Assertion LockTable :=
  if table.canHold fp mode then
    let lock := table.entry fp
    match mode with
    | .shared => .ok (table.put fp { lock with sharedHeld := lock.sharedHeld + 1 })
    | .exclusive =>
      if lock.exclusiveHeld = 0 then
        .ok (table.put fp { lock with exclusiveHeld := lock.exclusiveHeld + 1 })
      else .error .acquireHoldExclusive
  else .error .acquireHoldConflict

def releaseHold : Except Assertion LockTable :=
  match table.map fp with
  | none => .error .releaseHoldMissingEntry
  | some lock =>
    match mode with
    | .shared =>
      if 0 < lock.sharedHeld then
        .ok (table.put fp { lock with sharedHeld := lock.sharedHeld - 1 })
      else .error .releaseHoldUnderflow
    | .exclusive =>
      if lock.exclusiveHeld = 1 then .ok (table.put fp { lock with exclusiveHeld := 0 })
      else .error .releaseHoldUnderflow

end LockTable

abbrev Locks := Fin logicalDatabaseCount → LockTable

namespace Locks

open IntentLock

def get (locks : Locks) (slot : Slot) : Option IntentLock := (locks slot.1).map slot.2

def entry (locks : Locks) (slot : Slot) : IntentLock := (locks.get slot).getD {}

def set (locks : Locks) (slot : Slot) (stored : Option IntentLock) : Locks :=
  update locks slot.1 ⟨update (locks slot.1).map slot.2 stored⟩

def acquireIntents (locks : Locks) : List KeyRef → Locks × Bool
  | [] => (locks, true)
  | key :: rest =>
    let recorded := (locks key.db).acquireIntent key.fp key.mode
    let others := acquireIntents (update locks key.db recorded.1) rest
    (others.1, recorded.2 && others.2)

def releaseIntents (locks : Locks) : List KeyRef → Except Assertion Locks
  | [] => .ok locks
  | key :: rest => do
    let table ← (locks key.db).releaseIntent key.fp key.mode
    releaseIntents (update locks key.db table) rest

def canHoldAll (locks : Locks) (keys : List KeyRef) : Bool :=
  keys.all fun key => (locks key.db).canHold key.fp key.mode

def acquireHolds (locks : Locks) : List KeyRef → Except Assertion Locks
  | [] => .ok locks
  | key :: rest => do
    let table ← (locks key.db).acquireHold key.fp key.mode
    acquireHolds (update locks key.db table) rest

def releaseHolds (locks : Locks) : List KeyRef → Except Assertion Locks
  | [] => .ok locks
  | key :: rest => do
    let table ← (locks key.db).releaseHold key.fp key.mode
    releaseHolds (update locks key.db table) rest

/-- The separate layers of an acquisition: a refused one keeps the intents it recorded. -/
def layeredAcquire (locks : Locks) (keys : List KeyRef) : Except Assertion (Locks × Bool) := do
  let recorded := locks.acquireIntents keys
  if recorded.2 then
    let held ← recorded.1.acquireHolds keys
    .ok (held, true)
  else .ok (recorded.1, false)

/-- The separate layers of a release: the holds, then the intents. -/
def layeredRelease (locks : Locks) (keys : List KeyRef) : Except Assertion Locks := do
  let unheld ← locks.releaseHolds keys
  unheld.releaseIntents keys

/-- `TxShard::TryFastPath` on the tables: the fused operation for one key, the separate layers
for a larger set. -/
def tryFastPath (locks : Locks) (keys : List KeyRef) : Except Assertion (Locks × Bool) :=
  match keys with
  | [key] => do
    let fused ← (locks key.db).acquireIntentAndHoldIfGranted key.fp key.mode
    .ok (update locks key.db fused.1, fused.2)
  | keys => locks.layeredAcquire keys

/-- `TxShard::Release` on the tables, split by the size of the set as the fast path is. -/
def release (locks : Locks) (keys : List KeyRef) : Except Assertion Locks :=
  match keys with
  | [key] => do
    let table ← (locks key.db).releaseHoldAndIntent key.fp key.mode
    .ok (update locks key.db table)
  | keys => locks.layeredRelease keys

/-! ## What one key does to its entry -/

@[simp] theorem get_set (locks : Locks) (slot other : Slot) (stored : Option IntentLock) :
    (locks.set slot stored).get other = if other = slot then stored else locks.get other := by
  obtain ⟨db, fp⟩ := slot
  obtain ⟨otherDb, otherFp⟩ := other
  by_cases sameDb : otherDb = db
  · subst sameDb
    by_cases sameFp : otherFp = fp
    · subst sameFp
      simp [get, set]
    · simp [get, set, sameFp]
  · simp [get, set, sameDb]

theorem entry_set (locks : Locks) (slot other : Slot) (stored : Option IntentLock) :
    (locks.set slot stored).entry other =
      if other = slot then stored.getD {} else locks.entry other := by
  unfold entry
  rw [get_set]
  split <;> rfl

def Tidy (locks : Locks) : Prop := ∀ slot, (locks.get slot).isSome = !(locks.entry slot).isFree

variable {locks : Locks} {lock : IntentLock} {key : KeyRef}

theorem get_of_entry {slot : Slot} (counted : locks.entry slot = lock)
    (busy : lock.isFree = false) : locks.get slot = some lock := by
  cases stored : locks.get slot with
  | none =>
    have zero : locks.entry slot = {} := by simp [entry, stored]
    rw [zero] at counted
    subst counted
    simp [isFree] at busy
  | some found =>
    have same : locks.entry slot = found := by simp [entry, stored]
    rw [← counted, same]

theorem entry_settle (locks : Locks) (slot other : Slot) (lock : IntentLock) :
    (locks.set slot (if lock.isFree then none else some lock)).entry other =
      if other = slot then lock else locks.entry other := by
  rw [entry_set]
  split
  · by_cases free : lock.isFree = true
    · rw [if_pos free, isFree_iff.mp free]
      rfl
    · rw [if_neg free]
      rfl
  · rfl

theorem Tidy.settle (tidy : locks.Tidy) (slot : Slot) (lock : IntentLock) :
    (locks.set slot (if lock.isFree then none else some lock)).Tidy := by
  intro other
  rw [get_set, entry_settle]
  by_cases same : other = slot
  · cases free : lock.isFree <;> simp [same, free]
  · simpa [same] using tidy other

theorem Tidy.put (tidy : locks.Tidy) (slot : Slot) (busy : lock.isFree = false) :
    (locks.set slot (some lock)).Tidy := by
  have kept := tidy.settle slot lock
  rwa [busy] at kept

theorem acquireIntent_set (locks : Locks) (key : KeyRef) :
    update locks key.db ((locks key.db).acquireIntent key.fp key.mode).1 =
      locks.set key.slot (some ((locks.entry key.slot).addIntent key.mode)) := by
  cases mode : key.mode <;> rfl

theorem acquireIntent_granted (locks : Locks) (key : KeyRef) :
    ((locks key.db).acquireIntent key.fp key.mode).2 =
      decide ((locks.entry key.slot).admits key.mode) := by
  change _ = decide (((locks key.db).entry key.fp).admits key.mode)
  cases mode : key.mode with
  | shared => rfl
  | exclusive =>
    refine decide_eq_decide.mpr ?_
    simp [admits]

theorem canHold_entry (locks : Locks) (key : KeyRef) :
    (locks key.db).canHold key.fp key.mode = (locks.entry key.slot).canHold key.mode := by
  unfold LockTable.canHold entry get KeyRef.slot
  cases (locks key.db).map key.fp with
  | none => cases key.mode <;> rfl
  | some lock => rfl

theorem acquireHold_set (admissible : (locks.entry key.slot).canHold key.mode = true) :
    ∃ table, (locks key.db).acquireHold key.fp key.mode = .ok table ∧ update locks key.db table =
        locks.set key.slot (some ((locks.entry key.slot).addHold key.mode)) := by
  have ok : (locks key.db).canHold key.fp key.mode = true :=
    (canHold_entry locks key).trans admissible
  unfold LockTable.acquireHold
  rw [if_pos ok]
  cases mode : key.mode with
  | shared => exact ⟨_, rfl, rfl⟩
  | exclusive =>
    rw [mode] at admissible
    simp only [canHold, decide_eq_true_eq] at admissible
    exact ⟨_, if_pos admissible.2, rfl⟩

theorem releaseHold_set (safe : (locks.entry key.slot).Exclusion)
    (held : 0 < (locks.entry key.slot).held key.mode)
    (recorded : 0 < (locks.entry key.slot).intent key.mode) :
    ∃ table, (locks key.db).releaseHold key.fp key.mode = .ok table ∧ update locks key.db table =
        locks.set key.slot (some ((locks.entry key.slot).dropHold key.mode)) := by
  have stored : (locks key.db).map key.fp = some (locks.entry key.slot) :=
    get_of_entry rfl (isFree_false_of_intent _ recorded)
  unfold LockTable.releaseHold
  rw [stored]
  cases mode : key.mode with
  | shared =>
    rw [mode] at held
    exact ⟨_, if_pos held, rfl⟩
  | exclusive =>
    rw [mode] at held
    have single : (locks.entry key.slot).exclusiveHeld = 1 := Nat.le_antisymm safe.1 held
    exact ⟨_, if_pos single, rfl⟩

/-! ## What a lock set does to the tables -/

/-- What every operation keeps: an entry is stored exactly while one of its counters is above
zero, and an exclusive hold stands alone. -/
structure Sound (locks : Locks) : Prop where
  tidy : locks.Tidy
  exclusion : ∀ slot, (locks.entry slot).Exclusion

/-- From one state of the tables to another, every counter moves by a multiple of the references
a list makes to it. -/
structure Moves (locks after : Locks) (keys : List KeyRef) (intents holds : Int) : Prop where
  sound : after.Sound
  intent : ∀ slot mode, ((after.entry slot).intent mode : Int) =
    (locks.entry slot).intent mode + intents * naming keys slot mode
  held : ∀ slot mode, ((after.entry slot).held mode : Int) =
    (locks.entry slot).held mode + holds * naming keys slot mode

section Moves

variable {after other : Locks} {intents holds intents' holds' : Int} {rest : List KeyRef}

theorem Moves.nil (sound : locks.Sound) : locks.Moves locks [] intents holds :=
  ⟨sound, by simp, by simp⟩

theorem Moves.cons (one : locks.Moves other [key] intents holds)
    (others : other.Moves after rest intents holds) :
    locks.Moves after (key :: rest) intents holds := by
  have split : ∀ slot mode, naming (key :: rest) slot mode =
      naming [key] slot mode + naming rest slot mode := by
    intro slot mode
    rw [naming_cons, naming_cons key [], naming_nil]
    omega
  refine ⟨others.sound, fun slot mode => ?_, fun slot mode => ?_⟩
  · rw [others.intent, one.intent, split, Int.natCast_add, Int.mul_add, Int.add_assoc]
  · rw [others.held, one.held, split, Int.natCast_add, Int.mul_add, Int.add_assoc]

theorem Moves.trans (first : locks.Moves other keys intents holds)
    (second : other.Moves after keys intents' holds') :
    locks.Moves after keys (intents + intents') (holds + holds') := by
  refine ⟨second.sound, fun slot mode => ?_, fun slot mode => ?_⟩
  · rw [second.intent, first.intent, Int.add_mul, Int.add_assoc]
  · rw [second.held, first.held, Int.add_mul, Int.add_assoc]

/-- Rewriting the entry of one reference, the others being as they were. -/
theorem Moves.one (sound : locks.Sound) (tidy : after.Tidy)
    (entries : ∀ slot, after.entry slot = if slot = key.slot then lock else locks.entry slot)
    (safe : lock.Exclusion) (intent : ∀ mode, (lock.intent mode : Int) =
      (locks.entry key.slot).intent mode + intents * (if key.mode = mode then 1 else 0 : Nat))
    (held : ∀ mode, (lock.held mode : Int) =
      (locks.entry key.slot).held mode + holds * (if key.mode = mode then 1 else 0 : Nat)) :
    locks.Moves after [key] intents holds := by
  refine ⟨⟨tidy, fun slot => ?_⟩, fun slot mode => ?_, fun slot mode => ?_⟩ <;>
    rw [entries] <;> split
  · exact safe
  · exact sound.exclusion slot
  · next here => simp [here, intent, naming_cons]
  · next apart => simp [Ne.symm apart, naming_cons]
  · next here => simp [here, held, naming_cons]
  · next apart => simp [Ne.symm apart, naming_cons]

end Moves

theorem acquireIntents_spec (sound : locks.Sound) (keys : List KeyRef) :
    locks.Moves (locks.acquireIntents keys).1 keys 1 0 := by
  induction keys generalizing locks with
  | nil => exact .nil sound
  | cons key rest ih =>
    have moved : locks.Moves (update locks key.db
        ((locks key.db).acquireIntent key.fp key.mode).1) [key] 1 0 := by
      rw [acquireIntent_set]
      refine .one sound (sound.tidy.put key.slot (isFree_false_of_intent key.mode ?_))
        (fun slot => entry_set locks key.slot slot _) ?_ ?_ ?_
      · simp
      · exact (sound.exclusion key.slot).of_held (addIntent_held _ key.mode)
      · simp
      · simp
    exact moved.cons (ih moved.sound)

theorem acquireIntents_granted (nodup : (keys.map KeyRef.slot).Nodup) (locks : Locks) :
    (locks.acquireIntents keys).2 = true ↔
      ∀ key ∈ keys, (locks.entry key.slot).admits key.mode := by
  induction keys generalizing locks with
  | nil => simp [acquireIntents]
  | cons key rest ih =>
    simp only [map_cons, nodup_cons] at nodup
    have others := ih nodup.2 (update locks key.db ((locks key.db).acquireIntent key.fp key.mode).1)
    simp only [acquireIntents, Bool.and_eq_true, acquireIntent_granted, decide_eq_true_eq,
      others, forall_mem_cons]
    refine and_congr_right fun _ => forall₂_congr fun other named => ?_
    have apart : other.slot ≠ key.slot := by
      intro same
      exact nodup.1 (same ▸ mem_map_of_mem named)
    rw [acquireIntent_set, entry_set, if_neg apart]

theorem releaseIntents_spec (sound : locks.Sound)
    (recorded : ∀ slot mode, naming keys slot mode ≤ (locks.entry slot).intent mode) :
    ∃ after, locks.releaseIntents keys = .ok after ∧ locks.Moves after keys (-1) 0 := by
  induction keys generalizing locks with
  | nil => exact ⟨locks, rfl, .nil sound⟩
  | cons key rest ih =>
    have counted := Nat.lt_of_lt_of_le (naming_pos mem_cons_self) (recorded key.slot key.mode)
    have stored : (locks key.db).map key.fp = some (locks.entry key.slot) :=
      get_of_entry rfl (isFree_false_of_intent _ counted)
    obtain ⟨table, step, updated⟩ : ∃ table, (locks key.db).releaseIntent key.fp key.mode =
        .ok table ∧ update locks key.db table = locks.set key.slot
          (if ((locks.entry key.slot).dropIntent key.mode).isFree then none
            else some ((locks.entry key.slot).dropIntent key.mode)) := by
      unfold LockTable.releaseIntent
      rw [stored]
      cases mode : key.mode <;> rw [mode] at counted <;> exact ⟨_, if_pos counted, rfl⟩
    have moved : locks.Moves (update locks key.db table) [key] (-1) 0 := by
      rw [updated]
      refine .one sound (sound.tidy.settle _ _) (fun slot => entry_settle locks key.slot slot _)
        ?_ (dropIntent_intent counted) (by simp)
      exact (sound.exclusion key.slot).of_held (dropIntent_held _ key.mode)
    obtain ⟨after, rested, others⟩ := ih moved.sound (by
      intro slot mode
      have bound := recorded slot mode
      have dropped := moved.intent slot mode
      simp only [naming_cons, naming_nil] at bound dropped
      omega)
    exact ⟨after, bind_returns.mpr ⟨table, step, rested⟩, moved.cons others⟩

theorem canHoldAll_iff (locks : Locks) (keys : List KeyRef) :
    locks.canHoldAll keys = true ↔
      ∀ key ∈ keys, (locks.entry key.slot).canHold key.mode = true := by
  simp only [canHoldAll, all_eq_true, canHold_entry]

/-- Taking admissible holds for a registered lock set succeeds. -/
theorem acquireHolds_spec (sound : locks.Sound) (nodup : (keys.map KeyRef.slot).Nodup)
    (admissible : locks.canHoldAll keys = true)
    (recorded : ∀ key ∈ keys, 0 < (locks.entry key.slot).intent key.mode) :
    ∃ after, locks.acquireHolds keys = .ok after ∧ locks.Moves after keys 0 1 := by
  induction keys generalizing locks with
  | nil => exact ⟨locks, rfl, .nil sound⟩
  | cons key rest ih =>
    rw [canHoldAll_iff, forall_mem_cons] at admissible
    rw [forall_mem_cons] at recorded
    simp only [map_cons, nodup_cons] at nodup
    obtain ⟨table, step, updated⟩ := acquireHold_set admissible.1
    have entries := fun slot => entry_set locks key.slot slot
      (some ((locks.entry key.slot).addHold key.mode))
    rw [← updated] at entries
    have moved : locks.Moves (update locks key.db table) [key] 0 1 := by
      refine .one sound ?_ entries ((sound.exclusion key.slot).addHold admissible.1)
        (by simp) (by simp)
      rw [updated]
      refine sound.tidy.put _ (isFree_false_of_intent key.mode ?_)
      simpa using recorded.1
    have apart : ∀ other ∈ rest, other.slot ≠ key.slot := by
      intro other named same
      exact nodup.1 (same ▸ mem_map_of_mem named)
    obtain ⟨after, rested, others⟩ := ih moved.sound nodup.2
      (by
        rw [canHoldAll_iff]
        intro other named
        rw [entries, if_neg (apart other named)]
        exact admissible.2 other named)
      (by
        intro other named
        rw [entries, if_neg (apart other named)]
        exact recorded.2 other named)
    exact ⟨after, bind_returns.mpr ⟨table, step, rested⟩, moved.cons others⟩

/-- Releasing the holds of a lock set that is still registered succeeds. -/
theorem releaseHolds_spec (sound : locks.Sound)
    (held : ∀ slot mode, naming keys slot mode ≤ (locks.entry slot).held mode)
    (recorded : ∀ key ∈ keys, 0 < (locks.entry key.slot).intent key.mode) :
    ∃ after, locks.releaseHolds keys = .ok after ∧ locks.Moves after keys 0 (-1) := by
  induction keys generalizing locks with
  | nil => exact ⟨locks, rfl, .nil sound⟩
  | cons key rest ih =>
    rw [forall_mem_cons] at recorded
    have counted := Nat.lt_of_lt_of_le (naming_pos mem_cons_self) (held key.slot key.mode)
    have safe := sound.exclusion key.slot
    obtain ⟨table, step, updated⟩ := releaseHold_set safe counted recorded.1
    have moved : locks.Moves (update locks key.db table) [key] 0 (-1) := by
      rw [updated]
      refine .one sound (sound.tidy.put _ (isFree_false_of_intent key.mode ?_))
        (fun slot => entry_set locks key.slot slot _) (safe.dropHold key.mode) (by simp)
        (dropHold_held key.mode safe counted)
      simpa using recorded.1
    obtain ⟨after, rested, others⟩ := ih moved.sound
      (by
        intro slot mode
        have bound := held slot mode
        have dropped := moved.held slot mode
        simp only [naming_cons, naming_nil] at bound dropped
        omega)
      (by
        intro other named
        have kept := moved.intent other.slot other.mode
        have pos := recorded.2 other named
        omega)
    exact ⟨after, bind_returns.mpr ⟨table, step, rested⟩, moved.cons others⟩

/-! ## The fused single-key operations

`TryFastPath` and `Release` treat a single key in one table operation. Under the bound of holds
by intents the fused operations compute what the two layers compute one after the other. -/

theorem set_set (locks : Locks) (slot : Slot) (first second : Option IntentLock) :
    (locks.set slot first).set slot second = locks.set slot second := by
  simp [set]

theorem canHold_of_admits {mode : LockMode}
    (bounded : ∀ other, lock.held other ≤ lock.intent other) (admitted : lock.admits mode) :
    lock.canHold mode = true := by
  refine canHold_iff.mpr fun other conflict => ?_
  have zero := admits_iff.mp admitted other conflict
  have bound := bounded other
  omega

theorem fused_acquire {table : LockTable} {fp : LockFp} (mode : LockMode)
    (bounded : ∀ other, (table.entry fp).held other ≤ (table.entry fp).intent other) :
    table.acquireIntentAndHoldIfGranted fp mode = if (table.entry fp).admits mode then
        .ok (table.put fp (((table.entry fp).addIntent mode).addHold mode), true)
      else .ok (table.put fp ((table.entry fp).addIntent mode), false) := by
  have free := fun admitted => canHold_iff.mp (@canHold_of_admits _ mode bounded admitted)
  cases mode with
  | shared =>
    simp only [LockTable.acquireIntentAndHoldIfGranted]
    generalize table.entry fp = lock at free
    by_cases admitted : lock.exclusiveIntent = 0
    · have unheld : lock.exclusiveHeld = 0 := free admitted .exclusive (Or.inr rfl)
      simp [admits, addIntent, addHold, admitted, unheld]
    · simp [admits, addIntent, admitted]
  | exclusive =>
    simp only [LockTable.acquireIntentAndHoldIfGranted]
    generalize table.entry fp = lock at free
    by_cases admitted : lock.sharedIntent = 0 ∧ lock.exclusiveIntent = 0
    · have unheldShared : lock.sharedHeld = 0 := free admitted .shared (Or.inl rfl)
      have unheld : lock.exclusiveHeld = 0 := free admitted .exclusive (Or.inr rfl)
      simp [admits, addIntent, addHold, admitted, unheldShared, unheld]
    · have refused : lock.sharedIntent ≠ 0 ∨ lock.exclusiveIntent + 1 ≠ 1 := by omega
      have denied : ¬ lock.admits .exclusive := admitted
      rw [if_pos refused, if_neg denied]
      rfl

theorem tryFastPath_layered (keys : List KeyRef)
    (bounded : ∀ slot mode, (locks.entry slot).held mode ≤ (locks.entry slot).intent mode) :
    locks.tryFastPath keys = locks.layeredAcquire keys := by
  match keys with
  | [] => rfl
  | _ :: _ :: _ => rfl
  | [key] =>
    have fused : (locks key.db).acquireIntentAndHoldIfGranted key.fp key.mode = _ :=
      fused_acquire key.mode (bounded key.slot)
    change _ = if (locks.entry key.slot).admits key.mode then _ else _ at fused
    simp only [tryFastPath, fused, layeredAcquire, acquireIntents, acquireIntent_granted,
      acquireIntent_set, Bool.and_true, decide_eq_true_eq]
    by_cases admitted : (locks.entry key.slot).admits key.mode
    · have free : ((locks.set key.slot (some ((locks.entry key.slot).addIntent key.mode))).entry
          key.slot).canHold key.mode = true := by
        have before := canHold_iff.mp (canHold_of_admits (bounded key.slot) admitted)
        rw [entry_set, if_pos rfl, canHold_iff]
        simpa using before
      obtain ⟨table, step, updated⟩ := acquireHold_set free
      simp only [if_pos admitted, acquireHolds, step]
      change Except.ok (locks.set key.slot _, true) = Except.ok (update _ key.db table, true)
      rw [updated, set_set, entry_set, if_pos rfl]
      rfl
    · simp only [if_neg admitted]
      rfl

/-- The fast path of a lock set: it records every intent, holds the set exactly when every
reference is admitted, and fails no assertion. -/
theorem tryFastPath_spec (sound : locks.Sound) (nodup : (keys.map KeyRef.slot).Nodup)
    (bounded : ∀ slot mode, (locks.entry slot).held mode ≤ (locks.entry slot).intent mode) :
    ∃ after granted, locks.tryFastPath keys = .ok (after, granted) ∧
      (granted = true ↔ ∀ key ∈ keys, (locks.entry key.slot).admits key.mode) ∧
      locks.Moves after keys 1 (if granted then 1 else 0) := by
  have moved := acquireIntents_spec sound keys
  have granted := acquireIntents_granted nodup locks
  rw [tryFastPath_layered keys bounded]
  simp only [layeredAcquire]
  by_cases admitted : (locks.acquireIntents keys).2 = true
  · have free : (locks.acquireIntents keys).1.canHoldAll keys = true := by
      rw [canHoldAll_iff]
      intro key named
      have unheld := canHold_of_admits (bounded key.slot) (granted.mp admitted key named)
      refine canHold_iff.mpr fun other conflict => ?_
      have kept := moved.held key.slot other
      have zero := canHold_iff.mp unheld other conflict
      omega
    have recorded : ∀ key ∈ keys,
        0 < ((locks.acquireIntents keys).1.entry key.slot).intent key.mode := by
      intro key named
      have added := moved.intent key.slot key.mode
      have pos := naming_pos named
      omega
    obtain ⟨after, held, taken⟩ := acquireHolds_spec moved.sound nodup free recorded
    refine ⟨after, true, ?_, ?_, moved.trans taken⟩
    · rw [if_pos admitted, held]
      rfl
    · simpa using granted.mp admitted
  · refine ⟨_, false, if_neg admitted, ?_, moved⟩
    rw [← granted]
    simp [admitted]

theorem release_layered {after : Locks} (layered : locks.layeredRelease keys = .ok after) :
    locks.release keys = .ok after := by
  match keys with
  | [] => exact layered
  | _ :: _ :: _ => exact layered
  | [key] =>
    obtain ⟨unheld, first, second⟩ := bind_returns.mp layered
    obtain ⟨heldTable, heldStep, heldRest⟩ := bind_returns.mp first
    obtain ⟨intentTable, intentStep, intentRest⟩ := bind_returns.mp second
    obtain rfl := Except.ok.inj heldRest
    obtain rfl := Except.ok.inj intentRest
    change LockTable.releaseIntent (update locks key.db heldTable key.db) _ _ = _
      at intentStep
    rw [update_idem]
    refine bind_returns.mpr ⟨intentTable, ?_, rfl⟩
    unfold LockTable.releaseHold at heldStep
    unfold LockTable.releaseHoldAndIntent
    cases stored : (locks key.db).map key.fp with
    | none => simp [stored] at heldStep
    | some lock =>
      cases mode : key.mode
      all_goals
        simp only [stored, mode] at heldStep ⊢
        split at heldStep
        · rename_i pos
          obtain rfl := Except.ok.inj heldStep
          simp only [LockTable.releaseIntent, LockTable.put, update_self, mode]
            at intentStep
          split at intentStep
          · rename_i counted
            rw [if_pos ⟨counted, pos⟩, ← intentStep]
            simp [LockTable.settle]
          · contradiction
        · contradiction

theorem release_spec (sound : locks.Sound)
    (held : ∀ slot mode, naming keys slot mode ≤ (locks.entry slot).held mode)
    (recorded : ∀ slot mode, naming keys slot mode ≤ (locks.entry slot).intent mode) :
    ∃ after, locks.layeredRelease keys = .ok after ∧ locks.release keys = .ok after ∧
      locks.Moves after keys (-1) (-1) := by
  obtain ⟨unheld, first, dropped⟩ := releaseHolds_spec sound held
    fun key named => Nat.lt_of_lt_of_le (naming_pos named) (recorded key.slot key.mode)
  obtain ⟨after, second, left⟩ := @releaseIntents_spec keys unheld dropped.sound (by
    intro slot mode
    have kept := dropped.intent slot mode
    have bound := recorded slot mode
    omega)
  have layered : locks.layeredRelease keys = .ok after :=
    bind_returns.mpr ⟨unheld, first, second⟩
  exact ⟨after, layered, release_layered layered, dropped.trans left⟩

end Locks

end Lavik.Tx
