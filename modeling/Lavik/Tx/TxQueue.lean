import Mathlib.Data.List.Pairwise
import Lavik.Tx.LockTable
/-!
# The transaction queue of a shard

A removal from the middle leaves a tombstone, so the deque is a list of optional waiters. Waiters
are identities here, and the id of a waiter is read through a lookup function, as the source reads
it through the pointer.
-/

namespace Lavik.Tx

open Base List

abbrev TxQueue (Waiter : Type) := List (Option Waiter)

namespace TxQueue

variable {Waiter : Type} {txid : Waiter → Nat}

variable (queue : TxQueue Waiter)

def live : List Waiter := queue.filterMap id

@[simp] theorem live_nil : live ([] : TxQueue Waiter) = [] := rfl

@[simp] theorem live_cons_none (rest : TxQueue Waiter) : live (none :: rest) = live rest := rfl

@[simp] theorem live_cons_some (waiter : Waiter) (rest : TxQueue Waiter) :
    live (some waiter :: rest) = waiter :: live rest := rfl

@[simp] theorem live_append (front back : TxQueue Waiter) :
    live (front ++ back) = live front ++ live back := filterMap_append

/-- The scan of `TxQueue::Insert` over the queue from back to front: step over tombstones and
waiters with a larger id, and insert after the first waiter with a smaller one. -/
def insertBack (txid : Waiter → Nat) (waiter : Waiter) : TxQueue Waiter → TxQueue Waiter
  | [] => [some waiter]
  | none :: earlier => none :: insertBack txid waiter earlier
  | some last :: earlier =>
    if txid last < txid waiter then some waiter :: some last :: earlier
    else some last :: insertBack txid waiter earlier

def insert (txid : Waiter → Nat) (queue : TxQueue Waiter) (waiter : Waiter) :
    Except Assertion (TxQueue Waiter) :=
  if txid waiter = 0 then .error .insertWithoutTxid
  else .ok (insertBack txid waiter queue.reverse).reverse

def dropTombstones : TxQueue Waiter → TxQueue Waiter
  | none :: rest => dropTombstones rest
  | queue => queue

def front : Option Waiter := (dropTombstones queue).head?.join

def popFront : TxQueue Waiter → Except Assertion (TxQueue Waiter)
  | some _ :: rest => .ok rest
  | _ => .error .popFrontEmpty

def remove [DecidableEq Waiter] (waiter : Waiter) :
    TxQueue Waiter → Except Assertion (TxQueue Waiter)
  | [] => .error .waiterNotFound
  | slot :: rest =>
    if slot = some waiter then .ok (none :: rest)
    else do
      let removed ← remove waiter rest
      .ok (slot :: removed)

def tailTxid (txid : Waiter → Nat) (queue : TxQueue Waiter) : Nat :=
  match queue.reverse.find? (·.isSome) with
  | some (some waiter) => txid waiter
  | _ => 0

@[simp] theorem live_dropTombstones : live (dropTombstones queue) = live queue := by
  induction queue with
  | nil => rfl
  | cons slot rest ih =>
    cases slot with
    | none => simpa [dropTombstones] using ih
    | some waiter => rfl

variable {queue : TxQueue Waiter} {waiter : Waiter}

theorem dropTombstones_of_front (first : front queue = some waiter) :
    ∃ rest, dropTombstones queue = some waiter :: rest := by
  induction queue with
  | nil => simp [front, dropTombstones] at first
  | cons slot rest ih =>
    cases slot with
    | none => exact ih first
    | some head =>
      obtain rfl : head = waiter := by simpa [front, dropTombstones] using first
      exact ⟨rest, rfl⟩

theorem front_eq : front queue = (live queue).head? := by
  induction queue with
  | nil => rfl
  | cons slot rest ih =>
    cases slot with
    | none => exact ih
    | some waiter => rfl

theorem remove_live [DecidableEq Waiter] (queued : waiter ∈ live queue) :
    ∃ after, remove waiter queue = .ok after ∧ live after = (live queue).erase waiter := by
  induction queue with
  | nil => simp at queued
  | cons slot rest ih =>
    by_cases same : slot = some waiter
    · subst same
      exact ⟨none :: rest, by simp [remove], by simp⟩
    have later : waiter ∈ live rest := by
      cases slot with
      | none => simpa using queued
      | some other =>
        have apart : waiter ≠ other := fun eq => same (by rw [eq])
        simpa [apart] using queued
    obtain ⟨after, removed, waiters⟩ := ih later
    refine ⟨slot :: after, ?_, ?_⟩
    · simp only [remove, if_neg same]
      exact bind_returns.mpr ⟨after, removed, rfl⟩
    · cases slot with
      | none => simpa using waiters
      | some other =>
        have apart : other ≠ waiter := fun eq => same (by rw [eq])
        simp [waiters, erase_cons_tail, apart]

theorem insertBack_spec (txid : Waiter → Nat) (waiter : Waiter) (queue : TxQueue Waiter) :
    ∃ behind ahead, queue = behind ++ ahead ∧
      insertBack txid waiter queue = behind ++ some waiter :: ahead ∧
      (∀ other ∈ live behind, ¬ txid other < txid waiter) ∧
      (ahead = [] ∨ ∃ last earlier, ahead = some last :: earlier ∧ txid last < txid waiter) := by
  induction queue with
  | nil => exact ⟨[], [], rfl, rfl, by simp, Or.inl rfl⟩
  | cons slot earlier ih =>
    obtain ⟨behind, ahead, split, inserted, larger, before⟩ := ih
    cases slot with
    | none =>
      exact ⟨none :: behind, ahead, by rw [split]; rfl, by simp [insertBack, inserted],
        by simpa using larger, before⟩
    | some last =>
      by_cases smaller : txid last < txid waiter
      · exact ⟨[], some last :: earlier, rfl, by simp [insertBack, smaller], by simp,
          Or.inr ⟨last, earlier, rfl, smaller⟩⟩
      refine ⟨some last :: behind, ahead, by rw [split]; rfl, by simp
        [insertBack, smaller, inserted],
        ?_, before⟩
      simp only [live_cons_some, forall_mem_cons]
      exact ⟨smaller, larger⟩

theorem live_reverse : live queue.reverse = (live queue).reverse :=
  filterMap_reverse

def Ascending (txid : Waiter → Nat) (queue : TxQueue Waiter) : Prop :=
  (live queue).Pairwise fun a b => txid a < txid b

/-- Inserting a waiter with an id of its own puts it between the waiters with smaller and the
waiters with larger ids. -/
theorem insert_spec (pos : 0 < txid waiter) (ascending : Ascending txid queue)
    (fresh : ∀ other ∈ live queue, txid other ≠ txid waiter) :
    ∃ after smaller larger, insert txid queue waiter = .ok after ∧
      live queue = smaller ++ larger ∧ live after = smaller ++ waiter :: larger ∧
      (∀ other ∈ smaller, txid other < txid waiter) ∧
      (∀ other ∈ larger, txid waiter < txid other) := by
  obtain ⟨behind, ahead, split, inserted, notSmaller, before⟩ :=
    insertBack_spec txid waiter queue.reverse
  have whole : queue = ahead.reverse ++ behind.reverse := by
    rw [← reverse_append, ← split, reverse_reverse]
  have waiters : live queue = (live ahead).reverse ++ (live behind).reverse := by
    rw [whole, live_append, live_reverse, live_reverse]
  refine ⟨_, (live ahead).reverse, (live behind).reverse, if_neg (by omega), waiters, ?_, ?_, ?_⟩
  · rw [inserted]
    simp [live_reverse]
  · intro other earlier
    rcases before with rfl | ⟨last, rest, rfl, less⟩
    · simp at earlier
    -- The slot before the new waiter holds the largest id of everything ahead of it.
    unfold Ascending at ascending
    rw [waiters, live_cons_some, reverse_cons] at ascending
    have ordered := (pairwise_append.mp (pairwise_append.mp ascending).1).2.2
    rw [live_cons_some, reverse_cons, mem_append, mem_singleton] at earlier
    rcases earlier with inRest | rfl
    · exact Nat.lt_trans (ordered other inRest last (by simp)) less
    · exact less
  · intro other later
    have inQueue : other ∈ live queue := by
      rw [waiters]
      exact mem_append_right _ later
    have notLess := notSmaller other (by simpa using later)
    have apart := fresh other inQueue
    omega

theorem tailTxid_eq : tailTxid txid queue = ((live queue).getLast?.map txid).getD 0 := by
  have back : ∀ reversed : TxQueue Waiter, (match reversed.find? (·.isSome) with
        | some (some waiter) => txid waiter
        | _ => 0) = ((live reversed).head?.map txid).getD 0 := by
    intro reversed
    induction reversed with
    | nil => rfl
    | cons slot rest ih =>
      cases slot with
      | none => simpa using ih
      | some waiter => simp
  unfold tailTxid
  rw [back, live_reverse, head?_reverse]

theorem tailTxid_congr {other : Waiter → Nat}
    (same : ∀ waiter ∈ live queue, other waiter = txid waiter) :
    tailTxid other queue = tailTxid txid queue := by
  rw [tailTxid_eq, tailTxid_eq]
  cases last : (live queue).getLast? with
  | none => rfl
  | some waiter => simp [same waiter (mem_of_getLast? last)]

theorem le_tailTxid (ascending : Ascending txid queue) (queued : waiter ∈ live queue) :
    txid waiter ≤ tailTxid txid queue := by
  rw [tailTxid_eq]
  unfold Ascending at ascending
  rcases eq_nil_or_concat (live queue) with empty | ⟨front, last, whole⟩
  · simp [empty] at queued
  rw [whole, concat_eq_append] at ascending queued ⊢
  simp only [getLast?_append, getLast?_singleton, Option.some_or, Option.map_some, Option.getD_some]
  have ordered := (pairwise_append.mp ascending).2.2
  rcases mem_append.mp queued with earlier | same
  · exact Nat.le_of_lt (ordered waiter earlier last (by simp))
  · exact Nat.le_of_eq (congrArg txid (mem_singleton.mp same))

end TxQueue

end Lavik.Tx
