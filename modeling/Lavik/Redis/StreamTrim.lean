import Mathlib.Algebra.GroupWithZero.Nat
import Mathlib.Data.Prod.Lex
import Lavik.Redis.RedisParse
/-!
# Trimming a stream

A stream keeps its entries in one vector and the number of live entries of every macro node in
another. Trimming cuts both from the front. An exact trim may leave a partial first node, and an
approximate one stops at a node boundary.
-/

namespace Lavik.Redis

open List

/-! ## Streams -/

abbrev StreamId := Nat ×ₗ Nat

structure StreamEntry where
  id : StreamId
  fields : List Text

/-- The parts of a stream that trimming reads and writes. Identities only grow: XADD alone adds
entries, and takes an identity above all earlier ones. -/
structure Stream where
  entries : List StreamEntry
  nodeEntries : List Nat
  ordered : entries.Pairwise fun earlier later => earlier.id < later.id

def validNodes (size : Nat) : Nat → List Nat → Bool
  | total, [] => total = size
  | total, count :: rest =>
    if count = 0 ∨ size < total ∨ size - total < count then false
    else validNodes size (total + count) rest

variable (stream : Stream)

def validStreamNodes : Bool :=
  validNodes stream.entries.length 0 stream.nodeEntries

def eraseNodes : Nat → List Nat → List Nat
  | _, [] => []
  | 0, nodes => nodes
  | count, node :: rest =>
    if node ≤ count then eraseNodes (count - node) rest else (node - count) :: rest

def eraseStreamFront (count : Nat) : Stream where
  entries := stream.entries.drop count
  nodeEntries := eraseNodes count stream.nodeEntries
  ordered := stream.ordered.drop

/-- The loop of an approximate trim, which adds up whole nodes. `stops` is given what is removed
already and the next node. -/
def leadingNodes (stops : Nat → Nat → Bool) (limit : Nat) : Nat → List Nat → Nat
  | remove, [] => remove
  | remove, node :: rest =>
    if stops remove node then remove
    else if limit ≠ 0 ∧ limit < remove + node then remove
    else leadingNodes stops limit (remove + node) rest

def trimmed (remove : Nat) : Stream × Nat :=
  (if remove ≠ 0 then eraseStreamFront stream remove else stream, remove)

def trimStreamMaxLen (maxlen : Nat) (approximate : Bool) (limit : Nat) : Stream × Nat :=
  let size := stream.entries.length
  if !approximate then trimmed stream (if maxlen < size then size - maxlen else 0)
  else
    trimmed stream (leadingNodes (fun remove node =>
      -- what remains is the size without what is removed
      size - remove ≤ maxlen || size - remove - node < maxlen) limit 0 stream.nodeEntries)

def trimStreamMinId (minid : StreamId) (approximate : Bool) (limit : Nat) : Stream × Nat :=
  if !approximate then trimmed stream (stream.entries.findIdx fun entry => !(entry.id < minid))
  else
    trimmed stream (leadingNodes (fun remove node =>
      !stream.entries[remove + node - 1]?.any (·.id < minid)) limit 0 stream.nodeEntries)

/-! ## Node boundaries -/

variable {nodes : List Nat} {count : Nat}

theorem validNodes_iff {size total : Nat} : validNodes size total nodes = true ↔
    (∀ node ∈ nodes, node ≠ 0) ∧ total + nodes.sum = size := by
  induction nodes generalizing total with
  | nil => simp [validNodes]
  | cons node rest ih =>
    rw [validNodes, forall_mem_cons, sum_cons]
    split
    · next refused =>
      refine iff_of_false Bool.false_ne_true ?_
      rintro ⟨⟨pos, -⟩, whole⟩
      omega
    · next passed =>
      rw [ih, ← Nat.add_assoc, and_assoc]
      exact (and_iff_right fun none => passed (.inl none)).symm

theorem eraseNodes_valid (filled : ∀ node ∈ nodes, node ≠ 0) (within : count ≤ nodes.sum) :
    (∀ node ∈ eraseNodes count nodes, node ≠ 0) ∧ count + (eraseNodes count nodes).sum =
      nodes.sum := by
  fun_induction eraseNodes count nodes with
  | case1 => simpa using within
  | case2 => exact ⟨filled, Nat.zero_add _⟩
  | case3 count node rest some taken ih =>
    rw [forall_mem_cons] at filled
    rw [sum_cons] at within ⊢
    obtain ⟨kept, whole⟩ := ih filled.2 (by omega)
    exact ⟨kept, by omega⟩
  | case4 count node rest some more =>
    rw [forall_mem_cons] at filled ⊢
    rw [sum_cons, sum_cons]
    exact ⟨⟨by omega, filled.2⟩, by omega⟩

theorem eraseNodes_take (filled : ∀ node ∈ nodes, node ≠ 0) :
    eraseNodes (nodes.take count).sum nodes = nodes.drop count := by
  induction nodes generalizing count with
  | nil => cases count <;> rfl
  | cons node rest ih =>
    rw [forall_mem_cons] at filled
    cases count with
    | zero => rfl
    | succ count =>
      rw [take_succ_cons, sum_cons, drop_succ_cons, ← ih filled.2]
      have some : node + (rest.take count).sum ≠ 0 := by omega
      rw [eraseNodes.eq_3 _ _ _ some, if_pos (Nat.le_add_right ..), Nat.add_sub_cancel_left]

/-- An approximate trim adds up whole nodes, and the last one it takes passed both tests. -/
theorem leadingNodes_spec (stops : Nat → Nat → Bool) (limit remove : Nat) : ∃ taken,
    leadingNodes stops limit remove nodes = remove + (nodes.take taken).sum ∧
      (taken = 0 ∨ ∃ before node, remove + (nodes.take taken).sum = before + node ∧
        stops before node = false ∧ (limit ≠ 0 → before + node ≤ limit)) := by
  fun_induction leadingNodes stops limit remove nodes with
  | case1 | case2 | case3 => exact ⟨0, rfl, .inl rfl⟩
  | case4 remove node rest goes fits ih =>
    obtain ⟨taken, whole, last⟩ := ih
    rw [Nat.add_assoc, ← sum_cons, ← take_succ_cons] at whole last
    refine ⟨taken + 1, whole, .inr ?_⟩
    rcases last with rfl | last
    · exact ⟨remove, node, by simp, Bool.eq_false_of_not_eq_true goes, by omega⟩
    · exact last

/-! ## What a trim leaves -/

variable {stream : Stream} {remove : Nat}

/-- The count is what was cut from the front, and the layout fits what is left. -/
structure Stream.Cut (stream : Stream) (result : Stream × Nat) : Prop where
  entries : result.1.entries = stream.entries.drop result.2
  within : result.2 ≤ stream.entries.length
  valid : validStreamNodes result.1 = true

/-- The cut is at a node boundary and takes no more than a limit that is given. -/
def Stream.CutsNodes (stream : Stream) (limit : Nat) (result : Stream × Nat) : Prop :=
  ∃ taken, result.2 = (stream.nodeEntries.take taken).sum ∧
    result.1.nodeEntries = stream.nodeEntries.drop taken ∧ (limit ≠ 0 → result.2 ≤ limit)

theorem trimmed_eq : trimmed stream remove = (eraseStreamFront stream remove, remove) := by
  rw [trimmed]
  split
  · rfl
  · next none =>
    obtain rfl := of_not_not none
    obtain ⟨entries, nodes, ordered⟩ := stream
    cases nodes <;> rfl

theorem trimmed_cut (valid : validStreamNodes stream = true)
    (within : remove ≤ stream.entries.length) : stream.Cut (trimmed stream remove) := by
  obtain ⟨filled, whole⟩ := validNodes_iff.1 valid
  obtain ⟨kept, rest⟩ := eraseNodes_valid filled (by omega : remove ≤ stream.nodeEntries.sum)
  rw [trimmed_eq]
  refine ⟨rfl, within, validNodes_iff.2 ⟨kept, ?_⟩⟩
  have left : (stream.entries.drop remove).length = stream.entries.length - remove := length_drop
  dsimp only [eraseStreamFront]
  omega

/-- An approximate trim, whatever its threshold. -/
theorem leadingNodes_cut {stops : Nat → Nat → Bool} {limit : Nat} {result : Stream × Nat}
    (valid : validStreamNodes stream = true)
    (trims : trimmed stream (leadingNodes stops limit 0 stream.nodeEntries) = result) :
    stream.Cut result ∧ stream.CutsNodes limit result ∧
      (result.2 = 0 ∨ ∃ before node, result.2 = before + node ∧ stops before node = false) := by
  obtain ⟨filled, whole⟩ := validNodes_iff.1 valid
  obtain ⟨taken, sum, last⟩ := leadingNodes_spec stops limit 0
  have parts := congrArg List.sum (take_append_drop taken stream.nodeEntries)
  rw [sum_append] at parts
  rw [Nat.zero_add] at whole sum last
  rw [sum] at trims
  have cut := trimmed_cut valid (by omega : (stream.nodeEntries.take taken).sum ≤ _)
  rw [trims] at cut
  rw [trimmed_eq] at trims
  subst trims
  refine ⟨cut, ⟨taken, rfl, eraseNodes_take filled, ?_⟩, ?_⟩
  · rcases last with rfl | ⟨before, node, sum, -, fits⟩
    · exact fun _ => Nat.zero_le _
    · exact sum ▸ fits
  · rcases last with rfl | ⟨before, node, sum, goes, -⟩
    · exact .inl rfl
    · exact .inr ⟨before, node, sum, goes⟩

/-- In order, the entries below an identity come first. -/
theorem drop_findIdx {entries : List StreamEntry} (minid : StreamId)
    (ordered : entries.Pairwise fun earlier later => earlier.id < later.id) :
    entries.drop (entries.findIdx fun entry => !(entry.id < minid)) =
      entries.filter (minid ≤ ·.id) := by
  induction ordered with
  | nil => rfl
  | @cons entry rest below ordered ih =>
    rw [findIdx_cons, filter_cons]
    by_cases small : entry.id < minid
    · simp [small, not_le.2 small, ih]
    · have kept : ∀ later ∈ rest, decide (minid ≤ later.id) = true := fun later mem =>
        decide_eq_true ((not_lt.1 small).trans (below later mem).le)
      simp [small, not_lt.1 small, filter_eq_self.2 kept]

theorem take_below {entries : List StreamEntry} {minid : StreamId} {last : Nat}
    (ordered : entries.Pairwise fun earlier later => earlier.id < later.id)
    (small : entries[last]?.any (·.id < minid) = true) :
    ∀ entry ∈ entries.take (last + 1), entry.id < minid := by
  obtain ⟨final, found, below⟩ := (Option.any_eq_true ..).1 small
  intro entry mem
  obtain ⟨place, bound, rfl⟩ := mem_take_iff_getElem.1 mem
  obtain ⟨inside, rfl⟩ := List.getElem?_eq_some_iff.1 found
  rcases Nat.lt_succ_iff_lt_or_eq.1 (lt_of_lt_of_le bound (Nat.min_le_left ..)) with before | rfl
  · have earlier := pairwise_iff_getElem.1 ordered place last (by omega) inside before
    exact earlier.trans (of_decide_eq_true below)
  · exact of_decide_eq_true below

/-- Trimming a stream with a valid layout. -/
theorem trimming_is_exact (stream : Stream) (valid : validStreamNodes stream = true)
    (maxlen : Nat) (minid : StreamId) (limit : Nat) :
    let size := stream.entries.length
    let byLength := trimStreamMaxLen stream maxlen
    let byId := trimStreamMinId stream minid
    (byLength false limit).1.entries = stream.entries.drop (size - min size maxlen) ∧
    (byId false limit).1.entries = stream.entries.filter (minid ≤ ·.id) ∧
    stream.CutsNodes limit (byLength true limit) ∧
    ((byLength true limit).2 = 0 ∨ maxlen ≤ (byLength true limit).1.entries.length) ∧
    stream.CutsNodes limit (byId true limit) ∧
    (∀ entry ∈ stream.entries.take (byId true limit).2, entry.id < minid) ∧
    ∀ approximate,
      stream.Cut (byLength approximate limit) ∧ stream.Cut (byId approximate limit) := by
  intro size byLength byId
  have exactLength : stream.Cut (byLength false limit) :=
    trimmed_cut valid (by split <;> omega)
  have exactId : stream.Cut (byId false limit) := trimmed_cut valid findIdx_le_length
  obtain ⟨nodesLength, wholeLength, lastLength⟩ :=
    leadingNodes_cut valid (rfl : _ = byLength true limit)
  obtain ⟨nodesId, wholeId, lastId⟩ := leadingNodes_cut valid (rfl : _ = byId true limit)
  refine ⟨?_, ?_, wholeLength, ?_, wholeId, ?_, ?_⟩
  · rw [exactLength.entries]
    change stream.entries.drop (if maxlen < size then size - maxlen else 0) = _
    congr 1
    split <;> omega
  · rw [exactId.entries]
    exact drop_findIdx minid stream.ordered
  · refine lastLength.imp_right ?_
    rintro ⟨before, node, sum, goes⟩
    simp only [Bool.or_eq_false_iff, decide_eq_false_iff_not] at goes
    rw [nodesLength.entries, length_drop]
    omega
  · rcases lastId with none | ⟨before, node, sum, goes⟩
    · simp [none]
    · rw [sum]
      rcases total : before + node with _ | last
      · simp
      · exact take_below stream.ordered (by simpa [total] using goes)
  · rintro (_ | _)
    · exact ⟨exactLength, exactId⟩
    · exact ⟨nodesLength, nodesId⟩

/-- Three entries in two nodes. -/
def threeEntries : Stream where
  entries := [1, 2, 3].map fun ms => ⟨toLex (ms, 0), []⟩
  nodeEntries := [2, 1]
  ordered := by decide

/-- A trim to one entry takes the first node, and an exact one to two entries half of it. -/
theorem threeEntries_trims :
    (trimStreamMaxLen threeEntries 1 true 5).2 = 2 ∧
    (trimStreamMaxLen threeEntries 2 false 0).1.nodeEntries = [1, 1] ∧
    threeEntries.CutsNodes 5 (trimStreamMaxLen threeEntries 1 true 5) :=
  ⟨by decide, by decide, (trimming_is_exact threeEntries (by decide) 1 (toLex (2, 0)) 5).2.2.1⟩

end Lavik.Redis
