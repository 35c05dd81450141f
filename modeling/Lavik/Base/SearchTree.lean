import Mathlib.Data.Nat.Fib.Basic
/-!
# Height-balanced search trees and the maps they hold

Rotations do not change the entries in key order, so each operation of the tree is stated over
that list, and an ordered map is a tree whose list is sorted.
-/

namespace Lavik.Base

open List

inductive SearchTree (Key Value : Type)
  | leaf
  | node (key : Key) (value : Value) (left right : SearchTree Key Value)
deriving DecidableEq, Repr

namespace SearchTree

variable {Key Value : Type}

def toList : SearchTree Key Value → List (Key × Value)
  | leaf => []
  | node key value left right => left.toList ++ (key, value) :: right.toList

def size : SearchTree Key Value → Nat
  | leaf => 0
  | node _ _ left right => 1 + left.size + right.size

def height : SearchTree Key Value → Nat
  | leaf => 0
  | node _ _ left right => 1 + max left.height right.height

def rotateRight (key : Key) (value : Value) (right : SearchTree Key Value) :
    SearchTree Key Value → SearchTree Key Value
  | leaf => node key value leaf right
  | node leftKey leftValue outer leaf =>
    node leftKey leftValue outer (node key value leaf right)
  | node leftKey leftValue outer (node pivotKey pivotValue inner innerRight) =>
    if (node pivotKey pivotValue inner innerRight).height ≤ outer.height then
      node leftKey leftValue outer
        (node key value (node pivotKey pivotValue inner innerRight) right)
    else
      node pivotKey pivotValue (node leftKey leftValue outer inner)
        (node key value innerRight right)

def rotateLeft (key : Key) (value : Value) (left : SearchTree Key Value) :
    SearchTree Key Value → SearchTree Key Value
  | leaf => node key value left leaf
  | node rightKey rightValue leaf outer =>
    node rightKey rightValue (node key value left leaf) outer
  | node rightKey rightValue (node pivotKey pivotValue innerLeft inner) outer =>
    if (node pivotKey pivotValue innerLeft inner).height ≤ outer.height then
      node rightKey rightValue
        (node key value left (node pivotKey pivotValue innerLeft inner)) outer
    else
      node pivotKey pivotValue (node key value left innerLeft)
        (node rightKey rightValue inner outer)

def balance (key : Key) (value : Value) (left right : SearchTree Key Value) :
    SearchTree Key Value :=
  if right.height + 1 < left.height then rotateRight key value right left
  else if left.height + 1 < right.height then rotateLeft key value left right
  else node key value left right

def first : SearchTree Key Value → Option (Key × Value)
  | leaf => none
  | node key value leaf _ => some (key, value)
  | node _ _ (node key value left right) _ => first (node key value left right)

section Search

variable [LinearOrder Key]

def find (key : Key) : SearchTree Key Value → Option Value
  | leaf => none
  | node at_ value left right =>
    if key = at_ then some value
    else if key < at_ then left.find key else right.find key

/-- The entry with the largest key that is not above the given one; `best` is the last node the
search went right at. -/
def floorFrom (key : Key) : Option (Key × Value) → SearchTree Key Value → Option (Key × Value)
  | best, leaf => best
  | best, node at_ value left right =>
    if at_ ≤ key then floorFrom key (some (at_, value)) right else floorFrom key best left

/-- The entry after a key in key order; `best` is the last node the search went left at. -/
def afterFrom (key : Key) : Option (Key × Value) → SearchTree Key Value → Option (Key × Value)
  | best, leaf => best
  | best, node at_ value left right =>
    if key < at_ then afterFrom key (some (at_, value)) left else afterFrom key best right

def set (key : Key) (value : Value) : SearchTree Key Value → SearchTree Key Value
  | leaf => node key value leaf leaf
  | node at_ old left right =>
    if key = at_ then node key value left right
    else if key < at_ then balance at_ old (left.set key value) right
    else balance at_ old left (right.set key value)

/-- The tree without its entry at a key. A node with two subtrees is replaced by its successor. -/
def erase (key : Key) : SearchTree Key Value → SearchTree Key Value
  | leaf => leaf
  | node at_ value left right =>
    if key = at_ then
      match left, right with
      | leaf, _ => right
      | _, leaf => left
      | _, node _ _ _ _ =>
        match right.first with
        | none => left
        | some (next, nextValue) => balance next nextValue left (right.erase next)
    else if key < at_ then balance at_ value (left.erase key) right
    else balance at_ value left (right.erase key)

def Ordered (tree : SearchTree Key Value) : Prop :=
  tree.toList.Pairwise fun earlier later => earlier.1 < later.1

end Search

/-! ## Entries in key order -/

@[simp]
theorem toList_rotateRight (key : Key) (value : Value) (left right : SearchTree Key Value) :
    (rotateRight key value right left).toList = left.toList ++ (key, value) :: right.toList := by
  unfold rotateRight
  split
  · simp [toList]
  · simp [toList]
  · split <;> simp [toList]

@[simp]
theorem toList_rotateLeft (key : Key) (value : Value) (left right : SearchTree Key Value) :
    (rotateLeft key value left right).toList = left.toList ++ (key, value) :: right.toList := by
  unfold rotateLeft
  split
  · simp [toList]
  · simp [toList]
  · split <;> simp [toList]

@[simp]
theorem toList_balance (key : Key) (value : Value) (left right : SearchTree Key Value) :
    (balance key value left right).toList = left.toList ++ (key, value) :: right.toList := by
  unfold balance
  split
  · exact toList_rotateRight key value left right
  · split
    · exact toList_rotateLeft key value left right
    · rfl

theorem size_eq_length (tree : SearchTree Key Value) : tree.size = tree.toList.length := by
  induction tree with
  | leaf => rfl
  | node key value left right leftSize rightSize =>
    simp only [size, toList, length_append, length_cons, leftSize, rightSize]
    omega

theorem first_eq_head (tree : SearchTree Key Value) : tree.first = tree.toList.head? := by
  fun_induction first tree with
  | case1 => rfl
  | case2 => rfl
  | case3 => simp_all [toList]

section Search

variable [LinearOrder Key]

theorem ordered_node {key : Key} {value : Value} {left right : SearchTree Key Value} :
    (node key value left right).Ordered ↔
      left.Ordered ∧ right.Ordered ∧ (∀ entry ∈ left.toList, entry.1 < key) ∧
        ∀ entry ∈ right.toList, key < entry.1 := by
  unfold Ordered
  simp only [toList, pairwise_append, pairwise_cons, mem_cons]
  constructor
  · rintro ⟨before, ⟨above, after⟩, across⟩
    exact ⟨before, after, fun entry held => across entry held _ (.inl rfl), above⟩
  · rintro ⟨before, after, below, above⟩
    refine ⟨before, ⟨above, after⟩, ?_⟩
    rintro entry held other (rfl | later)
    · exact below entry held
    · exact (below entry held).trans (above other later)

theorem filter_of_below {key : Key} {entries : List (Key × Value)}
    (below : ∀ entry ∈ entries, entry.1 < key) :
    entries.filter (·.1 < key) = entries ∧ entries.filter (key < ·.1) = [] := by
  constructor
  · apply filter_eq_self.mpr
    intro entry held
    exact decide_eq_true (below entry held)
  · apply filter_eq_nil_iff.mpr
    intro entry held
    simpa using (below entry held).le

theorem filter_of_above {key : Key} {entries : List (Key × Value)}
    (above : ∀ entry ∈ entries, key < entry.1) :
    entries.filter (·.1 < key) = [] ∧ entries.filter (key < ·.1) = entries := by
  constructor
  · apply filter_eq_nil_iff.mpr
    intro entry held
    simpa using (above entry held).le
  · apply filter_eq_self.mpr
    intro entry held
    exact decide_eq_true (above entry held)

variable {tree : SearchTree Key Value}

theorem toList_set (key : Key) (value : Value) (ordered : tree.Ordered) :
    (tree.set key value).toList =
      tree.toList.filter (·.1 < key) ++ (key, value) :: tree.toList.filter (key < ·.1) := by
  induction tree with
  | leaf => rfl
  | node held old left right leftSet rightSet =>
    obtain ⟨leftOrdered, rightOrdered, below, above⟩ := ordered_node.mp ordered
    rcases lt_trichotomy key held with smaller | same | larger
    · have rightSide := filter_of_above fun entry found => smaller.trans (above entry found)
      simp [set, toList, smaller, smaller.ne, smaller.le, leftSet leftOrdered, rightSide]
    · subst same
      simp [set, toList, filter_of_below below, filter_of_above above]
    · have leftSide := filter_of_below fun entry found => (below entry found).trans larger
      simp [set, toList, larger, larger.ne', larger.not_gt, rightSet rightOrdered, leftSide]

theorem Ordered.set (key : Key) (value : Value) (ordered : tree.Ordered) :
    (tree.set key value).Ordered := by
  unfold Ordered
  rw [toList_set key value ordered]
  simp only [pairwise_append, pairwise_cons, mem_cons, mem_filter, decide_eq_true_eq]
  refine ⟨List.Pairwise.filter _ ordered, ⟨fun entry held => held.2, List.Pairwise.filter _
    ordered⟩, ?_⟩
  rintro entry ⟨-, below⟩ other (rfl | ⟨-, above⟩)
  · exact below
  · exact below.trans above

theorem filter_of_ne {key : Key} {entries : List (Key × Value)}
    (others : ∀ entry ∈ entries, entry.1 ≠ key) : entries.filter (·.1 ≠ key) = entries := by
  apply filter_eq_self.mpr
  intro entry held
  exact decide_eq_true (others entry held)

theorem toList_replace {left right : SearchTree Key Value} {next : Key} {nextValue : Value}
    (successor : right.first = some (next, nextValue)) (ordered : right.Ordered)
    (erased : (right.erase next).toList = right.toList.filter (·.1 ≠ next)) :
    (balance next nextValue left (right.erase next)).toList = left.toList ++ right.toList := by
  rw [first_eq_head] at successor
  obtain ⟨rest, mem⟩ := head?_eq_some_iff.mp successor
  unfold Ordered at ordered
  rw [mem] at ordered
  have later := (pairwise_cons.mp ordered).1
  rw [toList_balance, erased, mem, filter_cons_of_neg (by simp),
    filter_of_ne fun entry held => (later entry held).ne']

theorem toList_erase (key : Key) (ordered : tree.Ordered) :
    (tree.erase key).toList = tree.toList.filter (·.1 ≠ key) := by
  induction tree generalizing key with
  | leaf => rfl
  | node held value left right leftErase rightErase =>
    obtain ⟨leftOrdered, rightOrdered, below, above⟩ := ordered_node.mp ordered
    rcases lt_trichotomy key held with smaller | same | larger
    · have rightSide := filter_of_ne fun entry found => (smaller.trans (above entry found)).ne'
      have erased := leftErase key leftOrdered
      simp only [ne_eq, decide_not] at erased rightSide
      simp [erase, toList, smaller, smaller.ne, smaller.ne', erased, rightSide]
    · subst same
      have leftSide := filter_of_ne fun entry found => (below entry found).ne
      have rightSide := filter_of_ne fun entry found => (above entry found).ne'
      have joined :
        ((node key value left right).erase key).toList = left.toList ++ right.toList := by
        unfold erase
        rw [if_pos rfl]
        split
        · rfl
        · simp [toList]
        split
        · rename_i none_first
          simp [first_eq_head, toList] at none_first
        · rename_i successor
          exact toList_replace successor rightOrdered (rightErase _ rightOrdered)
      rw [joined, toList, filter_append, filter_cons_of_neg (by simp), leftSide,
        rightSide]
    · have leftSide := filter_of_ne fun entry found => ((below entry found).trans larger).ne
      have erased := rightErase key rightOrdered
      simp only [ne_eq, decide_not] at erased leftSide
      simp [erase, toList, larger.ne, larger.ne', larger.not_gt, erased, leftSide]

theorem Ordered.erase (key : Key) (ordered : tree.Ordered) : (tree.erase key).Ordered := by
  unfold Ordered
  rw [toList_erase key ordered]
  exact List.Pairwise.filter _ ordered

theorem find_eq_some (key : Key) (value : Value) (ordered : tree.Ordered) :
    tree.find key = some value ↔ (key, value) ∈ tree.toList := by
  induction tree with
  | leaf => simp [find, toList]
  | node held old left right leftFind rightFind =>
    obtain ⟨leftOrdered, rightOrdered, below, above⟩ := ordered_node.mp ordered
    simp only [find, toList, mem_append, mem_cons, Prod.mk.injEq]
    rcases lt_trichotomy key held with smaller | same | larger
    · have notRight : (key, value) ∉ right.toList := fun found =>
        (smaller.trans (above _ found)).false
      simp [smaller, smaller.ne, leftFind leftOrdered, notRight]
    · subst same
      have notLeft : (key, value) ∉ left.toList := fun found => (below _ found).false
      have notRight : (key, value) ∉ right.toList := fun found => (above _ found).false
      simp [notLeft, notRight, eq_comm]
    · have notLeft : (key, value) ∉ left.toList := fun found =>
        ((below _ found).trans larger).false
      simp [larger.ne', larger.not_gt, rightFind rightOrdered, notLeft]

theorem floorFrom_eq (key : Key) (best : Option (Key × Value)) (ordered : tree.Ordered) :
    tree.floorFrom key best = ((tree.toList.filter (·.1 ≤ key)).getLast?).or best := by
  induction tree generalizing best with
  | leaf => rfl
  | node held value left right leftFloor rightFloor =>
    obtain ⟨leftOrdered, rightOrdered, below, above⟩ := ordered_node.mp ordered
    by_cases reached : held ≤ key
    · simp only [floorFrom, if_pos reached, rightFloor _ rightOrdered]
      simp [toList, reached, getLast?_append, getLast?_cons]
    have beyond : right.toList.filter (·.1 ≤ key) = [] := by
      apply filter_eq_nil_iff.mpr
      intro entry held
      simpa using (not_le.mp reached).trans (above entry held)
    simp [floorFrom, toList, reached, leftFloor _ leftOrdered, beyond]

theorem afterFrom_eq (key : Key) (best : Option (Key × Value)) (ordered : tree.Ordered) :
    tree.afterFrom key best = ((tree.toList.filter (key < ·.1)).head?).or best := by
  induction tree generalizing best with
  | leaf => rfl
  | node held value left right leftAfter rightAfter =>
    obtain ⟨leftOrdered, rightOrdered, below, above⟩ := ordered_node.mp ordered
    by_cases ok : key < held
    · simp only [afterFrom, if_pos ok, leftAfter _ leftOrdered]
      simp [toList, ok, head?_append]
    · have before := filter_of_below fun entry found => (below entry found).trans_le (not_lt.mp ok)
      simp [afterFrom, toList, ok, rightAfter _ rightOrdered, before]

end Search

variable {key : Key} {value : Value} {left right tree : SearchTree Key Value}

/-! ## Balance -/

/-- The subtrees of every node differ in height by at most one. -/
def Balanced : SearchTree Key Value → Prop
  | leaf => True
  | node _ _ left right =>
    left.Balanced ∧ right.Balanced ∧ left.height ≤ right.height + 1 ∧ right.height ≤ left.height + 1

theorem balance_balanced (key : Key) (value : Value) (leftOk : left.Balanced)
    (rightOk : right.Balanced) (near : left.height ≤ right.height + 2)
    (close : right.height ≤ left.height + 2) :
    (balance key value left right).Balanced ∧
      max left.height right.height ≤ (balance key value left right).height ∧
      (balance key value left right).height ≤ max left.height right.height + 1 ∧
      (left.height ≤ right.height + 1 → right.height ≤ left.height + 1 →
        (balance key value left right).height = max left.height right.height + 1) := by
  unfold balance
  split
  · unfold rotateRight
    split <;> grind [Balanced, height]
  · split
    · unfold rotateLeft
      split <;> grind [Balanced, height]
    · grind [Balanced, height]

/-- A balanced tree of a given height is at least as large as the Fibonacci tree. -/
theorem fib_height_le (balanced : tree.Balanced) : Nat.fib (tree.height + 2) ≤ tree.size + 1 := by
  induction tree with
  | leaf => simp [height, size]
  | node held value left right leftFib rightFib =>
    obtain ⟨leftOk, rightOk, near, close⟩ := balanced
    have leftFib := leftFib leftOk
    have rightFib := rightFib rightOk
    have grows : ∀ tall low : Nat, tall ≤ low + 1 → Nat.fib (tall + 1 + 2) ≤
        Nat.fib (low + 2) + Nat.fib (tall + 2) := fun tall low near => by
      rw [Nat.fib_add_two]
      exact Nat.add_le_add_right (Nat.fib_mono (by omega)) _
    simp only [height, size]
    rcases le_total left.height right.height with less | less
    · have top := grows _ _ close
      rw [max_eq_right less, Nat.add_comm 1]
      omega
    · have top := grows _ _ near
      rw [max_eq_left less, Nat.add_comm 1]
      omega

variable [LinearOrder Key]

/-- A write makes the tree at most one higher. -/
theorem set_balanced (key : Key) (value : Value) (balanced : tree.Balanced) :
    (tree.set key value).Balanced ∧ tree.height ≤ (tree.set key value).height ∧
      (tree.set key value).height ≤ tree.height + 1 := by
  induction tree with
  | leaf => simp [set, Balanced, height]
  | node held old left right leftSet rightSet =>
    obtain ⟨leftOk, rightOk, near, close⟩ := balanced
    obtain ⟨leftKept, leftLow, leftHigh⟩ := leftSet leftOk
    obtain ⟨rightKept, rightLow, rightHigh⟩ := rightSet rightOk
    have fromLeft := balance_balanced held old leftKept rightOk (by omega) (by omega)
    have fromRight := balance_balanced held old leftOk rightKept (by omega) (by omega)
    simp only [set]
    split_ifs <;> grind [Balanced, height]

/-- A removal makes the tree at most one lower. -/
theorem erase_balanced (key : Key) (balanced : tree.Balanced) :
    (tree.erase key).Balanced ∧ (tree.erase key).height ≤ tree.height ∧
      tree.height ≤ (tree.erase key).height + 1 := by
  induction tree generalizing key with
  | leaf => simp [erase, Balanced, height]
  | node held value left right leftErase rightErase =>
    obtain ⟨leftOk, rightOk, near, close⟩ := balanced
    have leftErased := leftErase key leftOk
    have fromLeft := balance_balanced held value leftErased.1 rightOk (by omega) (by omega)
    have rightErased := fun other => rightErase other rightOk
    have fromRight := fun other top topValue => balance_balanced top topValue leftOk
      (rightErased other).1 (by have := rightErased other; omega)
      (by have := rightErased other; omega)
    unfold erase
    split_ifs
    · split
      · grind [Balanced, height]
      · grind [Balanced, height]
      split
      · simp_all [first_eq_head, toList]
      · grind [Balanced, height]
    · grind [Balanced, height]
    · grind [Balanced, height]

end SearchTree

structure OrderedMap (Key Value : Type) [LinearOrder Key] where
  tree : SearchTree Key Value
  ordered : tree.Ordered

namespace OrderedMap

variable {Key Value : Type} [LinearOrder Key]

def empty : OrderedMap Key Value := ⟨.leaf, List.Pairwise.nil⟩

variable (map : OrderedMap Key Value)

def entries : List (Key × Value) := map.tree.toList

def size : Nat := map.tree.size

def get (key : Key) : Option Value := map.tree.find key

def floor (key : Key) : Option (Key × Value) :=
  map.tree.floorFrom key none

def after (key : Key) : Option (Key × Value) :=
  map.tree.afterFrom key none

def set (key : Key) (value : Value) : OrderedMap Key Value :=
  ⟨map.tree.set key value, map.ordered.set key value⟩

def erase (key : Key) : OrderedMap Key Value :=
  ⟨map.tree.erase key, map.ordered.erase key⟩

@[simp]
theorem entries_empty : (empty : OrderedMap Key Value).entries = [] := rfl

theorem sorted :
    map.entries.Pairwise fun earlier later => earlier.1 < later.1 := map.ordered

theorem nodup : map.entries.Nodup := by
  apply map.sorted.imp
  rintro earlier later less rfl
  exact less.false

theorem keys_nodup : (map.entries.map Prod.fst).Nodup := by
  rw [nodup_iff_pairwise_ne, pairwise_map]
  exact map.sorted.imp fun less => less.ne

theorem size_eq : map.size = map.entries.length :=
  map.tree.size_eq_length

variable {map} {key : Key} {value : Value} {entry : Key × Value}

theorem get_eq_some : map.get key = some value ↔ (key, value) ∈ map.entries :=
  SearchTree.find_eq_some key value map.ordered

theorem get_eq_none : map.get key = none ↔ ∀ entry ∈ map.entries, entry.1 ≠ key := by
  rw [Option.eq_none_iff_forall_not_mem]
  constructor
  · rintro missing ⟨held, value⟩ found rfl
    exact missing value (get_eq_some.mpr found)
  · intro others value found
    exact others _ (get_eq_some.mp found) rfl

theorem value_unique {left right : Value} (first : (key, left) ∈ map.entries)
    (second : (key, right) ∈ map.entries) : left = right := by
  rw [← get_eq_some] at first second
  exact Option.some.inj (first.symm.trans second)

theorem entries_erase (map : OrderedMap Key Value) (key : Key) :
    (map.erase key).entries = map.entries.filter (·.1 ≠ key) :=
  SearchTree.toList_erase key map.ordered

theorem mem_erase : entry ∈ (map.erase key).entries ↔ entry ∈ map.entries ∧ entry.1 ≠ key := by
  simp [entries_erase]

theorem set_perm (map : OrderedMap Key Value) (key : Key) (value : Value) :
    ((map.set key value).entries).Perm ((key, value) :: (map.erase key).entries) := by
  have below : (map.erase key).entries.filter (·.1 < key) = map.entries.filter (·.1 < key) := by
    rw [entries_erase, filter_filter]
    apply filter_congr
    intro entry held
    simpa using fun smaller => ne_of_lt smaller
  have above : (map.erase key).entries.filter (fun entry => !decide (entry.1 < key)) =
      map.entries.filter (key < ·.1) := by
    rw [entries_erase, filter_filter]
    apply filter_congr
    intro entry held
    have larger : key < entry.1 ↔ ¬entry.1 < key ∧ ¬entry.1 = key := by
      rw [not_lt, lt_iff_le_and_ne, ne_comm]
    simp only [larger, ne_eq, decide_not, Bool.decide_and]
  have split := filter_append_perm (·.1 < key) (map.erase key).entries
  rw [below, above] at split
  unfold entries set at *
  rw [SearchTree.toList_set key value map.ordered]
  exact perm_middle.trans (split.cons _)

theorem mem_set :
    entry ∈ (map.set key value).entries ↔
      entry = (key, value) ∨ entry ∈ map.entries ∧ entry.1 ≠ key := by
  rw [(set_perm map key value).mem_iff, mem_cons, mem_erase]

theorem get_set (map : OrderedMap Key Value) (key : Key) (value : Value) (other : Key) :
    (map.set key value).get other = if other = key then some value else map.get other := by
  split
  · next same => rw [get_eq_some, mem_set, same]; exact .inl rfl
  next ne =>
  apply Option.ext
  intro found
  rw [get_eq_some, mem_set, get_eq_some]
  constructor
  · rintro (same | ⟨held, -⟩)
    · exact (ne (congrArg Prod.fst same)).elim
    · exact held
  · intro held
    exact .inr ⟨held, ne⟩

theorem get_erase (map : OrderedMap Key Value) (key other : Key) :
    (map.erase key).get other = if other = key then none else map.get other := by
  refine Option.ext fun value => ?_
  split <;> simp_all [get_eq_some, mem_erase]

theorem erase_perm (found : map.get key = some value) :
    map.entries.Perm ((key, value) :: (map.erase key).entries) := by
  rw [get_eq_some] at found
  obtain ⟨before, after, split⟩ := append_of_mem found
  have sorted := map.sorted
  rw [split] at sorted
  simp only [pairwise_append, pairwise_cons, mem_cons] at sorted
  obtain ⟨-, ⟨later, -⟩, across⟩ := sorted
  rw [entries_erase, split, filter_append, filter_cons_of_neg (by simp),
    SearchTree.filter_of_ne fun entry held => (across entry held _ (.inl rfl)).ne,
    SearchTree.filter_of_ne fun entry held => (later entry held).ne']
  exact perm_middle

theorem entries_erase_of_absent (absent : map.get key = none) :
    (map.erase key).entries = map.entries := by
  rw [entries_erase, SearchTree.filter_of_ne (get_eq_none.mp absent)]

theorem sum_set (map : OrderedMap Key Value) (value : Value) (absent : map.get key = none)
    (weight : Key × Value → Nat) :
    ((map.set key value).entries.map weight).sum =
      weight (key, value) + (map.entries.map weight).sum := by
  rw [((set_perm map key value).map weight).sum_nat, entries_erase_of_absent absent, map_cons,
    sum_cons]

theorem sum_erase (found : map.get key = some value) (weight : Key × Value → Nat) :
    (map.entries.map weight).sum =
      weight (key, value) + ((map.erase key).entries.map weight).sum := by
  rw [((erase_perm found).map weight).sum_nat, map_cons, sum_cons]

section Facts

variable {Fact : Type} {left right : OrderedMap Key Value} {fact : Key × Value → Fact}
  {key : Fact → Key} (own : ∀ entry, key (fact entry) = entry.1)

include own

theorem map_sorted (map : OrderedMap Key Value) :
    (map.entries.map fact).Pairwise fun earlier later => key earlier < key later := by
  rw [pairwise_map]
  apply map.sorted.imp
  intro earlier later less
  rwa [own, own]

theorem map_nodup (map : OrderedMap Key Value) : (map.entries.map fact).Nodup := by
  apply (map.map_sorted own).imp
  rintro earlier later less rfl
  exact less.false

theorem map_entries_eq
    (same : ∀ item, item ∈ left.entries.map fact ↔ item ∈ right.entries.map fact) :
    left.entries.map fact = right.entries.map fact := by
  have permuted := (perm_ext_iff_of_nodup (left.map_nodup own) (right.map_nodup own)).mpr same
  apply permuted.eq_of_pairwise _ (left.map_sorted own) (right.map_sorted own)
  intro first second _ _ less greater
  exact (less.asymm greater).elim

theorem sum_le_of_subset (weight : Fact → Nat)
    (subset : ∀ item ∈ left.entries.map fact, item ∈ right.entries.map fact) :
    ((left.entries.map fact).map weight).sum ≤ ((right.entries.map fact).map weight).sum := by
  obtain ⟨mem, permuted, within⟩ := subperm_of_subset (left.map_nodup own) subset
  obtain ⟨others, whole⟩ := within.exists_perm_append
  rw [(whole.map weight).sum_nat, ← (permuted.map weight).sum_nat, map_append, sum_append]
  exact Nat.le_add_right _ _

end Facts

def ofList (items : List (Key × Value)) : OrderedMap Key Value :=
  items.foldl (fun map item => map.set item.1 item.2) empty

theorem ofList_perm {items : List (Key × Value)} (nodup : (items.map Prod.fst).Nodup) :
    (ofList items).entries.Perm items := by
  suffices general : ∀ map : OrderedMap Key Value, (∀ item ∈ items, map.get item.1 = none) →
      (items.foldl (fun map item => map.set item.1 item.2) map).entries.Perm (map.entries ++ items)
      from
    general empty fun item _ => get_eq_none.mpr (by simp)
  induction items with
  | nil =>
    intro map _
    simp
  | cons item rest ih =>
    intro map absent
    rw [map_cons, nodup_cons] at nodup
    have later : ∀ other ∈ rest, (map.set item.1 item.2).get other.1 = none := by
      intro other mem
      rw [get_set, if_neg]
      · exact absent other (mem_cons_of_mem _ mem)
      · intro same
        exact nodup.1 (same ▸ mem_map_of_mem mem)
    apply (ih nodup.2 _ later).trans
    have added := set_perm map item.1 item.2
    rw [entries_erase_of_absent (absent item mem_cons_self)] at added
    exact (added.append_right rest).trans perm_middle.symm

theorem floor_eq_some (found : map.floor key = some entry) :
    entry ∈ map.entries ∧ entry.1 ≤ key ∧
      ∀ other ∈ map.entries, other.1 ≤ key → other.1 ≤ entry.1 := by
  unfold floor at found
  rw [SearchTree.floorFrom_eq key none map.ordered, Option.or_none] at found
  obtain ⟨before, listed⟩ := getLast?_eq_some_iff.mp found
  have mem : entry ∈ map.tree.toList.filter (·.1 ≤ key) := by simp [listed]
  rw [mem_filter, decide_eq_true_eq] at mem
  refine ⟨mem.1, mem.2, ?_⟩
  intro other held reached
  have kept : other ∈ map.tree.toList.filter (·.1 ≤ key) :=
    mem_filter.mpr ⟨held, decide_eq_true reached⟩
  have sorted := List.Pairwise.filter (·.1 ≤ key) map.ordered
  rw [listed] at kept sorted
  rcases mem_append.mp kept with earlier | last
  · exact ((pairwise_append.mp sorted).2.2 other earlier entry (by simp)).le
  · rw [mem_singleton.mp last]

theorem floor_eq_none : map.floor key = none ↔ ∀ entry ∈ map.entries, key < entry.1 := by
  unfold floor
  rw [SearchTree.floorFrom_eq key none map.ordered, Option.or_none, getLast?_eq_none_iff,
    filter_eq_nil_iff]
  simp [entries]

theorem after_eq_some (found : map.after key = some entry) :
    entry ∈ map.entries ∧ key < entry.1 ∧
      ∀ other ∈ map.entries, key < other.1 → entry.1 ≤ other.1 := by
  unfold after at found
  rw [SearchTree.afterFrom_eq key none map.ordered, Option.or_none] at found
  obtain ⟨rest, listed⟩ := head?_eq_some_iff.mp found
  have mem : entry ∈ map.tree.toList.filter (key < ·.1) := by simp [listed]
  rw [mem_filter, decide_eq_true_eq] at mem
  refine ⟨mem.1, mem.2, ?_⟩
  intro other held ok
  have kept : other ∈ map.tree.toList.filter (key < ·.1) :=
    mem_filter.mpr ⟨held, decide_eq_true ok⟩
  have sorted := List.Pairwise.filter (key < ·.1) map.ordered
  rw [listed] at kept sorted
  rcases mem_cons.mp kept with rfl | later
  · exact le_rfl
  · exact ((pairwise_cons.mp sorted).1 other later).le

theorem after_set_self (map : OrderedMap Key Value) (key : Key) (value : Value) :
    (map.set key value).after key = map.after key := by
  have dropped : (map.tree.toList.filter (·.1 < key)).filter (key < ·.1) = [] := by
    apply filter_eq_nil_iff.mpr
    intro entry held
    have below := (mem_filter.mp held).2
    simp only [decide_eq_true_eq] at below ⊢
    exact below.not_gt
  unfold after set
  rw [SearchTree.afterFrom_eq key none (map.ordered.set key value),
    SearchTree.afterFrom_eq key none map.ordered, SearchTree.toList_set key value map.ordered,
    filter_append, dropped, nil_append, filter_cons_of_neg (by simp),
    filter_filter]
  simp

theorem after_eq_none : map.after key = none ↔ ∀ entry ∈ map.entries, entry.1 ≤ key := by
  unfold after
  rw [SearchTree.afterFrom_eq key none map.ordered, Option.or_none, head?_eq_none_iff,
    filter_eq_nil_iff]
  simp [entries]

end OrderedMap

end Lavik.Base
