import Lavik.Base.Status
import Lavik.Base.SearchTree
/-!
# The persistent map of groups

Nodes are immutable and shared between copies, and each stores the size and the height of its
subtree. An update rebuilds the search path, so a refused node leaves every map as it was.
-/

namespace Lavik.Storage

open Base List

/-- A link to a shared node, with the size and the height that the node stores. -/
inductive Link (Key Value : Type)
  | null
  | node (key : Key) (value : Value) (left right : Link Key Value) (size height : Nat)
deriving DecidableEq

namespace Link

variable {Key Value : Type}

def size : Link Key Value → Nat
  | null => 0
  | node _ _ _ _ size _ => size

def height : Link Key Value → Nat
  | null => 0
  | node _ _ _ _ _ height => height

/-- `memory` answers the reservation for the node. The nodes that one update makes differ, so it can
refuse at any of its calls. -/
def make (memory : Link Key Value → Bool) (key : Key) (value : Value)
    (left right : Link Key Value) : StatusOr (Link Key Value) :=
  let made := node key value left right (1 + left.size + right.size)
    (1 + max left.height right.height)
  if memory made then .ok made
  else .error ⟨.resourceExhausted, "OOM group routing exceeds maxmemory"⟩

/-- A null link has height zero, so the rotations never meet one where they look into a child. -/
def balance (memory : Link Key Value → Bool) (key : Key) (value : Value)
    (left right : Link Key Value) : StatusOr (Link Key Value) :=
  if right.height + 1 < left.height then
    match left with
    | node leftKey leftValue outer inner _ _ =>
      if inner.height ≤ outer.height then do
        let next ← make memory key value inner right
        make memory leftKey leftValue outer next
      else
        match inner with
        | node pivotKey pivotValue first second _ _ => do
          let a ← make memory leftKey leftValue outer first
          let b ← make memory key value second right
          make memory pivotKey pivotValue a b
        | null => make memory key value left right
    | null => make memory key value left right
  else if left.height + 1 < right.height then
    match right with
    | node rightKey rightValue inner outer _ _ =>
      if inner.height ≤ outer.height then do
        let next ← make memory key value left inner
        make memory rightKey rightValue next outer
      else
        match inner with
        | node pivotKey pivotValue first second _ _ => do
          let a ← make memory key value left first
          let b ← make memory rightKey rightValue second outer
          make memory pivotKey pivotValue a b
        | null => make memory key value left right
    | null => make memory key value left right
  else make memory key value left right

/-- The leftmost entry. -/
def first : Link Key Value → Option (Key × Value)
  | null => none
  | node key value left _ _ _ => left.first.or (some (key, value))

variable [LinearOrder Key]

def setNode (memory : Link Key Value → Bool) (key : Key) (value : Value) :
    Link Key Value → StatusOr (Link Key Value)
  | null => make memory key value null null
  | node held old left right _ _ =>
    if key = held then make memory key value left right
    else if key < held then do
      let child ← left.setNode memory key value
      balance memory held old child right
    else do
      let child ← right.setNode memory key value
      balance memory held old left child

def eraseNode (memory : Link Key Value → Bool) (key : Key) :
    Link Key Value → StatusOr (Link Key Value)
  | null => .ok null
  | node held value left right _ _ =>
    if key = held then
      match left, right with
      | null, _ => .ok right
      | _, null => .ok left
      | _, node _ _ _ _ _ _ =>
        match right.first with
        | none => .ok left
        | some (next, nextValue) => do
          let rest ← right.eraseNode memory next
          balance memory next nextValue left rest
    else if key < held then do
      let child ← left.eraseNode memory key
      balance memory held value child right
    else do
      let child ← right.eraseNode memory key
      balance memory held value left child

/-- `Floor`; `found` is the last node the search went right at. -/
def floor (key : Key) : Option Value → Link Key Value → Option Value
  | found, null => found
  | found, node held value left right _ _ =>
    if held ≤ key then floor key (some value) right else floor key found left

/-! ## Iterators: the path from the node an iterator stands at to the root -/

def entry : Link Key Value → Option (Key × Value)
  | null => none
  | node key value _ _ _ _ => some (key, value)

def right : Link Key Value → Link Key Value
  | null => null
  | node _ _ _ right _ _ => right

/-- Down to the leftmost node. -/
def descend : Link Key Value → List (Link Key Value) → List (Link Key Value)
  | null, path => path
  | link@(node _ _ left _ _ _), path => left.descend (link :: path)

/-- Up past every node whose right child the path comes from. The program compares pointers; the
subtrees of a node hold different keys, so comparing them decides the same. -/
def ascend [DecidableEq Value] (child : Link Key Value) :
    List (Link Key Value) → List (Link Key Value)
  | [] => []
  | top :: path => if top.right = child then ascend top path else top :: path

/-- `operator++`. -/
def increment [DecidableEq Value] : List (Link Key Value) → List (Link Key Value)
  | [] => []
  | top :: path => if top.right = null then ascend top path else top.right.descend (top :: path)

def find (key : Key) : Link Key Value → List (Link Key Value) → List (Link Key Value)
  | null, _ => []
  | link@(node held _ left right _ _), path =>
    if key = held then link :: path
    else if key < held then left.find key (link :: path) else right.find key (link :: path)

/-- `at`, which throws on a key without a group. -/
def atKey (key : Key) (root : Link Key Value) : Except String Value :=
  match (root.find key []).head?.bind entry with
  | some (_, value) => .ok value
  | none => .error "group directory key"

/-- The entries that an iterator visits until it is at `end`, with a path that never grows beyond a
length. -/
inductive Visits [DecidableEq Value] (bound : Nat) :
    List (Link Key Value) → List (Key × Value) → Prop
  | done : Visits bound [] []
  | next {top : Link Key Value} {path : List (Link Key Value)} {entry : Key × Value}
      {later : List (Key × Value)} (here : top.entry = some entry) (fits : path.length < bound)
      (rest : Visits bound (increment (top :: path)) later) :
      Visits bound (top :: path) (entry :: later)

end Link

/-- An operation on map variables. -/
inductive MapOp (Key Value : Type)
  | copy (source target : Nat)
  | set (target : Nat) (memory : Link Key Value → Bool) (key : Key) (value : Value)
  | erase (target : Nat) (memory : Link Key Value → Bool) (key : Key)

def MapOp.target {Key Value : Type} : MapOp Key Value → Nat
  | copy _ target | set target _ _ _ | erase target _ _ => target

/-- A map, beside the finite map that the operations on it built. -/
abbrev MapCopy (Key Value : Type) := Link Key Value × (Key → Option Value)

section Copies

variable {Key Value : Type} [LinearOrder Key]

/-- The root is replaced only by an update that succeeds. -/
def replaceRoot (copy : MapCopy Key Value) (key : Key) (value : Option Value) :
    StatusOr (Link Key Value) → MapCopy Key Value
  | .ok next => (next, Function.update copy.2 key value)
  | .error _ => copy

def applyOp (maps : Nat → MapCopy Key Value) (op : MapOp Key Value) : Nat → MapCopy Key Value :=
  Function.update maps op.target <| match op with
    | .copy source _ => maps source
    | .set target memory key value =>
      replaceRoot (maps target) key (some value) ((maps target).1.setNode memory key value)
    | .erase target memory key =>
      replaceRoot (maps target) key none ((maps target).1.eraseNode memory key)

def runOps (ops : List (MapOp Key Value)) : Nat → MapCopy Key Value :=
  ops.foldl applyOp fun _ => (.null, fun _ => none)

end Copies

namespace Link

variable {Key Value : Type} {memory : Link Key Value → Bool} {key : Key} {value : Value}
  {left right tree : SearchTree Key Value} {outcome : StatusOr (Link Key Value)}

/-- The link whose nodes store the size and the height of their subtrees. -/
def ofTree : SearchTree Key Value → Link Key Value
  | .leaf => null
  | .node key value left right => node key value (ofTree left) (ofTree right)
      (SearchTree.node key value left right).size (SearchTree.node key value left right).height

@[simp] theorem size_ofTree : (ofTree tree).size = tree.size := by cases tree <;> rfl

@[simp] theorem height_ofTree : (ofTree tree).height = tree.height := by cases tree <;> rfl

/-- The update makes a tree, or memory refused one of its nodes. -/
def Makes (memory : Link Key Value → Bool) (tree : SearchTree Key Value)
    (outcome : StatusOr (Link Key Value)) : Prop :=
  outcome = .ok (ofTree tree) ∨ (∃ refused, memory refused = false) ∧
    outcome = .error ⟨.resourceExhausted, "OOM group routing exceeds maxmemory"⟩

theorem make_makes : Makes memory (.node key value left right)
    (make memory key value (ofTree left) (ofTree right)) := by
  dsimp only [make]
  split
  · left
    simp [ofTree, SearchTree.size, SearchTree.height]
  · next refused => exact .inr ⟨⟨_, eq_false_of_ne_true refused⟩, rfl⟩

theorem Makes.bind {rest : Link Key Value → StatusOr (Link Key Value)}
    (made : Makes memory left outcome) (then_ : Makes memory tree (rest (ofTree left))) :
    Makes memory tree (outcome >>= rest) := by
  rcases made with rfl | ⟨refused, rfl⟩
  · exact then_
  · exact .inr ⟨refused, rfl⟩

theorem Makes.granted (made : Makes memory tree outcome) (grants : ∀ node, memory node = true) :
    ∃ next, outcome = .ok next := by
  rcases made with rfl | ⟨⟨node, refused⟩, -⟩
  · exact ⟨_, rfl⟩
  · exact absurd (grants node) (Bool.not_eq_true _ ▸ refused)

theorem balance_makes : Makes memory (left.balance key value right)
    (balance memory key value (ofTree left) (ofTree right)) := by
  unfold balance SearchTree.balance
  rw [height_ofTree, height_ofTree]
  split_ifs with tall low
  · cases left with
    | leaf => simp [SearchTree.height] at tall
    | node _ _ outer inner =>
      simp only [ofTree, height_ofTree]
      split_ifs with flat
      · cases inner with
        | leaf => exact make_makes.bind (@make_makes _ _ _ _ _ outer (.node _ _ .leaf right))
        | node =>
          rw [SearchTree.rotateRight, if_pos flat]
          exact make_makes.bind make_makes
      · cases inner with
        | leaf => exact absurd (Nat.zero_le _) flat
        | node =>
          rw [SearchTree.rotateRight, if_neg flat]
          exact make_makes.bind (make_makes.bind make_makes)
  · cases right with
    | leaf => simp [SearchTree.height] at low
    | node _ _ inner outer =>
      simp only [ofTree, height_ofTree]
      split_ifs with flat
      · cases inner with
        | leaf => exact make_makes.bind (@make_makes _ _ _ _ _ (.node _ _ left .leaf) outer)
        | node =>
          rw [SearchTree.rotateLeft, if_pos flat]
          exact make_makes.bind make_makes
      · cases inner with
        | leaf => exact absurd (Nat.zero_le _) flat
        | node =>
          rw [SearchTree.rotateLeft, if_neg flat]
          exact make_makes.bind (make_makes.bind make_makes)
  · exact make_makes

theorem first_ofTree : (ofTree tree).first = tree.first := by
  rw [SearchTree.first_eq_head]
  induction tree with
  | leaf => rfl
  | node _ _ _ _ leftFirst _ =>
    rw [ofTree, first, leftFirst, SearchTree.toList, head?_append]
    rfl

variable [LinearOrder Key]

theorem setNode_makes :
    Makes memory (tree.set key value) ((ofTree tree).setNode memory key value) := by
  induction tree with
  | leaf => exact @make_makes _ _ _ _ _ .leaf .leaf
  | node held old left right leftSet rightSet =>
    simp only [ofTree, setNode, SearchTree.set]
    split_ifs
    · exact make_makes
    · exact leftSet.bind balance_makes
    · exact rightSet.bind balance_makes

theorem eraseNode_makes : Makes memory (tree.erase key) ((ofTree tree).eraseNode memory key) := by
  induction tree generalizing key with
  | leaf => exact .inl rfl
  | node held old left right leftErase rightErase =>
    simp only [ofTree, eraseNode, SearchTree.erase, first_ofTree]
    split_ifs
    · cases left with
      | leaf => exact .inl rfl
      | node =>
        cases right with
        | leaf => exact .inl rfl
        | node _ _ inner outer =>
          simp only [ofTree]
          cases (SearchTree.node _ _ inner outer).first with
          | none => exact .inl rfl
          | some => exact rightErase.bind balance_makes
    · exact leftErase.bind balance_makes
    · exact rightErase.bind balance_makes

/-! ## Searches -/

theorem floor_ofTree (best : Option (Key × Value)) :
    floor key (best.map Prod.snd) (ofTree tree) = (tree.floorFrom key best).map Prod.snd := by
  induction tree generalizing best with
  | leaf => rfl
  | node held value left right leftFloor rightFloor =>
    simp only [ofTree, floor, SearchTree.floorFrom]
    split_ifs
    · exact rightFloor (some (held, value))
    · exact leftFloor best

theorem find_ofTree (path : List (Link Key Value)) :
    ((ofTree tree).find key path).head?.bind entry = (tree.find key).map (key, ·) := by
  induction tree generalizing path with
  | leaf => rfl
  | node held value left right leftFind rightFind =>
    simp only [ofTree, find, SearchTree.find]
    split_ifs with same
    · rw [same]
      rfl
    · exact leftFind _
    · exact rightFind _

/-- After the last entry of a subtree, the iterator climbs out of it. -/
theorem visits_descend [DecidableEq Value] {path : List (Link Key Value)} {bound : Nat}
    {later : List (Key × Value)} (ordered : tree.Ordered) (filled : tree ≠ .leaf)
    (fits : path.length + tree.height ≤ bound)
    (rest : Visits bound (ascend (ofTree tree) path) later) :
    Visits bound ((ofTree tree).descend path) (tree.toList ++ later) := by
  induction tree generalizing path later with
  | leaf => exact absurd rfl filled
  | node key value left right leftVisits rightVisits =>
    obtain ⟨leftOrdered, rightOrdered, below, above⟩ := SearchTree.ordered_node.mp ordered
    rw [SearchTree.height] at fits
    have here : Visits bound (ofTree (.node key value left right) :: path)
        ((key, value) :: (right.toList ++ later)) := by
      refine .next rfl (by omega) ?_
      cases right with
      | leaf => exact rest
      | node =>
        refine rightVisits rightOrdered (by simp) (by rw [length_cons]; omega) ?_
        rw [ascend, if_pos (by rfl)]
        exact rest
    rw [SearchTree.toList, append_assoc]
    cases left with
    | leaf => exact here
    | node =>
      refine leftVisits leftOrdered (by simp) (by rw [length_cons]; omega) ?_
      rw [ascend, if_neg]
      · exact here
      · intro same
        cases right with
        | leaf => cases same
        | node =>
          obtain ⟨rfl, rfl, -⟩ := node.inj same
          have small := below _ (mem_append_right _ mem_cons_self)
          exact small.asymm (above _ (mem_append_right _ mem_cons_self))

end Link

section Copies

open Link OrderedMap

variable {Key Value : Type} [LinearOrder Key]

/-- A balanced search tree whose nodes store their size and height, and whose searches and iteration
agree with a finite map. -/
structure Exact [DecidableEq Value] (copy : MapCopy Key Value) (map : OrderedMap Key Value) :
    Prop where
  root : copy.1 = ofTree map.tree
  balanced : map.tree.Balanced
  entries : ∀ key value, (key, value) ∈ map.entries ↔ copy.2 key = some value
  size : copy.1.size = map.entries.length
  find : ∀ key, (copy.1.find key []).head?.bind entry = (copy.2 key).map (key, ·)
  atKey : ∀ key, copy.1.atKey key = (copy.2 key).elim (Except.error "group directory key") Except.ok
  floor : ∀ key value, copy.1.floor key none = some value ↔
    ∃ held ≤ key, copy.2 held = some value ∧ ∀ other ≤ key, (copy.2 other).isSome → other ≤ held
  visited : Visits map.tree.height (copy.1.descend []) map.entries
  /-- The path of an iterator fits its array. -/
  low : copy.1.size < 2 ^ 64 → map.tree.height ≤ 96
  /-- Only memory refuses an update. -/
  granted : ∀ memory : Link Key Value → Bool, (∀ node, memory node = true) → ∀ key,
    (∀ value, ∃ next, copy.1.setNode memory key value = .ok next) ∧
      ∃ next, copy.1.eraseNode memory key = .ok next

def Holds (copy : MapCopy Key Value) : Prop := ∃ map : OrderedMap Key Value,
  copy.1 = ofTree map.tree ∧ map.tree.Balanced ∧ map.get = copy.2

theorem Holds.replaceRoot {copy : MapCopy Key Value} {memory : Link Key Value → Bool}
    {outcome : StatusOr (Link Key Value)} {map : OrderedMap Key Value} {key : Key}
    {value : Option Value} (holds : Holds copy) (made : Makes memory map.tree outcome)
    (balanced : map.tree.Balanced)
    (found : ∀ other, map.get other = if other = key then value else copy.2 other) :
    Holds (replaceRoot copy key value outcome) := by
  rcases made with rfl | ⟨-, rfl⟩
  · refine ⟨map, rfl, balanced, funext fun other => ?_⟩
    rw [found, ← Function.update_apply]
    rfl
  · exact holds

theorem Holds.applyOp {maps : Nat → MapCopy Key Value} (holds : ∀ index, Holds (maps index))
    (op : MapOp Key Value) (index : Nat) : Holds (applyOp maps op index) := by
  refine (Function.forall_update_iff maps fun _ => Holds).mpr ⟨?_, fun index _ => holds index⟩ index
  cases op with
  | copy source target => exact holds source
  | set target memory key value =>
    obtain ⟨map, root, balanced, found⟩ := holds target
    exact (holds target).replaceRoot (root ▸ setNode_makes)
      (map.tree.set_balanced key value balanced).1 (found ▸ map.get_set key value)
  | erase target memory key =>
    obtain ⟨map, root, balanced, found⟩ := holds target
    exact (holds target).replaceRoot (root ▸ eraseNode_makes)
      (map.tree.erase_balanced key balanced).1 (found ▸ map.get_erase key)

theorem runOps_holds (ops : List (MapOp Key Value)) (index : Nat) : Holds (runOps ops index) := by
  refine foldlRecOn (motive := fun maps => ∀ index, Holds (maps index)) ops applyOp ?_ ?_ index
  · exact fun _ => ⟨.empty, rfl, trivial, rfl⟩
  · exact fun maps holds op _ => Holds.applyOp holds op

theorem floor_exact (map : OrderedMap Key Value) (key : Key) (value : Value) :
    (map.floor key).map Prod.snd = some value ↔ ∃ held ≤ key, map.get held = some value ∧
      ∀ other ≤ key, (map.get other).isSome → other ≤ held := by
  simp only [Option.isSome_iff_exists, get_eq_some]
  constructor
  · intro found
    obtain ⟨⟨held, value⟩, floor, rfl⟩ := Option.map_eq_some_iff.mp found
    obtain ⟨mem, below, greatest⟩ := floor_eq_some floor
    exact ⟨held, below, mem, fun other reached ⟨_, held⟩ => greatest _ held reached⟩
  · rintro ⟨held, below, mem, greatest⟩
    cases floor : map.floor key with
    | none => exact absurd (floor_eq_none.mp floor _ mem) below.not_gt
    | some entry =>
      obtain ⟨listed, reached, last⟩ := floor_eq_some floor
      have same := le_antisymm (greatest _ reached ⟨_, listed⟩) (last _ mem below)
      subst same
      rw [value_unique mem listed]
      rfl

theorem height_le (map : OrderedMap Key Value) (balanced : map.tree.Balanced)
    (small : map.tree.size < 2 ^ 64) : map.tree.height ≤ 96 := by
  have grown := map.tree.fib_height_le balanced
  have large : 2 ^ 64 < Nat.fib 98 := by decide +kernel
  by_contra! tall
  have higher : Nat.fib 98 ≤ Nat.fib (map.tree.height + 2) := Nat.fib_mono (by omega)
  omega

theorem Holds.exact [DecidableEq Value] {copy : MapCopy Key Value} (holds : Holds copy) :
    ∃ map, Exact copy map := by
  obtain ⟨root, contents⟩ := copy
  obtain ⟨map, rfl, balanced, rfl⟩ := holds
  have find : ∀ key, ((ofTree map.tree).find key []).head?.bind entry =
      (map.get key).map (key, ·) := fun key => find_ofTree []
  refine ⟨map, rfl, balanced, ?_, ?_, find, ?_, ?_, ?_, ?_, ?_⟩
  · exact fun key value => get_eq_some.symm
  · rw [size_ofTree, ← map.size_eq]
    rfl
  · intro key
    rw [atKey, find]
    dsimp only
    cases map.get key <;> rfl
  · intro key value
    rw [← floor_exact, OrderedMap.floor, ← floor_ofTree]
    rfl
  · by_cases empty : map.tree = .leaf
    · rw [entries, empty]
      exact .done
    · rw [← append_nil map.entries]
      exact visits_descend map.ordered empty (Nat.zero_add _).le .done
  · exact fun small => height_le map balanced (size_ofTree ▸ small)
  · intro memory grants key
    exact ⟨fun value => setNode_makes.granted grants, eraseNode_makes.granted grants⟩

/-- Every copy is exact after any operations, refused ones included, and an operation changes only
the copy it is called on. -/
theorem group_maps_exact [DecidableEq Value] (ops : List (MapOp Key Value)) :
    (∀ index, ∃ map, Exact (runOps ops index) map) ∧
      ∀ op index, index ≠ op.target → applyOp (runOps ops) op index = runOps ops index :=
  ⟨fun index => (runOps_holds ops index).exact, fun _ _ apart => Function.update_of_ne apart _ _⟩

end Copies

end Lavik.Storage
