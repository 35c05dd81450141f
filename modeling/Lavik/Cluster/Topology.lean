import Mathlib.Data.Vector.Basic
/-!
# Serving states

A `ServingState` is built and validated as a whole and never changed in place; what
`ServingStateBuilder::Build` checks is carried by the structure. The authority token of a group is
the 64-bit FNV-1a hash of its canonical bytes, so equal tokens are equal authorities only as far as
the hash does not collide.
-/

namespace Lavik.Cluster

/-- The number of hash slots. -/
def slotCount : Nat := 16384

/-- The identity of a node, 20 bytes. -/
structure NodeId where
  bytes : List.Vector UInt8 20
deriving DecidableEq

/-- The identity of an assignment, 16 bytes; `none` is the zero id. -/
abbrev AssignmentId := Option (List.Vector UInt8 16)

/-- A node and its endpoints. -/
structure NodeDescriptor where
  nodeId : NodeId
  host : String
  port : UInt16
  tlsPort : UInt16
deriving DecidableEq

/-- A group as one serving state has it. -/
structure GroupView where
  groupId : String
  primaryNodeIndex : Nat
  assignmentId : AssignmentId := none
  granted : Bool := true
  populationReady : Bool := true
  storageReady : Bool := true
  mutationsPaused : Bool := false
  groupTerm : UInt64 := 0
  manifestRevision : UInt64 := 0
  replicaNodeIndices : List Nat := []
deriving DecidableEq

/-- `ServingState`, with what its builder checks as fields. -/
structure ServingState where
  nodes : List NodeDescriptor
  groups : List GroupView
  selfNodeIndex : Option Nat
  topologyEpoch : UInt64 := 0
  slotToGroup : Fin slotCount → Option (Fin groups.length)
  named : ∀ group ∈ groups, group.groupId ≠ ""
  distinct : (groups.map GroupView.groupId).Nodup
  primaries : ∀ group ∈ groups, group.primaryNodeIndex < nodes.length

namespace ServingState

variable (state : ServingState)

/-- The node of an index. -/
def nodeAt (index : Nat) : Option NodeDescriptor := state.nodes[index]?

/-- `FindGroup`: the group of a name. -/
def findGroup (groupId : String) : Option GroupView :=
  state.groups.find? (·.groupId = groupId)

/-- `GroupForSlot`: the group that owns a slot. -/
def groupForSlot (slot : UInt16) : Option GroupView :=
  if inRange : slot.toNat < slotCount then
    (state.slotToGroup ⟨slot.toNat, inRange⟩).map fun index => state.groups.get index
  else none

/-- `FullyReady`: every group has its storage and its population. -/
def fullyReady : Bool :=
  state.groups.all fun group => group.storageReady && group.populationReady

variable {group : GroupView} {state : ServingState}

/-- The owner of a slot is a group of the state. -/
theorem mem_of_groupForSlot {slot : UInt16} (found : state.groupForSlot slot = some group) :
    group ∈ state.groups := by
  unfold groupForSlot at found
  split at found
  · rename_i inRange
    cases owner : state.slotToGroup ⟨slot.toNat, inRange⟩ with
    | none => simp [owner] at found
    | some index =>
      rw [owner] at found
      obtain rfl := Option.some.inj found
      exact List.get_mem _ _
  · contradiction

/-- A group is found under its name. -/
theorem findGroup_of_mem (mem : group ∈ state.groups) :
    state.findGroup group.groupId = some group := by
  have unique : ∀ groups : List GroupView, (groups.map GroupView.groupId).Nodup →
      group ∈ groups → groups.find? (·.groupId = group.groupId) = some group := by
    intro groups nodup inside
    induction groups with
    | nil => simp at inside
    | cons head rest ih =>
      rw [List.map_cons, List.nodup_cons] at nodup
      rcases List.mem_cons.mp inside with rfl | later
      · simp
      have apart : head.groupId ≠ group.groupId := by
        intro same
        apply nodup.1
        rw [same]
        exact List.mem_map_of_mem later
      simp only [List.find?_cons, apart, decide_false]
      exact ih nodup.2 later
  exact unique state.groups state.distinct mem

end ServingState

/-! ## Authority tokens -/

/-- What the token of a group covers. -/
structure GroupAuthority where
  owner : Option NodeId
  assignmentId : AssignmentId
  groupTerm : UInt64
  manifestRevision : UInt64
  granted : Bool
  populationReady : Bool
  storageReady : Bool
deriving DecidableEq

/-- The authority of a group in a state. -/
def ServingState.authority (state : ServingState) (group : GroupView) : GroupAuthority where
  owner := (state.nodeAt group.primaryNodeIndex).map NodeDescriptor.nodeId
  assignmentId := group.assignmentId
  groupTerm := group.groupTerm
  manifestRevision := group.manifestRevision
  granted := group.granted
  populationReady := group.populationReady
  storageReady := group.storageReady

/-- A flag as one byte. -/
def boolBytes (value : Bool) : List UInt8 := [if value then 1 else 0]

/-- A word as eight bytes, least significant first. -/
def u64Bytes (value : UInt64) : List UInt8 :=
  (List.range 8).map fun index => (value >>> (8 * index).toUInt64).toUInt8

/-- An identity behind the flag that it is present. -/
def identityBytes {size : Nat} (identity : Option (List.Vector UInt8 size)) : List UInt8 :=
  match identity with
  | none => boolBytes false
  | some bytes => boolBytes true ++ bytes.toList

/-- The canonical bytes of an authority. -/
def GroupAuthority.bytes (authority : GroupAuthority) : List UInt8 :=
  identityBytes (authority.owner.map NodeId.bytes) ++ identityBytes authority.assignmentId ++
    u64Bytes authority.groupTerm ++ u64Bytes authority.manifestRevision ++
    boolBytes authority.granted ++ boolBytes authority.populationReady ++
    boolBytes authority.storageReady

/-- One step of FNV-1a. -/
def hashByte (hash : UInt64) (byte : UInt8) : UInt64 := (hash ^^^ byte.toUInt64) * 1099511628211

/-- The 64-bit FNV-1a hash. -/
def fnv1a (bytes : List UInt8) : UInt64 := bytes.foldl hashByte 14695981039346656037

/-- The token of an authority, never zero. -/
def GroupAuthority.token (authority : GroupAuthority) : UInt64 :=
  if fnv1a authority.bytes = 0 then 1 else fnv1a authority.bytes

/-- The token of the owner of a slot, zero if it has none. -/
def ServingState.authorityTokenForSlot (state : ServingState) (slot : UInt16) : UInt64 :=
  match state.groupForSlot slot with
  | none => 0
  | some group => (state.authority group).token

end Lavik.Cluster
