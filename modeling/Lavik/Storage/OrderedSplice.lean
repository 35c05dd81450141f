import Lavik.Storage.OrderedCollection
/-!
# Splices of an ordered collection

A splice reads the pages its range touches and their neighbours and packs the joined items into
pages again: the first keeps the identity of the first page it replaces, later ones get new
identities, and the other pages it replaces are retired.
-/

namespace Lavik.Storage

open Base

def orderedGroupHeaderBytes : Nat := 64

def orderedEntryHeaderBytes : Nat := 12

def maxRecordPayloadBytes : Nat := 2 * maxStringBytes

def maxU64 : Nat := 0xffffffffffffffff

def orderedEntryBytes (entry : OrderedCollectionEntry) : Nat :=
  orderedEntryHeaderBytes + entry.value.length

/-! ## Validation -/

def validateOrderedEntries (kind : OrderedCollectionKind) :
    List (List UInt8) → Option OrderedCollectionEntry → List OrderedCollectionEntry → StatusOr Unit
  | _, _, [] => .ok ()
  | members, before, entry :: rest => do
    refuseIf (maxStringBytes < entry.value.length ∨ entry.score.isNan = true ∨
        (kind = .list ∧ entry.score ≠ 0))
      .invalidArgument "invalid ordered page entry"
    refuseIf (kind = .sortedSet ∧ (entry.value ∈ members ∨
        before.any (fun earlier => !orderedEntryLess earlier entry) = true))
      .invalidArgument "Sorted Set page is unordered or repeats a member"
    validateOrderedEntries kind (entry.value :: members) (some entry) rest

def orderedPageBytes : Nat → List OrderedCollectionEntry → StatusOr Nat
  | bytes, [] => .ok bytes
  | bytes, entry :: rest => do
    refuseIf (maxRecordPayloadBytes - orderedEntryHeaderBytes < bytes ∨
        maxRecordPayloadBytes - orderedEntryHeaderBytes - bytes < entry.value.length)
      .outOfRange "ordered page exceeds payload limit"
    orderedPageBytes (bytes + orderedEntryBytes entry) rest

def validateOrderedGroup (group : OrderedGroupSnapshot) : StatusOr Nat := do
  refuseIf (group.incarnation = 0 ∨ group.id = 0 ∨ group.previous = group.id ∨
      group.next = group.id ∨ (group.previous ≠ 0 ∧ group.previous = group.next) ∨
      maxU32 < group.entries.length ∨ (if group.retired
        then group.entries ≠ [] ∨ group.previous ≠ 0 ∨ group.next ≠ 0
        else group.entries = []))
    .invalidArgument "invalid ordered page identity or state"
  validateOrderedEntries group.kind [] none group.entries
  orderedPageBytes orderedGroupHeaderBytes group.entries

def validateOrderedGroupBoundary (left right : OrderedGroupSnapshot) : StatusOr Unit := do
  refuseIf (left.kind ≠ right.kind ∨ left.incarnation ≠ right.incarnation ∨ left.retired = true ∨
      right.retired = true ∨ left.next ≠ right.id ∨ right.previous ≠ left.id ∨
      left.entries = [] ∨ right.entries = [])
    .dataLoss "inconsistent ordered page neighbours"
  refuseIf (left.kind = .sortedSet ∧
      orderedEntryLess (left.entries.getLastD default) (right.entries.headD default) = false)
    .dataLoss "Sorted Set pages overlap or are unordered"

/-! ## Packing -/

def packEntries (targetBytes : Nat) :
    List OrderedCollectionEntry → Nat → List OrderedCollectionEntry →
      List (List OrderedCollectionEntry)
  | page, _, [] => [page]
  | page, bytes, entry :: rest =>
    if page ≠ [] ∧ (targetBytes < bytes ∨ targetBytes - bytes < orderedEntryBytes entry) then
      page :: packEntries targetBytes [entry] (orderedGroupHeaderBytes + orderedEntryBytes entry)
        rest
    else packEntries targetBytes (page ++ [entry]) (bytes + orderedEntryBytes entry) rest

structure OrderedGroupSplit where
  nextGroupId : Nat
  groups : List OrderedGroupSnapshot
deriving DecidableEq

def linkPages (group : OrderedGroupSnapshot) :
    Nat → Nat → Nat → List (List OrderedCollectionEntry) → StatusOr OrderedGroupSplit
  | _, _, nextGroupId, [] => .ok ⟨nextGroupId, []⟩
  | previous, id, nextGroupId, [entries] =>
    .ok ⟨nextGroupId, [{ group with id, previous, entries }]⟩
  | previous, id, nextGroupId, entries :: more => do
    refuseIf (nextGroupId = maxU64) .resourceExhausted "ordered page identity space exhausted"
    let rest ← linkPages group id nextGroupId (nextGroupId + 1) more
    .ok ⟨rest.nextGroupId, { group with id, previous, next := nextGroupId, entries } :: rest.groups⟩

def splitOrderedGroup (group : OrderedGroupSnapshot) (nextGroupId targetBytes : Nat) :
    StatusOr OrderedGroupSplit := do
  refuseIf (targetBytes ≤ orderedGroupHeaderBytes ∨ maxRecordPayloadBytes < targetBytes ∨
      nextGroupId ≤ max group.id (max group.previous group.next) ∨ group.retired = true ∨
      group.entries = [])
    .invalidArgument "invalid ordered split input"
  refuseIf (group.incarnation = 0 ∨ group.id = 0 ∨ group.previous = group.id ∨
      group.next = group.id ∨ (group.previous ≠ 0 ∧ group.previous = group.next))
    .invalidArgument "invalid ordered split identity"
  validateOrderedEntries group.kind [] none group.entries
  linkPages group group.previous group.id nextGroupId
    (packEntries targetBytes [] orderedGroupHeaderBytes group.entries)

/-! ## Planning -/

structure LoadedOrderedGroup where
  sequence : Nat
  snapshot : OrderedGroupSnapshot
deriving DecidableEq

structure OrderedCollectionMutationPlan where
  root : OrderedCollectionRoot
  expectedSequence : Nat
  changed : Bool := false
  deleteKey : Bool := false
  writes : List OrderedGroupSnapshot := []
deriving DecidableEq

def loadPage (dir : OrderedGroupDirectory) (loaded : OrderedMap Nat OrderedGroupSnapshot)
    (candidate : LoadedOrderedGroup) : StatusOr (OrderedMap Nat OrderedGroupSnapshot) := do
  refuseIf ((dir.groups.find? (fun current => current.id = candidate.snapshot.id)).any
      (fun found => candidate.sequence = found.sequence &&
        candidate.snapshot.incarnation = dir.root.incarnation &&
        candidate.snapshot.kind = dir.root.kind && !candidate.snapshot.retired &&
        candidate.snapshot.previous = found.previous && candidate.snapshot.next = found.next &&
        candidate.snapshot.entries.length = found.itemCount) = false)
    .aborted "ordered splice loaded a stale page"
  let _ ← validateOrderedGroup candidate.snapshot
  refuseIf ((loaded.get candidate.snapshot.id).isSome = true)
    .invalidArgument "ordered splice repeats a loaded page"
  .ok (loaded.set candidate.snapshot.id candidate.snapshot)

def requirePages (loaded : OrderedMap Nat OrderedGroupSnapshot) :
    Option OrderedGroupSnapshot → List RecoveredOrderedGroup → StatusOr (List OrderedGroupSnapshot)
  | _, [] => .ok []
  | before, group :: rest =>
    match loaded.get group.id with
    | none => .error ⟨.invalidArgument, "ordered splice needs adjacent pages"⟩
    | some page => do
      match before with
      | none => .ok ()
      | some left => validateOrderedGroupBoundary left page
      let pages ← requirePages loaded (some page) rest
      .ok (page :: pages)

/-- The loop over the entries of the selected pages: the position, whether the additions are in
place, and the entries so far. -/
def spliceEntry (offset eraseCount : Nat) (additions : List OrderedCollectionEntry)
    (state : Nat × Bool × List OrderedCollectionEntry) (entry : OrderedCollectionEntry) :
    Nat × Bool × List OrderedCollectionEntry :=
  let placed := if state.1 = offset then state.2.2 ++ additions else state.2.2
  (state.1 + 1, state.2.1 || decide (state.1 = offset),
    if state.1 < offset ∨ offset + eraseCount ≤ state.1 then placed ++ [entry] else placed)

def spliceEntries (offset eraseCount : Nat) (additions selected : List OrderedCollectionEntry) :
    List OrderedCollectionEntry :=
  let spliced := selected.foldl (spliceEntry offset eraseCount additions) (0, false, [])
  if spliced.2.1 then spliced.2.2 else spliced.2.2 ++ additions

def retiredPage (root : OrderedCollectionRoot) (id : Nat) : OrderedGroupSnapshot :=
  { kind := root.kind, incarnation := root.incarnation, id, retired := true }

structure SpliceWindow where
  before : Option OrderedGroupSnapshot
  selected : List RecoveredOrderedGroup
  after : Option OrderedGroupSnapshot

def checkBounds (kind : OrderedCollectionKind) (window : SpliceWindow)
    (entries : List OrderedCollectionEntry) : StatusOr Unit := do
  refuseIf (kind = .sortedSet ∧ entries ≠ [] ∧ window.before.any (fun page =>
      !orderedEntryLess (page.entries.getLastD default) (entries.headD default)) = true)
    .invalidArgument "Sorted Set splice crosses its lower bound"
  refuseIf (kind = .sortedSet ∧ entries ≠ [] ∧ window.after.any (fun page =>
      !orderedEntryLess (entries.getLastD default) (page.entries.headD default)) = true)
    .invalidArgument "Sorted Set splice crosses its upper bound"

variable (window : SpliceWindow)

def relinkBefore (newFirst : Nat) : List OrderedGroupSnapshot :=
  match window.before with
  | none => []
  | some page => if page.next ≠ newFirst then [{ page with next := newFirst }] else []

def relinkAfter (newLast : Nat) : List OrderedGroupSnapshot :=
  match window.after with
  | none => []
  | some page => if page.previous ≠ newLast then [{ page with previous := newLast }] else []

def planPages (root : OrderedCollectionRoot) (plan : OrderedCollectionMutationPlan)
    (window : SpliceWindow) (previous next : Nat) (split : OrderedGroupSplit) :
    OrderedCollectionMutationPlan :=
  let newFirst := (split.groups.head?.map OrderedGroupSnapshot.id).getD next
  let newLast := (split.groups.getLast?.map OrderedGroupSnapshot.id).getD previous
  let gone := if split.groups = [] then window.selected else window.selected.drop 1
  { plan with
    root := { plan.root with
      nextGroupId := split.nextGroupId
      firstGroup := if window.before.isNone then newFirst else plan.root.firstGroup
      lastGroup := if window.after.isNone then newLast else plan.root.lastGroup
      groupCount := root.groupCount - window.selected.length + split.groups.length }
    writes := split.groups ++ gone.map (fun group => retiredPage root group.id) ++
      relinkBefore window newFirst ++ relinkAfter window newLast }

def splitReplacement (root : OrderedCollectionRoot) (replacement : OrderedGroupSnapshot)
    (targetBytes : Nat) : StatusOr OrderedGroupSplit :=
  if replacement.entries = [] then .ok ⟨root.nextGroupId, []⟩
  else splitOrderedGroup replacement root.nextGroupId targetBytes

def planReplacement (dir : OrderedGroupDirectory) (window : SpliceWindow)
    (replacement : OrderedGroupSnapshot) (eraseCount additions targetBytes : Nat) :
    StatusOr OrderedCollectionMutationPlan := do
  let root := dir.root
  validateOrderedEntries root.kind [] none replacement.entries
  checkBounds root.kind window replacement.entries
  let itemCount := root.itemCount - eraseCount + additions
  let plan : OrderedCollectionMutationPlan :=
    { root := { root with revision := 0, itemCount }
      expectedSequence := dir.sequence
      changed := true }
  if itemCount = 0 then
    .ok { plan with
      deleteKey := true
      root := { plan.root with groupCount := 0, firstGroup := 0, lastGroup := 0 } }
  else do
    let split ← splitReplacement root replacement targetBytes
    .ok (planPages root plan window replacement.previous replacement.next split)

def planOrderedCollectionSplice (dir : OrderedGroupDirectory)
    (loadedGroups : List LoadedOrderedGroup) (rank eraseCount : Nat)
    (entries : List OrderedCollectionEntry) (targetBytes : Nat) :
    StatusOr OrderedCollectionMutationPlan := do
  let root := dir.root
  refuseIf (root.itemCount < rank ∨ root.itemCount - rank < eraseCount ∨
      maxU32 - (root.itemCount - eraseCount) < entries.length)
    .outOfRange "ordered splice range/count is invalid"
  if eraseCount = 0 ∧ entries = [] then
    .ok { root, expectedSequence := dir.sequence }
  else do
    validateOrderedEntries root.kind [] none entries
    let groups := dir.groups
    let first := (dir.findRank (min rank (root.itemCount - 1))).getD default
    let last := if eraseCount = 0 then first
      else (dir.findRank (rank + eraseCount - 1)).getD default
    let begin := first.groupIndex
    let end_ := last.groupIndex + 1
    let loaded ← loadedGroups.foldlM (loadPage dir) .empty
    let requiredBegin := if begin = 0 then begin else begin - 1
    let requiredEnd := if end_ = groups.length then end_ else end_ + 1
    let required ← requirePages loaded none ((groups.take requiredEnd).drop requiredBegin)
    let selected := (groups.take end_).drop begin
    let window : SpliceWindow :=
      { before := if begin = 0 then none else required.head?
        selected := selected
        after := if end_ = groups.length then none else required.getLast? }
    let items := selected.flatMap fun group => ((loaded.get group.id).map (·.entries)).getD []
    let offset := if rank = root.itemCount then (selected.headD default).itemCount
      else first.offset
    planReplacement dir window
      { kind := root.kind
        incarnation := root.incarnation
        id := (selected.headD default).id
        previous := (selected.headD default).previous
        next := (selected.getLastD default).next
        entries := spliceEntries offset eraseCount entries items }
      eraseCount entries.length targetBytes

end Lavik.Storage
