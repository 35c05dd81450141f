import Lavik.Storage.OrderedWindow
/-!
# Relinking the neighbours of a splice

The new pages of a splice take the place of the selected ones. The last page before them and the
first page after them get new links; they are written again exactly when their links change.
-/

namespace Lavik.Storage

open Base OrderedGroupDirectory List OrderedGroupSnapshot

/-! ## Neighbours -/

/-- A page that differs at most in its links. -/
structure SameItems (page old : OrderedGroupSnapshot) : Prop where
  id : page.id = old.id
  kind : page.kind = old.kind
  incarnation : page.incarnation = old.incarnation
  retired : page.retired = old.retired
  entries : page.entries = old.entries

/-- Pages with the links of some changed, and the writes of those. -/
structure Relinked (pages next writes : List OrderedGroupSnapshot) : Prop where
  same : List.Forall₂ SameItems next pages
  covers : Covers pages next writes
  relinks : ∀ write ∈ writes, write ∈ next

/-- Without writes nothing is relinked. -/
theorem Relinked.refl (pages : List OrderedGroupSnapshot) : Relinked pages pages [] where
  same := forall₂_same.mpr fun _ _ => ⟨rfl, rfl, rfl, rfl, rfl⟩
  covers := .refl pages
  relinks := by simp

/-- One page is relinked and written. -/
theorem Relinked.one {before after : List OrderedGroupSnapshot}
    {page relinked : OrderedGroupSnapshot} (same : SameItems relinked page)
    (distinct : (before ++ page :: after).Pairwise fun left right => left.id ≠ right.id) :
    Relinked (before ++ page :: after) (before ++ relinked :: after) [relinked] := by
  rw [pairwise_append] at distinct
  obtain ⟨-, later, earlier⟩ := distinct
  have others : ∀ other, other ∈ before ∨ other ∈ after → relinked.id ≠ other.id := by
    rintro other (mem | mem) eq
    · exact earlier other mem page mem_cons_self (eq.symm.trans same.id)
    · exact (pairwise_cons.mp later).1 other mem (same.id.symm.trans eq)
  refine ⟨?_, ?_, by simp⟩
  · exact rel_append (forall₂_same.mpr fun _ _ => ⟨rfl, rfl, rfl, rfl, rfl⟩)
      (.cons same (forall₂_same.mpr fun _ _ => ⟨rfl, rfl, rfl, rfl, rfl⟩))
  constructor
  case kept =>
    intro other mem
    rw [mem_append, mem_cons] at mem
    rcases mem with early | rfl | late
    · exact .inr ⟨by simp [early], by simpa using others other (.inl early)⟩
    · exact .inl mem_cons_self
    · exact .inr ⟨by simp [late], by simpa using others other (.inr late)⟩
  case written => simp
  case untouched =>
    intro other mem free
    rw [mem_append, mem_cons] at mem
    rcases mem with early | rfl | late
    · simp [early]
    · exact (free relinked mem_cons_self same.id).elim
    · simp [late]
  case distinct => exact pairwise_singleton _ _

/-- The pages before a splice, the last pointing at its first page. -/
def linkedBefore (left : List OrderedGroupSnapshot) (newFirst : Nat) : List OrderedGroupSnapshot :=
  left.dropLast ++ (left.getLast?.map fun page => { page with next := newFirst }).toList

/-- The pages behind a splice, the first pointing back at its last page. -/
def linkedAfter (newLast : Nat) (right : List OrderedGroupSnapshot) : List OrderedGroupSnapshot :=
  (right.head?.map fun page => { page with previous := newLast }).toList ++ right.tail

variable {left right pages next : List OrderedGroupSnapshot} {before after : Nat}

/-- The left neighbour is written exactly if its link changes. -/
theorem relinked_before (newFirst : Nat) (records : List RecoveredOrderedGroup)
    (after : Option OrderedGroupSnapshot)
    (nodup : left.Pairwise fun left right => left.id ≠ right.id) :
    Relinked left (linkedBefore left newFirst)
      (relinkBefore ⟨left.getLast?, records, after⟩ newFirst) := by
  rcases eq_nil_or_concat left with rfl | ⟨before, page, rfl⟩
  · exact .refl []
  rw [concat_eq_append] at nodup ⊢
  simp only [linkedBefore, relinkBefore, dropLast_concat, getLast?_concat,
    Option.map_some, Option.toList_some]
  split
  · exact .one ⟨rfl, rfl, rfl, rfl, rfl⟩ nodup
  next same =>
  rw [not_not] at same
  subst same
  exact .refl _

/-- The right neighbour is written exactly if its link changes. -/
theorem relinked_after (newLast : Nat) (records : List RecoveredOrderedGroup)
    (before : Option OrderedGroupSnapshot)
    (nodup : right.Pairwise fun left right => left.id ≠ right.id) :
    Relinked right (linkedAfter newLast right)
      (relinkAfter ⟨before, records, right.head?⟩ newLast) := by
  cases right with
  | nil => exact .refl []
  | cons page rest =>
    simp only [linkedAfter, relinkAfter, head?_cons, Option.map_some, Option.toList_some, tail_cons]
    split
    · have one : Relinked ([] ++ page :: rest) ([] ++ { page with previous := newLast } :: rest)
          [{ page with previous := newLast }] := .one ⟨rfl, rfl, rfl, rfl, rfl⟩ nodup
      exact one
    next same =>
    rw [not_not] at same
    subst same
    exact .refl _

/-- The relinked pages before a splice lead to it. -/
theorem linkedBefore_chained (newFirst : Nat) (chained : snapshotLinks.Chained before left after) :
    snapshotLinks.Chained before (linkedBefore left newFirst) newFirst := by
  rcases eq_nil_or_concat left with rfl | ⟨pages, page, rfl⟩
  · trivial
  rw [concat_eq_append, Links.chained_concat] at chained
  simp only [linkedBefore, concat_eq_append, dropLast_concat, getLast?_concat,
    Option.map_some, Option.toList_some]
  rw [Links.chained_concat]
  exact ⟨chained.1, chained.2.1, rfl⟩

/-- The relinked pages behind a splice follow it. -/
theorem linkedAfter_chained (newLast : Nat) (chained : snapshotLinks.Chained before right after) :
    snapshotLinks.Chained newLast (linkedAfter newLast right) after := by
  cases right with
  | nil => trivial
  | cons page rest => exact ⟨rfl, chained.2.1, chained.2.2⟩

/-- Relinked pages keep their identities. -/
theorem sameItems_ids (same : List.Forall₂ SameItems next pages) :
    next.map OrderedGroupSnapshot.id = pages.map OrderedGroupSnapshot.id := by
  rw [← forall₂_eq_eq_eq, forall₂_map_left_iff, forall₂_map_right_iff]
  exact same.imp fun _ _ own => own.id

/-- Relinked pages keep their items. -/
theorem sameItems_entries (same : List.Forall₂ SameItems next pages) :
    next.map entries = pages.map entries := by
  rw [← forall₂_eq_eq_eq, forall₂_map_left_iff, forall₂_map_right_iff]
  exact same.imp fun _ _ own => own.entries

/-! ## New pages -/

/-- What the split of the spliced items is, between its neighbours. -/
structure NewPages (root : OrderedCollectionRoot) (left selected right : List OrderedGroupSnapshot)
    (entries : List OrderedCollectionEntry) (targetBytes : Nat) (split : OrderedGroupSplit) :
    Prop where
  entries : spelled split.groups = entries
  nonempty : ∀ page ∈ split.groups, page.entries ≠ []
  within : ∀ page ∈ split.groups, WithinTarget targetBytes page.entries
  chained : snapshotLinks.Chained (snapshotLinks.last 0 left) split.groups
    (snapshotLinks.head 0 right)
  alike : ∀ page ∈ split.groups, page.kind = root.kind ∧ page.incarnation = root.incarnation ∧
    page.retired = false
  more : root.nextGroupId ≤ split.nextGroupId
  named : ∀ page ∈ split.groups, page.id = snapshotLinks.head 0 selected ∨
    root.nextGroupId ≤ page.id ∧ page.id < split.nextGroupId
  first : split.groups ≠ [] → snapshotLinks.head 0 split.groups = snapshotLinks.head 0 selected
  distinct : split.groups.Pairwise fun left right => left.id ≠ right.id

/-- `SplitReplacement` returns such pages. -/
theorem splitReplacement_returns {root : OrderedCollectionRoot}
    {selected : List OrderedGroupSnapshot} {entries : List OrderedCollectionEntry}
    {targetBytes : Nat} {split : OrderedGroupSplit}
    (ret : splitReplacement root (replacementPage root left selected right entries)
      targetBytes = .ok split) : NewPages root left selected right entries targetBytes split := by
  unfold splitReplacement at ret
  by_cases none : entries = []
  · rw [if_pos (show (replacementPage root left selected right entries).entries = [] from none)]
      at ret
    cases ret
    exact ⟨none.symm, by simp, by simp, trivial, by simp, le_rfl, by simp, by simp, .nil⟩
  · rw [if_neg (show ¬(replacementPage root left selected right entries).entries = [] from none)]
      at ret
    have made := splitOrderedGroup_returns ret
    constructor
    case entries => exact made.entries
    case nonempty => exact made.nonempty
    case within => exact made.within
    case chained => exact made.chained
    case alike => exact made.alike
    case more => exact made.id_cases.1
    case named => exact made.id_cases.2
    case first =>
      obtain ⟨more, ids, -⟩ := made.ids
      intro _
      unfold Links.head
      rw [← head?_map, show split.groups.map snapshotLinks.id = _ from ids]
      rfl
    case distinct => exact made.distinct

/-- The markers of the selected pages whose identity is not used again. -/
def retirements (root : OrderedCollectionRoot) (split : OrderedGroupSplit)
    (records : List RecoveredOrderedGroup) : List OrderedGroupSnapshot :=
  (if split.groups = [] then records else records.drop 1).map fun group => retiredPage root group.id

section Replaced

variable {root : OrderedCollectionRoot} {selected : List OrderedGroupSnapshot}
  {records : List RecoveredOrderedGroup} {entries : List OrderedCollectionEntry} {targetBytes : Nat}
  {split : OrderedGroupSplit} (made : NewPages root left selected right entries targetBytes split)
  (parallel : List.Forall₂ (PageOf root) selected records)

include parallel

/-- A marker has the identity of a selected page. -/
theorem retirements_named {write : OrderedGroupSnapshot}
    (mem : write ∈ retirements root split records) :
    write.retired = true ∧ ∃ page ∈ selected, page.id = write.id := by
  obtain ⟨group, listed, rfl⟩ := mem_map.mp mem
  have held : group ∈ records := by
    split at listed
    · exact listed
    · exact mem_of_mem_drop listed
  obtain ⟨page, own, view⟩ := forall₂_mem_right parallel held
  exact ⟨rfl, page, own, view.view.1.symm⟩

include made

/-- A write has the identity of a selected page or a new one. -/
theorem NewPages.origin (ne : selected ≠ []) :
    ∀ write ∈ split.groups ++ retirements root split records,
      (∃ page ∈ selected, page.id = write.id) ∨
        root.nextGroupId ≤ write.id ∧ write.id < split.nextGroupId := by
  intro write mem
  rcases mem_append.mp mem with leaf | gone
  · rcases made.named write leaf with first | fresh
    · obtain ⟨page, rest, rfl⟩ := exists_cons_of_ne_nil ne
      exact .inl ⟨page, mem_cons_self, first.symm⟩
    · exact .inr fresh
  · exact .inl (retirements_named parallel gone).2

/-- The new pages and the markers replace the selected pages. -/
theorem NewPages.covers (distinct : selected.Pairwise fun left right => left.id ≠ right.id)
    (below : ∀ page ∈ selected, page.id < root.nextGroupId) :
    Covers selected split.groups (split.groups ++ retirements root split records) := by
  have ids : records.map RecoveredOrderedGroup.id = selected.map OrderedGroupSnapshot.id := by
    rw [← forall₂_eq_eq_eq, forall₂_map_left_iff, forall₂_map_right_iff]
    exact List.Forall₂.flip (parallel.imp fun _ _ own => own.view.1)
  have marked : (retirements root split records).map OrderedGroupSnapshot.id =
      (if split.groups = [] then selected else selected.drop 1).map OrderedGroupSnapshot.id := by
    rw [retirements, map_map]
    split
    · exact ids
    · show (records.drop 1).map RecoveredOrderedGroup.id = _
      rw [map_drop, ids, map_drop]
  constructor
  case kept => exact fun page mem => .inl (mem_append_left _ mem)
  case written =>
    intro write mem active
    rcases mem_append.mp mem with leaf | gone
    · exact leaf
    · rw [(retirements_named parallel gone).1] at active
      cases active
  case untouched =>
    intro page mem free
    obtain ⟨leavesFree, goneFree⟩ := forall_mem_append.mp free
    have unmarked : page.id ∉ (retirements root split records).map OrderedGroupSnapshot.id := by
      rintro listed
      obtain ⟨write, gone, same⟩ := mem_map.mp listed
      exact goneFree write gone same
    rw [marked] at unmarked
    split at unmarked
    · exact (unmarked (mem_map_of_mem mem)).elim
    next ne =>
    obtain ⟨first, rest, rfl⟩ := exists_cons_of_ne_nil (ne_nil_of_mem mem)
    obtain ⟨leaf, leaves, whole⟩ := exists_cons_of_ne_nil ne
    rcases mem_cons.mp mem with rfl | later
    · have same := made.first ne
      rw [whole] at same
      exact (leavesFree leaf (by simp [whole]) same).elim
    · exact (unmarked (mem_map_of_mem later)).elim
  case distinct =>
    rw [pairwise_append]
    refine ⟨made.distinct, ?_, ?_⟩
    · rw [← pairwise_map, marked, pairwise_map]
      split
      · exact distinct
      · exact distinct.sublist (drop_sublist 1 selected)
    · intro leaf mem gone marker same
      have listed : gone.id ∈ (retirements root split records).map OrderedGroupSnapshot.id :=
        mem_map_of_mem marker
      rw [marked, if_neg (ne_nil_of_mem mem)] at listed
      obtain ⟨page, later, own⟩ := mem_map.mp listed
      have inside := mem_of_mem_drop later
      rcases made.named leaf mem with first | ⟨fresh, -⟩
      · obtain ⟨head, rest, rfl⟩ := exists_cons_of_ne_nil (ne_nil_of_mem inside)
        apply (pairwise_cons.mp distinct).1 page later
        rw [own, ← same, first]
        rfl
      · have low := below page inside
        omega

end Replaced

end Lavik.Storage
