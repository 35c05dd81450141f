import Lavik.Base.LinkedChain
import Lavik.Base.RecordLog
import Lavik.Storage.OrderedCollection
/-!
# The chain of an ordered collection

The pages of a directory are a chain from the first to the last page of its root, with the items
and pages the root counts. When the winners of a recovery are the pages of such a chain, in
whatever order they are found, the walk over the links meets them in the order of the chain.
-/

namespace Lavik.Storage.OrderedGroupDirectory

open Base List RecoveredOrderedGroup OrderedMap

def pageLinks : Links RecoveredOrderedGroup where
  id := id
  previous := previous
  next := next

def bounds (page : RecoveredOrderedGroup) : List Int := [page.minScore.rank, page.maxScore.rank]

def itemTotal (pages : List RecoveredOrderedGroup) : Nat :=
  (pages.map itemCount).sum

variable (root : OrderedCollectionRoot)

structure PageChain (pages : List RecoveredOrderedGroup) : Prop where
  linked : pageLinks.Chained 0 pages 0
  first : root.firstGroup = pageLinks.head 0 pages
  last : root.lastGroup = pageLinks.last 0 pages
  counted : itemTotal pages = root.itemCount
  sized : pages.length = root.groupCount
  distinct : (pages.map RecoveredOrderedGroup.id).Nodup
  named : ∀ page ∈ pages, page.id ≠ 0
  ordered : root.kind = .sortedSet → (pages.flatMap bounds).Pairwise (· ≤ ·)

/-- What the root of a recovery fits: the sequence it is read at and the members it names. -/
structure Rooted (rootSequence : Nat) (members : Option HashGroupDirectory) : Prop where
  valid : root.valid = true
  sequenced : rootSequence ≠ 0
  revised : root.revision = 0 ∨ root.revision = rootSequence
  indexed : members.map HashGroupDirectory.root = root.memberIndex

def endsFrom : Nat → List RecoveredOrderedGroup → List Nat
  | _, [] => []
  | count, page :: rest => (count + page.itemCount) :: endsFrom (count + page.itemCount) rest

def idsFrom : Nat → List RecoveredOrderedGroup → List (Nat × Nat)
  | _, [] => []
  | index, page :: rest => (page.id, index) :: idsFrom (index + 1) rest

def chainDirectory (rootSequence commandSequence : Nat) (pages retired : List RecoveredOrderedGroup)
    (members : Option HashGroupDirectory) : OrderedGroupDirectory where
  root := { root with revision := rootSequence }
  sequence := rootSequence
  commandSequence := if commandSequence = 0 then rootSequence else commandSequence
  groups := pages
  retired := retired
  ids := sortIds (idsFrom 0 pages)
  ends := endsFrom 0 pages
  members := members

/-! ## The walk -/

structure Met (walk : Walk) (pages : List RecoveredOrderedGroup) (after : Walk) : Prop where
  left : ∀ entry, entry ∈ after.left.entries ↔
    entry ∈ walk.left.entries ∧ ∀ page ∈ pages, page.id ≠ entry.1
  previous : after.previous = pageLinks.last walk.previous pages
  count : after.count = walk.count + itemTotal pages
  groups : after.groups = walk.groups ++ pages
  ids : after.ids = walk.ids ++ idsFrom walk.groups.length pages
  ends : after.ends = walk.ends ++ endsFrom walk.count pages

theorem met_foldl (walk : Walk) (pages : List RecoveredOrderedGroup) :
    Met walk pages (pages.foldl Walk.meet walk) := by
  induction pages generalizing walk with
  | nil => exact ⟨by simp, rfl, rfl, by simp, by simp [idsFrom], by simp [endsFrom]⟩
  | cons page rest ih =>
    have met := ih (walk.meet page)
    rw [foldl_cons]
    constructor
    case left =>
      intro entry
      rw [met.left]
      simp only [Walk.meet, mem_erase, forall_mem_cons]
      constructor
      · rintro ⟨⟨held, ne⟩, others⟩
        exact ⟨held, ne.symm, others⟩
      · rintro ⟨held, ne, others⟩
        exact ⟨⟨held, ne.symm⟩, others⟩
    case previous =>
      rw [met.previous, Links.last_cons]
      rfl
    case count =>
      rw [met.count]
      simp only [Walk.meet, itemTotal, map_cons, sum_cons, Nat.add_assoc]
    case groups =>
      rw [met.groups]
      simp [Walk.meet]
    case ids =>
      rw [met.ids]
      simp [Walk.meet, idsFrom]
    case ends =>
      rw [met.ends]
      simp [Walk.meet, endsFrom]

variable {root : OrderedCollectionRoot} {winners : OrderedMap Nat RecoveredOrderedGroup}

theorem follow_succeeds {pages : List RecoveredOrderedGroup} {bound : Nat} {walk : Walk}
    (enough : pages.length ≤ bound) (linked : pageLinks.Chained walk.previous pages 0)
    (held : ∀ page ∈ pages, (page.id, page) ∈ walk.left.entries)
    (nodup : (pages.map RecoveredOrderedGroup.id).Nodup) (named : ∀ page ∈ pages, page.id ≠ 0)
    (room : walk.count + itemTotal pages ≤ root.itemCount)
    (ordered : root.kind = .sortedSet → ((walk.groups ++ pages).flatMap bounds).Pairwise (· ≤ ·)) :
    follow root bound (pageLinks.head 0 pages) walk = .ok (pages.foldl Walk.meet walk) := by
  induction pages generalizing bound walk with
  | nil => cases bound <;> rfl
  | cons page rest ih =>
    obtain ⟨bound, rfl⟩ : ∃ less, bound = less + 1 := ⟨bound - 1, by simp at enough; omega⟩
    obtain ⟨previous, next, others⟩ := linked
    have own : page.id ≠ 0 := named page mem_cons_self
    have found : walk.left.get page.id = some page :=
      get_eq_some.mpr (held page mem_cons_self)
    rw [map_cons, nodup_cons] at nodup
    rw [itemTotal, map_cons, sum_cons] at room
    have fits :
      ¬(page.previous ≠ walk.previous ∨ root.itemCount - walk.count < page.itemCount) := by
      rintro (other | above)
      · exact other previous
      · omega
    have inOrder : ¬(root.kind = .sortedSet ∧
        walk.groups.getLast?.any (fun back => page.minScore.less back.maxScore) = true) := by
      rintro ⟨kind, crossed⟩
      obtain ⟨back, last, less⟩ := (Option.any_eq_true _ _).mp crossed
      obtain ⟨before, split⟩ := getLast?_eq_some_iff.mp last
      have sorted := ordered kind
      rw [split, flatMap_append, pairwise_append] at sorted
      have level := sorted.2.2 back.maxScore.rank (by simp [bounds]) page.minScore.rank
        (by simp [bounds])
      simp only [Score.less, Bool.and_eq_true, decide_eq_true_eq] at less
      omega
    have later : ∀ other ∈ rest, (other.id, other) ∈ (walk.meet page).left.entries := by
      intro other mem
      refine mem_erase.mpr ⟨held other (mem_cons_of_mem _ mem), ?_⟩
      intro same
      exact nodup.1 (mem_map.mpr ⟨other, mem, same⟩)
    have followed : follow root bound (pageLinks.head 0 rest) (walk.meet page) =
        .ok (rest.foldl Walk.meet (walk.meet page)) := ih
      (by simp at enough; omega) others later nodup.2
      (fun other mem => named other (mem_cons_of_mem _ mem))
      (by simp only [Walk.meet, itemTotal]; omega)
      (fun kind => by simpa [Walk.meet] using ordered kind)
    show follow root (bound + 1) page.id walk = _
    unfold follow
    rw [if_neg own, found]
    refine refuseIf_bind.mpr ⟨fits, refuseIf_bind.mpr ⟨inOrder, ?_⟩⟩
    rw [show page.next = pageLinks.head 0 rest from next, followed]
    rfl

/-! ## Winners -/

theorem mem_activeWinners {entry : Nat × RecoveredOrderedGroup} :
    entry ∈ (activeWinners winners).entries ↔
      entry ∈ winners.entries ∧ entry.2.retired = false := by
  have general : ∀ (items : List (Nat × RecoveredOrderedGroup))
      (active : OrderedMap Nat RecoveredOrderedGroup),
      entry ∈ (items.foldl (fun active winner =>
        if winner.2.retired then active.erase winner.1 else active) active).entries ↔
        entry ∈ active.entries ∧ ∀ item ∈ items, item.2.retired = true → item.1 ≠ entry.1 := by
    intro items
    induction items with
    | nil => simp
    | cons item rest ih =>
      intro active
      rw [foldl_cons, ih]
      cases retired : item.2.retired with
      | false => simp [retired]
      | true =>
        simp only [reduceIte, mem_erase, forall_mem_cons, retired, true_implies, and_assoc, ne_comm]
  unfold activeWinners
  rw [general]
  constructor
  · rintro ⟨held, others⟩
    refine ⟨held, Bool.eq_false_iff.mpr fun retired => ?_⟩
    exact others entry held retired rfl
  · rintro ⟨held, active⟩
    refine ⟨held, fun item mem retired same => ?_⟩
    have eq : item.2 = entry.2 := value_unique mem (same ▸ held)
    rw [eq, active] at retired
    cases retired

theorem recover_succeeds {rootSequence commandSequence : Nat}
    {candidates pages : List RecoveredOrderedGroup} {committed : List Nat}
    {members : Option HashGroupDirectory} (rooted : Rooted root rootSequence members)
    (collected : (winnerReader root rootSequence committed).collect candidates = .ok winners)
    (active : ∀ entry, entry ∈ winners.entries ∧ entry.2.retired = false ↔
      ∃ page ∈ pages, entry = (page.id, page)) (chain : PageChain root pages) :
    recover root rootSequence candidates committed commandSequence members =
      .ok (chainDirectory root rootSequence commandSequence pages (retiredWinners winners)
        members) := by
  have held : ∀ entry, entry ∈ (activeWinners winners).entries ↔
      ∃ page ∈ pages, entry = (page.id, page) := by
    intro entry
    rw [mem_activeWinners, active]
  have size : (activeWinners winners).size = pages.length := by
    have nodup : (pages.map fun page => (page.id, page)).Nodup := by
      have ids := chain.distinct
      rw [nodup_iff_pairwise_ne, pairwise_map] at ids ⊢
      exact ids.imp fun ne same => ne (congrArg Prod.fst same)
    have permuted :
      (activeWinners winners).entries.Perm (pages.map fun page => (page.id, page)) := by
      rw [perm_ext_iff_of_nodup (activeWinners winners).nodup nodup]
      intro entry
      simp only [held, mem_map, eq_comm]
    rw [size_eq, permuted.length_eq, length_map]
  have followed : follow root (activeWinners winners).size root.firstGroup
      { left := activeWinners winners } =
        .ok (pages.foldl Walk.meet { left := activeWinners winners }) := by
    rw [chain.first]
    apply follow_succeeds size.ge chain.linked
      (fun page mem => (held _).mpr ⟨page, mem, rfl⟩) chain.distinct chain.named
    · simp only [Nat.zero_add]
      exact chain.counted.le
    · simpa using chain.ordered
  have met := met_foldl { left := activeWinners winners } pages
  have none : (pages.foldl Walk.meet { left := activeWinners winners }).left.entries = [] := by
    apply eq_nil_iff_forall_not_mem.mpr
    intro entry mem
    obtain ⟨before, others⟩ := (met.left entry).mp mem
    obtain ⟨page, listed, rfl⟩ := (held entry).mp before
    exact others page listed rfl
  refine refuseIf_bind.mpr ⟨by simp [rooted.indexed], refuseIf_bind.mpr ⟨?_,
    bind_returns.mpr ⟨winners, collected, refuseIf_bind.mpr ⟨?_,
      bind_returns.mpr ⟨_, followed, refuseIf_bind.mpr ⟨?_, ?_⟩⟩⟩⟩⟩⟩
  · have sequenced := rooted.sequenced
    have revised := rooted.revised
    rw [rooted.valid]
    simp only [Bool.true_eq_false, false_or]
    omega
  · rw [size, chain.sized]
    simp
  · rw [none, met.previous, met.count, chain.last, ← chain.counted]
    simp
  · rw [met.groups, met.ids, met.ends]
    rfl

end Lavik.Storage.OrderedGroupDirectory
