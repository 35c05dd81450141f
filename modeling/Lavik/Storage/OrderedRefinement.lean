import Lavik.Storage.OrderedRelink
/-!
# Splices refine splices of the sequence of items

The pages of a directory spell a sequence of items. The plan of a splice is accepted as an update,
and the pages after it spell the spliced sequence. The chain of pages, its counts and the identities
stay sound, and a Sorted Set stays ordered.
-/

namespace Lavik.Storage

open Base OrderedGroupDirectory List Links

/-! ## Score bounds -/

def pageBounds (page : OrderedGroupSnapshot) : List Int := bounds (draft page)

variable {page : OrderedGroupSnapshot} {first last : OrderedCollectionEntry}
  {others : List OrderedGroupSnapshot} {records : List RecoveredOrderedGroup}
  {revision rank eraseCount targetBytes : Nat} {plan : OrderedCollectionMutationPlan}

theorem pageBounds_eq (headed : page.entries.head? = some first)
    (ended : page.entries.getLast? = some last) :
    pageBounds page = [first.score.rank, last.score.rank] := by
  simp [pageBounds, bounds, draft, pageRecord, headed, ended]

variable {entries : List OrderedCollectionEntry}

theorem exists_ends (ne : entries ≠ []) :
    ∃ first last, entries.head? = some first ∧ entries.getLast? = some last :=
  ⟨entries.head ne, entries.getLast ne, head?_eq_some_head ne, getLast?_eq_some_getLast ne⟩

theorem rank_between (increasing : Increasing entries) (headed : entries.head? = some first)
    (ended : entries.getLast? = some last) {entry : OrderedCollectionEntry}
    (mem : entry ∈ entries) :
    first.score.rank ≤ entry.score.rank ∧ entry.score.rank ≤ last.score.rank := by
  constructor
  · obtain ⟨rest, rfl⟩ := head?_eq_some_iff.mp headed
    rcases mem_cons.mp mem with rfl | later
    · exact le_rfl
    · exact rank_le_of_less ((pairwise_cons.mp increasing).1 entry later)
  · obtain ⟨front, rfl⟩ := getLast?_eq_some_iff.mp ended
    rcases mem_append.mp mem with earlier | own
    · exact rank_le_of_less ((pairwise_append.mp increasing).2.2 entry earlier last (by simp))
    · rw [mem_singleton.mp own]

theorem mem_pageBounds (ne : page.entries ≠ []) {bound : Int}
    (mem : bound ∈ pageBounds page) : ∃ entry ∈ page.entries, entry.score.rank = bound := by
  obtain ⟨first, last, headed, ended⟩ := exists_ends ne
  rw [pageBounds_eq headed ended] at mem
  simp only [mem_cons, not_mem_nil, or_false] at mem
  rcases mem with rfl | rfl
  · exact ⟨first, mem_of_head? headed, rfl⟩
  · exact ⟨last, mem_of_getLast? ended, rfl⟩

variable {pages : List OrderedGroupSnapshot}

theorem pageBounds_same (same : List.Forall₂ SameItems pages others) :
    pages.flatMap pageBounds = others.flatMap pageBounds := by
  have mapped : pages.map pageBounds = others.map pageBounds := by
    rw [← forall₂_eq_eq_eq, forall₂_map_left_iff, forall₂_map_right_iff]
    refine same.imp fun page other own => ?_
    simp [pageBounds, bounds, draft, pageRecord, own.entries]
  rw [flatMap_def, mapped, flatMap_def]

section

variable (ne : ∀ page ∈ pages, page.entries ≠ [])

include ne

theorem pageBounds_ordered (increasing : Increasing (spelled pages)) :
    (pages.flatMap pageBounds).Pairwise (· ≤ ·) := by
  rw [Increasing, spelled, pairwise_flatMap] at increasing
  rw [pairwise_flatMap]
  refine ⟨fun page mem => ?_, increasing.2.imp_of_mem ?_⟩
  · obtain ⟨first, last, headed, ended⟩ := exists_ends (ne page mem)
    rw [pageBounds_eq headed ended]
    have listed := mem_of_getLast? ended
    simpa using (rank_between (increasing.1 page mem) headed ended listed).1
  · intro left right first second less low lowMember high highMember
    obtain ⟨lower, lowerListed, rfl⟩ := mem_pageBounds (ne left first) lowMember
    obtain ⟨upper, upperListed, rfl⟩ := mem_pageBounds (ne right second) highMember
    exact rank_le_of_less (less lower lowerListed upper upperListed)

theorem pageBounds_head :
    (pages.flatMap pageBounds).head? = (spelled pages).head?.map fun entry => entry.score.rank := by
  cases pages with
  | nil => rfl
  | cons page rest =>
    obtain ⟨first, last, headed, ended⟩ := exists_ends (ne page mem_cons_self)
    rw [flatMap_cons, spelled, flatMap_cons, pageBounds_eq headed ended,
      head?_append, head?_append, headed]
    rfl

theorem pageBounds_last :
    (pages.flatMap pageBounds).getLast? =
      (spelled pages).getLast?.map fun entry => entry.score.rank := by
  rcases eq_nil_or_concat pages with rfl | ⟨before, page, rfl⟩
  · rfl
  · obtain ⟨first, last, headed, ended⟩ := exists_ends (ne page (by simp))
    simp [spelled, pageBounds_eq headed ended, ended]

end

theorem pairwise_insert {Item : Type} {before : Item → Item → Prop} [Trans before before before]
    {left middle right : List Item} (outer : (left ++ right).Pairwise before)
    (own : middle.Pairwise before)
    (lower : ∀ last ∈ left.getLast?, ∀ first ∈ middle.head?, before last first)
    (upper : ∀ last ∈ middle.getLast?, ∀ first ∈ right.head?, before last first) :
    (left ++ middle ++ right).Pairwise before := by
  by_cases none : middle = []
  · rwa [none, append_nil]
  have ended : (left ++ middle).getLast? = middle.getLast? := by
    rw [getLast?_append_of_ne_nil _ none]
  rw [pairwise_append] at outer
  rw [← isChain_iff_pairwise] at own ⊢
  rw [isChain_append, isChain_append, ended]
  exact ⟨⟨isChain_iff_pairwise.mpr outer.1, own, lower⟩, isChain_iff_pairwise.mpr outer.2.1, upper⟩

structure Between (left right : List OrderedGroupSnapshot)
    (entries : List OrderedCollectionEntry) : Prop where
  lower : ∀ last ∈ (spelled left).getLast?, ∀ first ∈ entries.head?,
    orderedEntryLess last first = true
  upper : ∀ last ∈ entries.getLast?, ∀ first ∈ (spelled right).head?,
    orderedEntryLess last first = true

variable {left right : List OrderedGroupSnapshot}

theorem checkBounds_returns {kind : OrderedCollectionKind} {done : Unit}
    (leftSome : ∀ page ∈ left, page.entries ≠ []) (rightSome : ∀ page ∈ right, page.entries ≠ [])
    (set : kind = .sortedSet)
    (ok : checkBounds kind ⟨left.getLast?, records, right.head?⟩ entries = .ok done) :
    Between left right entries := by
  obtain ⟨below, above⟩ := refuseIf_bind.mp ok
  have top := refuseIf_returns.mp above
  constructor
  · intro last ended first headed
    have some : entries ≠ [] := by
      rintro rfl
      cases headed
    rcases eq_nil_or_concat left with rfl | ⟨before, page, rfl⟩
    · cases ended
    rw [concat_eq_append] at leftSome ended below
    have own := leftSome page (by simp)
    rw [spelled_append, getLast?_append_of_ne_nil _ (by simpa [spelled] using own)] at ended
    have less :
      orderedEntryLess (page.entries.getLastD default) (entries.headD default) = true := by
      by_contra wrong
      exact below ⟨set, some, by simpa using wrong⟩
    rwa [getLastD_eq_getLast?, show page.entries.getLast? = Option.some last by
      simpa [spelled] using ended, headD_eq_head?_getD, headed] at less
  · intro last ended first headed
    have some : entries ≠ [] := by
      rintro rfl
      cases ended
    cases right with
    | nil => cases headed
    | cons page rest =>
      have own := rightSome page mem_cons_self
      have less :
        orderedEntryLess (entries.getLastD default) (page.entries.headD default) = true := by
        by_contra wrong
        exact top ⟨set, some, by simpa using wrong⟩
      have front : page.entries.head? = Option.some first := by
        rw [spelled, flatMap_cons, head?_append_of_ne_nil _ own] at headed
        exact headed
      rwa [getLastD_eq_getLast?, ended, headD_eq_head?_getD, front] at less

theorem Between.bounds {leaves : List OrderedGroupSnapshot}
    (between : Between left right (spelled leaves)) (leftSome : ∀ page ∈ left, page.entries ≠ [])
    (leavesSome : ∀ page ∈ leaves, page.entries ≠ [])
    (rightSome : ∀ page ∈ right, page.entries ≠ []) (own : Increasing (spelled leaves))
    (before : ((left ++ right).flatMap pageBounds).Pairwise (· ≤ ·)) :
    ((left ++ leaves ++ right).flatMap pageBounds).Pairwise (· ≤ ·) := by
  rw [flatMap_append] at before
  rw [flatMap_append, flatMap_append]
  apply pairwise_insert before (pageBounds_ordered leavesSome own)
  · rw [pageBounds_last leftSome, pageBounds_head leavesSome]
    intro low lowEnd high highEnd
    obtain ⟨last, ended, rfl⟩ := Option.map_eq_some_iff.mp lowEnd
    obtain ⟨first, headed, rfl⟩ := Option.map_eq_some_iff.mp highEnd
    exact rank_le_of_less (between.lower last ended first headed)
  · rw [pageBounds_last leavesSome, pageBounds_head rightSome]
    intro low lowEnd high highEnd
    obtain ⟨last, ended, rfl⟩ := Option.map_eq_some_iff.mp lowEnd
    obtain ⟨first, headed, rfl⟩ := Option.map_eq_some_iff.mp highEnd
    exact rank_le_of_less (between.upper last ended first headed)

/-! ## Pages of a directory -/

structure SoundPage (root : OrderedCollectionRoot) (page : OrderedGroupSnapshot) : Prop where
  kind : page.kind = root.kind
  incarnation : page.incarnation = root.incarnation
  active : page.retired = false
  named : page.id ≠ 0
  below : page.id < root.nextGroupId
  nonempty : page.entries ≠ []
  low : (draft page).minScore.isNan = false
  high : (draft page).maxScore.isNan = false
  order : (draft page).maxScore.less (draft page).minScore = false

variable {dir : OrderedGroupDirectory}

theorem PagesOf.sound (stored : PagesOf dir pages) : ∀ page ∈ pages, SoundPage dir.root page := by
  intro page mem
  obtain ⟨record, listed, own⟩ := forall₂_mem_left stored.held mem
  obtain ⟨active, admissible⟩ := stored.live.groups record listed
  obtain ⟨named, below, -, -, -, state, low, high, order⟩ :=
    checkCandidate_iff.mp admissible.passed
  obtain ⟨-, -, count, retired, min, max⟩ := sameMetadata_iff.mp own.view.2
  have id : record.id = page.id := own.view.1
  rw [active, if_neg Bool.false_ne_true, count] at state
  rw [id] at named below
  rw [min, max] at order
  exact ⟨own.kind, own.incarnation, retired.symm.trans active, named, below,
    fun none => state (length_eq_zero_iff.mpr none), min ▸ low, max ▸ high, order⟩

variable {root : OrderedCollectionRoot}

theorem SoundPage.passed (sound : SoundPage root page) (txid batchTxid : Nat)
    (revised : revision ≠ 0) :
    checkCandidate root (pageRecord revision txid batchTxid page) = .ok () := by
  have active : (pageRecord revision txid batchTxid page).retired = false := sound.active
  have count : (pageRecord revision txid batchTxid page).itemCount ≠ 0 :=
    fun none => sound.nonempty (length_eq_zero_iff.mp none)
  refine checkCandidate_iff.mpr ⟨sound.named, sound.below, revised, revised, sound.named, ?_,
    sound.low, sound.high, sound.order⟩
  rwa [active, if_neg Bool.false_ne_true]

theorem retiredPage_passed {old : OrderedCollectionRoot} {id : Nat} (txid batchTxid : Nat)
    (named : id ≠ 0) (below : id < root.nextGroupId) (revised : revision ≠ 0) :
    checkCandidate root (pageRecord revision txid batchTxid (retiredPage old id)) = .ok () := by
  have number : (0 : Score).isNan = false := by decide
  exact checkCandidate_iff.mpr ⟨named, below, revised, revised, named, ⟨rfl, rfl, rfl⟩, number,
    number, show (0 : Score).less 0 = false by decide⟩

theorem SoundPage.relinked {other : OrderedCollectionRoot} {old : OrderedGroupSnapshot}
    (sound : SoundPage root old) (same : SameItems page old) (kind : other.kind = root.kind)
    (incarnation : other.incarnation = root.incarnation)
    (more : root.nextGroupId ≤ other.nextGroupId) : SoundPage other page := by
  have low : (draft page).minScore = (draft old).minScore := by
    simp [draft, pageRecord, same.entries]
  have high : (draft page).maxScore = (draft old).maxScore := by
    simp [draft, pageRecord, same.entries]
  constructor
  case kind => rw [same.kind, sound.kind, kind]
  case incarnation => rw [same.incarnation, sound.incarnation, incarnation]
  case active => rw [same.retired, sound.active]
  case named => rw [same.id]; exact sound.named
  case below =>
    have below := sound.below
    rw [same.id]
    omega
  case nonempty => rw [same.entries]; exact sound.nonempty
  case low => rw [low]; exact sound.low
  case high => rw [high]; exact sound.high
  case order => rw [low, high]; exact sound.order

theorem SoundPage.of_valid (kind : page.kind = root.kind)
    (incarnation : page.incarnation = root.incarnation) (active : page.retired = false)
    (named : page.id ≠ 0) (below : page.id < root.nextGroupId) (ne : page.entries ≠ [])
    (valid : ValidEntries root.kind page.entries) : SoundPage root page := by
  obtain ⟨first, last, headed, ended⟩ := exists_ends ne
  have low : (draft page).minScore = first.score := by simp [draft, pageRecord, headed]
  have high : (draft page).maxScore = last.score := by simp [draft, pageRecord, ended]
  have firstListed := mem_of_head? headed
  have lastListed := mem_of_getLast? ended
  refine ⟨kind, incarnation, active, named, below, ne, ?_, ?_, ?_⟩
  · rw [low]
    exact valid.number first firstListed
  · rw [high]
    exact valid.number last lastListed
  · rw [low, high, Bool.eq_false_iff, ne_eq, Score.less_iff]
    rintro ⟨-, -, less⟩
    cases own : root.kind with
    | list =>
      rw [valid.zero own first firstListed, valid.zero own last lastListed] at less
      omega
    | sortedSet =>
      have order := (rank_between (valid.increasing own) headed ended lastListed).1
      omega

/-! ## The spliced chain -/

theorem snapshotLinks_ends
    (same : pages.map OrderedGroupSnapshot.id = others.map OrderedGroupSnapshot.id) :
    snapshotLinks.head 0 pages = snapshotLinks.head 0 others ∧
      snapshotLinks.last 0 pages = snapshotLinks.last 0 others := by
  have ends : ∀ items : List OrderedGroupSnapshot,
      snapshotLinks.head 0 items = (items.map OrderedGroupSnapshot.id).head?.getD 0 ∧
        snapshotLinks.last 0 items = (items.map OrderedGroupSnapshot.id).getLast?.getD 0 := by
    intro items
    rw [head?_map, getLast?_map]
    exact ⟨rfl, rfl⟩
  rw [(ends pages).1, (ends pages).2, same]
  exact ⟨(ends others).1.symm, (ends others).2.symm⟩

theorem pageChain_draft (linked : snapshotLinks.Chained 0 pages 0)
    (first : root.firstGroup = snapshotLinks.head 0 pages)
    (last : root.lastGroup = snapshotLinks.last 0 pages)
    (counted : (spelled pages).length = root.itemCount) (sized : pages.length = root.groupCount)
    (distinct : pages.Pairwise fun left right => left.id ≠ right.id)
    (named : ∀ page ∈ pages, page.id ≠ 0)
    (ordered : root.kind = .sortedSet → (pages.flatMap pageBounds).Pairwise (· ≤ ·)) :
    PageChain root (pages.map draft) := by
  constructor
  case linked =>
    apply Links.Chained.congr snapshotLinks _ linked
    rw [forall₂_map_right_iff]
    exact forall₂_same.mpr fun page _ => ⟨rfl, rfl, rfl⟩
  case first =>
    rw [first, Links.head, Links.head, head?_map, Option.map_map]
    rfl
  case last =>
    rw [last, Links.last, Links.last, getLast?_map, Option.map_map]
    rfl
  case counted =>
    rw [← counted, itemTotal, spelled, length_flatMap, map_map]
    rfl
  case sized => rw [length_map, sized]
  case distinct =>
    rw [map_map, nodup_iff_pairwise_ne, pairwise_map]
    exact distinct
  case named => exact forall_mem_map.mpr named
  case ordered =>
    rw [flatMap_map]
    exact ordered

/-- The page behind the stretch before a splice. -/
abbrev afterLeft (split : OrderedGroupSplit) (right : List OrderedGroupSnapshot) : Nat :=
  snapshotLinks.head (snapshotLinks.head 0 right) split.groups

/-- The page before the stretch behind a splice. -/
abbrev beforeRight (left : List OrderedGroupSnapshot) (split : OrderedGroupSplit) : Nat :=
  snapshotLinks.last (snapshotLinks.last 0 left) split.groups

/-- The chain after a splice: its two neighbours point at the pages of the split. -/
def splicedPages (left : List OrderedGroupSnapshot) (split : OrderedGroupSplit)
    (right : List OrderedGroupSnapshot) : List OrderedGroupSnapshot :=
  linkedBefore left (afterLeft split right) ++ split.groups ++
    linkedAfter (beforeRight left split) right

variable (root)

def splicedRoot (count : Nat) (left : List OrderedGroupSnapshot) (selected : Nat)
    (split : OrderedGroupSplit) (right : List OrderedGroupSnapshot) : OrderedCollectionRoot :=
  { root with
    revision := 0
    itemCount := count
    nextGroupId := split.nextGroupId
    firstGroup := if left.getLast?.isNone then afterLeft split right else root.firstGroup
    lastGroup := if right.head?.isNone then beforeRight left split else root.lastGroup
    groupCount := root.groupCount - selected + split.groups.length }

/-- What the stretches before, at and behind a splice inherit from the directory. -/
structure Stretches (left selected right : List OrderedGroupSnapshot)
    : Prop where
  leftDistinct : left.Pairwise fun left right => left.id ≠ right.id
  selectedDistinct : selected.Pairwise fun left right => left.id ≠ right.id
  rightDistinct : right.Pairwise fun left right => left.id ≠ right.id
  leftSelected : ∀ page ∈ left, ∀ other ∈ selected, page.id ≠ other.id
  leftRight : ∀ page ∈ left, ∀ other ∈ right, page.id ≠ other.id
  selectedRight : ∀ page ∈ selected, ∀ other ∈ right, page.id ≠ other.id
  leftSound : ∀ page ∈ left, SoundPage root page
  selectedSound : ∀ page ∈ selected, SoundPage root page
  rightSound : ∀ page ∈ right, SoundPage root page

variable {root}

theorem Stretches.same {selected : List OrderedGroupSnapshot}
    (apart : Stretches root left selected right) (split : OrderedGroupSplit) :
    List.Forall₂ SameItems (splicedPages left split right) (left ++ split.groups ++ right) :=
  rel_append (rel_append (relinked_before _ [] none apart.leftDistinct).same
    (forall₂_same.mpr fun _ _ => ⟨rfl, rfl, rfl, rfl, rfl⟩))
    (relinked_after _ [] none apart.rightDistinct).same

section Spliced

variable {dir : OrderedGroupDirectory} {pages left selected right : List OrderedGroupSnapshot}
  (stored : PagesOf dir pages) {offset : Nat}
  (selects : Selects dir pages rank eraseCount left selected right records offset)
  {entries : List OrderedCollectionEntry} {split : OrderedGroupSplit}
  (made : NewPages dir.root left selected right entries targetBytes split)

include stored selects

theorem Selects.stretches : Stretches dir.root left selected right := by
  have nodup := stored.distinct
  rw [selects.whole, pairwise_append, pairwise_append, forall_mem_append] at nodup
  obtain ⟨⟨first, second, cross⟩, third, apart⟩ := nodup
  have sound := stored.sound
  rw [selects.whole, forall_mem_append, forall_mem_append] at sound
  exact ⟨first, second, third, cross, apart.1, apart.2, sound.1.1, sound.1.2, sound.2⟩

include made

theorem spliced_covers : Covers pages (splicedPages left split right)
    (split.groups ++ retirements dir.root split records ++
      relinkBefore ⟨left.getLast?, records, right.head?⟩ (afterLeft split right) ++
      relinkAfter ⟨left.getLast?, records, right.head?⟩ (beforeRight left split)) := by
  obtain ⟨leftDistinct, selectedDistinct, rightDistinct, leftSelected, leftRight, selectedRight,
    leftSound, selectedSound, rightSound⟩ := selects.stretches stored
  have before := relinked_before (afterLeft split right) records right.head? leftDistinct
  have after := relinked_after (beforeRight left split) records left.getLast? rightDistinct
  have middle := made.covers selects.parallel selectedDistinct fun page mem =>
    (selectedSound page mem).below
  have origin := made.origin selects.parallel selects.nonempty
  -- a relinked page has the identity of a page of its stretch
  have source : ∀ {old next writes : List OrderedGroupSnapshot}, Relinked old next writes →
      ∀ write ∈ writes, ∃ page ∈ old, page.id = write.id := by
    intro old next writes relinked write mem
    obtain ⟨page, listed, same⟩ := forall₂_mem_left relinked.same (relinked.relinks write mem)
    exact ⟨page, listed, same.id.symm⟩
  have leftIds : ∀ page ∈ left ++ relinkBefore ⟨left.getLast?, records, right.head?⟩
      (afterLeft split right), ∃ own ∈ left, own.id = page.id :=
    forall_mem_append.mpr ⟨fun page mem => ⟨page, mem, rfl⟩, source before⟩
  have rightIds : ∀ page ∈ right ++ relinkAfter ⟨left.getLast?, records, right.head?⟩
      (beforeRight left split), ∃ own ∈ right, own.id = page.id :=
    forall_mem_append.mpr ⟨fun page mem => ⟨page, mem, rfl⟩, source after⟩
  have middleIds : ∀ page ∈ selected ++ (split.groups ++ retirements dir.root split records),
      (∃ own ∈ selected, own.id = page.id) ∨ dir.root.nextGroupId ≤ page.id :=
    forall_mem_append.mpr ⟨fun page mem => .inl ⟨page, mem, rfl⟩,
      fun page mem => (origin page mem).imp id And.left⟩
  have front := before.covers.append middle (by
    intro page first other second same
    obtain ⟨own, listed, named⟩ := leftIds page first
    rcases middleIds other second with ⟨held, chosen, eq⟩ | fresh
    · exact leftSelected own listed held chosen (named.trans (same.trans eq.symm))
    · have below := (leftSound own listed).below
      omega)
  have whole := front.append after.covers (by
    intro page first other second same
    obtain ⟨held, chosen, eq⟩ := rightIds other second
    have below := (rightSound held chosen).below
    simp only [mem_append] at first
    rcases first with (mem | mem) | (mem | mem)
    · exact leftRight page mem held chosen (same.trans eq.symm)
    · exact selectedRight page mem held chosen (same.trans eq.symm)
    · obtain ⟨own, listed, named⟩ := source before page mem
      exact leftRight own listed held chosen (named.trans (same.trans eq.symm))
    · rcases origin page (mem_append.mpr mem) with ⟨own, listed, named⟩ | fresh
      · exact selectedRight own listed held chosen (named.trans (same.trans eq.symm))
      · omega)
  rw [← selects.whole] at whole
  apply whole.perm
  apply List.Perm.append_right
  exact perm_append_comm

theorem spliced_chained : snapshotLinks.Chained 0 (splicedPages left split right) 0 := by
  have apart := selects.stretches stored
  have linked := stored.linked
  rw [selects.whole, chained_append, chained_append] at linked
  obtain ⟨⟨leftLinked, -⟩, rightLinked⟩ := linked
  have leftEnds := snapshotLinks_ends (sameItems_ids (relinked_before
    (afterLeft split right) [] none apart.leftDistinct).same)
  have rightEnds := snapshotLinks_ends (sameItems_ids (relinked_after
    (beforeRight left split) [] none apart.rightDistinct).same)
  rw [splicedPages, chained_append, chained_append, last_append, rightEnds.1, leftEnds.2]
  exact ⟨⟨linkedBefore_chained _ leftLinked, made.chained⟩, linkedAfter_chained _ rightLinked⟩

theorem spliced_distinct : (left ++ split.groups ++ right).Pairwise
    fun left right => left.id ≠ right.id := by
  have apart := selects.stretches stored
  have origin : ∀ leaf ∈ split.groups, (∃ page ∈ selected, page.id = leaf.id) ∨
      dir.root.nextGroupId ≤ leaf.id := fun leaf mem =>
    (made.origin selects.parallel selects.nonempty leaf (mem_append_left _ mem)).imp id And.left
  have leftLeaf : ∀ page ∈ left, ∀ leaf ∈ split.groups, page.id ≠ leaf.id := by
    intro page listed leaf mem same
    rcases origin leaf mem with ⟨own, chosen, eq⟩ | fresh
    · exact apart.leftSelected page listed own chosen (same.trans eq.symm)
    · have below := (apart.leftSound page listed).below
      omega
  have leafRight : ∀ leaf ∈ split.groups, ∀ page ∈ right, leaf.id ≠ page.id := by
    intro leaf mem page listed same
    rcases origin leaf mem with ⟨own, chosen, eq⟩ | fresh
    · exact apart.selectedRight own chosen page listed (eq.trans same)
    · have below := (apart.rightSound page listed).below
      omega
  rw [pairwise_append, pairwise_append, forall_mem_append]
  exact ⟨⟨apart.leftDistinct, made.distinct, leftLeaf⟩, apart.rightDistinct, apart.leftRight,
    leafRight⟩

theorem spliced_sound (valid : ValidEntries dir.root.kind entries)
    (root : OrderedCollectionRoot) (kind : root.kind = dir.root.kind)
    (incarnation : root.incarnation = dir.root.incarnation)
    (next : root.nextGroupId = split.nextGroupId) :
    ∀ page ∈ splicedPages left split right, SoundPage root page := by
  have apart := selects.stretches stored
  have more := made.more
  rw [← next] at more
  intro page mem
  obtain ⟨old, listed, same⟩ := forall₂_mem_left (apart.same split) mem
  simp only [mem_append] at listed
  rcases listed with (early | leaf) | late
  · exact (apart.leftSound old early).relinked same kind incarnation more
  · have own : SoundPage root old := by
      obtain ⟨leafKind, leafIncarnation, active⟩ := made.alike old leaf
      have entriesValid : ValidEntries root.kind old.entries := by
        rw [kind]
        exact (made.entries ▸ valid).page leaf
      have named : old.id ≠ 0 ∧ old.id < root.nextGroupId := by
        rcases made.origin selects.parallel selects.nonempty old (mem_append_left _ leaf) with
          ⟨held, chosen, eq⟩ | ⟨fresh, below⟩
        · have heldSound := apart.selectedSound held chosen
          have pos := heldSound.named
          have below := heldSound.below
          omega
        · obtain ⟨first, rest, rfl⟩ := exists_cons_of_ne_nil selects.nonempty
          have pos := (apart.selectedSound first mem_cons_self).below
          omega
      exact .of_valid (leafKind.trans kind.symm) (leafIncarnation.trans incarnation.symm) active
        named.1 named.2 (made.nonempty old leaf) entriesValid
    exact own.relinked same rfl rfl le_rfl
  · exact (apart.rightSound old late).relinked same kind incarnation more

omit stored selects in
theorem spelled_spliced
    (same : List.Forall₂ SameItems (splicedPages left split right) (left ++ split.groups ++ right))
    : spelled (splicedPages left split right) = spelled left ++ entries ++ spelled right := by
  rw [spelled, flatMap_def, sameItems_entries same, ← flatMap_def, ← made.entries,
    ← spelled_append, ← spelled_append]
  rfl

variable {count : Nat} (valid : ValidEntries dir.root.kind entries)
  (between : dir.root.kind = .sortedSet → Between left right entries)
  (counted : (spelled left ++ entries ++ spelled right).length = count)

include valid between counted

theorem spliced_chain :
    PageChain (splicedRoot dir.root count left records.length split right)
      ((splicedPages left split right).map draft) := by
  have apart := selects.stretches stored
  have same := apart.same split
  have ends := snapshotLinks_ends (sameItems_ids same)
  have chain := stored.chain
  rw [selects.whole] at chain
  apply pageChain_draft (spliced_chained stored selects made)
  case first =>
    rw [ends.1]
    cases left with
    | nil => exact (snapshotLinks.head_append 0 split.groups right).symm
    | cons page rest => exact chain.first
  case last =>
    rw [ends.2]
    rcases eq_nil_or_concat right with rfl | ⟨before, page, rfl⟩
    · rw [append_nil, last_append]
      rfl
    have own : dir.root.lastGroup = page.id := by
      rw [chain.last, concat_eq_append, ← append_assoc, map_append]
      exact last_concat pageLinks 0 _ (draft page)
    rw [concat_eq_append, ← append_assoc, last_concat]
    simp only [splicedRoot, own]
    simp [snapshotLinks]
  case counted =>
    rw [spelled_spliced made same, counted]
    rfl
  case sized =>
    have size := chain.sized
    have length := selects.parallel.length_eq
    rw [same.length_eq]
    simp only [length_map, length_append] at size ⊢
    show _ = dir.root.groupCount - records.length + split.groups.length
    omega
  case distinct =>
    rw [← pairwise_map, sameItems_ids same, pairwise_map]
    exact spliced_distinct stored selects made
  case named =>
    intro page mem
    exact (spliced_sound stored selects made valid
      (splicedRoot dir.root count left records.length split right) rfl rfl rfl page mem).named
  case ordered =>
    intro set
    have old := chain.ordered set
    rw [flatMap_map, flatMap_append, flatMap_append, pairwise_append,
      pairwise_append, forall_mem_append] at old
    obtain ⟨⟨leftOrdered, -, -⟩, rightOrdered, leftRight, -⟩ := old
    have outer : ((left ++ right).flatMap pageBounds).Pairwise (· ≤ ·) := by
      rw [flatMap_append, pairwise_append]
      exact ⟨leftOrdered, rightOrdered, leftRight⟩
    rw [pageBounds_same same]
    have fits := between set
    have increasing := valid.increasing set
    rw [← made.entries] at fits increasing
    exact fits.bounds (fun page mem => (apart.leftSound page mem).nonempty) made.nonempty
      (fun page mem => (apart.rightSound page mem).nonempty) increasing outer

theorem spliced_rewrites (pos : count ≠ 0)
    (small : count ≤ maxU32) {plan planned : OrderedCollectionMutationPlan}
    (begun : plan.root = { dir.root with revision := 0, itemCount := count })
    (ended : planned = planPages dir.root plan ⟨left.getLast?, records, right.head?⟩
      (snapshotLinks.last 0 left) (snapshotLinks.head 0 right) split) :
    Rewrites dir pages planned.root planned.writes (splicedPages left split right) := by
  have apart := selects.stretches stored
  have same := apart.same split
  have root : planned.root = splicedRoot dir.root count left records.length split right := by
    simp only [ended, planPages, begun]
    rfl
  have writes : planned.writes = split.groups ++ retirements dir.root split records ++
      relinkBefore ⟨left.getLast?, records, right.head?⟩ (afterLeft split right) ++
      relinkAfter ⟨left.getLast?, records, right.head?⟩ (beforeRight left split) := by
    rw [ended]
    rfl
  rw [root, writes]
  have sound := spliced_sound stored selects made valid
    (splicedRoot dir.root count left records.length split right) rfl rfl rfl
  have covers := spliced_covers stored selects made
  -- a write is a page of the new chain or a marker
  have written : ∀ write ∈ planned.writes,
      write ∈ splicedPages left split right ∨ write ∈ retirements dir.root split records := by
    intro write parts
    rw [writes] at parts
    simp only [mem_append] at parts
    simp only [splicedPages, mem_append]
    rcases parts with ((leaf | gone) | before) | after
    · exact .inl (.inl (.inr leaf))
    · exact .inr gone
    · exact .inl (.inl (.inl
        ((relinked_before _ records right.head? apart.leftDistinct).relinks write before)))
    · exact .inl (.inr
        ((relinked_after _ records left.getLast? apart.rightDistinct).relinks write after))
  rw [writes] at written
  constructor
  case kind => rfl
  case incarnation => rfl
  case more => exact made.more
  case small => exact small
  case chain => exact spliced_chain stored selects made valid between counted
  case present =>
    intro none
    have spells := spelled_spliced made same
    rw [none] at spells
    rw [← spells] at counted
    exact pos counted.symm
  case nonempty => exact fun page mem => (sound page mem).nonempty
  case active => exact fun page mem => (sound page mem).active
  case covers => exact covers
  case alike =>
    intro write mem
    rcases written write mem with next | gone
    · exact ⟨(sound write next).kind, (sound write next).incarnation⟩
    · obtain ⟨group, -, rfl⟩ := mem_map.mp gone
      exact ⟨rfl, rfl⟩
  case fresh =>
    intro write mem active
    obtain ⟨old, listed, own⟩ := forall₂_mem_left same (covers.written write mem active)
    rw [selects.whole, own.id]
    simp only [mem_append] at listed
    rcases listed with (early | leaf) | late
    · exact .inl ⟨old, by simp [early], rfl⟩
    · rcases made.origin selects.parallel selects.nonempty old (mem_append_left _ leaf) with
        ⟨held, chosen, eq⟩ | ⟨fresh, -⟩
      · exact .inl ⟨held, by simp [chosen], eq⟩
      · exact .inr fresh
    · exact .inl ⟨old, by simp [late], rfl⟩
  case passed =>
    intro write mem revision txid batchTxid revised
    rcases written write mem with next | gone
    · exact (sound write next).passed txid batchTxid revised
    obtain ⟨-, page, chosen, same⟩ := retirements_named selects.parallel gone
    have own := stored.sound page (by rw [selects.whole]; simp [chosen])
    obtain ⟨group, -, rfl⟩ := mem_map.mp gone
    have id : page.id = group.id := same
    exact retiredPage_passed txid batchTxid (id ▸ own.named)
      (id ▸ own.below.trans_le made.more) revised

end Spliced

/-! ## Refinement -/

def spliceList (rank eraseCount : Nat) (entries items : List OrderedCollectionEntry) :
    List OrderedCollectionEntry :=
  items.take rank ++ entries ++ items.drop (rank + eraseCount)

theorem PagesOf.counted (stored : PagesOf dir pages) :
    (spelled pages).length = dir.root.itemCount := by
  rw [← itemTotal_spelled stored.held, stored.live.chain.counted]

theorem Selects.spliced {selected : List OrderedGroupSnapshot} {offset : Nat}
    (selects : Selects dir pages rank eraseCount left selected right records offset)
    (entries : List OrderedCollectionEntry) :
    spelled left ++ ((spelled selected).take offset ++ entries ++
      (spelled selected).drop (offset + eraseCount)) ++ spelled right =
        spliceList rank eraseCount entries (spelled pages) := by
  have range := selects.range
  have whole : spelled pages = spelled left ++ (spelled selected ++ spelled right) := by
    rw [selects.whole, spelled_append, spelled_append, append_assoc]
  rw [spliceList, whole, ← selects.rank, take_length_add_append,
    take_append_of_le_length (by omega), Nat.add_assoc, drop_length_add_append,
    drop_append_of_le_length (by omega)]
  simp only [append_assoc]

theorem planReplacement_returns {window : SpliceWindow} {replacement : OrderedGroupSnapshot}
    {additions : Nat}
    (planned : planReplacement dir window replacement eraseCount additions targetBytes = .ok plan) :
    ValidEntries dir.root.kind replacement.entries ∧
    checkBounds dir.root.kind window replacement.entries = .ok () ∧
    (dir.root.itemCount - eraseCount + additions = 0 ∧ plan.changed = true ∧ plan.deleteKey = true ∨
      dir.root.itemCount - eraseCount + additions ≠ 0 ∧ plan.changed = true ∧
        plan.deleteKey = false ∧ ∃ begun split, begun.root = { dir.root with
          revision := 0, itemCount := dir.root.itemCount - eraseCount + additions } ∧
        splitReplacement dir.root replacement targetBytes = .ok split ∧
        plan = planPages dir.root begun window replacement.previous replacement.next split) := by
  obtain ⟨_, validated, second⟩ := bind_returns.mp planned
  obtain ⟨_, bounded, third⟩ := bind_returns.mp second
  refine ⟨validateOrderedEntries_returns validated, bounded, ?_⟩
  dsimp only at third
  split at third
  · next none =>
    cases third
    exact .inl ⟨none, rfl, rfl⟩
  next some =>
  obtain ⟨split, made, ended⟩ := bind_returns.mp third
  cases ended
  exact .inr ⟨some, rfl, rfl, _, split, rfl, made, rfl⟩

/-- What a plan that keeps the key does to the pages of a directory. -/
structure Splices (dir : OrderedGroupDirectory) (pages : List OrderedGroupSnapshot)
    (rank eraseCount : Nat) (entries : List OrderedCollectionEntry) (targetBytes : Nat)
    (plan : OrderedCollectionMutationPlan) (next : List OrderedGroupSnapshot) : Prop where
  rewrites : Rewrites dir pages plan.root plan.writes next
  spells : spelled next = spliceList rank eraseCount entries (spelled pages)
  replaces : ∃ left selected right records offset written,
    Selects dir pages rank eraseCount left selected right records offset ∧
    List.Forall₂ SameItems next (left ++ written ++ right) ∧
    ∀ page ∈ written, WithinTarget targetBytes page.entries
  increasing : dir.root.kind = .sortedSet → Increasing (spelled pages) → Increasing (spelled next)

theorem splice_cases (stored : PagesOf dir pages) {loadedGroups : List LoadedOrderedGroup}
    (known : ∀ candidate ∈ loadedGroups, candidate.snapshot ∈ pages)
    (planned : planOrderedCollectionSplice dir loadedGroups rank eraseCount entries
      targetBytes = .ok plan) :
    (plan.changed = false ∧ plan.deleteKey = false ∧
        spliceList rank eraseCount entries (spelled pages) = spelled pages) ∨
      (plan.changed = true ∧ plan.deleteKey = true ∧
        spliceList rank eraseCount entries (spelled pages) = []) ∨
      (plan.changed = true ∧ plan.deleteKey = false ∧
        ∃ next, Splices dir pages rank eraseCount entries targetBytes plan next) := by
  have total := stored.counted
  obtain ⟨inside, small, outcome⟩ := planOrderedCollectionSplice_returns stored known planned
  rcases outcome with ⟨rfl, rfl, rfl⟩ | ⟨left, selected, right, records, offset, selects, replaced⟩
  · exact .inl ⟨rfl, rfl, by simp [spliceList]⟩
  obtain ⟨valid, bounded, outcome⟩ := planReplacement_returns replaced
  have spliced := selects.spliced entries
  have counted : (spliceList rank eraseCount entries (spelled pages)).length =
      dir.root.itemCount - eraseCount + entries.length := by
    simp only [spliceList, length_append, length_take, length_drop]
    omega
  rcases outcome with
    ⟨none, changed, deleted⟩ | ⟨some, changed, kept, begun, split, root, made, rfl⟩
  · rw [none, length_eq_zero_iff] at counted
    exact .inr (.inl ⟨changed, deleted, counted⟩)
  have leaves := splitReplacement_returns made
  have apart := selects.stretches stored
  have between : dir.root.kind = .sortedSet → Between left right
      ((spelled selected).take offset ++ entries ++
        (spelled selected).drop (offset + eraseCount)) :=
    fun set => checkBounds_returns (fun page mem => (apart.leftSound page mem).nonempty)
      (fun page mem => (apart.rightSound page mem).nonempty) set bounded
  have same := apart.same split
  have spells := (spelled_spliced leaves same).trans spliced
  refine .inr (.inr ⟨changed, kept, splicedPages left split right, ?_, spells, ⟨left, selected,
    right, records, offset, split.groups, selects, same, leaves.within⟩, ?_⟩)
  · exact spliced_rewrites stored selects leaves valid between
      ((congrArg length spliced).trans counted) some small root rfl
  · intro set increasing
    rw [spells, ← spliced]
    have outer : Increasing (spelled left ++ spelled right) := by
      rw [selects.whole, spelled_append, spelled_append] at increasing
      exact increasing.sublist (List.Sublist.append (sublist_append_left _ _) (List.Sublist.refl _))
    have fits := between set
    exact pairwise_insert outer (valid.increasing set) fits.lower fits.upper

def rankedPages : List OrderedGroupSnapshot :=
  [{ kind := .sortedSet, incarnation := 5, id := 1, next := 2,
     entries := [⟨[97], 0x3ff0000000000000⟩] },
   { kind := .sortedSet, incarnation := 5, id := 2, previous := 1,
     entries := [⟨[98], 0x4000000000000000⟩, ⟨[100], 0x4008000000000000⟩] }]

def rankedRoot : OrderedCollectionRoot where
  kind := .sortedSet
  incarnation := 5
  itemCount := 3
  firstGroup := 1
  lastGroup := 2
  nextGroupId := 3
  groupCount := 2
  revision := 5

def rankedDirectory : OrderedGroupDirectory :=
  chainDirectory rankedRoot 5 5 (rankedPages.map (pageRecord 5 9 0)) [] none

theorem rankedDirectory_pages : PagesOf rankedDirectory rankedPages := by
  apply (created_pages 5 [9, 0] ⟨by decide, by decide, .inr rfl, rfl⟩ _ _ _ (by decide)).2
  · apply pageChain_draft
    · exact ⟨rfl, rfl, rfl, rfl, trivial⟩
    · rfl
    · rfl
    · rfl
    · rfl
    · decide
    · decide
    · intro _
      decide
  · decide
  · decide

end Lavik.Storage
