import Lavik.Storage.OrderedRefinement
/-!
# Routing by score and by rank

A recovered directory answers range queries from the score bounds and the ends of its pages alone.
Recovery has checked that the bounds of a Sorted Set never go down along the chain, so both searches
split the pages at one place, however many pages a run of equal scores takes.
-/

namespace Lavik.Storage

open Base OrderedGroupDirectory List Score

/-! ## Searches -/

def Score.atMost (left right : Score) : Bool :=
  !left.isNan && !right.isNan && left.rank ≤ right.rank

/-- `std::lower_bound` returns the first page that the comparison does not hold of. -/
def OrderedGroupDirectory.lowerBoundScore (dir : OrderedGroupDirectory) (score : Score)
    (exclusive : Bool) : Nat :=
  dir.groups.findIdx fun page =>
    !if exclusive then page.maxScore.atMost score else page.maxScore.less score

def OrderedGroupDirectory.upperBoundScore (dir : OrderedGroupDirectory) (score : Score)
    (exclusive : Bool) : Nat :=
  dir.groups.findIdx fun page =>
    !if exclusive then page.minScore.less score else page.minScore.atMost score

def Score.startsAt (minimum : Score) (exclusive : Bool) (score : Score) : Bool :=
  if exclusive then minimum.less score else minimum.atMost score

def Score.endsAt (maximum : Score) (exclusive : Bool) (score : Score) : Bool :=
  if exclusive then score.less maximum else score.atMost maximum

theorem findIdx_le_iff {Item : Type} {items : List Item} {reached : Item → Bool} {index : Nat}
    {item : Item} (onward : items.Pairwise fun earlier later => reached earlier → reached later)
    (mem : items[index]? = some item) : items.findIdx reached ≤ index ↔ reached item := by
  induction items generalizing index with
  | nil => cases mem
  | cons first rest ih =>
    obtain ⟨later, others⟩ := pairwise_cons.mp onward
    rw [findIdx_cons]
    cases here : reached first with
    | true =>
      cases index with
      | zero => simp_all
      | succ index => simpa using later item (mem_of_getElem? mem) here
    | false =>
      cases index with
      | zero => simp_all
      | succ index => simpa using ih others mem

section Scores

variable {score low high : Score} {exclusive : Bool}

theorem Score.startsAt_mono (number : high.isNan = false) (order : low.rank ≤ high.rank)
    (reached : score.startsAt exclusive low) : score.startsAt exclusive high := by
  cases exclusive <;> grind [startsAt, atMost, less]

theorem Score.endsAt_mono (number : low.isNan = false) (order : low.rank ≤ high.rank)
    (reached : score.endsAt exclusive high) : score.endsAt exclusive low := by
  cases exclusive <;> grind [endsAt, atMost, less]

theorem Score.not_below (number : high.isNan = false) (other : score.isNan = false) :
    (!if exclusive then high.atMost score else high.less score) =
      score.startsAt exclusive high := by
  cases exclusive <;> simp [startsAt, atMost, less, number, other, ← decide_not]

end Scores

/-! ## What recovery has checked -/

structure Bounded (page : RecoveredOrderedGroup) : Prop where
  low : page.minScore.isNan = false
  high : page.maxScore.isNan = false
  order : page.minScore.rank ≤ page.maxScore.rank
  filled : page.itemCount ≠ 0

variable {root : OrderedCollectionRoot} {page : RecoveredOrderedGroup}

theorem bounded_of_check (ok : checkCandidate root page = .ok ())
    (active : page.retired = false) : Bounded page := by
  obtain ⟨-, -, -, -, -, state, low, high, order⟩ := checkCandidate_iff.mp ok
  refine ⟨low, high, ?_, by simpa [active] using state⟩
  simpa [less, low, high] using order

theorem bounds_append {pages : List RecoveredOrderedGroup}
    (sorted : (pages.flatMap bounds).Pairwise (· ≤ ·)) (bounded : Bounded page)
    (above : ∀ back ∈ pages.getLast?, back.maxScore.rank ≤ page.minScore.rank) :
    ((pages ++ [page]).flatMap bounds).Pairwise (· ≤ ·) := by
  have own : (bounds page).Pairwise (· ≤ ·) := by simpa [bounds] using bounded.order
  rw [flatMap_append, flatMap_singleton, pairwise_append]
  refine ⟨sorted, own, fun bound earlier => ?_⟩
  have below : bound ≤ page.minScore.rank := by
    cases pages using reverseRecOn with
    | nil => cases earlier
    | append_singleton front back =>
      have step := above back (by simp)
      simp only [bounds, flatMap_append, flatMap_singleton, pairwise_append,
        mem_append, mem_cons, not_mem_nil, or_false] at sorted earlier
      rcases earlier with before | rfl | rfl
      · exact (sorted.2.2 bound before back.maxScore.rank (.inr rfl)).trans step
      · exact (pairwise_pair.mp sorted.2.1).trans step
      · exact step
  simpa [bounds] using ⟨below, below.trans bounded.order⟩

theorem follow_returns {bound id : Nat} {walk after : Walk}
    (ret : follow root bound id walk = .ok after)
    (held : ∀ entry ∈ walk.left.entries, Bounded entry.2) (met : ∀ page ∈ walk.groups, Bounded page)
    (sorted : root.kind = .sortedSet → (walk.groups.flatMap bounds).Pairwise (· ≤ ·)) :
    (∃ pages : List RecoveredOrderedGroup, after = pages.foldl Walk.meet walk) ∧
      (∀ page ∈ after.groups, Bounded page) ∧
      (root.kind = .sortedSet → (after.groups.flatMap bounds).Pairwise (· ≤ ·)) := by
  induction bound generalizing id walk with
  | zero =>
    rw [follow] at ret
    split at ret
    · cases ret
      exact ⟨⟨[], rfl⟩, met, sorted⟩
    · cases ret
  | succ bound ih =>
    by_cases ended : id = 0
    · rw [follow, if_pos ended] at ret
      cases ret
      exact ⟨⟨[], rfl⟩, met, sorted⟩
    rw [follow, if_neg ended] at ret
    cases found : walk.left.get id with
    | none =>
      rw [found] at ret
      cases ret
    | some page =>
      rw [found] at ret
      obtain ⟨-, second⟩ := refuseIf_bind.mp ret
      obtain ⟨crossed, followed⟩ := refuseIf_bind.mp second
      have own : Bounded page := held _ (OrderedMap.get_eq_some.mp found)
      have level : root.kind = .sortedSet → ∀ back ∈ walk.groups.getLast?,
          back.maxScore.rank ≤ page.minScore.rank := by
        intro kind back last
        have apart := not_and.mp crossed kind
        rw [Option.mem_def.mp last, Option.any_some, less_iff] at apart
        have number := (met back (mem_of_getLast? last)).high
        exact not_lt.mp fun lower => apart ⟨own.low, number, lower⟩
      obtain ⟨⟨pages, rfl⟩, bounded, ordered⟩ := ih followed
        (fun entry mem => held entry (OrderedMap.mem_erase.mp mem).1)
        (by simpa [Walk.meet, or_imp, forall_and] using ⟨met, own⟩)
        (fun kind => bounds_append (sorted kind) own (level kind))
      exact ⟨⟨page :: pages, rfl⟩, bounded, ordered⟩

/-- What the searches of a directory rest on. -/
structure Routed (dir : OrderedGroupDirectory) : Prop where
  ends : dir.ends = endsFrom 0 dir.groups
  counted : itemTotal dir.groups = dir.root.itemCount
  bounded : ∀ page ∈ dir.groups, Bounded page
  sorted : dir.root.kind = .sortedSet → (dir.groups.flatMap bounds).Pairwise (· ≤ ·)

variable {dir : OrderedGroupDirectory} {rootSequence commandSequence : Nat} {committed : List Nat}
  {candidates : List RecoveredOrderedGroup} {members : Option HashGroupDirectory}

theorem recover_routed
    (recovered : recover root rootSequence candidates committed commandSequence members = .ok dir) :
    Routed dir := by
  obtain ⟨-, second⟩ := refuseIf_bind.mp recovered
  obtain ⟨-, third⟩ := refuseIf_bind.mp second
  obtain ⟨winners, collected, fourth⟩ := bind_returns.mp third
  obtain ⟨-, fifth⟩ := refuseIf_bind.mp fourth
  obtain ⟨walk, followed, sixth⟩ := bind_returns.mp fifth
  obtain ⟨aggregate, stored⟩ := refuseIf_bind.mp sixth
  obtain ⟨winning, ok⟩ := LatestReader.collect_holds collected
  have held : ∀ entry ∈ (activeWinners winners).entries, Bounded entry.2 := by
    intro entry mem
    obtain ⟨winner, active⟩ := mem_activeWinners.mp mem
    obtain ⟨found, kept⟩ := mem_filter.mp (winning.listed entry winner).1
    exact bounded_of_check (ok entry.2 found (by simpa using kept)) active
  obtain ⟨⟨pages, rfl⟩, bounded, sorted⟩ :=
    follow_returns followed held (by simp) (fun _ => .nil)
  have met := met_foldl { left := activeWinners winners } pages
  have groups : (pages.foldl Walk.meet { left := activeWinners winners }).groups = pages := by
    simpa using met.groups
  have total := met.count
  simp only [not_or, not_not, Nat.zero_add] at aggregate total
  cases stored
  refine ⟨?_, ?_, bounded, sorted⟩
  · simpa [groups] using met.ends
  · simpa [groups, ← total] using aggregate.2.2

/-! ## Both searches -/

variable {pages : List OrderedGroupSnapshot} {index : Nat} {snapshot : OrderedGroupSnapshot}
  (held : List.Forall₂ (PageOf dir.root) pages dir.groups)

include held

/-- The least and the greatest score of a page are scores of entries. -/
theorem score_routes (routed : Routed dir) (set : dir.root.kind = .sortedSet)
    (valid : ∀ page ∈ pages, ValidEntries dir.root.kind page.entries) {score : Score}
    (number : score.isNan = false) (exclusive : Bool) (listed : pages[index]? = some snapshot) :
    (dir.lowerBoundScore score exclusive ≤ index ↔
      ∃ entry ∈ snapshot.entries, score.startsAt exclusive entry.score) ∧
    (index < dir.upperBoundScore score exclusive ↔
      ∃ entry ∈ snapshot.entries, score.endsAt exclusive entry.score) := by
  obtain ⟨inPages, rfl⟩ := List.getElem?_eq_some_iff.mp listed
  have inGroups : index < dir.groups.length := held.length_eq ▸ inPages
  have own : PageOf dir.root pages[index] dir.groups[index] := held.get inPages inGroups
  have found := getElem?_eq_getElem inGroups
  have bounded := routed.bounded _ (getElem_mem inGroups)
  have ordered := (pairwise_flatMap.mp (routed.sorted set)).2
  obtain ⟨-, -, count, -, low, high⟩ := sameMetadata_iff.mp own.view.2
  have ne : pages[index].entries ≠ [] :=
    fun none => bounded.filled (count.trans (length_eq_zero_iff.mpr none))
  obtain ⟨first, last, headed, ended⟩ := exists_ends ne
  have increasing := (valid _ (getElem_mem inPages)).increasing set
  simp only [draft, pageRecord, headed, ended, Option.map_some, Option.getD_some] at low high
  constructor
  · unfold lowerBoundScore
    rw [findIdx_le_iff _ found, not_below bounded.high number, high]
    · constructor
      · exact fun reached => ⟨last, mem_of_getLast? ended, reached⟩
      · rintro ⟨entry, mem, reached⟩
        have order := (rank_between increasing headed ended mem).2
        exact startsAt_mono (high ▸ bounded.high) order reached
    · refine ordered.imp_of_mem fun {earlier later} before after level reached => ?_
      rw [not_below (routed.bounded _ before).high number] at reached
      rw [not_below (routed.bounded _ after).high number]
      exact startsAt_mono (routed.bounded _ after).high
        (level _ (by simp [bounds]) _ (by simp [bounds])) reached
  · unfold upperBoundScore
    rw [← not_le, findIdx_le_iff _ found, low]
    · constructor
      · intro reached
        exact ⟨first, mem_of_head? headed, by simpa [endsAt] using reached⟩
      · rintro ⟨entry, mem, reached⟩
        have order := (rank_between increasing headed ended mem).1
        simpa [endsAt] using endsAt_mono (low ▸ bounded.low) order reached
    · refine ordered.imp_of_mem fun {earlier later} before _ level => ?_
      simp only [Bool.not_eq_true', ← Bool.not_eq_true, not_imp_not]
      exact endsAt_mono (routed.bounded _ before).low
        (level _ (by simp [bounds]) _ (by simp [bounds]))

theorem rank_routes (routed : Routed dir) {rank offset : Nat} :
    dir.findRank rank = some ⟨index, offset⟩ ↔
      ∃ page, pages[index]? = some page ∧ offset < page.entries.length ∧
        (spelled (pages.take index)).length + offset = rank := by
  have total := fun count => itemTotal_spelled (forall₂_take count held)
  have mono : ∀ {low high}, low ≤ high →
      (spelled (pages.take low)).length ≤ (spelled (pages.take high)).length := by
    intro low high below
    rw [← total, ← total]
    exact itemTotal_take_le below
  have grows : ∀ {place page}, pages[place]? = some page →
      (spelled (pages.take (place + 1))).length =
        (spelled (pages.take place)).length + page.entries.length := by
    intro place page mem
    simp [spelled, take_add_one, mem]
  have located := fun inside : rank < dir.root.itemCount =>
    rank_found routed.ends routed.counted inside
  simp only [total] at located
  constructor
  · intro found
    by_cases inside : rank < dir.root.itemCount
    · obtain ⟨place, answer, mem, low, high⟩ := located inside
      obtain ⟨rfl, rfl⟩ := Position.mk.inj (Option.some.inj (answer.symm.trans found))
      have own := getElem?_eq_getElem (held.length_eq ▸ mem : place < pages.length)
      rw [grows own] at high
      exact ⟨_, own, by omega, by omega⟩
    · rw [findRank, if_pos (not_lt.mp inside)] at found
      cases found
  · rintro ⟨page, mem, within, rfl⟩
    have grown := grows mem
    have most := mono (show index + 1 ≤ pages.length from (List.getElem?_eq_some_iff.mp mem).1)
    rw [take_length, ← itemTotal_spelled held, routed.counted] at most
    obtain ⟨place, answer, -, low, high⟩ := located (by omega)
    -- a page before or after this one would end or begin on the wrong side of the rank
    rcases Nat.lt_trichotomy place index with before | rfl | after
    · have later := mono (show place + 1 ≤ index from before)
      omega
    · rw [answer, Nat.add_sub_cancel_left]
    · have later := mono (show index + 1 ≤ place from after)
      omega

omit held

/-- Routing by score and by rank is exact in every recovered directory whose pages are what their
records say. The pages from the lower to the upper bound of a range have an entry on the right side
of each end, and every page with an entry of the range is among them. A rank below the number of
items has exactly one page and offset. -/
theorem routing_is_exact
    (recovered : recover root rootSequence candidates committed commandSequence members = .ok dir)
    (held : List.Forall₂ (PageOf dir.root) pages dir.groups)
    (valid : ∀ page ∈ pages, ValidEntries dir.root.kind page.entries) :
    (dir.root.kind = .sortedSet → ∀ (minimum maximum : Score) (above below : Bool),
      minimum.isNan = false → maximum.isNan = false →
      ∀ (index : Nat) (page : OrderedGroupSnapshot), pages[index]? = some page →
        (dir.lowerBoundScore minimum above ≤ index ↔
          ∃ entry ∈ page.entries, minimum.startsAt above entry.score) ∧
        (index < dir.upperBoundScore maximum below ↔
          ∃ entry ∈ page.entries, maximum.endsAt below entry.score) ∧
        ∀ entry ∈ page.entries, minimum.startsAt above entry.score →
          maximum.endsAt below entry.score → dir.lowerBoundScore minimum above ≤ index ∧
            index < dir.upperBoundScore maximum below) ∧
    ∀ rank, (dir.findRank rank = none ↔ dir.root.itemCount ≤ rank) ∧
      ∀ index offset, dir.findRank rank = some ⟨index, offset⟩ ↔
        ∃ page, pages[index]? = some page ∧ offset < page.entries.length ∧
          (spelled (pages.take index)).length + offset = rank := by
  have routed := recover_routed recovered
  constructor
  · intro set minimum maximum above below low high index page listed
    have start := (score_routes held routed set valid low above listed).1
    have stop := (score_routes held routed set valid high below listed).2
    exact ⟨start, stop, fun entry mem first last =>
      ⟨start.mpr ⟨entry, mem, first⟩, stop.mpr ⟨entry, mem, last⟩⟩⟩
  · intro rank
    refine ⟨?_, fun _ _ => rank_routes held routed⟩
    unfold findRank
    by_cases past : dir.root.itemCount ≤ rank <;> simp [past]

/-- Scores from 1.5 to 2 are on the second of two pages, and so is the second entry. -/
theorem ranked_set_routes : rankedDirectory.lowerBoundScore 0x3ff8000000000000 false ≤ 1 ∧
    1 < rankedDirectory.upperBoundScore 0x4000000000000000 false ∧
    rankedDirectory.findRank 1 = some ⟨1, 0⟩ := by
  have recovered : recover rankedRoot 5 (rankedPages.map (pageRecord 5 9 0)) [9, 0] 5 none =
    .ok rankedDirectory := rfl
  have valid : ∀ page ∈ rankedPages, ValidEntries .sortedSet page.entries := by
    intro page mem
    refine ⟨?_, nofun, fun _ => ?_⟩
    · revert page
      decide
    · revert page
      decide
  obtain ⟨scores, ranks⟩ := routing_is_exact recovered rankedDirectory_pages.held valid
  obtain ⟨-, -, inside⟩ := scores rfl 0x3ff8000000000000 0x4000000000000000 false false (by decide)
    (by decide) 1 _ rfl
  obtain ⟨low, high⟩ := inside ⟨[98], 0x4000000000000000⟩ (by decide) (by decide) (by decide)
  exact ⟨low, high, ((ranks 1).2 1 0).mpr ⟨_, rfl, by decide, by decide⟩⟩

end Lavik.Storage
