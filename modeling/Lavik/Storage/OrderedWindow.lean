import Lavik.Storage.OrderedPublication
/-!
# The pages a splice goes by

A splice selects the pages its range touches. They are loaded together with their neighbours, and
the items of the collection are the ones before them, theirs, and the ones after them.
-/

namespace Lavik.Storage

open Base OrderedGroupDirectory List

/-! ## Ranks -/

@[simp]
theorem itemTotal_append (left right : List RecoveredOrderedGroup) :
    itemTotal (left ++ right) = itemTotal left + itemTotal right := by
  simp [itemTotal]

variable {groups : List RecoveredOrderedGroup} {count rank eraseCount : Nat}
  {loadedGroups : List LoadedOrderedGroup} {root : OrderedCollectionRoot} {Page : Type}

theorem itemTotal_take_le {low high : Nat} (below : low ≤ high) :
    itemTotal (groups.take low) ≤ itemTotal (groups.take high) := by
  have split : groups.take high = groups.take low ++ (groups.take high).drop low := by
    conv_lhs => rw [← take_append_drop low (groups.take high)]
    rw [take_take, Nat.min_eq_left below]
  rw [split, itemTotal_append]
  exact Nat.le_add_right _ _

theorem findIdx_endsFrom (low : count ≤ rank) (high : rank < count + itemTotal groups) :
    (endsFrom count groups).findIdx (rank < ·) < groups.length ∧
      count + itemTotal (groups.take ((endsFrom count groups).findIdx (rank < ·))) ≤ rank ∧
      rank < count + itemTotal (groups.take ((endsFrom count groups).findIdx (rank < ·) + 1)) := by
  induction groups generalizing count with
  | nil => simp [itemTotal] at high; omega
  | cons page rest ih =>
    simp only [itemTotal, map_cons, sum_cons] at high
    by_cases here : rank < count + page.itemCount
    · simp [endsFrom, findIdx_cons, here, itemTotal, low]
    have within : rank < count + page.itemCount + itemTotal rest := by
      simp only [itemTotal]
      omega
    have later := ih (by omega) within
    simp only [endsFrom, findIdx_cons, here, decide_false, cond_false, length_cons,
      take_succ_cons, itemTotal, map_cons, sum_cons] at later ⊢
    omega

theorem endsFrom_getD {index : Nat} (inside : index < groups.length) :
    (endsFrom count groups).getD index 0 = count + itemTotal (groups.take (index + 1)) := by
  induction groups generalizing count index with
  | nil => cases inside
  | cons page rest ih =>
    cases index with
    | zero => simp [endsFrom, itemTotal]
    | succ index =>
      have later : (endsFrom (count + page.itemCount) rest).getD index 0 = _ :=
        ih (by simpa using inside)
      simp only [endsFrom, getD_cons_succ, take_succ_cons, itemTotal, map_cons, sum_cons] at later ⊢
      omega

variable {dir : OrderedGroupDirectory}

theorem rank_found (ends : dir.ends = endsFrom 0 dir.groups)
    (counted : itemTotal dir.groups = dir.root.itemCount) (inside : rank < dir.root.itemCount) :
    ∃ index, dir.findRank rank = some ⟨index, rank - itemTotal (dir.groups.take index)⟩ ∧
      index < dir.groups.length ∧ itemTotal (dir.groups.take index) ≤ rank ∧
      rank < itemTotal (dir.groups.take (index + 1)) := by
  rw [← counted] at inside
  obtain ⟨mem, low, high⟩ :=
    findIdx_endsFrom (Nat.zero_le rank) (by rwa [Nat.zero_add])
  rw [Nat.zero_add] at low high
  refine ⟨_, ?_, mem, low, high⟩
  unfold findRank
  rw [if_neg (by rw [← counted]; omega), ends]
  generalize (endsFrom 0 dir.groups).findIdx (rank < ·) = index at mem
  cases index with
  | zero => simp [itemTotal]
  | succ index =>
    simp only [Nat.add_one_ne_zero, reduceIte, Nat.add_sub_cancel,
      endsFrom_getD (Nat.lt_of_succ_lt mem), Nat.zero_add]

/-! ## Spliced entries -/

theorem spliceEntry_foldl (offset eraseCount : Nat)
    (additions items : List OrderedCollectionEntry) :
    items.foldl (spliceEntry offset eraseCount additions) (0, false, []) =
      (items.length, decide (offset < items.length),
        items.take offset ++ (if offset < items.length then additions else []) ++
          items.drop (offset + eraseCount)) := by
  induction items using reverseRecOn with
  | nil => simp
  | append_singleton items entry ih =>
    rw [foldl_append, ih]
    simp only [foldl_cons, foldl_nil, spliceEntry, length_append,
      length_singleton, take_append, drop_append, Prod.mk.injEq, true_and]
    -- the entry comes before the splice, at its place, or after it
    rcases Nat.lt_trichotomy items.length offset with before | here | after
    · have kept : [entry].take (offset - items.length) = [entry] :=
        take_of_length_le (by simp; omega)
      have none : items.drop (offset + eraseCount) = [] := drop_of_length_le (by omega)
      have last : [entry].drop (offset + eraseCount - items.length) = [] :=
        drop_of_length_le (by simp; omega)
      have early : ¬offset < items.length ∧ ¬offset < items.length + 1 := by omega
      simp [kept, none, last, early, before, before.ne]
    · subst here
      have none : items.drop (items.length + eraseCount) = [] := drop_of_length_le (by omega)
      cases eraseCount <;> simp [none]
    · have whole : [entry].take (offset - items.length) = [] := by
        rw [Nat.sub_eq_zero_of_le after.le]
        rfl
      have late : offset < items.length + 1 ∧ ¬items.length < offset := by omega
      by_cases erased : items.length < offset + eraseCount
      · have skip : [entry].drop (offset + eraseCount - items.length) = [] :=
          drop_of_length_le (by simp; omega)
        simp [whole, skip, late, after, after.ne', Nat.not_le.mpr erased]
      · have kept : offset + eraseCount - items.length = 0 :=
          Nat.sub_eq_zero_of_le (Nat.not_lt.mp erased)
        simp [whole, kept, late, after, after.ne', Nat.not_lt.mp erased]

theorem spliceEntries_eq {offset : Nat} {additions selected : List OrderedCollectionEntry}
    (inside : offset ≤ selected.length) :
    spliceEntries offset eraseCount additions selected =
      selected.take offset ++ additions ++ selected.drop (offset + eraseCount) := by
  unfold spliceEntries
  rw [spliceEntry_foldl]
  by_cases placed : offset < selected.length
  · simp [placed]
  · have whole : selected.length ≤ offset := Nat.not_lt.mp placed
    have none : selected.drop (offset + eraseCount) = [] := drop_of_length_le (by omega)
    simp [placed, none]
/-! ## Selected pages -/

theorem OrderedGroupDirectory.Live.counted (live : Live dir) :
    dir.root.itemCount ≠ 0 ∧ dir.root.itemCount ≤ maxU32 := by
  have valid := live.valid
  simp only [OrderedCollectionRoot.valid, Bool.and_eq_true, decide_eq_true_eq] at valid
  tauto

theorem OrderedGroupDirectory.Live.selects (live : Live dir) (inside : rank ≤ dir.root.itemCount)
    (range : eraseCount ≤ dir.root.itemCount - rank) :
    ∃ (left selected right : List RecoveredOrderedGroup) (page : RecoveredOrderedGroup)
        (offset : Nat), dir.groups = left ++ selected ++ right ∧ selected.head? = some page ∧
      dir.findRank (min rank (dir.root.itemCount - 1)) = some ⟨left.length, offset⟩ ∧
      (if eraseCount = 0
        then (dir.findRank (min rank (dir.root.itemCount - 1))).getD default
        else (dir.findRank (rank + eraseCount - 1)).getD default).groupIndex + 1 =
          left.length + selected.length ∧
      itemTotal left + (if rank = dir.root.itemCount then page.itemCount else offset) = rank ∧
      rank + eraseCount ≤ itemTotal left + itemTotal selected := by
  have counted := live.counted.1
  have total := live.chain.counted
  obtain ⟨first, foundFirst, firstListed, firstLow, firstHigh⟩ :=
    rank_found live.ends total (show min rank (dir.root.itemCount - 1) < _ by omega)
  obtain ⟨last, foundLast, ordered, lastListed, lastHigh⟩ : ∃ last, (if eraseCount = 0
        then (dir.findRank (min rank (dir.root.itemCount - 1))).getD default
        else (dir.findRank (rank + eraseCount - 1)).getD default).groupIndex = last ∧
      first ≤ last ∧ last < dir.groups.length ∧
      rank + eraseCount ≤ itemTotal (dir.groups.take (last + 1)) := by
    by_cases none : eraseCount = 0
    · rw [if_pos none, foundFirst]
      exact ⟨first, rfl, le_rfl, firstListed, by omega⟩
    obtain ⟨last, found, mem, low, high⟩ :=
      rank_found live.ends total (show rank + eraseCount - 1 < dir.root.itemCount by omega)
    rw [if_neg none, found]
    refine ⟨last, rfl, ?_, mem, by omega⟩
    by_contra before
    have fewer : itemTotal (dir.groups.take (last + 1)) ≤
        itemTotal (dir.groups.take first) := itemTotal_take_le (by omega)
    omega
  have prefixed : dir.groups.take (last + 1) =
      dir.groups.take first ++ (dir.groups.take (last + 1)).drop first := by
    conv_lhs => rw [← take_append_drop first (dir.groups.take (last + 1))]
    rw [take_take, Nat.min_eq_left (by omega)]
  have headed : ((dir.groups.take (last + 1)).drop first).head? =
      some (dir.groups.get ⟨first, firstListed⟩) := by
    rw [head?_drop, getElem?_take_of_lt (by omega)]
    exact getElem?_eq_getElem firstListed
  have grown : itemTotal (dir.groups.take (first + 1)) = itemTotal (dir.groups.take first) +
        (dir.groups.get ⟨first, firstListed⟩).itemCount := by
    rw [take_succ_eq_append_getElem firstListed, itemTotal_append]
    simp [itemTotal]
  have within : itemTotal (dir.groups.take (first + 1)) ≤ itemTotal dir.groups := by
    have whole : itemTotal (dir.groups.take (first + 1)) ≤
        itemTotal (dir.groups.take dir.groups.length) := itemTotal_take_le (by omega)
    rwa [take_length] at whole
  refine ⟨dir.groups.take first, (dir.groups.take (last + 1)).drop first,
    dir.groups.drop (last + 1), dir.groups.get ⟨first, firstListed⟩,
    min rank (dir.root.itemCount - 1) - itemTotal (dir.groups.take first), ?_, headed,
    ?_, ?_, ?_, ?_⟩
  · rw [← prefixed, take_append_drop]
  · rw [foundFirst, length_take, Nat.min_eq_left firstListed.le]
  · rw [foundLast, ← length_append, ← prefixed, length_take]
    omega
  · split
    · omega
    · omega
  · rw [← itemTotal_append, ← prefixed]
    exact lastHigh

/-! ## Loaded pages -/

variable {pages : List OrderedGroupSnapshot} {loaded : OrderedMap Nat OrderedGroupSnapshot}

theorem loadPage_listed (known : ∀ cand ∈ loadedGroups, cand.snapshot ∈ pages)
    (ret : loadedGroups.foldlM (loadPage dir) .empty = .ok loaded) :
    ∀ id page, loaded.get id = some page → page ∈ pages ∧ page.id = id := by
  suffices held : ∀ entry ∈ loaded.entries, entry.2 ∈ pages ∧ entry.2.id = entry.1 from
    fun id page found => held (id, page) (OrderedMap.get_eq_some.mp found)
  apply foldlM_invariant _ _ ret
  · intro entry mem
    cases mem
  · intro gone cand rest state after whole held loads entry mem
    obtain ⟨-, second⟩ := refuseIf_bind.mp loads
    obtain ⟨-, -, third⟩ := bind_returns.mp second
    obtain ⟨-, stored⟩ := refuseIf_bind.mp third
    cases stored
    rcases OrderedMap.mem_set.mp mem with rfl | ⟨old, -⟩
    · exact ⟨known cand (by simp [whole]), rfl⟩
    · exact held entry old

variable {records : List RecoveredOrderedGroup}

theorem requirePages_returns (stored : PagesOf dir pages)
    (listed : ∀ id page, loaded.get id = some page → page ∈ pages ∧ page.id = id)
    {segment : List OrderedGroupSnapshot}
    (parallel : List.Forall₂ (PageOf dir.root) segment records)
    (inside : ∀ page ∈ segment, page ∈ pages) {before : Option OrderedGroupSnapshot}
    {required : List OrderedGroupSnapshot}
    (ret : requirePages loaded before records = .ok required) :
    required = segment ∧ ∀ page ∈ segment, loaded.get page.id = some page := by
  induction parallel generalizing before required with
  | nil =>
    cases ret
    exact ⟨rfl, by simp⟩
  | @cons page record segment records own _ continues =>
    unfold requirePages at ret
    obtain ⟨first, later⟩ := forall_mem_cons.mp inside
    split at ret
    · cases ret
    next found held =>
    obtain ⟨mem, same⟩ := listed _ _ held
    have eq : found = page := stored.unique mem first (same.trans own.view.1)
    obtain ⟨rest, made, rfl⟩ : ∃ rest, requirePages loaded (some found) records = .ok rest ∧
        required = found :: rest := by
      cases before with
      | none | some left =>
        obtain ⟨_, -, second⟩ := bind_returns.mp ret
        obtain ⟨rest, made, ended⟩ := bind_returns.mp second
        exact ⟨rest, made, (Except.ok.inj ended).symm⟩
    obtain ⟨others, present⟩ := continues later made
    rw [eq, others]
    refine ⟨rfl, forall_mem_cons.mpr ⟨?_, present⟩⟩
    rwa [eq, show record.id = page.id from own.view.1] at held

/-! ## Windows -/

theorem PagesOf.linked (stored : PagesOf dir pages) : snapshotLinks.Chained 0 pages 0 := by
  apply Links.Chained.congr pageLinks _ stored.chain.linked
  rw [forall₂_map_left_iff]
  exact forall₂_same.mpr fun page _ => ⟨rfl, rfl, rfl⟩

theorem itemTotal_spelled (parallel : List.Forall₂ (PageOf root) pages records) :
    itemTotal records = (spelled pages).length := by
  induction parallel with
  | nil => rfl
  | @cons page record pages records own _ continues =>
    have count : record.itemCount = page.entries.length :=
      (sameMetadata_iff.mp own.view.2).2.2.1
    simp only [itemTotal, spelled, map_cons, sum_cons, flatMap_cons,
      length_append, count] at continues ⊢
    rw [continues]

theorem loaded_entries (parallel : List.Forall₂ (PageOf root) pages records)
    (present : ∀ page ∈ pages, loaded.get page.id = some page) :
    records.flatMap (fun group => ((loaded.get group.id).map (·.entries)).getD []) =
      spelled pages := by
  induction parallel with
  | nil => rfl
  | @cons page record pages records own _ continues =>
    obtain ⟨first, others⟩ := forall_mem_cons.mp present
    rw [flatMap_cons, continues others, show record.id = page.id from own.view.1, first]
    rfl

theorem neighbours_eq (left selected right : List Page) :
    ((left ++ selected ++ right).take
        (if left.length + selected.length = (left ++ selected ++ right).length
          then left.length + selected.length else left.length + selected.length + 1)).drop
      (if left.length = 0 then left.length else left.length - 1) =
      left.getLast?.toList ++ selected ++ right.head?.toList := by
  have upper : (left ++ selected ++ right).take
        (if left.length + selected.length = (left ++ selected ++ right).length
          then left.length + selected.length else left.length + selected.length + 1) =
      left ++ selected ++ right.head?.toList := by
    cases right with
    | nil => simp
    | cons page rest =>
      rw [if_neg (by simp), ← length_append, take_length_add_append]
      simp
  rw [upper]
  rcases eq_nil_or_concat left with rfl | ⟨before, page, rfl⟩
  · simp
  · simp

theorem window_before (left selected right : List Page) :
    (if left.length = 0 then none
      else (left.getLast?.toList ++ selected ++ right.head?.toList).head?) = left.getLast? := by
  rcases eq_nil_or_concat left with rfl | ⟨before, page, rfl⟩
  · rfl
  · simp

theorem window_after (left selected right : List Page) :
    (if left.length + selected.length = (left ++ selected ++ right).length then none
      else (left.getLast?.toList ++ selected ++ right.head?.toList).getLast?) = right.head? := by
  cases right with
  | nil => simp
  | cons page rest => simp

theorem replacement_links {before after : Nat} {selected : List OrderedGroupSnapshot}
    {page : RecoveredOrderedGroup} (chained : snapshotLinks.Chained before selected after)
    (parallel : List.Forall₂ (PageOf root) selected records) (headed : records.head? = some page) :
    page.id = snapshotLinks.head 0 selected ∧ page.previous = before ∧
      (records.getLastD default).next = after := by
  rcases eq_nil_or_concat records with rfl | ⟨others, last, rfl⟩
  · cases headed
  rw [concat_eq_append] at parallel headed ⊢
  have ended : last.next = after := by
    obtain ⟨front, back, rfl, -, single⟩ := forall₂_split parallel
    obtain ⟨own, view, rfl⟩ : ∃ own, PageOf root own last ∧ back = [own] := by
      cases single with
      | cons view rest =>
        cases rest
        exact ⟨_, view, rfl⟩
    exact (sameMetadata_iff.mp view.view.2).2.1.trans (Links.chained_concat _ |>.mp chained).2.2
  obtain ⟨own, mem, view⟩ : ∃ own, selected.head? = some own ∧ PageOf root own page := by
    have heads := forall₂_head? parallel
    rw [headed] at heads
    cases found : selected.head? with
    | none =>
      rw [found] at heads
      cases heads
    | some own =>
      rw [found] at heads
      cases heads with
      | cons view _ => exact ⟨own, rfl, view⟩
  obtain ⟨rest, rfl⟩ := head?_eq_some_iff.mp mem
  refine ⟨view.view.1, (sameMetadata_iff.mp view.view.2).1.trans chained.1, ?_⟩
  simpa using ended

/-- The pages before, in and after a range, and where the range begins in the selected ones. -/
structure Selects (dir : OrderedGroupDirectory) (pages : List OrderedGroupSnapshot)
    (rank eraseCount : Nat) (left selected right : List OrderedGroupSnapshot)
    (records : List RecoveredOrderedGroup) (offset : Nat) : Prop where
  whole : pages = left ++ selected ++ right
  parallel : List.Forall₂ (PageOf dir.root) selected records
  nonempty : selected ≠ []
  rank : (spelled left).length + offset = rank
  range : offset + eraseCount ≤ (spelled selected).length

def replacementPage (root : OrderedCollectionRoot) (left selected right : List OrderedGroupSnapshot)
    (entries : List OrderedCollectionEntry) : OrderedGroupSnapshot where
  kind := root.kind
  incarnation := root.incarnation
  id := snapshotLinks.head 0 selected
  previous := snapshotLinks.last 0 left
  next := snapshotLinks.head 0 right
  entries := entries

theorem planOrderedCollectionSplice_returns (stored : PagesOf dir pages)
    (known : ∀ candidate ∈ loadedGroups, candidate.snapshot ∈ pages)
    {entries : List OrderedCollectionEntry} {targetBytes : Nat}
    {plan : OrderedCollectionMutationPlan}
    (planned : planOrderedCollectionSplice dir loadedGroups rank eraseCount entries
      targetBytes = .ok plan) :
    rank + eraseCount ≤ dir.root.itemCount ∧
    dir.root.itemCount - eraseCount + entries.length ≤ maxU32 ∧
    (eraseCount = 0 ∧ entries = [] ∧ plan = { root := dir.root, expectedSequence := dir.sequence } ∨
      ∃ left selected right records offset,
        Selects dir pages rank eraseCount left selected right records offset ∧
        planReplacement dir ⟨left.getLast?, records, right.head?⟩
          (replacementPage dir.root left selected right
            ((spelled selected).take offset ++ entries ++
              (spelled selected).drop (offset + eraseCount)))
          eraseCount entries.length targetBytes = .ok plan) := by
  obtain ⟨guards, second⟩ := refuseIf_bind.mp planned
  simp only [not_or, not_lt] at guards
  obtain ⟨inside, range, small⟩ := guards
  have bounded := stored.live.counted.2
  refine ⟨by omega, by omega, ?_⟩
  by_cases trivial : eraseCount = 0 ∧ entries = []
  · rw [if_pos trivial] at second
    exact .inl ⟨trivial.1, trivial.2, (Except.ok.inj second).symm⟩
  rw [if_neg trivial] at second
  obtain ⟨-, -, third⟩ := bind_returns.mp second
  obtain ⟨loaded, loads, fourth⟩ := bind_returns.mp third
  obtain ⟨required, requires, replaced⟩ := bind_returns.mp fourth
  obtain ⟨before, records, after, page, place, whole, headed, found, ended, start, stop⟩ :=
    stored.live.selects inside range
  simp only [found, Option.getD_some] at ended requires replaced
  simp only [ended] at requires replaced
  have held := stored.held
  rw [whole] at held requires replaced
  rw [neighbours_eq] at requires
  have chosen : ((before ++ records ++ after).take (before.length + records.length)).drop
      before.length = records := by
    rw [← length_append, take_left, drop_left]
  rw [chosen] at replaced
  obtain ⟨front, right, rfl, frontParallel, rightParallel⟩ := forall₂_split held
  obtain ⟨left, selected, rfl, leftParallel, parallel⟩ := forall₂_split frontParallel
  have segment : List.Forall₂ (PageOf dir.root)
      (left.getLast?.toList ++ selected ++ right.head?.toList)
      (before.getLast?.toList ++ records ++ after.head?.toList) :=
    rel_append (rel_append (forall₂_getLast? leftParallel) parallel) (forall₂_head? rightParallel)
  have inner : ∀ page ∈ left.getLast?.toList ++ selected ++ right.head?.toList,
      page ∈ left ++ selected ++ right := by
    intro page mem
    simp only [mem_append, Option.mem_toList] at mem ⊢
    rcases mem with (last | own) | first
    · exact .inl (.inl (mem_of_getLast? last))
    · exact .inl (.inr own)
    · exact .inr (mem_of_head? first)
  obtain ⟨rfl, present⟩ :=
    requirePages_returns stored (loadPage_listed known loads) segment inner requires
  have items := loaded_entries parallel fun page mem =>
    present page (mem_append_left _ (mem_append_right _ mem))
  have linked := stored.linked
  rw [Links.chained_append, Links.chained_append] at linked
  obtain ⟨⟨-, chained⟩, -⟩ := linked
  have ends := replacement_links chained parallel headed
  rw [itemTotal_spelled parallel, itemTotal_spelled leftParallel] at stop
  rw [itemTotal_spelled leftParallel] at start
  have first : records.headD default = page := by
    rw [headD_eq_head?_getD, headed]
    rfl
  rw [← held.length_eq, ← parallel.length_eq, ← leftParallel.length_eq, window_before,
    window_after, items, first, spliceEntries_eq (by omega), ends.1, ends.2.1, ends.2.2] at replaced
  have ne : selected ≠ [] := by
    rintro rfl
    cases parallel
    cases headed
  exact .inr ⟨left, selected, right, records, _, ⟨rfl, parallel, ne, start, by omega⟩,
    replaced⟩

end Lavik.Storage
