import Lavik.Base.LinkedChain
import Lavik.Storage.OrderedSplice
/-!
# Packing items into pages

A split packs the items of one page into a chain of pages in its place. Together they hold the same
items in the same order, each page stays within the target unless it has a single item, and the
identities after the first are new ones.
-/

namespace Lavik.Storage

open Base List

/-! ## The order of entries -/

theorem Score.less_iff {left right : Score} :
    left.less right = true ↔ left.isNan = false ∧ right.isNan = false ∧ left.rank < right.rank := by
  simp only [Score.less, Bool.and_eq_true, Bool.not_eq_true', decide_eq_true_eq, and_assoc]

variable {right left : OrderedCollectionEntry} {kind : OrderedCollectionKind}

theorem orderedEntryLess_iff :
    orderedEntryLess left right = true ↔ left.score.isNan = false ∧ right.score.isNan = false ∧
        (left.score.rank < right.score.rank ∨
          left.score.rank = right.score.rank ∧ left.value < right.value) := by
  simp only [orderedEntryLess, Score.less, Score.same, Bool.or_eq_true, Bool.and_eq_true,
    Bool.not_eq_true', decide_eq_true_eq]
  tauto

instance : Trans (fun left right => orderedEntryLess left right = true)
    (fun left right => orderedEntryLess left right = true)
    (fun left right => orderedEntryLess left right = true) where
  trans low high := by
    obtain ⟨number, -, lower⟩ := orderedEntryLess_iff.mp low
    obtain ⟨-, other, upper⟩ := orderedEntryLess_iff.mp high
    refine orderedEntryLess_iff.mpr ⟨number, other, ?_⟩
    rcases lower with less | ⟨same, value⟩ <;> rcases upper with more | ⟨level, larger⟩
    · exact .inl (less.trans more)
    · exact .inl (level ▸ less)
    · exact .inl (same ▸ more)
    · exact .inr ⟨same.trans level, List.lt_trans value larger⟩

theorem rank_le_of_less (less : orderedEntryLess left right = true) :
    left.score.rank ≤ right.score.rank := by
  obtain ⟨-, -, order⟩ := orderedEntryLess_iff.mp less
  omega

abbrev Increasing (entries : List OrderedCollectionEntry) : Prop :=
  entries.Pairwise fun left right => orderedEntryLess left right = true

/-! ## Valid entries -/

structure ValidEntries (kind : OrderedCollectionKind) (entries : List OrderedCollectionEntry) :
    Prop where
  number : ∀ entry ∈ entries, entry.score.isNan = false
  zero : kind = .list → ∀ entry ∈ entries, entry.score = 0
  increasing : kind = .sortedSet → Increasing entries

theorem validateOrderedEntries_returns {entries : List OrderedCollectionEntry} {done : Unit}
    (ok : validateOrderedEntries kind [] none entries = .ok done) : ValidEntries kind entries := by
  suffices general : ∀ (items : List OrderedCollectionEntry) (members : List (List UInt8))
      (before : Option OrderedCollectionEntry),
      validateOrderedEntries kind members before items = .ok done →
      (∀ entry ∈ items, entry.score.isNan = false ∧ (kind = .list → entry.score = 0)) ∧
        (kind = .sortedSet → (before.toList ++ items).IsChain
          fun left right => orderedEntryLess left right = true) by
    obtain ⟨each, chain⟩ := general entries [] none ok
    exact ⟨fun entry mem => (each entry mem).1, fun list entry mem =>
      (each entry mem).2 list, fun set => isChain_iff_pairwise.mp (chain set)⟩
  intro items
  induction items with
  | nil =>
    intro members before _
    refine ⟨by simp, fun _ => ?_⟩
    cases before <;> simp
  | cons entry rest ih =>
    intro members before ok
    obtain ⟨sound, second⟩ := refuseIf_bind.mp ok
    obtain ⟨follows, later⟩ := refuseIf_bind.mp second
    obtain ⟨each, chain⟩ := ih _ _ later
    simp only [not_or, not_and, not_not, Bool.not_eq_true] at sound follows
    refine ⟨?_, fun set => ?_⟩
    · intro other mem
      rcases mem_cons.mp mem with rfl | late
      · exact ⟨sound.2.1, sound.2.2⟩
      · exact each other late
    · cases before with
      | none => exact chain set
      | some earlier =>
        have less := (follows set).2
        simp only [Option.any_some, Bool.not_eq_false'] at less
        exact isChain_cons_cons.mpr ⟨less, chain set⟩

/-! ## Packing -/

def orderedPageSize (entries : List OrderedCollectionEntry) : Nat :=
  orderedGroupHeaderBytes + (entries.map orderedEntryBytes).sum

def WithinTarget (targetBytes : Nat) (entries : List OrderedCollectionEntry) : Prop :=
  orderedPageSize entries ≤ targetBytes ∨ entries.length = 1

/-- What packing makes of the entries of a page under construction and those that are left. -/
structure Packed (targetBytes : Nat) (entries : List OrderedCollectionEntry)
    (parts : List (List OrderedCollectionEntry)) : Prop where
  joined : parts.flatten = entries
  nonempty : ∀ part ∈ parts, part ≠ []
  within : ∀ part ∈ parts, WithinTarget targetBytes part

variable {targetBytes : Nat}

theorem packEntries_packed {page rest : List OrderedCollectionEntry} (some : page ++ rest ≠ [])
    (fits : page = [] ∨ WithinTarget targetBytes page) :
    Packed targetBytes (page ++ rest)
      (packEntries targetBytes page (orderedPageSize page) rest) := by
  induction rest generalizing page with
  | nil =>
    rw [append_nil] at some ⊢
    have within := fits.resolve_left some
    constructor
    · simp [packEntries]
    · simpa [packEntries] using some
    · simpa [packEntries] using within
  | cons entry rest ih =>
    unfold packEntries
    split
    · next full =>
      have single : orderedPageSize [entry] =
          orderedGroupHeaderBytes + orderedEntryBytes entry := by
        simp [orderedPageSize]
      have packed : Packed targetBytes ([entry] ++ rest) _ :=
        ih (by simp) (.inr (.inr rfl))
      rw [single] at packed
      have within := fits.resolve_left full.1
      constructor
      · rw [flatten_cons, packed.joined]
        rfl
      · exact forall_mem_cons.mpr ⟨full.1, packed.nonempty⟩
      · exact forall_mem_cons.mpr ⟨within, packed.within⟩
    · next room =>
      have grown : orderedPageSize (page ++ [entry]) =
          orderedPageSize page + orderedEntryBytes entry := by
        simp [orderedPageSize, Nat.add_assoc]
      have within : WithinTarget targetBytes (page ++ [entry]) := by
        by_cases first : page = []
        · exact .inr (by rw [first]; rfl)
        left
        have left : ¬(targetBytes < orderedPageSize page ∨
            targetBytes - orderedPageSize page < orderedEntryBytes entry) :=
          fun above => room ⟨first, above⟩
        omega
      have packed : Packed targetBytes (page ++ [entry] ++ rest) _ :=
        ih (by simp) (.inr within)
      rw [grown] at packed
      rwa [append_assoc] at packed

/-! ## Linking -/

def snapshotLinks : Links OrderedGroupSnapshot where
  id := OrderedGroupSnapshot.id
  previous := OrderedGroupSnapshot.previous
  next := OrderedGroupSnapshot.next

def spelled (pages : List OrderedGroupSnapshot) : List OrderedCollectionEntry :=
  pages.flatMap OrderedGroupSnapshot.entries

@[simp]
theorem spelled_append (left right : List OrderedGroupSnapshot) :
    spelled (left ++ right) = spelled left ++ spelled right := flatMap_append

theorem ValidEntries.page {pages : List OrderedGroupSnapshot}
    (valid : ValidEntries kind (spelled pages)) {page : OrderedGroupSnapshot}
    (mem : page ∈ pages) : ValidEntries kind page.entries := by
  have part : ∀ entry ∈ page.entries, entry ∈ spelled pages :=
    fun entry held => mem_flatMap.mpr ⟨page, mem, held⟩
  refine ⟨fun entry held => valid.number entry (part entry held), fun list entry held =>
    valid.zero list entry (part entry held), fun set => ?_⟩
  have increasing := valid.increasing set
  rw [Increasing, spelled, pairwise_flatMap] at increasing
  exact increasing.1 page mem

/-- The packed pages are linked in the place of the page they come from. -/
structure Linked (group : OrderedGroupSnapshot) (previous id nextGroupId : Nat)
    (parts : List (List OrderedCollectionEntry)) (split : OrderedGroupSplit) : Prop where
  entries : split.groups.map OrderedGroupSnapshot.entries = parts
  ids : split.groups.map OrderedGroupSnapshot.id = id :: range' nextGroupId (parts.length - 1)
  chained : snapshotLinks.Chained previous split.groups group.next
  next : split.nextGroupId = nextGroupId + (parts.length - 1)
  alike : ∀ page ∈ split.groups, page.kind = group.kind ∧ page.incarnation = group.incarnation ∧
    page.retired = group.retired

variable {group : OrderedGroupSnapshot} {nextGroupId : Nat} {split : OrderedGroupSplit}

theorem linkPages_returns {previous id : Nat} {parts : List (List OrderedCollectionEntry)}
    (some : parts ≠ []) (linked : linkPages group previous id nextGroupId parts = .ok split) :
    Linked group previous id nextGroupId parts split := by
  induction parts generalizing previous id nextGroupId split with
  | nil => exact (some rfl).elim
  | cons entries more ih =>
    cases more with
    | nil =>
      cases linked
      exact ⟨rfl, rfl, ⟨rfl, rfl, trivial⟩, rfl, by simp⟩
    | cons second rest =>
      obtain ⟨-, later⟩ := refuseIf_bind.mp linked
      obtain ⟨tail, made, ret⟩ := bind_returns.mp later
      cases ret
      have own := ih (by simp) made
      have first : snapshotLinks.head group.next tail.groups = nextGroupId := by
        have ids := congrArg head? own.ids
        rw [head?_map, head?_cons] at ids
        unfold Links.head
        rw [show tail.groups.head?.map snapshotLinks.id = Option.some nextGroupId from ids]
        rfl
      constructor
      · simp [own.entries]
      · simp [own.ids, range'_succ]
      · exact ⟨rfl, first.symm, own.chained⟩
      · rw [own.next]
        simp only [length_cons]
        omega
      · exact forall_mem_cons.mpr ⟨⟨rfl, rfl, rfl⟩, own.alike⟩

/-! ## Splitting -/

structure Split (group : OrderedGroupSnapshot) (nextGroupId targetBytes : Nat)
    (split : OrderedGroupSplit) : Prop where
  entries : spelled split.groups = group.entries
  nonempty : ∀ page ∈ split.groups, page.entries ≠ []
  within : ∀ page ∈ split.groups, WithinTarget targetBytes page.entries
  ids : ∃ more, split.groups.map OrderedGroupSnapshot.id =
    group.id :: range' nextGroupId more ∧ split.nextGroupId = nextGroupId + more
  chained : snapshotLinks.Chained group.previous split.groups group.next
  alike : ∀ page ∈ split.groups, page.kind = group.kind ∧ page.incarnation = group.incarnation ∧
    page.retired = false
  named : group.id ≠ 0 ∧ group.id < nextGroupId
  valid : ValidEntries group.kind group.entries

theorem splitOrderedGroup_returns
    (ret : splitOrderedGroup group nextGroupId targetBytes = .ok split) :
    Split group nextGroupId targetBytes split := by
  obtain ⟨input, second⟩ := refuseIf_bind.mp ret
  obtain ⟨identity, third⟩ := refuseIf_bind.mp second
  obtain ⟨_, validated, linked⟩ := bind_returns.mp third
  simp only [not_or, not_and, not_le, not_lt, Bool.not_eq_true] at input identity
  obtain ⟨-, -, fresh, active, some⟩ := input
  have packed : Packed targetBytes ([] ++ group.entries) _ :=
    packEntries_packed (by simpa using some) (.inl rfl)
  rw [nil_append, show orderedPageSize [] = orderedGroupHeaderBytes from rfl] at packed
  have parts : packEntries targetBytes [] orderedGroupHeaderBytes group.entries ≠ [] := by
    intro none
    have joined := packed.joined
    rw [none] at joined
    exact some joined.symm
  have own := linkPages_returns parts linked
  have entry : ∀ page ∈ split.groups,
      page.entries ∈ packEntries targetBytes [] orderedGroupHeaderBytes group.entries :=
    fun page mem => own.entries ▸ mem_map_of_mem mem
  constructor
  case entries => rw [spelled, flatMap_def, own.entries, packed.joined]
  case nonempty => exact fun page mem => packed.nonempty _ (entry page mem)
  case within => exact fun page mem => packed.within _ (entry page mem)
  case ids => exact ⟨_, own.ids, own.next⟩
  case chained => exact own.chained
  case alike =>
    intro page mem
    obtain ⟨kind, incarnation, retired⟩ := own.alike page mem
    exact ⟨kind, incarnation, retired.trans active⟩
  case named =>
    refine ⟨identity.2.1, ?_⟩
    omega
  case valid => exact validateOrderedEntries_returns validated

theorem Split.id_cases (made : Split group nextGroupId targetBytes split) :
    nextGroupId ≤ split.nextGroupId ∧ ∀ page ∈ split.groups, page.id = group.id ∨
      nextGroupId ≤ page.id ∧ page.id < split.nextGroupId := by
  obtain ⟨more, ids, next⟩ := made.ids
  refine ⟨by omega, fun page mem => ?_⟩
  have listed := mem_map_of_mem (f := OrderedGroupSnapshot.id) mem
  rw [ids, mem_cons] at listed
  rcases listed with same | fresh
  · exact .inl same
  · rw [mem_range'_1] at fresh
    exact .inr (by omega)

theorem Split.distinct (made : Split group nextGroupId targetBytes split) :
    split.groups.Pairwise fun left right => left.id ≠ right.id := by
  obtain ⟨more, ids, -⟩ := made.ids
  have below := made.named.2
  rw [← pairwise_map, ids, ← nodup_iff_pairwise_ne, nodup_cons]
  refine ⟨fun mem => ?_, nodup_range'⟩
  rw [mem_range'_1] at mem
  omega

end Lavik.Storage
