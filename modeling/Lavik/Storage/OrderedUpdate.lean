import Lavik.Storage.OrderedChain
/-!
# Updates of an ordered collection

An update names pages by their identities, active or retired. When the pages that are active after
it are the chain of the new root, the update is accepted, and the next directory has this chain.
-/

namespace Lavik.Storage.OrderedGroupDirectory

open Base List

/-! ## Live directories -/

structure Admissible (root : OrderedCollectionRoot) (sequence : Nat)
    (page : RecoveredOrderedGroup) : Prop where
  incarnation : page.incarnation = root.incarnation
  bounded : page.sequence ≤ sequence
  passed : checkCandidate root page = .ok ()

/-- What holds of every directory that recovery and updates lead to. -/
structure Live (dir : OrderedGroupDirectory) : Prop where
  valid : dir.root.valid = true
  revised : dir.root.revision = dir.sequence
  sequenced : dir.sequence ≠ 0
  chain : PageChain dir.root dir.groups
  ends : dir.ends = endsFrom 0 dir.groups
  ids : dir.ids = sortIds (idsFrom 0 dir.groups)
  groups : ∀ page ∈ dir.groups, page.retired = false ∧ Admissible dir.root dir.sequence page
  retired : ∀ page ∈ dir.retired, page.retired = true ∧ Admissible dir.root dir.sequence page
  sorted : dir.retired.Pairwise fun earlier later => earlier.id < later.id
  separate : ∀ page ∈ dir.groups, ∀ gone ∈ dir.retired, page.id ≠ gone.id
  members : dir.members.map HashGroupDirectory.root = dir.root.memberIndex

def Current (dir : OrderedGroupDirectory) (record : RecoveredOrderedGroup) : Prop :=
  record ∈ dir.groups ∨ record ∈ dir.retired

variable {root other : OrderedCollectionRoot} {page candidate record : RecoveredOrderedGroup}
  {done : Unit} {revision rootSequence id commandSequence : Nat}
  {copy : RecoveredOrderedGroup → RecoveredOrderedGroup → Prop}
  {members : Option HashGroupDirectory} {dir : OrderedGroupDirectory}

theorem checkCandidate_iff : checkCandidate root page = .ok done ↔
    page.id ≠ 0 ∧ page.id < root.nextGroupId ∧ page.sequence ≠ 0 ∧ page.lsn ≠ 0 ∧
      page.recordToken ≠ 0 ∧
      (if page.retired then page.itemCount = 0 ∧ page.previous = 0 ∧ page.next = 0
        else page.itemCount ≠ 0) ∧ page.minScore.isNan = false ∧ page.maxScore.isNan = false ∧
      page.maxScore.less page.minScore = false := by
  refine refuseIf_returns.trans ?_
  simp only [not_or, not_le, Bool.not_eq_true]
  cases retired : page.retired <;> simp

theorem sameMetadata_iff {left right : RecoveredOrderedGroup} :
    sameMetadata left right = true ↔ left.previous = right.previous ∧ left.next = right.next ∧
      left.itemCount = right.itemCount ∧ left.retired = right.retired ∧
      left.minScore = right.minScore ∧ left.maxScore = right.maxScore := by
  simp only [sameMetadata, Bool.and_eq_true, decide_eq_true_eq, and_assoc]

theorem sameMetadata_self (page : RecoveredOrderedGroup) : sameMetadata page page = true := by
  simp [sameMetadata]

theorem checkCandidate_mono {copy : RecoveredOrderedGroup}
    (ok : checkCandidate root page = .ok done) (more : root.nextGroupId ≤ other.nextGroupId)
    (id : copy.id = page.id) (same : sameMetadata copy page = true) (sequence : copy.sequence ≠ 0)
    (lsn : copy.lsn ≠ 0) (token : copy.recordToken ≠ 0) : checkCandidate other copy = .ok () := by
  obtain ⟨named, below, -, -, -, state, low, high, order⟩ := checkCandidate_iff.mp ok
  obtain ⟨previous, next, count, retired, min, max⟩ := sameMetadata_iff.mp same
  rw [checkCandidate_iff, id, retired, count, previous, next, min, max]
  exact ⟨named, below.trans_le more, sequence, lsn, token, state, low, high, order⟩

theorem Admissible.mono {later : OrderedCollectionRoot} {sequence : Nat}
    (admissible : Admissible root sequence page)
    (incarnation : later.incarnation = root.incarnation) (newer : sequence ≤ revision)
    (more : root.nextGroupId ≤ later.nextGroupId) : Admissible later revision page := by
  obtain ⟨-, -, sequenced, lsn, token, -⟩ := checkCandidate_iff.mp admissible.passed
  exact ⟨admissible.incarnation.trans incarnation.symm, admissible.bounded.trans newer,
    checkCandidate_mono admissible.passed more rfl (sameMetadata_self _) sequenced lsn token⟩

/-! ## Copies of records -/

structure SamePage (candidate record : RecoveredOrderedGroup) : Prop where
  incarnation : candidate.incarnation = record.incarnation
  id : candidate.id = record.id
  sequence : candidate.sequence = record.sequence
  metadata : sameMetadata candidate record = true
  lsn : candidate.lsn ≠ 0
  token : candidate.recordToken ≠ 0

theorem SamePage.retired (same : SamePage candidate record) : candidate.retired = record.retired :=
  (sameMetadata_iff.mp same.metadata).2.2.2.1

theorem SamePage.passed (same : SamePage candidate record)
    (ok : checkCandidate root record = .ok ()) (more : root.nextGroupId ≤ other.nextGroupId) :
    checkCandidate other candidate = .ok () := by
  obtain ⟨-, -, sequence, -⟩ := checkCandidate_iff.mp ok
  exact checkCandidate_mono ok more same.id same.metadata (by rwa [same.sequence]) same.lsn
    same.token

def SameView (copy page : RecoveredOrderedGroup) : Prop :=
  copy.id = page.id ∧ sameMetadata copy page = true

theorem SamePage.view (same : SamePage candidate record) :
    SameView candidate record := ⟨same.id, same.metadata⟩

variable {pages : List RecoveredOrderedGroup}

theorem PageChain.congr {copies : List RecoveredOrderedGroup}
    (same : List.Forall₂ SameView copies pages) (chain : PageChain root pages) :
    PageChain root copies := by
  have mapped : ∀ {Fact : Type} (fact : RecoveredOrderedGroup → Fact),
      (∀ copy page, SameView copy page → fact copy = fact page) →
      copies.map fact = pages.map fact := by
    intro Fact fact eq
    rw [← forall₂_eq_eq_eq, forall₂_map_left_iff, forall₂_map_right_iff]
    exact same.imp eq
  have ids : copies.map RecoveredOrderedGroup.id = pages.map RecoveredOrderedGroup.id :=
    mapped _ fun _ _ own => own.1
  have ends : ∀ items : List RecoveredOrderedGroup,
      pageLinks.head 0 items = (items.map RecoveredOrderedGroup.id).head?.getD 0 ∧
        pageLinks.last 0 items = (items.map RecoveredOrderedGroup.id).getLast?.getD 0 := by
    intro items
    rw [head?_map, getLast?_map]
    exact ⟨rfl, rfl⟩
  constructor
  case linked =>
    apply Links.Chained.congr pageLinks _ chain.linked
    refine same.flip.imp fun page copy own => ?_
    obtain ⟨previous, next, -⟩ := sameMetadata_iff.mp own.2
    exact ⟨own.1.symm, previous.symm, next.symm⟩
  case first => rw [(ends copies).1, ids, ← (ends pages).1, chain.first]
  case last => rw [(ends copies).2, ids, ← (ends pages).2, chain.last]
  case counted =>
    rw [← chain.counted, itemTotal, itemTotal,
      mapped _ fun _ _ own => (sameMetadata_iff.mp own.2).2.2.1]
  case sized => rw [same.length_eq, chain.sized]
  case distinct => exact ids ▸ chain.distinct
  case named =>
    intro copy mem
    have listed : copy.id ∈ pages.map RecoveredOrderedGroup.id := ids ▸ mem_map_of_mem mem
    obtain ⟨page, held, eq⟩ := mem_map.mp listed
    exact eq ▸ chain.named page held
  case ordered =>
    rw [flatMap_def, mapped bounds, ← flatMap_def]
    · exact chain.ordered
    · intro copy page own
      obtain ⟨-, -, -, -, low, high⟩ := sameMetadata_iff.mp own.2
      rw [bounds, bounds, low, high]

theorem length_le_itemTotal (counted : ∀ page ∈ pages, page.itemCount ≠ 0) :
    pages.length ≤ itemTotal pages := by
  induction pages with
  | nil => exact Nat.zero_le _
  | cons page rest ih =>
    obtain ⟨own, others⟩ := forall_mem_cons.mp counted
    have fewer := ih others
    simp only [itemTotal, map_cons, sum_cons, length_cons] at fewer ⊢
    omega

theorem PageChain.valid (chain : PageChain root pages) (ne : pages ≠ [])
    (counted : ∀ page ∈ pages, page.itemCount ≠ 0)
    (below : ∀ page ∈ pages, page.id < root.nextGroupId) (members : root.validMembers = true)
    (incarnation : root.incarnation ≠ 0) (small : root.itemCount ≤ maxU32) : root.valid = true := by
  obtain ⟨page, rest, rfl⟩ := exists_cons_of_ne_nil ne
  have fewer := length_le_itemTotal counted
  have total := chain.counted
  have size := chain.sized
  have first : root.firstGroup = page.id := chain.first
  -- the last page is the first one exactly when there is no other
  obtain ⟨last, mem, own, single⟩ : ∃ last ∈ page :: rest, root.lastGroup = last.id ∧
      (rest = [] ↔ page.id = last.id) := by
    rcases eq_nil_or_concat rest with rfl | ⟨before, last, rfl⟩
    · exact ⟨page, mem_cons_self, chain.last, by simp⟩
    refine ⟨last, by simp, ?_, ?_⟩
    · rw [chain.last, concat_eq_append, ← cons_append, Links.last_concat]
      rfl
    · have nodup := (nodup_cons.mp chain.distinct).1
      constructor
      · intro none
        simp at none
      · intro same
        exact (nodup (mem_map.mpr ⟨last, by simp, same.symm⟩)).elim
  have firstNamed := chain.named page mem_cons_self
  have lastNamed := chain.named last mem
  have firstBelow := below page mem_cons_self
  have lastBelow := below last mem
  rw [length_cons] at size fewer
  have alone : rest = [] ↔ root.groupCount = 1 := by
    rw [← length_eq_zero_iff]
    omega
  simp only [OrderedCollectionRoot.valid, Bool.and_eq_true, decide_eq_true_eq, members, true_and,
    first, own]
  refine ⟨⟨⟨⟨⟨⟨⟨⟨⟨incarnation, ?_⟩, small⟩, ?_⟩, ?_⟩, firstNamed⟩, lastNamed⟩, firstBelow⟩,
    lastBelow⟩, alone.symm.trans single⟩ <;> omega

theorem winnerReader_copying (root : OrderedCollectionRoot) (rootSequence : Nat)
    (committed : List Nat) (faithful : ∀ cand record, copy cand record → SamePage cand record) :
    Copying (winnerReader root rootSequence committed) RecoveredOrderedGroup.sequence copy := by
  constructor
  case identity => exact fun cand record same => (faithful cand record same).id
  case revised => exact fun cand record same => (faithful cand record same).sequence
  case version =>
    intro left right above
    rcases Prod.Lex.toLex_le_toLex.mp above with less | ⟨eq, -⟩
    · exact less.le
    · exact eq.le
  case apart =>
    intro left right ne
    simp [winnerReader, ne]
  case alike =>
    intro left right record leftCopy rightCopy
    have first := sameMetadata_iff.mp (faithful left record leftCopy).metadata
    have second := sameMetadata_iff.mp (faithful right record rightCopy).metadata
    have same : sameMetadata left right = true := by
      apply sameMetadata_iff.mpr
      simp only [first, second, and_self]
    simp [winnerReader, same]

structure Survivors (copy : RecoveredOrderedGroup → RecoveredOrderedGroup → Prop)
    (current : RecoveredOrderedGroup → Prop) (pages copies gone : List RecoveredOrderedGroup) :
    Prop where
  copied : List.Forall₂ copy copies pages
  sorted : gone.Pairwise fun earlier later => earlier.id < later.id
  kept : ∀ record, current record → record.retired = true → ∃ item ∈ gone, copy item record
  only : ∀ item ∈ gone, ∃ record, current record ∧ record.retired = true ∧ copy item record

theorem recover_survivors (commandSequence : Nat) {committed : List Nat}
    (faithful : ∀ cand record, copy cand record → SamePage cand record)
    {cur : RecoveredOrderedGroup → Prop} {written candidates : List RecoveredOrderedGroup}
    (log : RecordLog RecoveredOrderedGroup.id RecoveredOrderedGroup.sequence cur written)
    (survives : Survives (winnerReader root rootSequence committed) copy written candidates)
    (ok : ∀ record ∈ written, checkCandidate root record = .ok ())
    (rooted : Rooted root rootSequence members) (chain : PageChain root pages)
    (active : ∀ record, record ∈ pages ↔ cur record ∧ record.retired = false) :
    ∃ copies gone, Survivors copy cur pages copies gone ∧
      recover root rootSequence candidates committed commandSequence members =
        .ok (chainDirectory root rootSequence commandSequence copies gone members) := by
  have copying := winnerReader_copying root rootSequence committed faithful
  obtain ⟨winners, collected⟩ := survives.collects copying log fun cand record mem same =>
    (faithful _ _ same).passed (ok record mem) le_rfl
  have restores := survives.restores copying log collected
  have held : ∀ record, cur record →
      ∃ winner, winners.get record.id = some winner ∧ copy winner record := by
    intro record present
    obtain ⟨winner, won, same⟩ := restores.held record present
    exact ⟨winner, OrderedMap.get_eq_some.mpr won, same⟩
  -- the copy of a page is the winner of its identity
  have copied :
    List.Forall₂ copy (pages.map fun page => (winners.get page.id).getD page) pages := by
    rw [forall₂_map_left_iff]
    apply forall₂_same.mpr
    intro page mem
    obtain ⟨winner, won, same⟩ := held page ((active page).mp mem).1
    rwa [won]
  have gone : ∀ item, item ∈ retiredWinners winners ↔
      item.retired = true ∧ ∃ id, (id, item) ∈ winners.entries := by
    intro item
    simp only [retiredWinners, mem_map, mem_filter, Prod.exists, exists_eq_right]
    constructor
    · rintro ⟨id, won, retired⟩
      exact ⟨retired, id, won⟩
    · rintro ⟨retired, id, won⟩
      exact ⟨id, won, retired⟩
  refine ⟨_, retiredWinners winners, ⟨copied, ?_, ?_, ?_⟩, ?_⟩
  · unfold retiredWinners
    rw [pairwise_map]
    apply (winners.sorted.sublist filter_sublist).imp_of_mem
    intro left right first second less
    obtain ⟨leftRecord, -, leftId, leftCopy⟩ := restores.winner left (mem_filter.mp first).1
    obtain ⟨rightRecord, -, rightId, rightCopy⟩ :=
      restores.winner right (mem_filter.mp second).1
    rw [(faithful _ _ leftCopy).id, (faithful _ _ rightCopy).id]
    rw [← leftId, ← rightId] at less
    exact less
  · intro record present retired
    obtain ⟨winner, won, same⟩ := restores.held record present
    exact ⟨winner, (gone winner).mpr ⟨(faithful _ _ same).retired.trans retired, _, won⟩, same⟩
  · intro item mem
    obtain ⟨retired, id, won⟩ := (gone item).mp mem
    obtain ⟨record, present, -, same⟩ := restores.winner (id, item) won
    exact ⟨record, present, (faithful _ _ same).retired.symm.trans retired, same⟩
  · apply recover_succeeds rooted collected
    · intro entry
      constructor
      · rintro ⟨won, activeEntry⟩
        obtain ⟨record, present, id, same⟩ := restores.winner entry won
        have listed : record ∈ pages :=
          (active record).mpr ⟨present, (faithful _ _ same).retired.symm.trans activeEntry⟩
        have own : winners.get record.id = some entry.2 := by
          apply OrderedMap.get_eq_some.mpr
          rw [show record.id = entry.1 from id]
          exact won
        refine ⟨entry.2, mem_map.mpr ⟨record, listed, by rw [own]; rfl⟩, ?_⟩
        rw [(faithful _ _ same).id, show record.id = entry.1 from id]
      · rintro ⟨item, mem, rfl⟩
        obtain ⟨page, listed, rfl⟩ := mem_map.mp mem
        obtain ⟨present, activePage⟩ := (active page).mp listed
        obtain ⟨winner, won, same⟩ := held page present
        have samePage := faithful _ _ same
        rw [won]
        refine ⟨?_, samePage.retired.trans activePage⟩
        rw [Option.getD_some, samePage.id]
        exact OrderedMap.get_eq_some.mp won
    · exact chain.congr (copied.imp fun _ _ same => (faithful _ _ same).view)

/-! ## Changed pages -/

variable (dir)

/-- Changed pages that fit a directory and the root they come with. -/
structure Changes (root : OrderedCollectionRoot) (revision : Nat)
    (changed : List RecoveredOrderedGroup) : Prop where
  sequence : ∀ change ∈ changed, change.sequence = revision
  incarnation : ∀ change ∈ changed, change.incarnation = root.incarnation
  passed : ∀ change ∈ changed, checkCandidate root change = .ok ()
  distinct : changed.Pairwise fun left right => left.id ≠ right.id
  unretired : ∀ change ∈ changed, change.retired = false → ∀ gone ∈ dir.retired, gone.id ≠ change.id

/-- The records after an update: the changed pages, and what they do not name. -/
def After (changed : List RecoveredOrderedGroup) (record : RecoveredOrderedGroup) : Prop :=
  record ∈ changed ∨ Current dir record ∧ ∀ change ∈ changed, change.id ≠ record.id

variable {dir}

theorem find_mem (found : dir.find id = some page) : page ∈ dir.groups := by
  unfold find at found
  split at found
  · cases found
  · split at found
    · exact mem_of_getElem? found
    · cases found

theorem findRecord_retired (live : Live dir)
    (found : (dir.findRecord id).any RecoveredOrderedGroup.retired = true) :
    ∃ gone ∈ dir.retired, gone.id = id := by
  obtain ⟨page, located, retired⟩ := (Option.any_eq_true _ _).mp found
  unfold findRecord at located
  split at located
  · next active held =>
    cases located
    rw [(live.groups page (find_mem held)).1] at retired
    cases retired
  · split at located
    · cases located
    next gone first =>
    split at located
    · next same => exact ⟨gone, mem_of_find?_eq_some first, same⟩
    · cases located

theorem Changes.unique {changed : List RecoveredOrderedGroup}
    (changes : Changes dir root revision changed) {left right : RecoveredOrderedGroup}
    (first : left ∈ changed) (second : right ∈ changed) (same : left.id = right.id) :
    left = right :=
  inj_on_of_nodup_map (pairwise_map.mpr changes.distinct) first second same

section Update

variable (live : Live dir) {root : OrderedCollectionRoot} {changed : List RecoveredOrderedGroup}
  (changes : Changes dir root revision changed)

include live changes

theorem Changes.appended : appendChanges dir revision [] changed = .ok (changed.map settled) := by
  suffices general : ∀ (items : List RecoveredOrderedGroup) (ids : List Nat),
      (∀ item ∈ items, item ∈ changed) → (∀ item ∈ items, item.id ∉ ids) →
      items.Pairwise (fun left right => left.id ≠ right.id) →
      appendChanges dir revision ids items = .ok (items.map settled) from
    general changed [] (fun _ => id) (by simp) changes.distinct
  intro items
  induction items with
  | nil => exact fun _ _ _ _ => rfl
  | cons item rest ih =>
    intro ids listed fresh nodup
    obtain ⟨ne, others⟩ := pairwise_cons.mp nodup
    have mem := listed item mem_cons_self
    refine refuseIf_bind.mpr ⟨?_, bind_returns.mpr ⟨rest.map settled, ?_, rfl⟩⟩
    · rintro (late | repeated | ⟨gone, active⟩)
      · exact late (changes.sequence item mem)
      · exact fresh item mem_cons_self repeated
      · obtain ⟨old, held, same⟩ := findRecord_retired live gone
        exact changes.unretired item mem active old held same
    · apply ih (item.id :: ids) (fun other late => listed other (mem_cons_of_mem _ late))
        _ others
      intro other late
      rw [mem_cons, not_or]
      exact ⟨(ne other late).symm, fresh other (mem_cons_of_mem _ late)⟩

variable (newer : dir.sequence < revision)

include newer

theorem Changes.log : RecordLog RecoveredOrderedGroup.id RecoveredOrderedGroup.sequence
    (After dir changed) (dir.groups ++ dir.retired ++ changed) := by
  have nodup : (dir.groups ++ dir.retired).Pairwise fun left right => left.id ≠ right.id := by
    rw [pairwise_append]
    refine ⟨?_, live.sorted.imp fun below => below.ne, live.separate⟩
    have ids := live.chain.distinct
    rwa [nodup_iff_pairwise_ne, pairwise_map] at ids
  have before : RecordLog RecoveredOrderedGroup.id RecoveredOrderedGroup.sequence
      (Current dir) (dir.groups ++ dir.retired) :=
    .of_distinct nodup fun record => mem_append.symm
  have older : ∀ record ∈ dir.groups ++ dir.retired, record.sequence < revision := by
    intro record mem
    rcases mem_append.mp mem with active | gone
    · have bound := (live.groups record active).2.bounded
      omega
    · have bound := (live.retired record gone).2.bounded
      omega
  apply before.update older changes.sequence _ fun record => Iff.rfl
  · exact fun left first right second => changes.unique first second

variable (incarnation : root.incarnation = dir.root.incarnation)
  (more : dir.root.nextGroupId ≤ root.nextGroupId)

include incarnation more

theorem Changes.admissible :
    ∀ record ∈ dir.groups ++ dir.retired ++ changed, Admissible root revision record := by
  have old : ∀ record, Admissible dir.root dir.sequence record → Admissible root revision record :=
    fun record admissible => admissible.mono incarnation newer.le more
  intro record mem
  rcases mem_append.mp mem with before | late
  · rcases mem_append.mp before with active | gone
    · exact old record (live.groups record active).2
    · exact old record (live.retired record gone).2
  · exact ⟨changes.incarnation record late, (changes.sequence record late).le,
      changes.passed record late⟩

end Update

/-! ## The next directory -/

theorem valid_revision (valid : root.valid = true) (later : root.revision ≤ revision) :
    ({ root with revision }).valid = true := by
  simp only [OrderedCollectionRoot.valid, Bool.and_eq_true] at valid ⊢
  obtain ⟨⟨⟨⟨⟨⟨⟨⟨⟨⟨members, a⟩, b⟩, c⟩, d⟩, e⟩, f⟩, g⟩, h⟩, i⟩, j⟩ := valid
  refine ⟨⟨⟨⟨⟨⟨⟨⟨⟨⟨?_, a⟩, b⟩, c⟩, d⟩, e⟩, f⟩, g⟩, h⟩, i⟩, j⟩
  unfold OrderedCollectionRoot.validMembers at members ⊢
  cases index : root.memberIndex with
  | none => rfl
  | some mem =>
    rw [index] at members
    simp only [Option.all_some, Bool.and_eq_true, decide_eq_true_eq] at members ⊢
    exact ⟨members.1, members.2.trans later⟩

theorem chainDirectory_live {retired : List RecoveredOrderedGroup}
    (rooted : Rooted root rootSequence members)
    (chain : PageChain root pages)
    (active : ∀ page ∈ pages, page.retired = false ∧ Admissible root rootSequence page)
    (gone : ∀ page ∈ retired, page.retired = true ∧ Admissible root rootSequence page)
    (sorted : retired.Pairwise fun earlier later => earlier.id < later.id)
    (separate : ∀ page ∈ pages, ∀ item ∈ retired, page.id ≠ item.id) :
    Live (chainDirectory root rootSequence commandSequence pages retired members) where
  valid := valid_revision rooted.valid (by have := rooted.revised; omega)
  revised := rfl
  sequenced := rooted.sequenced
  chain := { chain with }
  ends := rfl
  ids := rfl
  groups := fun page mem => ⟨(active page mem).1, { (active page mem).2 with }⟩
  retired := fun page mem => ⟨(gone page mem).1, { (gone page mem).2 with }⟩
  sorted := sorted
  separate := separate
  members := rooted.indexed

theorem settled_same (ok : checkCandidate root page = .ok ()) : SamePage (settled page) page := by
  obtain ⟨-, -, -, lsn, token, -⟩ := checkCandidate_iff.mp ok
  exact ⟨rfl, rfl, rfl, sameMetadata_self page, lsn, token⟩

/-- The directory after an update whose active pages are the chain of its root. -/
structure Updated (dir : OrderedGroupDirectory) (root : OrderedCollectionRoot)
    (revision : Nat) (changed pages : List RecoveredOrderedGroup)
    (members : Option HashGroupDirectory) (after : OrderedGroupDirectory) : Prop where
  live : Live after
  root : after.root = { root with revision }
  sequence : after.sequence = revision
  active : ∀ record, record ∈ pages ↔ After dir changed record ∧ record.retired = false
  groups : after.groups = pages.map settled
  retired : ∀ item, item ∈ after.retired ↔
    ∃ record, After dir changed record ∧ record.retired = true ∧ item = settled record
  members : after.members = members

theorem Updated.current_iff {after : OrderedGroupDirectory} {changed : List RecoveredOrderedGroup}
    (updated : Updated dir root revision changed pages members after)
    (record : RecoveredOrderedGroup) :
    Current after record ↔ ∃ held, After dir changed held ∧ record = settled held := by
  constructor
  · rintro (listed | gone)
    · rw [updated.groups] at listed
      obtain ⟨held, mem, rfl⟩ := mem_map.mp listed
      exact ⟨held, ((updated.active held).mp mem).1, rfl⟩
    · obtain ⟨held, present, -, same⟩ := (updated.retired record).mp gone
      exact ⟨held, present, same⟩
  · rintro ⟨held, present, rfl⟩
    cases retired : held.retired with
    | false =>
      left
      rw [updated.groups]
      exact mem_map_of_mem ((updated.active held).mpr ⟨present, retired⟩)
    | true => exact .inr ((updated.retired _).mpr ⟨held, present, retired, rfl⟩)

section Update

variable (live : Live dir) {root : OrderedCollectionRoot}
  {changed pages : List RecoveredOrderedGroup} (changes : Changes dir root revision changed)
  (newer : dir.sequence < revision) (kind : root.kind = dir.root.kind)
  (incarnation : root.incarnation = dir.root.incarnation)
  (more : dir.root.nextGroupId ≤ root.nextGroupId) (ordered : dir.commandSequence ≤ commandSequence)
  (rooted : Rooted root revision members) {memory : RoutingMemory}
  {memberChanges : List RecoveredHashGroup}
  (updated : applyMembers memory dir.members root.memberIndex commandSequence memberChanges =
    .ok members) (chain : PageChain root pages)
  (active : ∀ record, record ∈ pages ↔ After dir changed record ∧ record.retired = false)

include live changes newer kind incarnation more ordered rooted updated chain active

theorem apply_succeeds : ∃ after,
    apply memory dir root revision changed commandSequence memberChanges = .ok after ∧
      Updated dir root revision changed pages members after := by
  have log := changes.log live newer
  have admissible := changes.admissible live newer incarnation more
  have survives : Survives (winnerReader root revision [])
      (fun cand record => cand = settled record ∧ SamePage cand record)
      (dir.groups ++ dir.retired ++ changed)
      (dir.groups.map settled ++ dir.retired.map settled ++ changed.map settled) := by
    rw [← map_append, ← map_append]
    constructor
    · intro record mem
      have own := admissible record mem
      refine ⟨settled record, mem_map_of_mem mem, ⟨rfl, settled_same own.passed⟩, ?_⟩
      have early := own.bounded
      simp [winnerReader, excluded, settled, own.incarnation, early]
    · intro cand listed _
      obtain ⟨record, mem, rfl⟩ := mem_map.mp listed
      exact ⟨record, mem, rfl, settled_same (admissible record mem).passed⟩
  have present : ∀ record, After dir changed record → Admissible root revision record :=
    fun record held => admissible record (log.listed record held)
  obtain ⟨copies, gone, survivors, recovered⟩ := recover_survivors commandSequence
    (fun _ _ same => same.2) log survives (fun record mem => (admissible record mem).passed)
    rooted chain active
  have copied : copies = pages.map settled := by
    have same : List.Forall₂ (fun copy page => copy = settled page) copies pages :=
      survivors.copied.imp fun _ _ own => own.1
    rwa [← forall₂_eq_eq_eq, forall₂_map_right_iff]
  have retired : ∀ item, item ∈ gone ↔
      ∃ record, After dir changed record ∧ record.retired = true ∧ item = settled record := by
    intro item
    constructor
    · intro mem
      obtain ⟨record, held, retired, same, -⟩ := survivors.only item mem
      exact ⟨record, held, retired, same⟩
    · rintro ⟨record, held, retired, rfl⟩
      obtain ⟨item, mem, rfl, -⟩ := survivors.kept record held retired
      exact mem
  have kept : ∀ record, After dir changed record → Admissible root revision (settled record) := by
    intro record held
    have own := present record held
    exact ⟨own.incarnation, own.bounded, (settled_same own.passed).passed own.passed le_rfl⟩
  have activeCopies : ∀ page ∈ copies, ∃ record, After dir changed record ∧
      record.retired = false ∧ page = settled record := by
    intro page mem
    rw [copied] at mem
    obtain ⟨record, listed, rfl⟩ := mem_map.mp mem
    obtain ⟨held, activeRecord⟩ := (active record).mp listed
    exact ⟨record, held, activeRecord, rfl⟩
  refine ⟨chainDirectory root revision commandSequence copies gone members, ?_, ?_⟩
  · refine refuseIf_bind.mpr ⟨?_, bind_returns.mpr ⟨_, changes.appended live,
      bind_returns.mpr ⟨members, updated, recovered⟩⟩⟩
    rintro (other | other | late | late | fewer)
    · exact other kind
    · exact other incarnation
    all_goals omega
  · refine ⟨?_, rfl, rfl, active, copied, retired, rfl⟩
    apply chainDirectory_live rooted
      (chain.congr (survivors.copied.imp fun _ _ same => same.2.view))
    case active =>
      intro page mem
      obtain ⟨record, held, activeRecord, rfl⟩ := activeCopies page mem
      exact ⟨activeRecord, kept record held⟩
    case gone =>
      intro page mem
      obtain ⟨record, held, retiredRecord, rfl⟩ := (retired page).mp mem
      exact ⟨retiredRecord, kept record held⟩
    case sorted => exact survivors.sorted
    case separate =>
      intro page mem item listed same
      obtain ⟨record, held, activeRecord, rfl⟩ := activeCopies page mem
      obtain ⟨other, otherHeld, retiredOther, rfl⟩ := (retired item).mp listed
      have eq := log.unique held otherHeld same
      rw [eq, retiredOther] at activeRecord
      cases activeRecord

end Update

end Lavik.Storage.OrderedGroupDirectory
