import Lavik.Storage.OrderedPacking
import Lavik.Storage.OrderedUpdate
/-!
# Publishing the pages of an ordered collection

The pages a plan writes become records with the revision of the plan. When the pages of the
directory without the ones the writes replace, and the active writes, are the chain of the new root,
the update is accepted and the directory after it has exactly these pages.
-/

namespace Lavik.Storage

open Base OrderedGroupDirectory List OrderedCollectionRoot

def pageRecord (revision txid batchTxid : Nat) (page : OrderedGroupSnapshot) :
    RecoveredOrderedGroup where
  incarnation := page.incarnation
  id := page.id
  previous := page.previous
  next := page.next
  sequence := revision
  lsn := revision
  txid := txid
  batchTxid := batchTxid
  itemCount := page.entries.length
  recordToken := page.id
  retired := page.retired
  minScore := (page.entries.head?.map OrderedCollectionEntry.score).getD 0
  maxScore := (page.entries.getLast?.map OrderedCollectionEntry.score).getD 0

def draft (page : OrderedGroupSnapshot) : RecoveredOrderedGroup := pageRecord 0 0 0 page

structure PageOf (root : OrderedCollectionRoot) (page : OrderedGroupSnapshot)
    (record : RecoveredOrderedGroup) : Prop where
  kind : page.kind = root.kind
  incarnation : page.incarnation = root.incarnation
  view : SameView record (draft page)

structure PagesOf (dir : OrderedGroupDirectory) (pages : List OrderedGroupSnapshot) :
    Prop where
  live : Live dir
  held : List.Forall₂ (PageOf dir.root) pages dir.groups

/-! ## Members -/

/-- The members of a published Sorted Set belong to its root and count its items. -/
structure MembersFit (memory : RoutingMemory) (dir : OrderedGroupDirectory)
    (itemCount revision commandSequence : Nat) (memberIndex : Option GroupedHashRoot)
    (memberChanges : List RecoveredHashGroup) (members : Option HashGroupDirectory) : Prop where
  applied : applyMembers memory dir.members memberIndex commandSequence memberChanges = .ok members
  incarnation : ∀ index ∈ memberIndex, index.incarnation = dir.root.incarnation
  counted : ∀ index ∈ memberIndex, index.fieldCount.toNat = itemCount
  revised : ∀ index ∈ memberIndex, index.revision ≠ 0 ∧ index.revision ≤ revision

variable {memory : RoutingMemory} {dir : OrderedGroupDirectory}

theorem applyMembers_returns {members after : Option HashGroupDirectory}
    {memberIndex : Option GroupedHashRoot} {commandSequence : Nat}
    {memberChanges : List RecoveredHashGroup}
    (ret : applyMembers memory members memberIndex commandSequence memberChanges = .ok after) :
    after.map HashGroupDirectory.root = memberIndex ∧ memberIndex.isSome = members.isSome := by
  obtain ⟨format, second⟩ := refuseIf_bind.mp ret
  rw [not_not] at format
  refine ⟨?_, format⟩
  cases members with
  | none =>
    cases memberIndex with
    | none =>
      obtain ⟨-, same⟩ := refuseIf_bind.mp second
      cases same
      rfl
    | some index => cases format
  | some cur =>
    cases memberIndex with
    | none => cases format
    | some index =>
      by_cases changed : cur.root ≠ index
      · simp only [if_pos changed] at second
        obtain ⟨updated, applied, same⟩ := bind_returns.mp second
        cases same
        obtain ⟨-, rest⟩ := refuseIf_bind.mp applied
        obtain ⟨_, -, rest⟩ := bind_returns.mp rest
        obtain ⟨_, -, rest⟩ := bind_returns.mp rest
        obtain ⟨-, stored⟩ := refuseIf_bind.mp rest
        cases stored
        rfl
      · simp only [if_neg changed] at second
        obtain ⟨-, same⟩ := refuseIf_bind.mp second
        cases same
        exact congrArg some (not_not.mp changed)

/-! ## Rewrites of a chain -/

structure Covers (pages next writes : List OrderedGroupSnapshot) : Prop where
  kept : ∀ page ∈ next, page ∈ writes ∨ page ∈ pages ∧ ∀ write ∈ writes, write.id ≠ page.id
  written : ∀ write ∈ writes, write.retired = false → write ∈ next
  untouched : ∀ page ∈ pages, (∀ write ∈ writes, write.id ≠ page.id) → page ∈ next
  distinct : writes.Pairwise fun left right => left.id ≠ right.id

/-- The writes of a plan turn the pages of a directory into the chain of the root of the plan. -/
structure Rewrites (dir : OrderedGroupDirectory) (pages : List OrderedGroupSnapshot)
    (root : OrderedCollectionRoot) (writes : List OrderedGroupSnapshot)
    (next : List OrderedGroupSnapshot) : Prop where
  kind : root.kind = dir.root.kind
  incarnation : root.incarnation = dir.root.incarnation
  more : dir.root.nextGroupId ≤ root.nextGroupId
  small : root.itemCount ≤ maxU32
  chain : PageChain root (next.map draft)
  present : next ≠ []
  nonempty : ∀ page ∈ next, page.entries ≠ []
  active : ∀ page ∈ next, page.retired = false
  covers : Covers pages next writes
  alike : ∀ write ∈ writes, write.kind = root.kind ∧ write.incarnation = root.incarnation
  fresh : ∀ write ∈ writes, write.retired = false →
    (∃ page ∈ pages, page.id = write.id) ∨ dir.root.nextGroupId ≤ write.id
  passed : ∀ write ∈ writes, ∀ revision txid batchTxid, revision ≠ 0 →
    checkCandidate root (pageRecord revision txid batchTxid write) = .ok ()

theorem Covers.refl (pages : List OrderedGroupSnapshot) : Covers pages pages [] where
  kept := fun _ mem => .inr ⟨mem, by simp⟩
  written := by simp
  untouched := fun _ mem _ => mem
  distinct := .nil

theorem Covers.append
    {left leftNext leftWrites right rightNext rightWrites : List OrderedGroupSnapshot}
    (first : Covers left leftNext leftWrites) (second : Covers right rightNext rightWrites)
    (apart : ∀ page ∈ left ++ leftWrites, ∀ other ∈ right ++ rightWrites, page.id ≠ other.id) :
    Covers (left ++ right) (leftNext ++ rightNext) (leftWrites ++ rightWrites) := by
  simp only [forall_mem_append] at apart
  obtain ⟨pagesApart, writesApart⟩ := apart
  constructor
  case kept =>
    intro page mem
    rcases mem_append.mp mem with front | back
    · rcases first.kept page front with written | ⟨old, free⟩
      · exact .inl (mem_append_left _ written)
      · refine .inr ⟨mem_append_left _ old, forall_mem_append.mpr ⟨free, ?_⟩⟩
        exact fun write written => ((pagesApart page old).2 write written).symm
    · rcases second.kept page back with written | ⟨old, free⟩
      · exact .inl (mem_append_right _ written)
      · refine .inr ⟨mem_append_right _ old, forall_mem_append.mpr ⟨?_, free⟩⟩
        exact fun write written => (writesApart write written).1 page old
  case written =>
    intro write mem active
    rcases mem_append.mp mem with front | back
    · exact mem_append_left _ (first.written write front active)
    · exact mem_append_right _ (second.written write back active)
  case untouched =>
    intro page mem free
    obtain ⟨leftFree, rightFree⟩ := forall_mem_append.mp free
    rcases mem_append.mp mem with front | back
    · exact mem_append_left _ (first.untouched page front leftFree)
    · exact mem_append_right _ (second.untouched page back rightFree)
  case distinct =>
    rw [pairwise_append]
    exact ⟨first.distinct, second.distinct, fun write written other => (writesApart write written).2
      other⟩

variable {pages : List OrderedGroupSnapshot}

theorem Covers.perm {next writes others : List OrderedGroupSnapshot}
    (covers : Covers pages next writes) (same : writes.Perm others) : Covers pages next others where
  kept := by simpa only [same.mem_iff] using covers.kept
  written := by simpa only [same.mem_iff] using covers.written
  untouched := by simpa only [same.mem_iff] using covers.untouched
  distinct := (same.pairwise_iff Ne.symm).mp covers.distinct

theorem draft_view (revision txid batchTxid : Nat) (page : OrderedGroupSnapshot) :
    SameView (pageRecord revision txid batchTxid page) (draft page) :=
  ⟨rfl, sameMetadata_self _⟩

theorem PagesOf.chain (stored : PagesOf dir pages) : PageChain dir.root (pages.map draft) := by
  apply PageChain.congr _ stored.live.chain
  rw [forall₂_map_left_iff]
  refine stored.held.imp fun page record own => ⟨own.view.1.symm, sameMetadata_iff.mpr ?_⟩
  have same := sameMetadata_iff.mp own.view.2
  simp only [same, and_self]

theorem PagesOf.distinct (stored : PagesOf dir pages) :
    pages.Pairwise fun left right => left.id ≠ right.id := by
  have ids := stored.chain.distinct
  rwa [map_map, nodup_iff_pairwise_ne, pairwise_map] at ids

theorem PagesOf.unique (stored : PagesOf dir pages) {left right : OrderedGroupSnapshot}
    (first : left ∈ pages) (second : right ∈ pages) (same : left.id = right.id) : left = right :=
  inj_on_of_nodup_map (pairwise_map.mpr stored.distinct) first second same

section Publish

variable {pages next writes : List OrderedGroupSnapshot} {root : OrderedCollectionRoot}
  (rewrites : Rewrites dir pages root writes next) (stored : PagesOf dir pages)

include rewrites stored

theorem Rewrites.below : ∀ page ∈ next, page.id < root.nextGroupId := by
  intro page mem
  rcases rewrites.covers.kept page mem with written | ⟨old, -⟩
  · exact (checkCandidate_iff.mp (rewrites.passed page written 1 0 0 one_ne_zero)).2.1
  obtain ⟨record, listed, own⟩ := forall₂_mem_left stored.held old
  have low := (checkCandidate_iff.mp (stored.live.groups record listed).2.passed).2.1
  have more := rewrites.more
  have same : record.id = page.id := own.view.1
  omega

theorem Rewrites.unretired : ∀ page ∈ next, ∀ gone ∈ dir.retired, gone.id ≠ page.id := by
  have old : ∀ page ∈ pages, ∀ gone ∈ dir.retired, gone.id ≠ page.id := by
    intro page listed gone retired same
    obtain ⟨record, held, own⟩ := forall₂_mem_left stored.held listed
    exact stored.live.separate record held gone retired (own.view.1.trans same.symm)
  intro page mem gone retired same
  rcases rewrites.covers.kept page mem with written | ⟨listed, -⟩
  · rcases rewrites.fresh page written (rewrites.active page mem) with ⟨held, listed, own⟩ | late
    · exact old held listed gone retired (same.trans own.symm)
    · have low := (checkCandidate_iff.mp (stored.live.retired gone retired).2.passed).2.1
      omega
  · exact old page listed gone retired same

variable {memberIndex : Option GroupedHashRoot} {commandSequence revision : Nat}
  {members : Option HashGroupDirectory} {memberChanges : List RecoveredHashGroup}
  {memory : RoutingMemory}

theorem Rewrites.valid
    (fit : MembersFit memory dir root.itemCount revision commandSequence memberIndex
      memberChanges members) : ({ root with revision, memberIndex }).valid = true := by
  have before := stored.live.valid
  simp only [OrderedCollectionRoot.valid, Bool.and_eq_true, decide_eq_true_eq] at before
  obtain ⟨⟨⟨⟨⟨⟨⟨⟨⟨⟨oldMembers, oldIncarnation⟩, -⟩, -⟩, -⟩, -⟩, -⟩, -⟩, -⟩, -⟩, -⟩ := before
  have chained : PageChain { root with revision, memberIndex } (next.map draft) :=
    { rewrites.chain with }
  apply chained.valid
  · simpa using rewrites.present
  · refine forall_mem_map.mpr fun page listed none => ?_
    exact rewrites.nonempty page listed (length_eq_zero_iff.mp none)
  · exact forall_mem_map.mpr (rewrites.below stored)
  · unfold validMembers
    cases index : memberIndex with
    | none => rfl
    | some own =>
      -- only a Sorted Set had members before
      have format := (applyMembers_returns fit.applied).2
      have indexed := stored.live.members
      obtain ⟨current, held⟩ : ∃ current, dir.members = some current := by
        rw [index] at format
        exact Option.isSome_iff_exists.mp format.symm
      unfold validMembers at oldMembers
      rw [held] at indexed
      rw [← indexed] at oldMembers
      simp only [Option.map_some, Option.all_some, Bool.and_eq_true, decide_eq_true_eq]
        at oldMembers ⊢
      have revised := fit.revised own index
      exact ⟨⟨⟨⟨rewrites.kind.trans oldMembers.1.1.1.1, (fit.incarnation own index).trans
        rewrites.incarnation.symm⟩, fit.counted own index⟩, revised.1⟩, revised.2⟩
  · show root.incarnation ≠ 0
    rwa [rewrites.incarnation]
  · exact rewrites.small

theorem Rewrites.changes (txid batchTxid : Nat) (newer : dir.sequence < revision)
    (memberIndex : Option GroupedHashRoot) :
    Changes dir { root with revision, memberIndex } revision
      (writes.map (pageRecord revision txid batchTxid)) := by
  constructor
  case sequence => exact forall_mem_map.mpr fun _ _ => rfl
  case incarnation => exact forall_mem_map.mpr fun write listed => (rewrites.alike write listed).2
  case passed =>
    refine forall_mem_map.mpr fun write listed => ?_
    exact rewrites.passed write listed revision txid batchTxid (by omega)
  case distinct =>
    rw [pairwise_map]
    exact rewrites.covers.distinct
  case unretired =>
    refine forall_mem_map.mpr fun write listed active => ?_
    exact rewrites.unretired stored write (rewrites.covers.written write listed active)

theorem Rewrites.published (txid batchTxid : Nat) (newer : dir.sequence < revision)
    (ordered : dir.commandSequence ≤ commandSequence)
    (fit : MembersFit memory dir root.itemCount revision commandSequence memberIndex
      memberChanges members) :
    ∃ after records, dir.apply memory { root with revision, memberIndex } revision
        (writes.map (pageRecord revision txid batchTxid)) commandSequence memberChanges =
          .ok after ∧ Updated dir { root with revision, memberIndex } revision
        (writes.map (pageRecord revision txid batchTxid)) records members after ∧
      PagesOf after next := by
  have changes := rewrites.changes stored txid batchTxid newer memberIndex
  have log := changes.log stored.live newer
  -- every page of the new chain has its record, written now or before
  obtain ⟨records, parallel⟩ : ∃ records, List.Forall₂ (fun page record => PageOf root page record ∧
      After dir (writes.map (pageRecord revision txid batchTxid)) record ∧
      record.retired = false) next records := by
    apply forall₂_of_exists
    intro page mem
    rcases rewrites.covers.kept page mem with written | ⟨old, free⟩
    · obtain ⟨kind, incarnation⟩ := rewrites.alike page written
      exact ⟨pageRecord revision txid batchTxid page, ⟨kind, incarnation, draft_view _ _ _ page⟩,
        .inl (mem_map_of_mem written), rewrites.active page mem⟩
    obtain ⟨record, listed, own⟩ := forall₂_mem_left stored.held old
    refine ⟨record, ⟨own.kind.trans rewrites.kind.symm,
      own.incarnation.trans rewrites.incarnation.symm, own.view⟩, .inr ⟨.inl listed, ?_⟩,
      (stored.live.groups record listed).1⟩
    intro change changed same
    obtain ⟨write, written, rfl⟩ := mem_map.mp changed
    exact free write written (same.trans own.view.1)
  have active : ∀ record, record ∈ records ↔
      After dir (writes.map (pageRecord revision txid batchTxid)) record ∧
        record.retired = false := by
    intro record
    have present : ∀ page ∈ next, record.id = page.id →
        After dir (writes.map (pageRecord revision txid batchTxid)) record →
        record ∈ records := by
      intro page mem same held
      obtain ⟨other, listed, own, otherHeld, -⟩ := forall₂_mem_left parallel mem
      have eq := log.unique held otherHeld (same.trans own.view.1.symm)
      rwa [eq]
    constructor
    · intro mem
      obtain ⟨page, -, -, held, activeRecord⟩ := forall₂_mem_right parallel mem
      exact ⟨held, activeRecord⟩
    · rintro ⟨held, activeRecord⟩
      rcases id held with changed | ⟨listed | gone, free⟩
      · obtain ⟨write, written, rfl⟩ := mem_map.mp changed
        exact present write (rewrites.covers.written write written activeRecord) rfl held
      · obtain ⟨page, old, own⟩ := forall₂_mem_right stored.held listed
        have untouched : ∀ write ∈ writes, write.id ≠ page.id := by
          intro write written same
          exact free _ (mem_map_of_mem written) (same.trans own.view.1.symm)
        exact present page (rewrites.covers.untouched page old untouched) own.view.1 held
      · rw [(stored.live.retired record gone).1] at activeRecord
        cases activeRecord
  have chain :
    PageChain { root with revision, memberIndex } records := by
    have view : List.Forall₂ SameView records (next.map draft) := by
      rw [forall₂_map_right_iff]
      exact List.Forall₂.flip (parallel.imp fun _ _ own => own.1.view)
    exact { rewrites.chain.congr view with }
  obtain ⟨after, applied, updated⟩ := apply_succeeds stored.live changes newer rewrites.kind
    rewrites.incarnation rewrites.more ordered ⟨rewrites.valid stored fit, by omega, .inr rfl,
      (applyMembers_returns fit.applied).1⟩ fit.applied chain active
  refine ⟨after, records, applied, updated, updated.live, ?_⟩
  rw [updated.groups, updated.root, forall₂_map_right_iff]
  refine parallel.imp fun page record own => ?_
  have same := sameMetadata_iff.mp own.1.view.2
  exact ⟨own.1.kind, own.1.incarnation, own.1.view.1, sameMetadata_iff.mpr same⟩

end Publish

/-! ## New collections -/

/-- The directory of a collection whose pages one command wrote. -/
def writtenDirectory (root : OrderedCollectionRoot) (revision txid batchTxid sequence : Nat)
    (members : Option HashGroupDirectory) (pages : List OrderedGroupSnapshot) :
    OrderedGroupDirectory :=
  chainDirectory root revision sequence (pages.map (pageRecord revision txid batchTxid)) [] members

theorem created_pages {root : OrderedCollectionRoot} {revision txid batchTxid : Nat}
    (commandSequence : Nat) (committed : List Nat) {members : Option HashGroupDirectory}
    (rooted : Rooted root revision members)
    (chain : PageChain root (pages.map draft))
    (alike : ∀ page ∈ pages, page.kind = root.kind ∧ page.incarnation = root.incarnation ∧
      page.retired = false)
    (ok : ∀ page ∈ pages, checkCandidate root (pageRecord revision txid batchTxid page) = .ok ())
    (decided : txid ∈ committed ∧ batchTxid ∈ committed) :
    recover root revision (pages.map (pageRecord revision txid batchTxid)) committed
        commandSequence members =
      .ok (writtenDirectory root revision txid batchTxid commandSequence members pages) ∧
    PagesOf (writtenDirectory root revision txid batchTxid commandSequence members pages)
      pages := by
  set written := pages.map (pageRecord revision txid batchTxid) with writtenEq
  have view : List.Forall₂ SameView written (pages.map draft) := by
    rw [writtenEq, forall₂_map_left_iff, forall₂_map_right_iff]
    exact forall₂_same.mpr fun page _ => draft_view revision txid batchTxid page
  have records := chain.congr view
  have admissible : ∀ record ∈ written,
      record.retired = false ∧ Admissible root revision record := by
    refine forall_mem_map.mpr fun page listed => ?_
    exact ⟨(alike page listed).2.2, (alike page listed).2.1, le_rfl, ok page listed⟩
  have nodup : written.Pairwise fun left right => left.id ≠ right.id := by
    have ids := records.distinct
    rwa [nodup_iff_pairwise_ne, pairwise_map] at ids
  have log : RecordLog RecoveredOrderedGroup.id RecoveredOrderedGroup.sequence
      (· ∈ written) written :=
    .of_distinct nodup fun _ => Iff.rfl
  have copies : ∀ record ∈ written, SamePage record record := by
    intro record mem
    obtain ⟨-, -, -, lsn, token, -⟩ := checkCandidate_iff.mp (admissible record mem).2.passed
    exact ⟨rfl, rfl, rfl, sameMetadata_self _, lsn, token⟩
  have survives : Survives (winnerReader root revision committed)
      (fun cand record => cand = record ∧ SamePage cand record) written written := by
    constructor
    · intro record mem
      refine ⟨record, mem, ⟨rfl, copies record mem⟩, ?_⟩
      obtain ⟨page, listed, rfl⟩ := mem_map.mp mem
      simp [winnerReader, excluded, pageRecord, (alike page listed).2.1, decided.1, decided.2]
    · exact fun cand mem _ => ⟨cand, mem, rfl, copies cand mem⟩
  obtain ⟨held, gone, survivors, recovered⟩ := recover_survivors commandSequence
    (fun _ _ same => same.2) log survives (fun record mem => (admissible record mem).2.passed)
    rooted records
    (fun record => ⟨fun mem => ⟨mem, (admissible record mem).1⟩, And.left⟩)
  have same : held = written := by
    rw [← forall₂_eq_eq_eq]
    exact survivors.copied.imp fun _ _ own => own.1
  have none : gone = [] := by
    apply eq_nil_iff_forall_not_mem.mpr
    intro item mem
    obtain ⟨record, listed, retired, -⟩ := survivors.only item mem
    rw [(admissible record listed).1] at retired
    cases retired
  rw [same, none] at recovered
  refine ⟨recovered, chainDirectory_live rooted records admissible (by simp) .nil (by simp), ?_⟩
  show List.Forall₂ _ pages written
  rw [writtenEq, forall₂_map_right_iff]
  exact forall₂_same.mpr fun page mem =>
    ⟨(alike page mem).1, (alike page mem).2.1, draft_view revision txid batchTxid page⟩

end Lavik.Storage
