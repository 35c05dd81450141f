import Lavik.Storage.HashHistory
import Lavik.Storage.OrderedRefinement
/-!
# The history of an ordered collection

Every splice is planned and applied to the directory, and its records are written next to all
earlier ones; recovery from what a crash leaves of them agrees with the directory.
-/

namespace Lavik.Storage

open Base OrderedGroupDirectory List HashHistory

/-- An ordered collection with its stored pages and all page records it ever wrote, and the history
of its members. -/
structure OrderedHistory where
  directory : OrderedGroupDirectory
  pages : List OrderedGroupSnapshot
  written : List RecoveredOrderedGroup
  members : Option HashHistory

def createdRoot (kind : OrderedCollectionKind) (entries : List OrderedCollectionEntry)
    (split : OrderedGroupSplit) (revision : Nat) (members : Option HashHistory) :
    OrderedCollectionRoot where
  kind := kind
  incarnation := revision
  itemCount := entries.length
  firstGroup := snapshotLinks.head 0 split.groups
  lastGroup := snapshotLinks.last 0 split.groups
  nextGroupId := split.nextGroupId
  groupCount := split.groups.length
  revision := revision
  memberIndex := members.map fun history => history.directory.root

/-- The pages of a split under the incarnation of the command that made them. -/
def OrderedGroupSplit.created (split : OrderedGroupSplit) (revision : Nat) :
    List OrderedGroupSnapshot :=
  split.groups.map fun page => { page with incarnation := revision }

/-- A new collection: its items are split into pages, and `CommitGroupedOrderedMutationLocked`
without a previous object makes the first directory. -/
def createOrdered (kind : OrderedCollectionKind) (entries : List OrderedCollectionEntry)
    (targetBytes revision txid batchTxid sequence : Nat) (members : Option HashHistory) :
    StatusOr OrderedHistory := do
  let split ← splitOrderedGroup { kind, incarnation := 1, id := 1, entries } 2 targetBytes
  refuseIf (maxU32 < entries.length) .invalidArgument "invalid ordered mutation cardinality/type"
  let root := createdRoot kind entries split revision members
  refuseIf (root.memberIndex.any (fun index =>
      index.incarnation ≠ root.incarnation || index.fieldCount.toNat ≠ root.itemCount) = true)
    .aborted "prepared member index is stale"
  let pages := split.created revision
  let records := pages.map (pageRecord revision txid batchTxid)
  let dir ← recover root revision records [txid, batchTxid] sequence (members.map directory)
  .ok ⟨dir, pages, records, members⟩

inductive MemberStep (memory : RoutingMemory) (revision commandSequence : Nat) :
    Option HashHistory → Option HashHistory → Option GroupedHashRoot → List RecoveredHashGroup →
      Prop
  | absent : MemberStep memory revision commandSequence none none none []
  | kept (current : HashHistory) : MemberStep memory revision commandSequence (some current)
      (some current) (some current.directory.root) []
  | updated {current : HashHistory} {after : HashGroupDirectory} {index : GroupedHashRoot}
      {changes : List RecoveredHashGroup} : index.revision = revision →
      current.directory.apply memory index commandSequence changes = .ok after →
      MemberStep memory revision commandSequence (some current)
        (some ⟨after, current.written ++ changes⟩) (some index) changes

def storedPages (dir : OrderedGroupDirectory) (writes pages : List OrderedGroupSnapshot) :
    List OrderedGroupSnapshot :=
  dir.groups.filterMap fun group => (writes ++ pages).find? fun page => page.id = group.id

structure SpliceStep (history next : OrderedHistory) : Prop where
  intro ::
  spliced : ∃ loadedGroups rank eraseCount entries targetBytes plan revision commandSequence txid
      batchTxid memory memberIndex memberChanges,
    (∀ candidate ∈ loadedGroups, candidate.snapshot ∈ history.pages) ∧
    planOrderedCollectionSplice history.directory loadedGroups rank eraseCount entries targetBytes =
      .ok plan ∧
    plan.changed = true ∧ plan.deleteKey = false ∧
    MemberStep memory revision commandSequence history.members next.members memberIndex
      memberChanges ∧
    (∀ index ∈ memberIndex, index.incarnation = plan.root.incarnation ∧
      index.fieldCount.toNat = plan.root.itemCount) ∧
    history.directory.apply memory { plan.root with revision, memberIndex := memberIndex
    } revision (plan.writes.map (pageRecord revision txid batchTxid)) commandSequence
        memberChanges = .ok next.directory ∧
    next.pages = storedPages next.directory plan.writes history.pages ∧
    next.written = history.written ++ plan.writes.map (pageRecord revision txid batchTxid)

def orderedSystem (digestOf : DigestSeed → List UInt8 → UInt64) :
    TransitionSystem OrderedHistory Unit where
  init := fun history => ∃ kind entries targetBytes revision txid batchTxid sequence members,
    (∀ begun ∈ members, (historySystem digestOf).init begun) ∧
    createOrdered kind entries targetBytes revision txid batchTxid sequence members = .ok history
  step := fun history _ next => SpliceStep history next

structure OrderedHistory.Sound (history : OrderedHistory) : Prop where
  stored : PagesOf history.directory history.pages
  members : history.directory.members = history.members.map HashHistory.directory
  memberSound : ∀ own ∈ history.members, own.Sound
  admissible : ∀ record ∈ history.written,
    Admissible history.directory.root history.directory.sequence record
  log : RecordLog RecoveredOrderedGroup.id RecoveredOrderedGroup.sequence
    (fun record => ∃ held, Current history.directory held ∧ record = settled held)
    (history.written.map settled)

/-! ## New collections -/

variable {entries : List OrderedCollectionEntry} {kind : OrderedCollectionKind}
  {targetBytes revision commandSequence : Nat} {split : OrderedGroupSplit}
  {members : Option HashHistory} {root : OrderedCollectionRoot}

theorem spelled_created (split : OrderedGroupSplit) (revision : Nat) :
    spelled (split.created revision) = spelled split.groups := by
  rw [spelled, OrderedGroupSplit.created, flatMap_map]
  rfl

theorem created_chain (made : splitOrderedGroup { kind, incarnation := 1, id := 1, entries } 2
      targetBytes = .ok split) (revision : Nat) (members : Option HashHistory) :
    PageChain (createdRoot kind entries split revision members)
        ((split.created revision).map draft) ∧
      ∀ page ∈ split.created revision,
        SoundPage (createdRoot kind entries split revision members) page := by
  have splits := splitOrderedGroup_returns made
  have whole : spelled split.groups = entries := splits.entries
  have valid : ValidEntries kind entries := splits.valid
  have entriesSame := (spelled_created split revision).trans whole
  have sound : ∀ page ∈ split.created revision,
      SoundPage (createdRoot kind entries split revision members) page := by
    refine forall_mem_map.mpr fun old listed => ?_
    obtain ⟨alike, -, active⟩ := splits.alike old listed
    have named : old.id ≠ 0 ∧ old.id < split.nextGroupId := by
      obtain ⟨more, cases⟩ := splits.id_cases
      rcases cases old listed with first | fresh
      · rw [first]
        exact ⟨one_ne_zero, more⟩
      · omega
    have entriesValid : ValidEntries kind old.entries := (whole ▸ valid).page listed
    exact .of_valid alike rfl active named.1 named.2 (splits.nonempty old listed) entriesValid
  refine ⟨?_, sound⟩
  unfold OrderedGroupSplit.created at entriesSame sound ⊢
  apply pageChain_draft
  case linked =>
    apply Links.Chained.congr snapshotLinks _ splits.chained
    rw [forall₂_map_right_iff]
    exact forall₂_same.mpr fun _ _ => ⟨rfl, rfl, rfl⟩
  case first =>
    rw [Links.head, head?_map, Option.map_map]
    rfl
  case last =>
    rw [Links.last, getLast?_map, Option.map_map]
    rfl
  case counted =>
    rw [entriesSame]
    rfl
  case sized => rw [length_map]; rfl
  case distinct =>
    rw [pairwise_map]
    exact splits.distinct
  case named => exact fun page mem => (sound page mem).named
  case ordered =>
    intro set
    apply pageBounds_ordered fun page mem => (sound page mem).nonempty
    rw [entriesSame]
    exact valid.increasing set

section Created

variable
  (made : splitOrderedGroup { kind, incarnation := 1, id := 1, entries } 2 targetBytes = .ok split)
  (txid batchTxid sequence : Nat)

include made

theorem created_recovers (revised : revision ≠ 0)
    (valid : (createdRoot kind entries split revision members).valid = true) :
    recover (createdRoot kind entries split revision members) revision
        ((split.created revision).map (pageRecord revision txid batchTxid)) [txid, batchTxid]
        sequence (members.map directory) =
      .ok (writtenDirectory (createdRoot kind entries split revision members) revision txid
        batchTxid sequence (members.map directory) (split.created revision)) ∧
    PagesOf (writtenDirectory (createdRoot kind entries split revision members) revision txid
      batchTxid sequence (members.map directory) (split.created revision))
      (split.created revision) := by
  obtain ⟨chain, sound⟩ := created_chain made revision members
  apply created_pages sequence [txid, batchTxid] ⟨valid, revised, .inr rfl, _⟩ chain
  · exact fun page mem => ⟨(sound page mem).kind, (sound page mem).incarnation,
      (sound page mem).active⟩
  · exact fun page mem => (sound page mem).passed txid batchTxid revised
  · simp
  · exact Option.map_map _ _ members

end Created

variable {history : OrderedHistory}

theorem created_sound {txid batchTxid sequence : Nat} (memberSound : ∀ own ∈ members, own.Sound)
    (ret : createOrdered kind entries targetBytes revision txid batchTxid sequence members =
      .ok history) : history.Sound := by
  obtain ⟨split, made, second⟩ := bind_returns.mp ret
  obtain ⟨-, third⟩ := refuseIf_bind.mp second
  obtain ⟨-, fourth⟩ := refuseIf_bind.mp third
  obtain ⟨dir, recovery, ended⟩ := bind_returns.mp fourth
  obtain ⟨valid, revised⟩ :
      (createdRoot kind entries split revision members).valid = true ∧ revision ≠ 0 := by
    obtain ⟨-, guarded⟩ := refuseIf_bind.mp recovery
    obtain ⟨guards, -⟩ := refuseIf_bind.mp guarded
    simp only [not_or, Bool.not_eq_false] at guards
    exact ⟨guards.1, guards.2.1⟩
  obtain ⟨recovers, stored⟩ := created_recovers made txid batchTxid sequence revised valid
  cases ended
  obtain rfl := Except.ok.inj (recovers.symm.trans recovery)
  have nodup := stored.live.chain.distinct
  rw [nodup_iff_pairwise_ne, pairwise_map] at nodup
  constructor
  case stored => exact stored
  case members => rfl
  case memberSound => exact memberSound
  case admissible => exact fun record mem => (stored.live.groups record mem).2
  case log =>
    apply RecordLog.of_distinct
    · rw [pairwise_map]
      exact nodup
    · intro record
      rw [mem_map]
      constructor
      · rintro ⟨held, active | gone, rfl⟩
        · exact ⟨held, active, rfl⟩
        · cases gone
      · rintro ⟨held, active, rfl⟩
        exact ⟨held, .inl active, rfl⟩

theorem createOrdered_succeeds
    (made : splitOrderedGroup { kind, incarnation := 1, id := 1, entries } 2
      targetBytes = .ok split) (bounded : entries.length ≤ maxU32) (revised : revision ≠ 0)
    (txid batchTxid sequence : Nat)
    (fit : ∀ own ∈ members, kind = .sortedSet ∧ own.directory.root.incarnation = revision ∧
      own.directory.root.fieldCount.toNat = entries.length ∧
      own.directory.root.revision ≠ 0 ∧ own.directory.root.revision ≤ revision) :
    ∃ history, createOrdered kind entries targetBytes revision txid batchTxid sequence members =
      .ok history ∧ spelled history.pages = entries := by
  obtain ⟨chain, sound⟩ := created_chain made revision members
  have splits := splitOrderedGroup_returns made
  have ne : split.groups ≠ [] := by
    obtain ⟨more, ids, -⟩ := splits.ids
    rintro none
    rw [none] at ids
    cases ids
  have valid : (createdRoot kind entries split revision members).valid = true := by
    apply chain.valid
    · simpa [OrderedGroupSplit.created] using ne
    · refine forall_mem_map.mpr fun page listed none => ?_
      exact (sound page listed).nonempty (length_eq_zero_iff.mp none)
    · exact forall_mem_map.mpr fun page listed => (sound page listed).below
    · unfold OrderedCollectionRoot.validMembers
      cases members with
      | none => rfl
      | some own =>
        obtain ⟨set, incarnation, counted, pos, bound⟩ := fit own rfl
        simp [createdRoot, set, incarnation, counted, pos, bound]
    · exact revised
    · exact bounded
  obtain ⟨recovers, -⟩ := created_recovers made txid batchTxid sequence revised valid
  refine ⟨_, bind_returns.mpr ⟨split, made, refuseIf_bind.mpr ⟨not_lt.mpr bounded,
    refuseIf_bind.mpr ⟨?_, bind_returns.mpr ⟨_, recovers, rfl⟩⟩⟩⟩, ?_⟩
  · cases members with
    | none => simp [createdRoot]
    | some own =>
      obtain ⟨-, incarnation, counted, -⟩ := fit own rfl
      simp [createdRoot, incarnation, counted]
  · exact (spelled_created split revision).trans splits.entries

/-! ## Splices -/

theorem find?_page {pages : List OrderedGroupSnapshot}
    (nodup : pages.Pairwise fun left right => left.id ≠ right.id) {page : OrderedGroupSnapshot}
    (mem : page ∈ pages) : pages.find? (fun other => other.id = page.id) = some page := by
  induction pages with
  | nil => cases mem
  | cons first rest ih =>
    obtain ⟨ne, others⟩ := pairwise_cons.mp nodup
    rcases mem_cons.mp mem with rfl | late
    · simp
    · rw [find?_cons_of_neg (by simpa using ne page late), ih others late]

variable {dir : OrderedGroupDirectory}

theorem storedPages_eq {pages next writes : List OrderedGroupSnapshot}
    (covers : Covers pages next writes)
    (nodup : pages.Pairwise fun left right => left.id ≠ right.id)
    (parallel : List.Forall₂ (PageOf root) next dir.groups) :
    storedPages dir writes pages = next := by
  have found : ∀ page ∈ next, (writes ++ pages).find? (fun other => other.id = page.id) =
      some page := by
    intro page mem
    rw [find?_append]
    rcases covers.kept page mem with written | ⟨old, free⟩
    · rw [find?_page covers.distinct written]
      rfl
    have none : writes.find? (fun other => other.id = page.id) = none :=
      find?_eq_none.mpr fun write written => by simpa using free write written
    rw [none, find?_page nodup old]
    rfl
  clear covers
  unfold storedPages
  generalize dir.groups = groups at parallel
  induction parallel with
  | nil => rfl
  | @cons page record rest records own _ continues =>
    obtain ⟨first, later⟩ := forall_mem_cons.mp found
    rw [filterMap_cons, show record.id = page.id from own.view.1, first]
    exact congrArg (page :: ·) (continues later)

theorem OrderedGroupDirectory.Live.memberRevision (live : Live dir) :
    ∀ index ∈ dir.root.memberIndex, index.revision ≠ 0 ∧ index.revision ≤ dir.root.revision := by
  intro index mem
  have valid := live.valid
  simp only [OrderedCollectionRoot.valid, OrderedCollectionRoot.validMembers, Option.mem_def.mp mem,
    Option.all_some, Bool.and_eq_true, decide_eq_true_eq] at valid
  tauto

theorem MemberStep.fits {memory : RoutingMemory} {before after : Option HashHistory}
    {memberIndex : Option GroupedHashRoot} {memberChanges : List RecoveredHashGroup}
    (step : MemberStep memory revision commandSequence before after memberIndex memberChanges)
    (live : Live dir) (members : dir.members = before.map directory)
    (sound : ∀ own ∈ before, own.Sound) (newer : dir.sequence < revision)
    (incarnation : root.incarnation = dir.root.incarnation)
    (fit : ∀ index ∈ memberIndex, index.incarnation = root.incarnation ∧
      index.fieldCount.toNat = root.itemCount) :
    MembersFit memory dir root.itemCount revision commandSequence memberIndex memberChanges
        (after.map directory) ∧ ∀ own ∈ after, own.Sound := by
  have indexed := live.members
  rw [members] at indexed
  refine ⟨⟨?_, fun index mem => (fit index mem).1.trans incarnation,
    fun index mem => (fit index mem).2, ?_⟩, ?_⟩
  · rw [members]
    cases step with
    | absent => rfl
    | kept cur => simp [applyMembers, refuseIf, bind, Except.bind]
    | @updated cur next index changes revised applied =>
      have own := sound cur rfl
      have changed : cur.directory.root ≠ index := by
        rintro rfl
        have later := (HashGroupDirectory.apply_returns own.total applied).newer
        have same := own.sequenced
        omega
      refine refuseIf_bind.mpr ⟨by simp, ?_⟩
      simp only [Option.map_some, if_pos changed]
      exact bind_returns.mpr ⟨next, applied, rfl⟩
  · cases step with
    | absent => simp
    | kept cur =>
      rintro index mem
      cases mem
      have bound := live.memberRevision cur.directory.root indexed.symm
      have same := live.revised
      omega
    | updated revised applied =>
      rintro index mem
      cases mem
      omega
  · cases step with
    | absent => simp
    | kept cur => exact sound
    | updated revised applied =>
      intro own mem
      cases mem
      exact (sound _ rfl).apply applied

theorem OrderedGroupDirectory.Updated.log {after : OrderedGroupDirectory}
    {changed records written : List RecoveredOrderedGroup} {members : Option HashGroupDirectory}
    (updated : Updated dir root revision changed records members after)
    (changes : Changes dir root revision changed)
    (older : ∀ record ∈ written, record.sequence < revision)
    (log : RecordLog RecoveredOrderedGroup.id RecoveredOrderedGroup.sequence
      (fun record => ∃ held, Current dir held ∧ record = settled held) (written.map settled)) :
    RecordLog RecoveredOrderedGroup.id RecoveredOrderedGroup.sequence
      (fun record => ∃ held, Current after held ∧ record = settled held)
      ((written ++ changed).map settled) := by
  rw [map_append]
  apply log.update (forall_mem_map.mpr older)
  case own => exact forall_mem_map.mpr changes.sequence
  case named =>
    intro left first right second same
    obtain ⟨leftRaw, leftListed, rfl⟩ := mem_map.mp first
    obtain ⟨rightRaw, rightListed, rfl⟩ := mem_map.mp second
    rw [changes.unique leftListed rightListed same]
  case replaced =>
    intro record
    constructor
    · rintro ⟨held, cur, rfl⟩
      obtain ⟨raw, changed | ⟨present, free⟩, rfl⟩ := (updated.current_iff held).mp cur
      · exact .inl (mem_map.mpr ⟨raw, changed, rfl⟩)
      · refine .inr ⟨⟨raw, present, rfl⟩, fun change mem => ?_⟩
        obtain ⟨own, listed, rfl⟩ := mem_map.mp mem
        exact free own listed
    · rintro (mem | ⟨⟨held, present, rfl⟩, free⟩)
      · obtain ⟨raw, listed, rfl⟩ := mem_map.mp mem
        exact ⟨settled raw, (updated.current_iff _).mpr ⟨raw, .inl listed, rfl⟩, rfl⟩
      · refine ⟨settled held, (updated.current_iff _).mpr ⟨held, .inr ⟨present, ?_⟩, rfl⟩, rfl⟩
        exact fun change listed => free (settled change) (mem_map_of_mem listed)

theorem SpliceStep.sound {next : OrderedHistory} (sound : history.Sound)
    (step : SpliceStep history next) : next.Sound := by
  obtain ⟨loadedGroups, rank, eraseCount, entries, targetBytes, plan, revision, commandSequence,
    txid, batchTxid, memory, memberIndex, memberChanges, known, planned, changed, kept, memberStep,
    fit, applied, pages, written⟩ := step
  have stored := sound.stored
  obtain ⟨newer, ordered⟩ : history.directory.sequence < revision ∧
      history.directory.commandSequence ≤ commandSequence := by
    obtain ⟨guards, -⟩ := refuseIf_bind.mp applied
    simp only [not_or, not_le, not_lt] at guards
    exact ⟨guards.2.2.1, guards.2.2.2.1⟩
  rcases splice_cases stored known planned with
    ⟨unchanged, -⟩ | ⟨-, deleted, -⟩ | ⟨-, -, after, splices⟩
  · rw [changed] at unchanged
    cases unchanged
  · rw [kept] at deleted
    cases deleted
  · have rewrites := splices.rewrites
    obtain ⟨fits, memberSound⟩ := memberStep.fits stored.live sound.members sound.memberSound newer
      rewrites.incarnation fit
    obtain ⟨dir, records, ok, updated, held⟩ :=
      rewrites.published stored txid batchTxid newer ordered fits
    obtain rfl := Except.ok.inj (ok.symm.trans applied)
    have changes := rewrites.changes stored txid batchTxid newer memberIndex
    have same : next.pages = after := by
      rw [pages]
      exact storedPages_eq rewrites.covers stored.distinct held.held
    have older : ∀ record ∈ history.written, record.sequence < revision := fun record mem =>
      (sound.admissible record mem).bounded.trans_lt newer
    constructor
    case stored =>
      rw [same]
      exact held
    case members => exact updated.members
    case memberSound => exact memberSound
    case admissible =>
      rw [written, updated.root, updated.sequence]
      refine forall_mem_append.mpr ⟨fun record before => ?_, fun record late => ?_⟩
      · exact (sound.admissible record before).mono rewrites.incarnation newer.le rewrites.more
      · exact ⟨changes.incarnation record late, (changes.sequence record late).le,
          changes.passed record late⟩
    case log =>
      rw [written]
      exact updated.log changes older sound.log

theorem ordered_reachable_sound {digestOf : DigestSeed → List UInt8 → UInt64}
    (reached : (orderedSystem digestOf).Reachable history) : history.Sound := by
  apply reached.invariant
  · rintro begun ⟨kind, entries, targetBytes, revision, txid, batchTxid, sequence, members,
      promoted,
      created⟩
    apply created_sound _ created
    intro own mem
    obtain ⟨memory, fields, incarnation, seed, target, own', ownSequence, stamps, promotes⟩ :=
      promoted own mem
    exact (promote_returns promotes).1
  · exact fun before _ after _ sound step => step.sound sound

/-! ## Recovery -/

/-- What recovery has to agree on about a page: everything but where its record is stored and which
transaction wrote it. -/
def pageFact (record : RecoveredOrderedGroup) : RecoveredOrderedGroup :=
  { record with lsn := 0, txid := 0, batchTxid := 0, recordToken := 0 }

theorem pageFact_same {cand record : RecoveredOrderedGroup} (same : SamePage cand record) :
    pageFact cand = pageFact record := by
  obtain ⟨previous, next, count, retired, low, high⟩ := sameMetadata_iff.mp same.metadata
  cases cand
  cases same.incarnation
  cases same.id
  cases same.sequence
  subst previous next count retired low high
  rfl

theorem endsFrom_congr {pages others : List RecoveredOrderedGroup}
    (same : pages.map pageFact = others.map pageFact) (count : Nat) :
    endsFrom count pages = endsFrom count others := by
  have facts : ∀ (items : List RecoveredOrderedGroup) (count : Nat),
      endsFrom count items = endsFrom count (items.map pageFact) := by
    intro items
    induction items with
    | nil => exact fun _ => rfl
    | cons page rest ih =>
      intro count
      simp only [endsFrom, map_cons]
      rw [ih]
      rfl
  rw [facts pages, facts others, same]

def recoverMembers (memory : RoutingMemory) (memberIndex : Option GroupedHashRoot)
    (mutationSequence : Nat) (memberCandidates : List RecoveredHashGroup) (committed : List Nat) :
    StatusOr (Option HashGroupDirectory) :=
  match memberIndex with
  | none => .ok none
  | some index => do
    let recovered ← HashGroupDirectory.recover memory index mutationSequence memberCandidates
      committed
    .ok (some recovered)

def recoverOrderedObject (memory : RoutingMemory) (root : OrderedCollectionRoot)
    (mutationSequence : Nat) (candidates : List RecoveredOrderedGroup)
    (memberCandidates : List RecoveredHashGroup) (committed : List Nat) :
    StatusOr OrderedGroupDirectory := do
  let members ← recoverMembers memory root.memberIndex mutationSequence memberCandidates committed
  recover root (if root.revision = 0 then mutationSequence else root.revision) candidates committed
    mutationSequence members

theorem OrderedHistory.Sound.recovers (sound : history.Sound) {committed : List Nat}
    {candidates : List RecoveredOrderedGroup}
    (survives : Survives (winnerReader history.directory.root history.directory.sequence committed)
      SamePage history.written candidates) (commandSequence : Nat)
    (members : Option HashGroupDirectory)
    (indexed : members.map HashGroupDirectory.root = history.directory.root.memberIndex) :
    ∃ recovered, recover history.directory.root history.directory.sequence candidates committed
        commandSequence members = .ok recovered ∧
      recovered.root = history.directory.root ∧ recovered.members = members ∧
      recovered.groups.map pageFact = history.directory.groups.map pageFact ∧
      recovered.ends = history.directory.ends ∧
      recovered.retired.map pageFact = history.directory.retired.map pageFact := by
  have live := sound.stored.live
  have decided : Survives
      (winnerReader history.directory.root history.directory.sequence committed) SamePage
      (history.written.map settled) candidates := by
    constructor
    · intro record mem
      obtain ⟨raw, listed, rfl⟩ := mem_map.mp mem
      obtain ⟨cand, found, same, admitted⟩ := survives.kept raw listed
      exact ⟨cand, found, { same with }, admitted⟩
    · intro cand found admitted
      obtain ⟨raw, listed, same⟩ := survives.only cand found admitted
      exact ⟨settled raw, mem_map_of_mem listed, { same with }⟩
  have ok : ∀ record ∈ history.written.map settled,
      checkCandidate history.directory.root record = .ok () := by
    refine forall_mem_map.mpr fun raw listed => ?_
    have own := (sound.admissible raw listed).passed
    exact (settled_same own).passed own le_rfl
  have chain : PageChain history.directory.root (history.directory.groups.map settled) := by
    apply live.chain.congr
    rw [forall₂_map_left_iff]
    exact forall₂_same.mpr fun page _ =>
      ⟨rfl, sameMetadata_self _⟩
  have active : ∀ record, record ∈ history.directory.groups.map settled ↔
      (∃ held, Current history.directory held ∧ record = settled held) ∧
        record.retired = false := by
    intro record
    constructor
    · intro mem
      obtain ⟨held, listed, rfl⟩ := mem_map.mp mem
      exact ⟨⟨held, .inl listed, rfl⟩, (live.groups held listed).1⟩
    · rintro ⟨⟨held, listed | gone, rfl⟩, activeRecord⟩
      · exact mem_map_of_mem listed
      · rw [show (settled held).retired = held.retired from rfl, (live.retired held gone).1]
          at activeRecord
        cases activeRecord
  obtain ⟨copies, gone, survivors, recovered⟩ := recover_survivors commandSequence
    (fun _ _ same => same) sound.log decided ok
    ⟨live.valid, live.sequenced, .inr live.revised, indexed⟩ chain active
  have groups : copies.map pageFact = history.directory.groups.map pageFact := by
    have facts : copies.map pageFact = (history.directory.groups.map settled).map pageFact := by
      rw [← forall₂_eq_eq_eq, forall₂_map_left_iff, forall₂_map_right_iff]
      exact survivors.copied.imp fun _ _ same => pageFact_same same
    rw [facts, map_map]
    rfl
  have retired : gone.map pageFact = history.directory.retired.map pageFact := by
    have sorted : (gone.map pageFact).Pairwise (·.id < ·.id) := pairwise_map.mpr survivors.sorted
    refine sorted.eq_of_mem_iff (pairwise_map.mpr live.sorted) fun record => ?_
    rw [mem_map, mem_map]
    constructor
    · rintro ⟨item, mem, rfl⟩
      obtain ⟨record, ⟨held, present, rfl⟩, gone, same⟩ := survivors.only item mem
      rcases present with listed | marked
      · rw [show (settled held).retired = held.retired from rfl, (live.groups held listed).1]
          at gone
        cases gone
      · exact ⟨held, marked, ((pageFact_same same).trans rfl).symm⟩
    · rintro ⟨held, marked, rfl⟩
      obtain ⟨item, mem, same⟩ := survivors.kept (settled held) ⟨held, .inr marked, rfl⟩
        (live.retired held marked).1
      exact ⟨item, mem, (pageFact_same same).trans rfl⟩
  refine ⟨_, recovered, ?_, rfl, groups, ?_, retired⟩
  · show { history.directory.root with revision := history.directory.sequence } = _
    rw [← live.revised]
  · rw [live.ends]
    exact endsFrom_congr groups 0

/-- Recovery of a List or Sorted Set agrees with the live directory. Items that can be split make a
new collection. After any splices that are planned, published and applied, take what a crash may
leave of all page records and markers ever written: a committed copy of each, and besides only
records of other incarnations, of later revisions, or of transactions that are not committed, in any
order; and the same of the members. Recovery with the latest root then returns a directory with the
same chain of pages, the same end positions and the same retired pages, and members with the same
routes. -/
theorem ordered_recovery_agrees_with_live_directory (digestOf : DigestSeed → List UInt8 → UInt64) :
    (∀ kind entries targetBytes split,
      splitOrderedGroup { kind, incarnation := 1, id := 1, entries } 2
        targetBytes = .ok split → entries.length ≤ maxU32 →
      ∀ revision txid batchTxid sequence, revision ≠ 0 →
        ∃ history, createOrdered kind entries targetBytes revision txid batchTxid sequence none =
          .ok history ∧ spelled history.pages = entries) ∧
    ∀ history, (orderedSystem digestOf).Reachable history → ∀ committed candidates memberCandidates,
        Survives (winnerReader history.directory.root history.directory.sequence committed)
          SamePage history.written candidates →
        (∀ own ∈ history.members, HashGroupDirectory.Surviving own.directory.root committed
          own.written memberCandidates) →
        ∀ memory : RoutingMemory, (∀ update id, memory update id = true) →
        ∀ sequence, sequence ≠ 0 →
          ∃ recovered, recoverOrderedObject memory history.directory.root sequence candidates
              memberCandidates committed = .ok recovered ∧
            recovered.root = history.directory.root ∧
            recovered.groups.map pageFact = history.directory.groups.map pageFact ∧
            recovered.ends = history.directory.ends ∧
            recovered.retired.map pageFact = history.directory.retired.map pageFact ∧
            ∀ own ∈ history.members, ∃ members, recovered.members = some members ∧
              members.groups.entries.map HashGroupDirectory.routeFact =
                own.directory.groups.entries.map HashGroupDirectory.routeFact ∧
              members.retired.entries.map HashGroupDirectory.retiredFact =
                own.directory.retired.entries.map HashGroupDirectory.retiredFact := by
  constructor
  · intro kind entries targetBytes split made bounded revision txid batchTxid sequence revised
    exact createOrdered_succeeds made bounded revised txid batchTxid sequence (by simp)
  · intro history reached committed candidates memberCandidates survives memberSurvives memory
      granted sequence sequenced
    have sound := ordered_reachable_sound reached
    have live := sound.stored.live
    have revision : (if history.directory.root.revision = 0 then sequence
        else history.directory.root.revision) = history.directory.sequence := by
      have positive := live.sequenced
      rw [← live.revised] at positive ⊢
      exact if_neg positive
    have indexed := live.members
    rw [sound.members] at indexed
    cases own : history.members with
    | none =>
      rw [own] at indexed
      obtain ⟨recovered, returned, root, -, groups, ends, retired⟩ :=
        sound.recovers survives sequence none indexed
      refine ⟨recovered, bind_returns.mpr ⟨none, ?_, ?_⟩, root, groups, ends, retired, by simp⟩
      · rw [← indexed]
        rfl
      · rw [revision]
        exact returned
    | some members =>
      rw [own] at indexed
      have ownSound := sound.memberSound members own
      obtain ⟨dir, memberReturned, routes, marks⟩ := ownSound.logged.recovers ownSound.total
        ownSound.valid (memberSurvives members own) granted sequenced
      obtain ⟨winners, recoveredMembers⟩ := HashGroupDirectory.recover_returns memberReturned
      obtain ⟨recovered, returned, root, held, groups, ends, retired⟩ :=
        sound.recovers survives sequence (some dir)
          ((congrArg some recoveredMembers.header.1).trans indexed)
      refine ⟨recovered, bind_returns.mpr ⟨some dir, ?_, ?_⟩, root, groups, ends, retired, ?_⟩
      · rw [← indexed]
        exact bind_returns.mpr ⟨dir, memberReturned, rfl⟩
      · rw [revision]
        exact returned
      · intro other same
        cases same
        exact ⟨dir, held, routes, marks⟩

/-! ## A list that grows by a page -/

def strayRecord : RecoveredOrderedGroup :=
  { pageRecord 6 77 0 { kind := .list, incarnation := 5, id := 1, next := 9 } with itemCount := 3 }

/-- A list of one page gets an item that does not fit into it. The three records are found in
reverse order, behind one that was not committed, and recovery returns the two linked pages. -/
theorem grown_list_recovers : ∃ history,
    (orderedSystem leadingDigest).Reachable history ∧ history.written.length = 3 ∧
    history.directory.groups.length = 2 ∧ history.directory.retired.length = 0 ∧
    ∃ recovered, recoverOrderedObject (fun _ _ => true) history.directory.root 6
        (strayRecord :: history.written.reverse) [] [9, 10] = .ok recovered ∧
      recovered.groups.map pageFact = history.directory.groups.map pageFact ∧
      recovered.ends = history.directory.ends ∧
      recovered.retired.map pageFact = history.directory.retired.map pageFact := by
  have evaluated : ((createOrdered .list [⟨[97], 0⟩] 77 5 9 0 5 none >>= fun history =>
      planOrderedCollectionSplice history.directory (history.pages.map fun page => ⟨5, page⟩) 1 0
          [⟨[98], 0⟩] 77 >>= fun plan =>
        history.directory.apply (fun _ _ => true)
            { plan.root with revision := 6, memberIndex := none } 6
            (plan.writes.map (pageRecord 6 10 0)) 6 [] >>= fun after =>
          .ok (history, plan, after)).toOption.any fun all =>
        let written := all.1.written ++ all.2.1.writes.map (pageRecord 6 10 0)
        written.length = 3 && all.2.2.groups.length = 2 && all.2.2.retired.length = 0 &&
          all.2.1.changed && !all.2.1.deleteKey && all.1.members.isNone &&
          (written.all fun record => record.lsn ≠ 0 && record.recordToken ≠ 0 &&
            !excluded all.2.2.root all.2.2.sequence [9, 10] record)) = true := by decide +kernel
  obtain ⟨⟨history, plan, after⟩, returned, facts⟩ := returns_of_any evaluated
  obtain ⟨begun, created, continued⟩ := bind_returns.mp returned
  obtain ⟨planned, planning, continued⟩ := bind_returns.mp continued
  obtain ⟨next, applied, same⟩ := bind_returns.mp continued
  cases same
  simp only [Bool.and_eq_true, decide_eq_true_eq, all_eq_true, Bool.not_eq_true',
    Option.isNone_iff_eq_none] at facts
  obtain ⟨⟨⟨⟨⟨⟨length, groups⟩, retired⟩, changed⟩, kept⟩, memberless⟩, admitted⟩ := facts
  have step : SpliceStep history ⟨after, storedPages after plan.writes history.pages,
      history.written ++ plan.writes.map (pageRecord 6 10 0), none⟩ := by
    refine ⟨⟨_, 1, 0, [⟨[98], 0⟩], 77, plan, 6, 6, 10, 0, fun _ _ => true, none, [], ?_, planning,
      changed,
      kept, ?_, by simp, applied, rfl, rfl⟩⟩
    · exact forall_mem_map.mpr fun _ listed => listed
    · rw [memberless]
      exact .absent
  have reached : (orderedSystem leadingDigest).Reachable ⟨after,
      storedPages after plan.writes history.pages,
      history.written ++ plan.writes.map (pageRecord 6 10 0), none⟩ :=
    @TransitionSystem.Reachable.next _ _ (orderedSystem leadingDigest) _ _ ()
      (.start ⟨_, _, _, _, _, _, _, _, by simp, created⟩) step
  refine ⟨_, reached, length, groups, retired, ?_⟩
  have copies : ∀ record ∈ history.written ++ plan.writes.map (pageRecord 6 10 0),
      SamePage record record := fun record member => ⟨rfl, rfl, rfl,
    sameMetadata_self _, (admitted record member).1.1,
    (admitted record member).1.2⟩
  obtain ⟨recovered, restored, -, chain, ends, gone, -⟩ :=
    (ordered_recovery_agrees_with_live_directory leadingDigest).2 _ reached [9, 10]
      (strayRecord :: (history.written ++ plan.writes.map (pageRecord 6 10 0)).reverse) [] (by
        constructor
        · intro record member
          exact ⟨record, mem_cons_of_mem _ (mem_reverse.mpr member),
            copies record member, (admitted record member).2⟩
        · intro candidate member kept
          rcases mem_cons.mp member with rfl | listed
          · simp [winnerReader, excluded, strayRecord, pageRecord] at kept
          · exact ⟨candidate, mem_reverse.mp listed, copies _ (mem_reverse.mp listed)⟩)
      (by simp) (fun _ _ => true) (fun _ _ => rfl) 6 (by decide)
  exact ⟨recovered, restored, chain, ends, gone⟩

end Lavik.Storage
