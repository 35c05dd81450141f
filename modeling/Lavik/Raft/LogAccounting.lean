import Lavik.Base.AssocMap
import Lavik.Base.Checked
import Lavik.Base.TransitionSystem
import Mathlib.Algebra.BigOperators.Group.List.Basic
import Mathlib.Algebra.GroupWithZero.Nat
/-!
# Accounting of the retained Raft log

The core keeps the encoded size of every entry of its in-memory log by index, and their sum. Loops
over indexes change both, and each of them keeps the sum that of the table.
-/

namespace Lavik.Raft

open Base List AssocMap

/-- Entries with consecutive indexes, by the protobuf size of each. -/
structure Batch where
  first : Nat := 0
  sizes : List Nat := []

inductive Error
  | snapOutOfDate
  | failed (text : String)

/-- What the core calls of the consensus library's in-memory log, and the protobuf sizes of the
entries that the log would return, from its first index on. -/
class MemoryStorage (Memory : Type) where
  newMemoryStorage : Memory
  firstIndex : Memory → Nat
  lastIndex : Memory → Nat
  sizes : Memory → List Nat
  append : Memory → Batch → Except Error Memory
  applySnapshot : Memory → Nat → Except Error Memory
  createSnapshot : Memory → Nat → Except Error Memory
  compact : Memory → Nat → Except Error Memory

open MemoryStorage

variable {Memory : Type} [MemoryStorage Memory]

/-- What the library documents of its log and of the calls on it that succeed. -/
structure MemoryStorage.Documented (Memory : Type) [MemoryStorage Memory] : Prop where
  /-- A new log has no entries. -/
  new_empty : sizes (newMemoryStorage : Memory) = []
  /-- The entries are those from the first index through the last. -/
  span (memory : Memory) : lastIndex memory + 1 = firstIndex memory + (sizes memory).length
  /-- A batch that is empty or wholly compacted changes nothing. -/
  append_nothing {memory stored : Memory} {batch : Batch} (done : append memory batch = .ok stored)
    (nothing : batch.sizes = [] ∨ batch.first + batch.sizes.length ≤ firstIndex memory) :
    stored = memory
  /-- Any other batch meets the log, and what is not compacted of it replaces the log from there. -/
  append_replaces {memory stored : Memory} {batch : Batch} (done : append memory batch = .ok stored)
    (reaches : firstIndex memory < batch.first + batch.sizes.length) (filled : batch.sizes ≠ []) :
    batch.first ≤ lastIndex memory + 1 ∧ firstIndex stored = firstIndex memory ∧
      sizes stored = (sizes memory).take (batch.first - firstIndex memory) ++
        batch.sizes.drop (firstIndex memory - batch.first)
  /-- An image takes the place of the log. -/
  applySnapshot_empties {memory stored : Memory} {index : Nat}
    (done : applySnapshot memory index = .ok stored) : sizes stored = []
  /-- An image that is only kept leaves the log as it is. -/
  createSnapshot_keeps {memory stored : Memory} {index : Nat}
    (done : createSnapshot memory index = .ok stored) :
    firstIndex stored = firstIndex memory ∧ sizes stored = sizes memory
  /-- Compaction drops the entries through an index of the log. -/
  compact_drops {memory stored : Memory} {index : Nat} (done : compact memory index = .ok stored) :
    firstIndex memory ≤ index ∧ index ≤ lastIndex memory ∧ firstIndex stored = index + 1 ∧
      sizes stored = (sizes memory).drop (index + 1 - firstIndex memory)

/-- `checked` is what `decodeSnapshot` and `validateSnapshotConfig` say about the image. -/
structure Snapshot where
  index : Nat := 0
  checked : Except Error Unit := .ok ()

/-- A storage message; `id` stands for its pointer. -/
structure Message where
  id : Nat
  snapshot : Snapshot := {}
  entries : Batch := {}

structure Ledger where
  logBytes : AssocMap Nat Nat := []
  /-- Unsigned in the program; an integer here, so that taking too much away would show. -/
  retainedBytes : Int := 0

def encodedSize (protoSize : Nat) : Nat := protoSize + 32

def indexed (first : Nat) : List Nat → AssocMap Nat Nat
  | [] => []
  | size :: rest => (first, size) :: indexed (first + 1) rest

namespace Ledger

def forgetIndex (ledger : Ledger) (index : Nat) : Ledger where
  retainedBytes := ledger.retainedBytes - (ledger.logBytes.get index).getD 0
  logBytes := ledger.logBytes.erase index

/-- The loop from `first` through `last`. -/
def forget (ledger : Ledger) (first last : Nat) : Ledger :=
  (range' first (last + 1 - first)).foldl forgetIndex ledger

def recordEntry (first : Nat) (ledger : Ledger) (entry : Nat × Nat) : Ledger :=
  if entry.1 < first then ledger
  else {
    logBytes := ledger.logBytes.set entry.1 (encodedSize entry.2)
    retainedBytes := ledger.retainedBytes + encodedSize entry.2 }

def accountEntries (ledger : Ledger) (first durable : Nat) (batch : Batch) : Ledger :=
  if batch.sizes = [] then ledger
  else (indexed batch.first batch.sizes).foldl (recordEntry first)
    (ledger.forget batch.first durable)

end Ledger

structure Core (Memory : Type) extends Ledger where
  memory : Memory
  applied : Nat := 0
  durable : Nat := 0
  snapshot : Nat := 0
  restoreIndex : Nat := 0
  logicalLast : Nat := 0
  pendingOverwrites : AssocMap Nat Nat := []

namespace Core

variable (core : Core Memory)

def noteAppend (message : Message) : Core Memory :=
  let image := message.snapshot.index
  let batch := message.entries
  let noted := if image = 0 then core else { core with
    restoreIndex := max core.restoreIndex image
    pendingOverwrites := core.pendingOverwrites.set message.id (min core.applied core.durable)
    logicalLast := image }
  if batch.sizes = [] then noted else
    let floor := batch.first - 1
    { noted with
      logicalLast := batch.first + batch.sizes.length - 1
      pendingOverwrites :=
        if batch.first ≤ noted.logicalLast then
          noted.pendingOverwrites.set message.id
            (((noted.pendingOverwrites.get message.id).map (min floor)).getD floor)
        else noted.pendingOverwrites }

/-- What `newCore` and `persisted` share: the image takes the place of the log. -/
def installSnapshot (image : Snapshot) : Except Error (Core Memory) := do
  let memory ← applySnapshot core.memory image.index
  image.checked
  return { core with memory, applied := image.index, snapshot := image.index }

def persistEntries (batch : Batch) : Except Error (Core Memory) := do
  let memory ← append core.memory batch
  return { core with
    toLedger := core.accountEntries (firstIndex memory) core.durable batch
    memory, durable := lastIndex memory }

def persisted (message : Message) : Except Error (Core Memory) := do
  let core ← (if message.snapshot.index = 0 then .ok core
    else (core.installSnapshot message.snapshot).map ({ · with toLedger := {} }))
  let core ← core.persistEntries message.entries
  return { core with pendingOverwrites := core.pendingOverwrites.erase message.id }

/-- Without the membership that a configuration change moves. -/
def appliedEntry (index : Nat) : Except Error (Core Memory) :=
  if index ≠ core.applied + 1 then
    .error (.failed s!"apply gap: have {core.applied}, got {index}")
  else .ok { core with applied := index }

def compact (index : Nat) : Except Error (Core Memory) := do
  let memory ← MemoryStorage.compact core.memory index
  return { core with memory, toLedger := core.forget (firstIndex core.memory) index }

/-- A received snapshot may already have superseded the image, which is no error. -/
def createSnapshot (index : Nat) : Except Error Memory :=
  match MemoryStorage.createSnapshot core.memory index with
  | .error .snapOutOfDate => .ok core.memory
  | created => created

def publishLocalSnapshot (reservedLogItems index : Nat) : Except Error (Core Memory) :=
  if core.snapshot < index then do
    let memory ← core.createSnapshot index
    let core := { core with memory }
    let cut := index - reservedLogItems
    let core ← (if reservedLogItems < index ∧ firstIndex memory ≤ cut then core.compact cut
      else .ok core)
    return { core with snapshot := index }
  else .ok core

end Core

/-- The image and the entries that recovery reads. -/
def newCore (image : Snapshot) (batch : Batch) : Except Error (Core Memory) := do
  let core : Core Memory := { memory := newMemoryStorage }
  let core ← (if image.index = 0 then .ok core
    else (core.installSnapshot image).map ({ · with restoreIndex := image.index }))
  let core ← core.persistEntries batch
  return { core with logicalLast := core.durable }

inductive Event
  | noteAppend (message : Message)
  | persisted (message : Message)
  | appliedEntry (index : Nat)
  | publishLocalSnapshot (index : Nat)
  | compact (index : Nat)

def step (reservedLogItems : Nat) (core : Core Memory) : Event → Except Error (Core Memory)
  | .noteAppend message => .ok (core.noteAppend message)
  | .persisted message => core.persisted message
  | .appliedEntry index => core.appliedEntry index
  | .publishLocalSnapshot index => core.publishLocalSnapshot reservedLogItems index
  | .compact index => core.compact index

/-- No append starts at or below the compaction cut, which an image moves to its index. -/
def AboveCut (core : Core Memory) : Event → Prop
  | .persisted message => message.entries.sizes ≠ [] →
      (if message.snapshot.index = 0 then firstIndex core.memory else message.snapshot.index + 1) ≤
        message.entries.first
  | _ => True

/-- The runs of a core. An error stops the runtime, so only steps that succeed are followed. -/
def coreSystem (Memory : Type) [MemoryStorage Memory] (reservedLogItems : Nat) :
    TransitionSystem (Core Memory) Event where
  init core := ∃ image batch, newCore image batch = .ok core
  step core event after := step reservedLogItems core event = .ok after ∧ AboveCut core event

/-! ## The loops over the table -/

open Ledger

/-- The table of a log. -/
def table (first : Nat) (sizes : List Nat) : AssocMap Nat Nat :=
  indexed first (sizes.map encodedSize)

/-- A table with the sum of its sizes. -/
def Ledger.of (bytes : AssocMap Nat Nat) : Ledger := ⟨bytes, ((bytes.map Prod.snd).sum : Nat)⟩

variable {batch : Batch}

section

variable {bytes : AssocMap Nat Nat} {first : Nat} {sizes : List Nat}

theorem keys_table : (table first sizes).keys = range' first sizes.length := by
  induction sizes generalizing first with
  | nil => rfl
  | cons size rest ih =>
    rw [length_cons, range'_succ, ← ih]
    rfl

theorem sum_table : ((table first sizes).map Prod.snd).sum = (sizes.map encodedSize).sum := by
  induction sizes generalizing first with
  | nil => rfl
  | cons size rest ih => exact congrArg (encodedSize size + ·) ih

theorem table_append (others : List Nat) : table first (sizes ++ others) =
    table first sizes ++ table (first + sizes.length) others := by
  induction sizes generalizing first with
  | nil => rfl
  | cons size rest ih =>
    rw [length_cons, Nat.add_comm _ 1, ← Nat.add_assoc]
    exact congrArg (_ :: ·) ih

/-- A table cut at an index. -/
theorem filter_table (cut : Nat) :
    (table first sizes).filter (·.1 < cut) = table first (sizes.take (cut - first)) ∧
      (table first sizes).filter (cut ≤ ·.1) =
        table (first + (cut - first)) (sizes.drop (cut - first)) := by
  induction sizes generalizing first with
  | nil => simp [table, indexed]
  | cons size rest ih =>
    obtain ⟨below, above⟩ := @ih (first + 1)
    change filter _ ((first, encodedSize size) :: table (first + 1) rest) = _ ∧
      filter _ ((first, encodedSize size) :: table (first + 1) rest) = _
    by_cases early : first < cut
    · have left : cut - first = cut - (first + 1) + 1 := by omega
      rw [filter_cons_of_pos (by simpa), filter_cons_of_neg (by simpa), below, above, left,
        take_succ_cons, drop_succ_cons, Nat.add_right_comm, ← Nat.add_assoc]
      exact ⟨rfl, rfl⟩
    · rw [Nat.sub_eq_zero_of_le (by omega)] at below above
      rw [filter_cons_of_neg (by simpa using early), filter_cons_of_pos (by simpa using early),
        below, above, Nat.sub_eq_zero_of_le (Nat.not_lt.mp early)]
      exact ⟨rfl, rfl⟩

theorem sum_erase (nodup : bytes.keys.Nodup) (index : Nat) :
    ((bytes.erase index).map Prod.snd).sum + (bytes.get index).getD 0 =
      (bytes.map Prod.snd).sum := by
  induction bytes with
  | nil => rfl
  | cons head rest ih =>
    obtain ⟨fresh, nodup⟩ := nodup_cons.mp nodup
    have before := ih nodup
    by_cases same : head.1 = index
    · subst same
      rw [get_eq_none_iff.mpr fresh] at before
      simpa [erase, get_cons, Nat.add_comm] using before
    · simpa [erase, get_cons, same, Nat.add_assoc] using before

theorem foldl_forgetIndex (indexes : List Nat) (nodup : bytes.keys.Nodup) :
    indexes.foldl forgetIndex (.of bytes) = .of (bytes.filter (·.1 ∉ indexes)) := by
  induction indexes generalizing bytes with
  | nil => simp
  | cons index rest ih =>
    have forgotten : (of bytes).forgetIndex index = .of (bytes.erase index) := by
      simp [forgetIndex, of, ← sum_erase nodup index]
    rw [foldl_cons, forgotten, ih (nodup_keys_erase nodup index), erase, filter_filter]
    simp [Bool.and_comm]

theorem forget_table (start last : Nat) : (of (table first sizes)).forget start last =
    .of ((table first sizes).filter fun entry => entry.1 < start ∨ last < entry.1) := by
  rw [forget, foldl_forgetIndex _ (keys_table ▸ nodup_range')]
  refine congrArg of (filter_congr fun entry _ => ?_)
  simp only [mem_range'_1, decide_eq_decide]
  omega

theorem foldl_recordEntry {start : Nat} (fresh : ∀ key ∈ bytes.keys, key < start) :
    (indexed start sizes).foldl (recordEntry first) (.of bytes) =
      .of (bytes ++ table (start + (first - start)) (sizes.drop (first - start))) := by
  induction sizes generalizing start bytes with
  | nil => simp [indexed, table]
  | cons size rest ih =>
    rw [indexed, foldl_cons, recordEntry]
    split
    · next skipped =>
      have left : first - start = first - (start + 1) + 1 := by omega
      rw [ih fun key held => Nat.lt_add_right 1 (fresh key held), left, drop_succ_cons,
        Nat.add_right_comm, ← Nat.add_assoc]
    · next reached =>
      have unknown : bytes.get start = none :=
        get_eq_none_iff.mpr fun held => Nat.lt_irrefl _ (fresh start held)
      have recorded : (⟨bytes.set start (encodedSize size),
          (of bytes).retainedBytes + encodedSize size⟩ : Ledger) =
          .of (bytes ++ [(start, encodedSize size)]) := by
        simp [of, set_of_get_none _ unknown]
      refine (congrArg (foldl _ · _) recorded).trans ?_
      rw [ih, Nat.sub_eq_zero_of_le (Nat.not_lt.mp reached), Nat.sub_eq_zero_of_le (by omega),
        append_assoc]
      · rfl
      · simp only [AssocMap.keys, map_append, forall_mem_append, map_cons, forall_mem_cons]
        exact ⟨fun key held => Nat.lt_add_right 1 (fresh key held), Nat.lt_add_one _, by simp⟩

theorem accountEntries_table {durable start : Nat} (filled : batch.sizes ≠ [])
    (within : ∀ key ∈ (table first sizes).keys, key ≤ durable) :
    (of (table first sizes)).accountEntries start durable batch =
      .of (table first (sizes.take (batch.first - first)) ++
        table (batch.first + (start - batch.first)) (batch.sizes.drop (start - batch.first))) := by
  have below : ((table first sizes).filter fun entry => entry.1 < batch.first ∨ durable < entry.1) =
      table first (sizes.take (batch.first - first)) := by
    rw [← (filter_table _).1]
    refine filter_congr fun entry held => ?_
    have last := within _ (mem_keys_of_mem held)
    simp only [decide_eq_decide]
    omega
  rw [accountEntries, if_neg filled, forget_table, below, foldl_recordEntry]
  intro key held
  rw [keys_table, mem_range'_1, length_take] at held
  omega

end

/-! ## The steps -/

variable {core after : Core Memory} {memory stored : Memory} {index : Nat}

/-- The table is that of the stored log, whose entries are the durable ones. -/
structure Accounted (core : Core Memory) : Prop where
  ledger : core.toLedger = .of (table (firstIndex core.memory) (sizes core.memory))
  durable : sizes core.memory = [] ∨ core.durable = lastIndex core.memory

theorem accounted_empty (empty : sizes core.memory = []) (ledger : core.toLedger = {}) :
    Accounted core :=
  ⟨by rw [ledger, empty]; rfl, .inl empty⟩

theorem Accounted.noteAppend (accounted : Accounted core) (message : Message) :
    Accounted (core.noteAppend message) := by
  obtain ⟨ledger, durable⟩ := accounted
  unfold Core.noteAppend
  by_cases image : message.snapshot.index = 0 <;> by_cases empty : message.entries.sizes = [] <;>
    simp only [image, empty, if_true, if_false] <;> exact ⟨ledger, durable⟩

section

variable (documented : Documented Memory)

include documented

/-- The log after an append, as a table: what was stored below the batch, and what is not compacted
of the batch. -/
theorem append_table (filled : batch.sizes ≠ [])
    (above : sizes memory = [] ∨ firstIndex memory ≤ batch.first)
    (done : append memory batch = .ok stored) :
    firstIndex stored = firstIndex memory ∧ table (firstIndex memory) (sizes stored) =
      table (firstIndex memory) ((sizes memory).take (batch.first - firstIndex memory)) ++
        table (batch.first + (firstIndex memory - batch.first))
          (batch.sizes.drop (firstIndex memory - batch.first)) := by
  by_cases behind : batch.first + batch.sizes.length ≤ firstIndex memory
  · -- The whole batch was compacted, which can only meet an empty log.
    obtain rfl := documented.append_nothing done (.inr behind)
    have some : 0 < batch.sizes.length := length_pos_iff.mpr filled
    have empty : sizes stored = [] := above.resolve_right (by omega)
    have gone : batch.sizes.drop (firstIndex stored - batch.first) = [] :=
      drop_of_length_le (by omega)
    simp [gone, empty, table, indexed]
  · obtain ⟨meets, first, stores⟩ :=
      documented.append_replaces done (Nat.not_le.mp behind) filled
    rw [documented.span] at meets
    refine ⟨first, ?_⟩
    rw [stores, table_append, length_take_of_le (by omega)]
    congr 2
    omega

theorem installSnapshot_returns {image : Snapshot} (done : core.installSnapshot image = .ok after) :
    sizes after.memory = [] ∧ after.toLedger = core.toLedger := by
  obtain ⟨memory, applied, done⟩ := bind_returns.mp done
  obtain ⟨-, -, done⟩ := bind_returns.mp done
  cases done
  exact ⟨documented.applySnapshot_empties applied, rfl⟩

theorem createSnapshot_returns (done : core.createSnapshot index = .ok memory) :
    firstIndex memory = firstIndex core.memory ∧ sizes memory = sizes core.memory := by
  unfold Core.createSnapshot at done
  split at done
  · cases done
    exact ⟨rfl, rfl⟩
  · exact documented.createSnapshot_keeps done

variable (accounted : Accounted core)

include accounted

theorem Accounted.persistEntries
    (above : sizes core.memory = [] ∨ batch.sizes = [] ∨ firstIndex core.memory ≤ batch.first)
    (done : core.persistEntries batch = .ok after) : Accounted after := by
  obtain ⟨stored, appended, done⟩ := bind_returns.mp done
  cases done
  refine ⟨?_, .inr rfl⟩
  dsimp only
  by_cases filled : batch.sizes = []
  · rw [documented.append_nothing appended (.inl filled), accountEntries, if_pos filled,
      accounted.ledger]
  have within : ∀ key ∈ (table (firstIndex core.memory) (sizes core.memory)).keys,
      key ≤ core.durable := by
    intro key held
    rw [keys_table, mem_range'_1, ← documented.span] at held
    rcases accounted.durable with empty | durable
    · have span := documented.span core.memory
      rw [empty, length_nil] at span
      omega
    · omega
  obtain ⟨first, stores⟩ :=
    append_table documented filled (above.imp_right (Or.resolve_left · filled)) appended
  rw [accounted.ledger, accountEntries_table filled within, first, stores]

theorem Accounted.persisted {message : Message}
    (above : AboveCut core (.persisted message)) (done : core.persisted message = .ok after) :
    Accounted after := by
  obtain ⟨installed, installs, done⟩ := bind_returns.mp done
  obtain ⟨stored, stores, done⟩ := bind_returns.mp done
  cases done
  suffices kept : Accounted stored from ⟨kept.ledger, kept.durable⟩
  dsimp only [AboveCut] at above
  split_ifs at installs above
  · cases installs
    exact accounted.persistEntries documented (.inr (or_iff_not_imp_left.mpr above)) stores
  · obtain ⟨restored, restores, rfl⟩ := map_returns installs
    have empty := (installSnapshot_returns documented restores).1
    have cleared := @accounted_empty _ _ { restored with toLedger := {} } empty rfl
    exact cleared.persistEntries documented (.inl empty) stores

theorem Accounted.compact (done : core.compact index = .ok after) : Accounted after := by
  obtain ⟨memory, compacts, done⟩ := bind_returns.mp done
  cases done
  obtain ⟨reached, within, first, drops⟩ := documented.compact_drops compacts
  have span := documented.span core.memory
  have kept : ((table (firstIndex core.memory) (sizes core.memory)).filter fun entry =>
      entry.1 < firstIndex core.memory ∨ index < entry.1) =
      table (firstIndex memory) (sizes memory) := by
    have above := (@filter_table (firstIndex core.memory) (sizes core.memory) (index + 1)).2
    rw [Nat.add_sub_cancel' (by omega), ← drops, ← first] at above
    rw [← above, first]
    refine filter_congr fun entry held => ?_
    have first := mem_keys_of_mem held
    rw [keys_table, mem_range'_1] at first
    simp only [decide_eq_decide]
    omega
  constructor
  · dsimp only
    rw [accounted.ledger, forget_table, kept]
  · refine accounted.durable.imp (fun empty => ?_) fun durable => ?_
    · simp [drops, empty]
    · have rest := documented.span memory
      rw [drops, length_drop] at rest
      simp only [durable]
      omega

theorem Accounted.publishLocalSnapshot {reserved : Nat}
    (done : core.publishLocalSnapshot reserved index = .ok after) : Accounted after := by
  unfold Core.publishLocalSnapshot at done
  split at done
  · obtain ⟨memory, creates, done⟩ := bind_returns.mp done
    obtain ⟨published, publishes, done⟩ := bind_returns.mp done
    cases done
    obtain ⟨first, same⟩ := createSnapshot_returns documented creates
    suffices kept : Accounted published from ⟨kept.ledger, kept.durable⟩
    have created : Accounted { core with memory } := by
      have span := documented.span memory
      rw [first, same, ← documented.span core.memory] at span
      obtain ⟨ledger, durable⟩ := accounted
      rw [← first, ← same] at ledger
      rw [← same, ← Nat.succ.inj span] at durable
      exact ⟨ledger, durable⟩
    split_ifs at publishes
    · exact created.compact documented publishes
    · cases publishes
      exact created
  · cases done
    exact accounted

omit accounted

theorem newCore_accounted {image : Snapshot} (done : newCore image batch = .ok core) :
    Accounted core := by
  obtain ⟨installed, installs, done⟩ := bind_returns.mp done
  obtain ⟨stored, stores, done⟩ := bind_returns.mp done
  cases done
  suffices kept : sizes installed.memory = [] ∧ installed.toLedger = {} from
    have kept := (accounted_empty kept.1 kept.2).persistEntries documented (.inl kept.1) stores
    ⟨kept.ledger, kept.durable⟩
  split_ifs at installs
  · cases installs
    exact ⟨documented.new_empty, rfl⟩
  · obtain ⟨restored, restores, rfl⟩ := map_returns installs
    exact installSnapshot_returns documented restores

end

/-- Along every run, over a log that behaves as documented, the byte table has exactly the indexes
of the log, and the retained bytes are the sum of the encoded sizes of its entries. -/
theorem retained_log_accounted (documented : Documented Memory) {reserved : Nat}
    (reached : (coreSystem Memory reserved).Reachable core) :
    core.logBytes.keys.Nodup ∧ (∀ index, index ∈ core.logBytes.keys ↔
      firstIndex core.memory ≤ index ∧ index ≤ lastIndex core.memory) ∧
    core.retainedBytes = (((sizes core.memory).map encodedSize).sum : Nat) := by
  have accounted : Accounted core := by
    refine TransitionSystem.Reachable.invariant ?_ ?_ reached
    · rintro core ⟨image, batch, done⟩
      exact newCore_accounted documented done
    rintro core event after - accounted ⟨done, above⟩
    cases event with
    | noteAppend message =>
      cases done
      exact accounted.noteAppend message
    | persisted message => exact accounted.persisted documented above done
    | appliedEntry index =>
      simp only [step, Core.appliedEntry] at done
      split_ifs at done
      cases done
      exact ⟨accounted.ledger, accounted.durable⟩
    | publishLocalSnapshot index => exact accounted.publishLocalSnapshot documented done
    | compact index => exact accounted.compact documented done
  rw [accounted.ledger, of, keys_table]
  refine ⟨nodup_range', fun index => ?_, congrArg _ sum_table⟩
  rw [mem_range'_1, ← documented.span]
  omega

/-! ## A log as documented -/

/-- Entries after the last index that compaction or an image took away. -/
structure SizeLog where
  offset : Nat := 0
  snapshot : Nat := 0
  sizes : List Nat := []

instance : MemoryStorage SizeLog where
  newMemoryStorage := {}
  firstIndex log := log.offset + 1
  lastIndex log := log.offset + log.sizes.length
  sizes := SizeLog.sizes
  append log batch :=
    if batch.sizes = [] ∨ batch.first + batch.sizes.length ≤ log.offset + 1 then .ok log
    else if log.offset + log.sizes.length + 1 < batch.first then .error (.failed "missing entries")
    else .ok { log with
      sizes := log.sizes.take (batch.first - (log.offset + 1)) ++
        batch.sizes.drop (log.offset + 1 - batch.first) }
  applySnapshot log index :=
    if index ≤ log.snapshot then .error .snapOutOfDate
    else .ok { offset := index, snapshot := index }
  createSnapshot log index :=
    if index ≤ log.snapshot then .error .snapOutOfDate
    else .ok { log with snapshot := index }
  compact log index :=
    if index ≤ log.offset then .error (.failed "compacted")
    else if log.offset + log.sizes.length < index then .error (.failed "out of bound")
    else .ok { log with offset := index, sizes := log.sizes.drop (index - log.offset) }

theorem sizeLog_documented : Documented SizeLog where
  new_empty := rfl
  span log := Nat.add_right_comm ..
  append_nothing done nothing := by
    dsimp only [append, firstIndex] at done nothing
    rw [if_pos nothing] at done
    exact (Except.ok.inj done).symm
  append_replaces done reaches filled := by
    dsimp only [append, firstIndex, lastIndex, sizes] at done reaches ⊢
    rw [if_neg (not_or.mpr ⟨filled, Nat.not_le.mpr reaches⟩)] at done
    split_ifs at done with gap
    cases done
    exact ⟨Nat.not_lt.mp gap, rfl, rfl⟩
  applySnapshot_empties done := by
    dsimp only [applySnapshot] at done
    split_ifs at done
    cases done
    rfl
  createSnapshot_keeps done := by
    dsimp only [createSnapshot] at done
    split_ifs at done
    cases done
    exact ⟨rfl, rfl⟩
  compact_drops done := by
    dsimp only [compact] at done
    split_ifs at done with compacted beyond
    cases done
    exact ⟨Nat.not_le.mp compacted, Nat.not_lt.mp beyond, rfl,
      congrArg (drop · _) (Nat.add_sub_add_right ..).symm⟩

/-- Three entries, an overwrite of the last two, a compaction and an image beyond the log. -/
theorem overwritten_log_accounted :
    ∃ core : Core SizeLog, core.memory = ⟨9, 9, [7]⟩ ∧ core.logBytes.keys.Nodup ∧
      (∀ index, index ∈ core.logBytes.keys ↔
        firstIndex core.memory ≤ index ∧ index ≤ lastIndex core.memory) ∧
      core.retainedBytes = (((sizes core.memory).map encodedSize).sum : Nat) := by
  have next : ∀ event {core after}, (coreSystem SizeLog 1).Reachable core →
      step 1 core event = .ok after → AboveCut core event →
      (coreSystem SizeLog 1).Reachable after :=
    fun _ _ _ reached done above => .next reached ⟨done, above⟩
  have begun : (coreSystem SizeLog 1).Reachable _ := .start ⟨{}, ⟨1, [10, 20, 30]⟩, rfl⟩
  have overwritten := next (.persisted ⟨0, {}, ⟨2, [5]⟩⟩) begun rfl fun _ => by decide
  have compacted := next (.publishLocalSnapshot 2) overwritten rfl trivial
  have replaced := next (.persisted ⟨1, ⟨9, .ok ()⟩, ⟨10, [7]⟩⟩) compacted rfl fun _ => by decide
  exact ⟨_, rfl, retained_log_accounted sizeLog_documented replaced⟩

end Lavik.Raft
