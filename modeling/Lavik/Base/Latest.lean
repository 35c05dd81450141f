import Lavik.Base.Checked
import Lavik.Base.SearchTree
/-!
# The latest record of every identity

A log holds many records of one identity. A reader goes through it in any order, passes over the
records it does not admit, checks the others, and keeps the record of the highest version for each
identity. Two records of one identity may be in conflict, which ends the reading.
-/

namespace Lavik.Base

open List OrderedMap

variable {Record Identity Version Failure : Type} [LinearOrder Identity] [LinearOrder Version]

structure LatestReader (Record Identity Version Failure : Type) where
  identity : Record → Identity
  version : Record → Version
  skips : Record → Bool
  check : Record → Except Failure Unit
  conflicts : Record → Record → Bool
  conflict : Failure

namespace LatestReader

variable (reader : LatestReader Record Identity Version Failure)

/-- An admitted record replaces an earlier version of its identity. -/
def keep (kept : OrderedMap Identity Record) (candidate : Record) :
    Except Failure (OrderedMap Identity Record) :=
  match kept.get (reader.identity candidate) with
  | none => .ok (kept.set (reader.identity candidate) candidate)
  | some previous =>
    if reader.conflicts candidate previous then .error reader.conflict
    else if reader.version previous < reader.version candidate then
      .ok (kept.set (reader.identity candidate) candidate)
    else .ok kept

def read (kept : OrderedMap Identity Record) (candidate : Record) :
    Except Failure (OrderedMap Identity Record) :=
  if reader.skips candidate then .ok kept
  else do
    reader.check candidate
    reader.keep kept candidate

def collect (log : List Record) : Except Failure (OrderedMap Identity Record) :=
  log.foldlM reader.read .empty

structure Holds (log : List Record) (kept : OrderedMap Identity Record) : Prop where
  listed : ∀ entry ∈ kept.entries, entry.2 ∈ log ∧ reader.identity entry.2 = entry.1
  latest : ∀ record ∈ log, ∃ winner, (reader.identity record, winner) ∈ kept.entries ∧
    reader.version record ≤ reader.version winner

variable {reader}

theorem Holds.nil : reader.Holds [] .empty where
  listed := by simp
  latest := by simp

variable {log : List Record} {kept : OrderedMap Identity Record} {candidate : Record}

theorem Holds.replace (holds : reader.Holds log kept)
    (newest : ∀ previous, (reader.identity candidate, previous) ∈ kept.entries →
      reader.version previous ≤ reader.version candidate) :
    reader.Holds (log ++ [candidate]) (kept.set (reader.identity candidate) candidate) where
  listed := by
    intro entry held
    rcases mem_set.mp held with rfl | ⟨before, _⟩
    · simp
    · obtain ⟨mem, own⟩ := holds.listed entry before
      exact ⟨mem_append_left _ mem, own⟩
  latest := by
    intro record mem
    by_cases same : reader.identity record = reader.identity candidate
    · refine ⟨candidate, mem_set.mpr (.inl (by rw [same])), ?_⟩
      rcases mem_append.mp mem with earlier | last
      · obtain ⟨winner, listed, bound⟩ := holds.latest record earlier
        exact bound.trans (newest winner (same ▸ listed))
      · rw [mem_singleton.mp last]
    · rcases mem_append.mp mem with earlier | last
      · obtain ⟨winner, listed, bound⟩ := holds.latest record earlier
        exact ⟨winner, mem_set.mpr (.inr ⟨listed, same⟩), bound⟩
      · exact (same (congrArg reader.identity (mem_singleton.mp last))).elim

theorem Holds.pass (holds : reader.Holds log kept) {winner : Record}
    (listed : (reader.identity candidate, winner) ∈ kept.entries)
    (bound : reader.version candidate ≤ reader.version winner) :
    reader.Holds (log ++ [candidate]) kept where
  listed := by
    intro entry held
    obtain ⟨mem, own⟩ := holds.listed entry held
    exact ⟨mem_append_left _ mem, own⟩
  latest := forall_mem_append.mpr ⟨holds.latest, forall_mem_singleton.mpr ⟨winner, listed, bound⟩⟩

variable {after : OrderedMap Identity Record}

theorem Holds.keep (holds : reader.Holds log kept) (ret : reader.keep kept candidate = .ok after) :
    reader.Holds (log ++ [candidate]) after := by
  unfold LatestReader.keep at ret
  split at ret
  · next absent =>
    cases ret
    apply holds.replace
    intro previous mem
    exact (get_eq_none.mp absent _ mem rfl).elim
  · next winner found =>
    have mem := get_eq_some.mp found
    split at ret
    · cases ret
    split at ret
    · next newer =>
      cases ret
      apply holds.replace
      intro previous other
      rw [value_unique other mem]
      exact newer.le
    · next notNewer =>
      cases ret
      exact holds.pass mem (not_lt.mp notNewer)

theorem Holds.foldlM {before : List Record} (holds : reader.Holds before kept)
    (ret : log.foldlM reader.read kept = .ok after) :
    reader.Holds (before ++ log.filter fun record => !reader.skips record) after ∧
      ∀ record ∈ log, reader.skips record = false → reader.check record = .ok () := by
  induction log generalizing before kept with
  | nil =>
    cases ret
    simpa using holds
  | cons cand rest ih =>
    rw [foldlM_cons, bind_returns] at ret
    obtain ⟨middle, first, others⟩ := ret
    unfold LatestReader.read at first
    split at first
    · next skipped =>
      cases first
      obtain ⟨kept, checked⟩ := ih holds others
      refine ⟨by simpa [skipped] using kept, ?_⟩
      rintro record (_ | ⟨_, mem⟩) admitted
      · exact (Bool.false_ne_true (admitted.symm.trans skipped)).elim
      · exact checked record mem admitted
    · next admitted =>
      obtain ⟨done, ok, stored⟩ := bind_returns.mp first
      obtain ⟨kept, checked⟩ := ih (holds.keep stored) others
      refine ⟨by simpa [admitted] using kept, ?_⟩
      rintro record (_ | ⟨_, mem⟩) unskipped
      · exact ok
      · exact checked record mem unskipped

theorem collect_holds (ret : reader.collect log = .ok kept) :
    reader.Holds (log.filter fun record => !reader.skips record) kept ∧
      ∀ record ∈ log, reader.skips record = false → reader.check record = .ok () := by
  simpa using Holds.nil.foldlM ret

section Returns

variable {admitted : Record → Prop}

theorem foldlM_returns {before log : List Record} {kept : OrderedMap Identity Record}
    (agree : ∀ left right, admitted left → admitted right →
      reader.identity left = reader.identity right → reader.conflicts left right = false)
    (earlier : ∀ record ∈ before, admitted record)
    (later : ∀ record ∈ log, reader.skips record = false →
      admitted record ∧ reader.check record = .ok ())
    (holds : reader.Holds before kept) : ∃ after, log.foldlM reader.read kept = .ok after := by
  induction log generalizing before kept with
  | nil => exact ⟨kept, rfl⟩
  | cons cand rest ih =>
    have restLater := fun record mem => later record (mem_cons_of_mem _ mem)
    simp only [foldlM_cons, bind_returns]
    by_cases skipped : reader.skips cand = true
    · obtain ⟨after, ret⟩ := ih earlier restLater holds
      exact ⟨after, kept, by rw [read, if_pos skipped], ret⟩
    obtain ⟨own, ok⟩ := later cand (mem_cons_self ..) (by simpa using skipped)
    obtain ⟨middle, stored⟩ : ∃ middle, reader.keep kept cand = .ok middle := by
      unfold keep
      split
      · exact ⟨_, rfl⟩
      · next winner found =>
        obtain ⟨mem, same⟩ := holds.listed _ (get_eq_some.mp found)
        rw [agree cand winner own (earlier winner mem) same.symm, if_neg Bool.false_ne_true]
        split <;> exact ⟨_, rfl⟩
    have extended := forall_mem_append.mpr ⟨earlier, forall_mem_singleton.mpr own⟩
    obtain ⟨after, ret⟩ := ih extended restLater (holds.keep stored)
    refine ⟨after, middle, ?_, ret⟩
    rw [read, if_neg skipped, ok]
    exact stored

end Returns

end LatestReader

end Lavik.Base
