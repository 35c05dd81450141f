import Mathlib.Data.List.Nodup
import Lavik.Base.Latest
/-!
# Logs of records that replace each other

A log gets a batch of records at every revision, and a record replaces the earlier ones of its
identity. The current records are the latest ones. A reader of what is left of the log, in any
order and with copies of records in their place, keeps exactly the current records again.
-/

namespace Lavik.Base

variable {Record Identity Version Revision Failure : Type} [LinearOrder Revision]

structure RecordLog (identity : Record → Identity) (revision : Record → Revision)
    (current : Record → Prop) (written : List Record) : Prop where
  agree : ∀ left ∈ written, ∀ right ∈ written, identity left = identity right →
    revision left = revision right → left = right
  listed : ∀ record, current record → record ∈ written
  latest : ∀ record, current record → ∀ other ∈ written, identity other = identity record →
    revision other ≤ revision record
  complete : ∀ record ∈ written, ∃ held, current held ∧ identity held = identity record

namespace RecordLog

variable {identity : Record → Identity} {revision : Record → Revision} {current : Record → Prop}
  {written : List Record}

theorem of_distinct (nodup : written.Pairwise fun left right => identity left ≠ identity right)
    (same : ∀ record, current record ↔ record ∈ written) :
    RecordLog identity revision current written := by
  have unique : ∀ left ∈ written, ∀ right ∈ written, identity left = identity right →
      left = right :=
    fun left first right second =>
      List.inj_on_of_nodup_map (List.pairwise_map.mpr nodup) first second
  constructor
  case agree => exact fun left first right second eq _ => unique left first right second eq
  case listed => exact fun record held => (same record).mp held
  case latest =>
    intro record held other mem eq
    rw [unique other mem record ((same record).mp held) eq]
  case complete => exact fun record mem => ⟨record, (same record).mpr mem, rfl⟩

theorem unique (log : RecordLog identity revision current written) {left right : Record}
    (first : current left) (second : current right) (same : identity left = identity right) :
    left = right := by
  have leftWritten := log.listed left first
  have rightWritten := log.listed right second
  apply log.agree left leftWritten right rightWritten same
  exact le_antisymm (log.latest right second left leftWritten same)
    (log.latest left first right rightWritten same.symm)

theorem update (log : RecordLog identity revision current written) {changes : List Record}
    {now : Revision} (older : ∀ record ∈ written, revision record < now)
    (own : ∀ change ∈ changes, revision change = now)
    (named : ∀ left ∈ changes, ∀ right ∈ changes, identity left = identity right → left = right)
    {after : Record → Prop} (replaced : ∀ record, after record ↔ record ∈ changes ∨
      current record ∧ ∀ change ∈ changes, identity change ≠ identity record) :
    RecordLog identity revision after (written ++ changes) := by
  have apart : ∀ old ∈ written, ∀ change ∈ changes, revision old ≠ revision change := by
    intro old before change late
    rw [own change late]
    exact (older old before).ne
  constructor
  case agree =>
    intro left first right second same level
    rcases List.mem_append.mp first with leftBefore | leftLate <;>
      rcases List.mem_append.mp second with rightBefore | rightLate
    · exact log.agree left leftBefore right rightBefore same level
    · exact (apart left leftBefore right rightLate level).elim
    · exact (apart right rightBefore left leftLate level.symm).elim
    · exact named left leftLate right rightLate same
  case listed =>
    intro record held
    rcases (replaced record).mp held with late | ⟨before, -⟩
    · exact List.mem_append_right _ late
    · exact List.mem_append_left _ (log.listed record before)
  case latest =>
    intro record held other mem same
    rcases (replaced record).mp held with late | ⟨before, free⟩
    · rw [own record late]
      rcases List.mem_append.mp mem with early | change
      · exact (older other early).le
      · exact (own other change).le
    · rcases List.mem_append.mp mem with early | change
      · exact log.latest record before other early same
      · exact (free other change same).elim
  case complete =>
    intro record mem
    by_cases known : ∃ change ∈ changes, identity change = identity record
    · obtain ⟨change, late, same⟩ := known
      exact ⟨change, (replaced change).mpr (.inl late), same⟩
    rcases List.mem_append.mp mem with before | late
    · obtain ⟨held, present, same⟩ := log.complete record before
      refine ⟨held, (replaced held).mpr (.inr ⟨present, fun change late eq => ?_⟩), same⟩
      exact known ⟨change, late, eq.trans same⟩
    · exact (known ⟨record, late, rfl⟩).elim

end RecordLog

/-! ## Reading what is left -/

variable [LinearOrder Identity] [LinearOrder Version]
  (reader : LatestReader Record Identity Version Failure)

structure Copying (revision : Record → Revision) (copy : Record → Record → Prop) : Prop where
  identity : ∀ candidate record, copy candidate record →
    reader.identity candidate = reader.identity record
  revised : ∀ candidate record, copy candidate record → revision candidate = revision record
  version : ∀ left right, reader.version left ≤ reader.version right →
    revision left ≤ revision right
  apart : ∀ left right, revision left ≠ revision right → reader.conflicts left right = false
  alike : ∀ left right record, copy left record → copy right record →
    reader.conflicts left right = false

/-- What is left of a log: an admitted copy of every record, and no other admitted records than
such copies. -/
structure Survives (copy : Record → Record → Prop) (written candidates : List Record) : Prop where
  kept : ∀ record ∈ written, ∃ candidate ∈ candidates, copy candidate record ∧
    reader.skips candidate = false
  only : ∀ candidate ∈ candidates, reader.skips candidate = false →
    ∃ record ∈ written, copy candidate record

structure Restores (copy : Record → Record → Prop) (current : Record → Prop)
    (winners : OrderedMap Identity Record) : Prop where
  held : ∀ record, current record →
    ∃ winner, (reader.identity record, winner) ∈ winners.entries ∧ copy winner record
  winner : ∀ entry ∈ winners.entries,
    ∃ record, current record ∧ reader.identity record = entry.1 ∧ copy entry.2 record

section Reading

variable {reader : LatestReader Record Identity Version Failure} {revision : Record → Revision}
  {copy : Record → Record → Prop} (copying : Copying reader revision copy)
  {current : Record → Prop} {written candidates : List Record}
  (log : RecordLog reader.identity revision current written)
  (survives : Survives reader copy written candidates)

include copying log survives

theorem Survives.collects (ok : ∀ cand, ∀ record ∈ written, copy cand record →
      reader.check cand = .ok ()) : ∃ winners, reader.collect candidates = .ok winners := by
  have agree : ∀ left right, (∃ record ∈ written, copy left record) →
      (∃ record ∈ written, copy right record) → reader.identity left = reader.identity right →
      reader.conflicts left right = false := by
    rintro left right ⟨first, firstWritten, firstCopy⟩ ⟨second, secondWritten, secondCopy⟩ same
    by_cases level : revision left = revision right
    · have eq : first = second := by
        apply log.agree first firstWritten second secondWritten
        · rw [← copying.identity left first firstCopy, ← copying.identity right second secondCopy,
            same]
        · rw [← copying.revised left first firstCopy, ← copying.revised right second secondCopy,
            level]
      exact copying.alike left right first firstCopy (eq ▸ secondCopy)
    · exact copying.apart left right level
  apply LatestReader.foldlM_returns agree (fun _ none => absurd none List.not_mem_nil) _ .nil
  intro cand listed admitted
  obtain ⟨record, mem, same⟩ := survives.only cand listed admitted
  exact ⟨⟨record, mem, same⟩, ok cand record mem same⟩

theorem Survives.restores {winners : OrderedMap Identity Record}
    (collected : reader.collect candidates = .ok winners) :
    Restores reader copy current winners := by
  obtain ⟨holds, -⟩ := LatestReader.collect_holds collected
  have read : ∀ entry ∈ winners.entries, (∃ record ∈ written, copy entry.2 record) ∧
      reader.identity entry.2 = entry.1 := by
    intro entry won
    obtain ⟨listed, named⟩ := holds.listed entry won
    obtain ⟨mem, admitted⟩ := List.mem_filter.mp listed
    exact ⟨survives.only entry.2 mem (by simpa using admitted), named⟩
  have held : ∀ record, current record →
      ∃ winner, (reader.identity record, winner) ∈ winners.entries ∧ copy winner record := by
    intro record present
    have mem := log.listed record present
    obtain ⟨cand, listed, same, admitted⟩ := survives.kept record mem
    obtain ⟨winner, won, above⟩ := holds.latest cand
      (List.mem_filter.mpr ⟨listed, by simpa using admitted⟩)
    rw [copying.identity cand record same] at won
    obtain ⟨⟨other, otherWritten, otherCopy⟩, named⟩ := read _ won
    have otherId : reader.identity other = reader.identity record :=
      (copying.identity winner other otherCopy).symm.trans named
    -- the winner is no older than the copy of the record, and no record is later than that
    have level : revision other = revision record := by
      apply le_antisymm (log.latest record present other otherWritten otherId)
      have newer := copying.version cand winner above
      rwa [copying.revised cand record same, copying.revised winner other otherCopy] at newer
    have eq := log.agree other otherWritten record mem otherId level
    exact ⟨winner, won, eq ▸ otherCopy⟩
  refine ⟨held, ?_⟩
  intro entry won
  obtain ⟨⟨other, otherWritten, otherCopy⟩, named⟩ := read entry won
  obtain ⟨record, present, same⟩ := log.complete other otherWritten
  have id : reader.identity record = entry.1 := by
    rw [same, ← copying.identity entry.2 other otherCopy, named]
  obtain ⟨winner, own, version⟩ := held record present
  rw [id] at own
  rw [OrderedMap.value_unique own won] at version
  exact ⟨record, present, id, version⟩

end Reading

end Lavik.Base
