import Lavik.Base.Status
/-!
# Reassembly of large objects

One direction of a control connection carries one large object at a time, in chunks. The
reassembler keeps only which object it is and how much of it has arrived; the bytes go to a sink
that may refuse any call. Every message asks the sink for at most one fallible call, so the sink's
answer stands beside the message.
-/

namespace Lavik.Cluster

open Base

abbrev WireId128 := Vector UInt8 16

def maxFrameBytes : Nat := 16 * 1024

def maxTransferChunkBytes : Nat := maxFrameBytes - 28 - (16 + 8 + 4)

def maxFullDesiredStateBytes : Nat := 512 <<< 20

def maxDirectiveTransferBytes : Nat := 256 * 1024 + maxFrameBytes

structure TransferStart where
  kind : UInt16
  objectId : WireId128
  totalLength : Nat

structure TransferChunk where
  objectId : WireId128
  offset : Nat
  bytes : List UInt8

/-- The messages of a transfer. The reason of an abort is not read. -/
inductive TransferMessage
  | start (start : TransferStart)
  | chunk (chunk : TransferChunk)
  | finish (objectId : WireId128)
  | abort (objectId : WireId128)

/-- A call on the sink and whether it succeeded. -/
inductive SinkCall
  | begin (start : TransferStart) (ok : Bool)
  | write (offset : Nat) (bytes : List UInt8) (ok : Bool)
  | commit (ok : Bool)
  | abort

/-- An object in progress. No more than its length has arrived, so what is missing does not wrap. -/
structure ActiveTransfer where
  start : TransferStart
  received : Nat
  within : received ≤ start.totalLength

structure LargeObjectReassembler where
  active : Option ActiveTransfer := none

/-- What a message does: the calls on the sink in order, and the status returned. -/
structure Reassembly where
  reassembler : LargeObjectReassembler
  calls : List SinkCall
  status : StatusOr Unit

def transferCap (kind : UInt16) : StatusOr Nat :=
  if kind = 1 ∨ kind = 5 then .ok maxFullDesiredStateBytes
  else if kind = 3 ∨ kind = 4 then .ok maxDirectiveTransferBytes
  else .error ⟨.invalidArgument, "unknown transfer kind"⟩

def checkStart (active : Option ActiveTransfer) (start : TransferStart) : StatusOr Unit := do
  refuseIf (active.isSome = true) .failedPrecondition
    "only one object may be reassembled per direction"
  refuseIf (start.kind < 1 ∨ start.kind > 5) .invalidArgument "unknown transfer kind"
  let cap ← transferCap start.kind
  refuseIf (start.totalLength > cap) .resourceExhausted "large object exceeds its type-specific cap"

def checkChunk (active : ActiveTransfer) (chunk : TransferChunk) : StatusOr Unit := do
  refuseIf (chunk.objectId ≠ active.start.objectId) .failedPrecondition
    "transfer chunk object id mismatch"
  refuseIf (chunk.offset ≠ active.received) .failedPrecondition "transfer chunk offset is not next"
  refuseIf (chunk.bytes = []) .invalidArgument "empty transfer chunk"
  refuseIf (chunk.bytes.length > maxTransferChunkBytes) .resourceExhausted
    "transfer chunk cannot fit in one frame"
  refuseIf (chunk.bytes.length > active.start.totalLength - active.received) .invalidArgument
    "transfer chunk exceeds declared object length"

def checkEnd (active : ActiveTransfer) (objectId : WireId128) : StatusOr Unit := do
  refuseIf (objectId ≠ active.start.objectId) .failedPrecondition "transfer end object id mismatch"
  refuseIf (active.received ≠ active.start.totalLength) .failedPrecondition
    "transfer ended before all bytes"

variable {done : Unit} {active : ActiveTransfer}

theorem checkChunk_returns {chunk : TransferChunk} (ok : checkChunk active chunk = .ok done) :
    chunk.offset = active.received ∧ chunk.bytes ≠ [] ∧
      active.received + chunk.bytes.length ≤ active.start.totalLength := by
  simp only [checkChunk, refuseIf_bind, refuseIf_returns, ne_eq, Decidable.not_not] at ok
  have within := active.within
  exact ⟨ok.2.1, ok.2.2.1, by omega⟩

theorem checkEnd_returns {objectId : WireId128} (ok : checkEnd active objectId = .ok done) :
    active.received = active.start.totalLength := by
  simp only [checkEnd, refuseIf_bind, refuseIf_returns, ne_eq, Decidable.not_not] at ok
  exact ok.2

namespace LargeObjectReassembler

variable (reassembler : LargeObjectReassembler)

/-- A refusal before the sink is asked. -/
def reject (status : Status) : Reassembly :=
  ⟨reassembler, [], .error status⟩

/-- `Accept`, with the sink's answer to the call the message may lead to. -/
def accept (answer : StatusOr Unit) (message : TransferMessage) : Reassembly :=
  match message, reassembler.active with
  | .start start, active =>
    match checkStart active start, answer with
    | .error status, _ => reassembler.reject status
    | .ok (), .error status => ⟨reassembler, [.begin start false], .error status⟩
    | .ok (), .ok () => ⟨⟨some ⟨start, 0, Nat.zero_le _⟩⟩, [.begin start true], .ok ()⟩
  | .chunk _, none =>
    reassembler.reject ⟨.failedPrecondition, "transfer chunk has no active object"⟩
  | .chunk chunk, some active =>
    match checked : checkChunk active chunk, answer with
    | .error status, _ => reassembler.reject status
    | .ok (), .error status =>
      ⟨⟨none⟩, [.write chunk.offset chunk.bytes false, .abort], .error status⟩
    | .ok (), .ok () =>
      ⟨⟨some ⟨active.start, active.received + chunk.bytes.length,
        (checkChunk_returns checked).2.2⟩⟩, [.write chunk.offset chunk.bytes true], .ok ()⟩
  | .finish _, none =>
    reassembler.reject ⟨.failedPrecondition, "transfer end has no active object"⟩
  | .finish objectId, some active =>
    match checkEnd active objectId, answer with
    | .error status, _ => reassembler.reject status
    | .ok (), .error status => ⟨⟨none⟩, [.commit false, .abort], .error status⟩
    | .ok (), .ok () => ⟨⟨none⟩, [.commit true], .ok ()⟩
  | .abort _, none =>
    reassembler.reject ⟨.failedPrecondition, "transfer abort has no active object"⟩
  | .abort objectId, some active =>
    if objectId ≠ active.start.objectId then
      reassembler.reject ⟨.failedPrecondition, "transfer abort object id mismatch"⟩
    else ⟨⟨none⟩, [.abort], .ok ()⟩

/-- The destructor. -/
def destroy : List SinkCall :=
  if reassembler.active.isSome then [.abort] else []

/-- The calls of a whole life: messages in turn, then destruction. -/
def calls (reassembler : LargeObjectReassembler) :
    List (TransferMessage × StatusOr Unit) → List SinkCall
  | [] => reassembler.destroy
  | (message, answer) :: rest =>
    (reassembler.accept answer message).calls ++
      (reassembler.accept answer message).reassembler.calls rest

end LargeObjectReassembler

/-! ## Sessions -/

/-- The calls of a session in progress, by the bytes written. -/
inductive Session (start : TransferStart) : Nat → List SinkCall → Prop
  | begin : Session start 0 [.begin start true]
  | write {written : Nat} {calls : List SinkCall} {bytes : List UInt8}
      (session : Session start written calls) (nonempty : bytes ≠ [])
      (within : written + bytes.length ≤ start.totalLength) :
      Session start (written + bytes.length) (calls ++ [.write written bytes true])

/-- How a session ends; a write or a commit that failed is aborted at once. -/
inductive Closing (start : TransferStart) (written : Nat) : List SinkCall → Prop
  | committed (complete : written = start.totalLength) : Closing start written [.commit true]
  | commitFailed (complete : written = start.totalLength) :
      Closing start written [.commit false, .abort]
  | writeFailed {bytes : List UInt8} (nonempty : bytes ≠ [])
      (within : written + bytes.length ≤ start.totalLength) :
      Closing start written [.write written bytes false, .abort]
  | aborted : Closing start written [.abort]

/-- A whole session, or a `Begin` that opened none. -/
inductive Delivery : List SinkCall → Prop
  | session {start : TransferStart} {written : Nat} {opened closing : List SinkCall}
      (session : Session start written opened) (closes : Closing start written closing) :
      Delivery (opened ++ closing)
  | refused (start : TransferStart) : Delivery [.begin start false]

/-- What the sink has seen: deliveries, and the session of the object in progress. -/
inductive Delivers : Option ActiveTransfer → List SinkCall → Prop
  | idle (parts : List (List SinkCall)) (delivered : ∀ part ∈ parts, Delivery part) :
      Delivers none parts.flatten
  | busy (parts : List (List SinkCall)) (delivered : ∀ part ∈ parts, Delivery part)
      {active : ActiveTransfer} {current : List SinkCall}
      (session : Session active.start active.received current) :
      Delivers (some active) (parts.flatten ++ current)

namespace Delivers

theorem deliver {parts : List (List SinkCall)} (delivered : ∀ part ∈ parts, Delivery part)
    {cur : List SinkCall} (delivery : Delivery cur) : Delivers none (parts.flatten ++ cur) := by
  have all : ∀ part ∈ parts ++ [cur], Delivery part := by
    simpa [or_imp, forall_and] using ⟨delivered, delivery⟩
  simpa using idle _ all

variable {reassembler : LargeObjectReassembler} {calls : List SinkCall}

theorem accept (delivers : Delivers reassembler.active calls) (message : TransferMessage)
    (answer : StatusOr Unit) :
    Delivers (reassembler.accept answer message).reassembler.active
      (calls ++ (reassembler.accept answer message).calls) := by
  obtain ⟨active⟩ := reassembler
  unfold LargeObjectReassembler.accept
  cases delivers with
  | idle parts delivered =>
    have unchanged : Delivers none (parts.flatten ++ []) := by simpa using idle parts delivered
    cases message with
    | start start =>
      dsimp only
      split
      · exact unchanged
      · exact deliver delivered (.refused start)
      · exact busy parts delivered .begin
    | chunk | finish | abort => exact unchanged
  | @busy parts delivered active current session =>
    have unchanged : Delivers (some active) (parts.flatten ++ current ++ []) := by
      simpa using busy parts delivered session
    have close {last : List SinkCall} (closes : Closing active.start active.received last) :
        Delivers none (parts.flatten ++ current ++ last) := by
      rw [List.append_assoc]
      exact deliver delivered (.session session closes)
    cases message with
    | start start => exact unchanged
    | chunk chunk =>
      dsimp only
      split
      · exact unchanged
      · next ok =>
        obtain ⟨next, ne, within⟩ := checkChunk_returns ok
        rw [next]
        exact close (.writeFailed ne within)
      · next ok =>
        obtain ⟨next, ne, within⟩ := checkChunk_returns ok
        rw [List.append_assoc, next]
        exact busy parts delivered (.write session ne within)
    | finish objectId =>
      dsimp only
      split
      · exact unchanged
      · next ok => exact close (.commitFailed (checkEnd_returns ok))
      · next ok => exact close (.committed (checkEnd_returns ok))
    | abort objectId =>
      dsimp only
      split
      · exact unchanged
      · exact close .aborted

theorem run (delivers : Delivers reassembler.active calls)
    (messages : List (TransferMessage × StatusOr Unit)) :
    Delivers none (calls ++ reassembler.calls messages) := by
  induction messages generalizing reassembler calls with
  | nil =>
    obtain ⟨active⟩ := reassembler
    cases delivers with
    | idle parts delivered =>
      simpa [LargeObjectReassembler.calls, LargeObjectReassembler.destroy]
        using idle parts delivered
    | busy parts delivered session =>
      rw [List.append_assoc]
      exact deliver delivered (.session session .aborted)
  | cons entry rest ih =>
    rw [LargeObjectReassembler.calls, ← List.append_assoc]
    exact ih (delivers.accept entry.1 entry.2)

end Delivers

/-- **A large object is delivered whole or not at all.** Whatever messages arrive and whatever the
sink answers: its calls, up to the destruction, are whole sessions one after the other and Begins
that opened none; and a message that leads to no call changes nothing. -/
theorem large_objects_all_or_nothing :
    (∀ messages : List (TransferMessage × StatusOr Unit), ∃ parts : List (List SinkCall),
      LargeObjectReassembler.calls {} messages = parts.flatten ∧ ∀ part ∈ parts, Delivery part) ∧
    ∀ (reassembler : LargeObjectReassembler) (answer : StatusOr Unit) (message : TransferMessage),
      (reassembler.accept answer message).calls = [] →
        (reassembler.accept answer message).reassembler = reassembler := by
  refine ⟨fun messages => ?_, fun reassembler answer message => ?_⟩
  case refine_2 =>
    unfold LargeObjectReassembler.accept
    split <;> (try split) <;> simp [LargeObjectReassembler.reject]
  have begun : Delivers ({} : LargeObjectReassembler).active [] := .idle [] (by simp)
  have delivers := begun.run messages
  generalize LargeObjectReassembler.calls {} messages = calls at delivers ⊢
  cases delivers with
  | idle parts delivered => exact ⟨parts, rfl, delivered⟩

end Lavik.Cluster
