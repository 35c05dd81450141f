import Lavik.Base.Checked
/-!
# Statuses

What a fallible function refuses with: a code and a text. A guard at the head of a function returns
its status when its condition holds, so what follows runs where the condition does not.
-/

namespace Lavik.Base

/-- `absl::StatusCode`, the codes in use. -/
inductive StatusCode
  | invalidArgument
  | failedPrecondition
  | outOfRange
  | dataLoss
  | aborted
  | resourceExhausted
  | deadlineExceeded
  | unavailable
deriving DecidableEq, Repr

/-- `absl::Status` of a refusal. -/
structure Status where
  code : StatusCode
  message : String
deriving DecidableEq, Repr

abbrev StatusOr := Except Status

def refuseIf (condition : Prop) [Decidable condition] (code : StatusCode) (message : String) :
    StatusOr Unit :=
  if condition then .error ⟨code, message⟩ else .ok ()

variable {condition : Prop} {code : StatusCode} {message : String}

theorem refuseIf_returns [Decidable condition] {done : Unit} :
    refuseIf condition code message = .ok done ↔ ¬condition := by
  unfold refuseIf
  split <;> simp_all

theorem refuseIf_bind {Value : Type} [Decidable condition] {rest : Unit → StatusOr Value}
    {value : Value} :
    (refuseIf condition code message >>= rest) = .ok value ↔ ¬condition ∧ rest () = .ok value := by
  rw [bind_returns]
  constructor
  · rintro ⟨done, ok, cont⟩
    exact ⟨refuseIf_returns.mp ok, cont⟩
  · rintro ⟨fails, cont⟩
    exact ⟨(), refuseIf_returns.mpr fails, cont⟩

end Lavik.Base
