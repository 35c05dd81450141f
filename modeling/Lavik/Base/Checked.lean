/-!
# Checked steps and refused attempts

A checked step returns a new state or refuses with a text. A sequence that is refused part way has
already changed the state, so an attempt carries the state it stopped in.
-/

namespace Lavik.Base

def require (condition : Bool) (text : String) : Except String Unit :=
  if condition then .ok () else .error text

variable {text : String} {done : Unit} {condition : Bool} {Value First Text : Type} {value : Value}
  {first : Except Text First} {rest : First → Except Text Value}

theorem require_returns : require condition text = .ok done ↔ condition = true := by
  unfold require
  cases condition <;> simp

theorem bind_returns :
    (first >>= rest) = .ok value ↔ ∃ middle, first = .ok middle ∧ rest middle = .ok value := by
  cases first <;> simp [bind, Except.bind]

theorem require_bind {rest : Unit → Except String Value} :
    (require condition text >>= rest) = .ok value ↔ condition = true ∧ rest () = .ok value := by
  rw [bind_returns]
  constructor
  · rintro ⟨done, ok, cont⟩
    exact ⟨require_returns.mp ok, cont⟩
  · rintro ⟨holds, cont⟩
    exact ⟨(), require_returns.mpr holds, cont⟩

theorem bind_fails {text : Text} :
    (first >>= rest) = .error text ↔
      first = .error text ∨ ∃ middle, first = .ok middle ∧ rest middle = .error text := by
  cases first <;> simp [bind, Except.bind]

theorem require_bind_fails {failure : String} {rest : Unit → Except String Value} :
    (require condition text >>= rest) = .error failure ↔
      condition = false ∧ text = failure ∨ condition = true ∧ rest () = .error failure := by
  cases condition <;> simp [require, bind, Except.bind]

theorem returns_of_any {outcome : Except Text Value} {test : Value → Bool}
    (passed : outcome.toOption.any test = true) : ∃ value, outcome = .ok value ∧ test value := by
  cases outcome with
  | error text => exact (Bool.false_ne_true passed).elim
  | ok value => exact ⟨value, rfl, passed⟩

theorem map_returns {rest : First → Value} (ret : first.map rest = .ok value) :
    ∃ middle, first = .ok middle ∧ value = rest middle := by
  cases first with
  | error text => simp [Except.map] at ret
  | ok middle =>
    simp only [Except.map, Except.ok.injEq] at ret
    exact ⟨middle, rfl, ret.symm⟩

theorem forM_returns {Item : Type} {check : Item → Except Text Unit} {items : List Item}
    (ok : items.forM check = .ok done) : ∀ item ∈ items, ∃ result, check item = .ok result := by
  induction items with
  | nil => simp
  | cons item rest ih =>
    have split : (check item >>= fun _ => rest.forM check) = .ok done := ok
    obtain ⟨result, first, others⟩ := bind_returns.mp split
    intro other mem
    rcases List.mem_cons.mp mem with same | later
    · exact ⟨result, same ▸ first⟩
    · exact ih others other later

section Fold

variable {State Item : Type} {step : State → Item → Except Text State}
  {holds : List Item → State → Prop} {start : State} {items : List Item}

theorem foldlM_invariant {final : State} (begun : holds [] start)
    (kept : ∀ gone item rest state after, items = gone ++ item :: rest → holds gone state →
      step state item = .ok after → holds (gone ++ [item]) after)
    (ret : items.foldlM step start = .ok final) : holds items final := by
  suffices general : ∀ (rest gone : List Item) (state : State), items = gone ++ rest →
      holds gone state → rest.foldlM step state = .ok final → holds items final from
    general items [] start rfl begun ret
  intro rest
  induction rest with
  | nil =>
    intro gone state whole held ended
    cases ended
    rw [List.append_nil] at whole
    rwa [whole]
  | cons item rest ih =>
    intro gone state whole held ended
    rw [List.foldlM_cons, bind_returns] at ended
    obtain ⟨middle, stepped, others⟩ := ended
    have next := kept gone item rest state middle whole held stepped
    exact ih (gone ++ [item]) middle (by simp [whole]) next others

theorem foldlM_succeeds (begun : holds [] start)
    (returns : ∀ gone item rest state, items = gone ++ item :: rest → holds gone state →
      ∃ after, step state item = .ok after ∧ holds (gone ++ [item]) after) :
    ∃ final, items.foldlM step start = .ok final ∧ holds items final := by
  suffices general : ∀ (rest gone : List Item) (state : State), items = gone ++ rest →
      holds gone state → ∃ final, rest.foldlM step state = .ok final ∧ holds items final from
    general items [] start rfl begun
  intro rest
  induction rest with
  | nil =>
    intro gone state whole held
    rw [List.append_nil] at whole
    exact ⟨state, rfl, whole ▸ held⟩
  | cons item rest ih =>
    intro gone state whole held
    obtain ⟨middle, stepped, next⟩ := returns gone item rest state whole held
    obtain ⟨final, ended, result⟩ := ih (gone ++ [item]) middle (by simp [whole]) next
    exact ⟨final, by rw [List.foldlM_cons, bind_returns]; exact ⟨middle, stepped, ended⟩, result⟩

end Fold

/-! ## Attempts -/

/-- What a sequence of checked steps returns, or the refusal and the state it stopped in. -/
abbrev Attempt (State Value : Type) := Except (String × State) Value

namespace Attempt

variable {State : Type}

def step (checked : State → Except String State) (state : State) : Attempt State State :=
  match checked state with
  | .ok after => .ok after
  | .error text => .error (text, state)

def check (checked : State → Except String Unit) (state : State) : Attempt State State :=
  step (fun current => (checked current).map fun _ => current) state

def final : Attempt State State → State
  | .ok after => after
  | .error (_, stopped) => stopped

variable {checked : State → Except String State} {state after : State}

theorem step_returns : step checked state = .ok after ↔ checked state = .ok after := by
  unfold step
  cases outcome : checked state <;> simp

theorem check_returns {checked : State → Except String Unit} :
    check checked state = .ok after ↔ checked state = .ok () ∧ after = state := by
  unfold check
  rw [step_returns]
  cases checked state with
  | error text => simp [Except.map]
  | ok done => simp [Except.map, eq_comm]

theorem step_final (holds : State → Prop) (begun : holds state)
    (ret : ∀ after, checked state = .ok after → holds after) :
    holds (step checked state).final := by
  unfold step
  cases outcome : checked state with
  | error text => exact begun
  | ok after => exact ret after outcome

end Attempt

end Lavik.Base
