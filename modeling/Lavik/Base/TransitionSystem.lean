import Mathlib.Logic.Relation
import Mathlib.Order.Basic
/-!
# Transition systems, runs and invariants

A property that holds initially and is kept by every step holds in every reachable state. Machines
whose step may stop on a failed assertion get their own rule: an invariant under which no enabled
step fails rules the failure out along every run.
-/

namespace Lavik.Base

structure TransitionSystem (State Label : Type) where
  init : State → Prop
  step : State → Label → State → Prop

namespace TransitionSystem

variable {State Label : Type}

inductive Reachable (system : TransitionSystem State Label) : State → Prop
  | start {state : State} : system.init state → Reachable system state
  | next {state after : State} {label : Label} :
      Reachable system state → system.step state label after → Reachable system after

variable {state : State}

theorem Reachable.invariant {system : TransitionSystem State Label} {inv : State → Prop}
    (initial : ∀ state, system.init state → inv state)
    (kept : ∀ state label after, Reachable system state → inv state →
      system.step state label after → inv after) (reached : Reachable system state) :
    inv state := by
  induction reached with
  | start began => exact initial _ began
  | next before step ih => exact kept _ _ _ before ih step

inductive Run (system : TransitionSystem State Label) : State → List Label → State → Prop
  | nil (state : State) : Run system state [] state
  | cons {state middle final : State} {label : Label} {labels : List Label} :
      system.step state label middle → Run system middle labels final →
        Run system state (label :: labels) final

theorem Run.reachable {system : TransitionSystem State Label} {final : State}
    {labels : List Label} (run : Run system state labels final) (reached : Reachable system state) :
    Reachable system final := by
  induction run with
  | nil => exact reached
  | cons step _ ih => exact ih (.next reached step)

def restrict (system : TransitionSystem State Label) (allowed : State → Label → Prop) :
    TransitionSystem State Label where
  init := system.init
  step state label after := system.step state label after ∧ allowed state label

theorem Reachable.of_restrict {system : TransitionSystem State Label}
    {allowed : State → Label → Prop} (reached : (system.restrict allowed).Reachable state) :
    system.Reachable state := by
  induction reached with
  | start began => exact .start began
  | next _ step ih => exact .next ih step.1

end TransitionSystem

/-- A deterministic machine whose steps may stop on a failed assertion. -/
structure Machine (State Label Fault : Type) where
  initial : State
  Enabled : State → Label → Prop
  step : State → Label → Except Fault State

namespace Machine

variable {State Label Fault : Type}

def system (machine : Machine State Label Fault) : TransitionSystem State Label where
  init state := state = machine.initial
  step state label after := machine.Enabled state label ∧ machine.step state label = .ok after

abbrev Reachable (machine : Machine State Label Fault) : State → Prop :=
  machine.system.Reachable

variable {machine : Machine State Label Fault}

theorem Reachable.of_total {inv : State → Prop} (initial : inv machine.initial)
    (total : ∀ state label, inv state → machine.Enabled state label →
      ∃ after, machine.step state label = .ok after ∧ inv after) {state : State}
    (reached : machine.Reachable state) : inv state := by
  refine TransitionSystem.Reachable.invariant ?_ ?_ reached
  · rintro _ rfl
    exact initial
  · rintro before label after - holds ⟨enabled, step⟩
    obtain ⟨found, same, kept⟩ := total before label holds enabled
    rw [step] at same
    obtain rfl := Except.ok.inj same
    exact kept

/-- Run a machine along a list of labels, as long as contracts are met and no assertion fails. -/
def play (machine : Machine State Label Fault)
    [∀ state label, Decidable (machine.Enabled state label)] : State → List Label → Option State
  | state, [] => some state
  | state, label :: labels =>
    if machine.Enabled state label then
      match machine.step state label with
      | .ok after => machine.play after labels
      | .error _ => none
    else none

theorem Reachable.play [∀ state label, Decidable (machine.Enabled state label)]
    {labels : List Label} {state final : State} (reached : machine.Reachable state)
    (played : machine.play state labels = some final) : machine.Reachable final := by
  induction labels generalizing state with
  | nil => exact Option.some.inj played ▸ reached
  | cons label labels ih =>
    simp only [Machine.play] at played
    split at played
    · rename_i enabled
      split at played
      · rename_i after step
        exact ih (.next reached ⟨enabled, step⟩) played
      · contradiction
    · contradiction

end Machine

theorem acyclic_of_rank {α β : Type} [Preorder β] {relation : α → α → Prop} (rank : α → β)
    (increases : ∀ a b, relation a b → rank a < rank b) (a : α) :
    ¬ Relation.TransGen relation a a := by
  intro cycle
  have ranked : ∀ {b c}, Relation.TransGen relation b c → rank b < rank c := by
    intro b c path
    induction path with
    | single edge => exact increases _ _ edge
    | tail _ edge ih => exact lt_trans ih (increases _ _ edge)
  exact lt_irrefl _ (ranked cycle)

end Lavik.Base
