import Mathlib.Data.List.Forall2
/-!
# Chains of pages linked in both directions

Every page names the page before it and the page after it by their identities. A chain is a list of
pages whose links spell the list. A stretch of a chain can be replaced by another one when the
links of its neighbours are set to the ends of the new stretch.
-/

namespace Lavik.Base

open List

/-! ## Parallel lists -/

section Parallel

variable {Left Right : Type} {related : Left → Right → Prop} {left : List Left}
  {right : List Right}

theorem forall₂_of_exists (each : ∀ item ∈ left, ∃ other, related item other) :
    ∃ right, List.Forall₂ related left right := by
  induction left with
  | nil => exact ⟨[], .nil⟩
  | cons item rest ih =>
    obtain ⟨⟨other, own⟩, later⟩ := forall_mem_cons.mp each
    obtain ⟨others, parallel⟩ := ih later
    exact ⟨other :: others, .cons own parallel⟩

theorem forall₂_split {first second : List Right}
    (parallel : List.Forall₂ related left (first ++ second)) :
    ∃ front back, left = front ++ back ∧ List.Forall₂ related front first ∧
      List.Forall₂ related back second :=
  ⟨_, _, (take_append_drop first.length left).symm,
    forall₂_take_append _ _ _ parallel, forall₂_drop_append _ _ _ parallel⟩

variable (parallel : List.Forall₂ related left right)

include parallel

theorem forall₂_mem_left {item : Left} (mem : item ∈ left) :
    ∃ other ∈ right, related item other := by
  induction parallel with
  | nil => cases mem
  | cons own _ ih =>
    rcases mem_cons.mp mem with rfl | late
    · exact ⟨_, mem_cons_self, own⟩
    · obtain ⟨other, listed, same⟩ := ih late
      exact ⟨other, mem_cons_of_mem _ listed, same⟩

theorem forall₂_mem_right {other : Right} (mem : other ∈ right) :
    ∃ item ∈ left, related item other :=
  forall₂_mem_left (List.Forall₂.flip parallel) mem

theorem forall₂_head? : List.Forall₂ related left.head?.toList right.head?.toList := by
  cases parallel with
  | nil => exact .nil
  | cons own _ => exact .cons own .nil

theorem forall₂_getLast? : List.Forall₂ related left.getLast?.toList right.getLast?.toList := by
  rw [getLast?_eq_head?_reverse, getLast?_eq_head?_reverse]
  exact forall₂_head? (forall₂_reverse_iff.mpr parallel)

end Parallel

/-! ## Links -/

structure Links (Page : Type) where
  id : Page → Nat
  previous : Page → Nat
  next : Page → Nat

namespace Links

variable {Page : Type} (links : Links Page)

/-- The identity of the first page, or what follows if there is none. -/
def head (after : Nat) (pages : List Page) : Nat := (pages.head?.map links.id).getD after

variable (before : Nat)

/-- The identity of the last page, or what precedes if there is none. -/
def last (pages : List Page) : Nat := (pages.getLast?.map links.id).getD before

def Chained (before : Nat) : List Page → Nat → Prop
  | [], _ => True
  | page :: rest, after =>
    links.previous page = before ∧ links.next page = links.head after rest ∧
      Chained (links.id page) rest after

@[simp]
theorem head_nil (after : Nat) : links.head after [] = after := rfl

@[simp]
theorem head_cons (after : Nat) (page : Page) (rest : List Page) :
    links.head after (page :: rest) = links.id page := rfl

@[simp]
theorem last_nil : links.last before [] = before := rfl

@[simp]
theorem last_concat (pages : List Page) (page : Page) :
    links.last before (pages ++ [page]) = links.id page := by
  simp [last]

theorem last_cons (page : Page) (rest : List Page) :
    links.last before (page :: rest) = links.last (links.id page) rest := by
  unfold last
  rw [getLast?_cons]
  cases rest.getLast? <;> rfl

theorem head_append (after : Nat) (left right : List Page) :
    links.head after (left ++ right) = links.head (links.head after right) left := by
  cases left <;> rfl

theorem last_append (left right : List Page) :
    links.last before (left ++ right) = links.last (links.last before left) right := by
  induction left generalizing before with
  | nil => rfl
  | cons page rest ih => rw [cons_append, last_cons, ih, last_cons]

variable {before after : Nat} {pages : List Page}

theorem chained_append {left right : List Page} :
    links.Chained before (left ++ right) after ↔
      links.Chained before left (links.head after right) ∧
        links.Chained (links.last before left) right after := by
  induction left generalizing before with
  | nil => simp [Chained]
  | cons page rest ih =>
    rw [cons_append, Chained, Chained, ih, head_append, last_cons]
    simp only [and_assoc]

theorem chained_concat {page : Page} :
    links.Chained before (pages ++ [page]) after ↔ links.Chained before pages (links.id page) ∧
        links.previous page = links.last before pages ∧ links.next page = after := by
  rw [chained_append]
  simp [Chained]

theorem Chained.congr {Other : Type} {others : Links Other} {copies : List Other}
    (same : List.Forall₂ (fun page copy => links.id page = others.id copy ∧
      links.previous page = others.previous copy ∧ links.next page = others.next copy) pages copies)
    (chained : links.Chained before pages after) : others.Chained before copies after := by
  induction same generalizing before with
  | nil => trivial
  | @cons page copy rest copies own others continues =>
    obtain ⟨first, second, third⟩ := chained
    refine ⟨own.2.1 ▸ first, ?_, ?_⟩
    · rw [← own.2.2, second]
      cases others with
      | nil => rfl
      | cons next _ => exact next.1
    · rw [← own.1]
      exact continues third

end Links

end Lavik.Base
