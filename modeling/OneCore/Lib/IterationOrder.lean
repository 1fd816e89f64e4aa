/-
# Iterating over hash maps

The order in which a hash map is iterated is not determined by its content and may be another
one at each iteration.  A function that iterates over hash maps takes an `IterationOrder`, which
says for each iteration in which order it happens; what holds of the function holds for every
such order.

A search that takes the first entry with some property can be made to take any entry with that
property (`find?_first_bringToFront`).
-/
import Mathlib

lemma List.exists_perm_of_perm_map {α β : Type*} {f : α → β} {l : List α} {l' : List β}
    (h : l'.Perm (l.map f)) : ∃ m : List α, m.Perm l ∧ m.map f = l' := by
  have hforall : List.Forall₂ (fun b a => b = f a) (l.map f) l :=
    List.forall₂_map_left_iff.2 (List.forall₂_same.2 fun _ _ => rfl)
  obtain ⟨m, hm, hperm⟩ := List.perm_comp_forall₂ h hforall
  refine ⟨m, hperm, ?_⟩
  have heq : List.Forall₂ Eq l' (m.map f) := List.forall₂_map_right_iff.2 hm
  rw [List.forall₂_eq_eq_eq] at heq
  exact heq.symm

/-- The orders in which a program's hash maps are iterated, one for each iteration. -/
structure IterationOrder (α : Type*) where
  /-- The entries in the order of the `n`-th iteration. -/
  list : ℕ → List α → List α
  perm : ∀ n l, (list n l).Perm l

namespace IterationOrder

variable {α : Type*}

def first (order : IterationOrder α) (l : List α) : List α := order.list 0 l

def rest (order : IterationOrder α) : IterationOrder α :=
  ⟨fun n => order.list (n + 1), fun n => order.perm (n + 1)⟩

lemma mem_first (order : IterationOrder α) {a : α} {l : List α} : a ∈ order.first l ↔ a ∈ l :=
  (order.perm 0 l).mem_iff

def listed : IterationOrder α := ⟨fun _ l => l, fun _ l => .refl l⟩

/-- The list with the given element, if it has it, in front. -/
def moveToFront [DecidableEq α] (a : α) (l : List α) : List α :=
  if a ∈ l then a :: l.erase a else l

lemma moveToFront_perm [DecidableEq α] (a : α) (l : List α) : (moveToFront a l).Perm l := by
  unfold moveToFront
  by_cases h : a ∈ l
  · rw [if_pos h]
    exact (List.perm_cons_erase h).symm
  · rw [if_neg h]

/-- The next iteration visits the given entry first. -/
def bringToFront [DecidableEq α] (a : α) (order : IterationOrder α) : IterationOrder α where
  list
    | 0 => moveToFront a
    | n + 1 => order.list n
  perm
    | 0 => moveToFront_perm a
    | n + 1 => order.perm n

lemma find?_first_bringToFront [DecidableEq α] {a : α} {l : List α} (order : IterationOrder α)
    {p : α → Bool} (hmem : a ∈ l) (hp : p a = true) :
    ((order.bringToFront a).first l).find? p = some a := by
  have hfst : (order.bringToFront a).first l = a :: l.erase a := if_pos hmem
  rw [hfst, List.find?_cons_of_pos hp]

end IterationOrder
