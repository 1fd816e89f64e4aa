/-
# Cutting a list into pieces

A message that is longer than what can be sent at once is cut into pieces of a fixed size, the
last of which may be shorter.
-/
import Mathlib

namespace List

variable {α : Type*} {n : ℕ} {xs c : List α}

/-- The pieces of `n` elements of a list, where `n` is positive. -/
def chunks (n : ℕ) (xs : List α) : List (List α) := (xs.toChunksAux (n - 1) 0).2

lemma toChunksAux_append (n : ℕ) (xs : List α) (i : ℕ) :
    (xs.toChunksAux n i).1 ++ (xs.toChunksAux n i).2.flatten = xs := by
  induction xs generalizing i with
  | nil => rfl
  | cons x xs ih => cases i <;> simp [toChunksAux, ih]

lemma length_toChunksAux_le (i : ℕ) :
    (xs.toChunksAux n i).1.length ≤ i ∧ ∀ c ∈ (xs.toChunksAux n i).2, c.length ≤ n + 1 := by
  induction xs generalizing i with
  | nil => simp [toChunksAux]
  | cons x xs ih =>
    cases i with
    | zero => simpa [toChunksAux] using ih n
    | succ i => simpa [toChunksAux] using ih i

@[simp]
lemma flatten_chunks : (xs.chunks n).flatten = xs := by
  have h := toChunksAux_append (n - 1) xs 0
  rwa [length_eq_zero_iff.1 (Nat.le_zero.1 (length_toChunksAux_le 0).1)] at h

lemma length_le_of_mem_chunks (hn : 0 < n) (hc : c ∈ xs.chunks n) : c.length ≤ n := by
  have h := (length_toChunksAux_le 0).2 c hc
  omega

lemma chunks_ne_nil (h : xs ≠ []) : xs.chunks n ≠ [] := by
  intro hc
  have hx : (xs.chunks n).flatten = xs := flatten_chunks
  rw [hc] at hx
  exact h hx.symm

end List
