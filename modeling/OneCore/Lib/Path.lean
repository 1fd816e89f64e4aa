/-
# Paths with a separator

A path is a list of letters in which one letter, the separator, ends a segment.  A path `q` is
*below* `p` when it continues `p` after a separator; a path is a *leaf* of a set of paths when
nothing of the set is below it.  Every member of a finite set has a leaf at or below it, which
is what makes it enough to keep the leaves of a set of paths.
-/
import Mathlib

namespace Path

open List

variable {α : Type*}

/-! ### Splitting at the first separator -/

section Split

variable [DecidableEq α]

/-- The parts of a list before and after the first occurrence of `sep`. -/
def splitOnce (sep : α) : List α → Option (List α × List α)
  | [] => none
  | x :: l => if x = sep then some ([], l) else (splitOnce sep l).map fun p => (x :: p.1, p.2)

variable {l a : List α} {sep : α}

lemma splitOnce_append (h : sep ∉ a) (b : List α) : splitOnce sep (a ++ sep :: b) = some (a, b) := by
  induction a with
  | nil => simp [splitOnce]
  | cons x a ih =>
    obtain ⟨hx, ha⟩ := not_or.1 (mem_cons.not.1 h)
    simp [splitOnce, Ne.symm hx, ih ha]

lemma splitOnce_eq_none_iff : splitOnce sep l = none ↔ sep ∉ l := by
  induction l with
  | nil => simp [splitOnce]
  | cons x l ih =>
    by_cases hx : x = sep
    · simp [splitOnce, hx]
    · have hx' : ¬sep = x := fun h => hx h.symm
      simp [splitOnce, hx, hx', ih]

lemma splitOnce_eq_some_iff {b : List α} :
    splitOnce sep l = some (a, b) ↔ l = a ++ sep :: b ∧ sep ∉ a := by
  constructor
  · intro h
    by_cases hmem : sep ∈ l
    · obtain ⟨a', b', rfl, ha'⟩ := eq_append_cons_of_mem hmem
      rw [splitOnce_append ha'] at h
      cases h
      exact ⟨rfl, ha'⟩
    · rw [splitOnce_eq_none_iff.2 hmem] at h
      cases h
  · rintro ⟨rfl, ha⟩
    exact splitOnce_append ha b

end Split

/-! ### The order of paths -/

/-- The path `q` continues the path `p` after a separator. -/
def Below (sep : α) (p q : List α) : Prop := p ++ [sep] <+: q

/-- The path `q` is the path `p` or continues it. -/
def AtOrBelow (sep : α) (p q : List α) : Prop := q = p ∨ Below sep p q

instance [DecidableEq α] (sep : α) (p q : List α) : Decidable (Below sep p q) :=
  inferInstanceAs (Decidable (p ++ [sep] <+: q))

instance [DecidableEq α] (sep : α) (p q : List α) : Decidable (AtOrBelow sep p q) :=
  inferInstanceAs (Decidable (q = p ∨ Below sep p q))

variable {sep : α} {p q : List α}

lemma below_iff : Below sep p q ↔ ∃ r, q = p ++ sep :: r := by
  constructor
  · rintro ⟨r, rfl⟩
    exact ⟨r, by simp⟩
  · rintro ⟨r, rfl⟩
    exact ⟨r, by simp⟩

lemma Below.length_lt (h : Below sep p q) : p.length < q.length := by
  obtain ⟨r, rfl⟩ := below_iff.1 h
  simp

variable {r : List α}

lemma Below.trans (hpq : Below sep p q) (hqr : Below sep q r) : Below sep p r := by
  obtain ⟨s, rfl⟩ := below_iff.1 hpq
  obtain ⟨t, rfl⟩ := below_iff.1 hqr
  exact below_iff.2 ⟨s ++ sep :: t, by simp⟩

lemma AtOrBelow.trans (hpq : AtOrBelow sep p q)
    (hqr : AtOrBelow sep q r) : AtOrBelow sep p r := by
  rcases hpq with rfl | hpq
  · exact hqr
  · rcases hqr with rfl | hqr
    · exact Or.inr hpq
    · exact Or.inr (hpq.trans hqr)

lemma AtOrBelow.below_append (h : AtOrBelow sep (p ++ sep :: q) r) : Below sep p r := by
  have hp : Below sep p (p ++ sep :: q) := below_iff.2 ⟨q, rfl⟩
  rcases h with rfl | h
  · exact hp
  · exact hp.trans h

/-! ### Segments -/

section Segments

variable [DecidableEq α]

/-- No segment has a separator in it. -/
lemma not_mem_of_mem_splitOn {s : List α} (h : s ∈ p.splitOn sep) : sep ∉ s := by
  induction p generalizing s with
  | nil =>
    rw [splitOn_nil, mem_singleton] at h
    rw [h]
    exact not_mem_nil
  | cons x p ih =>
    rw [splitOn_cons_eq_if_modifyHead] at h
    split at h
    · rcases mem_cons.1 h with rfl | h
      · exact not_mem_nil
      · exact ih h
    · next hx =>
      obtain ⟨a, l, hspl⟩ := exists_cons_of_ne_nil (splitOn_ne_nil sep p)
      rw [hspl] at ih h
      rcases mem_cons.1 h with rfl | h
      · intro hmem
        rcases mem_cons.1 hmem with rfl | hmem
        · exact hx (beq_self_eq_true _)
        · exact ih mem_cons_self hmem
      · exact ih (mem_cons_of_mem _ h)

lemma AtOrBelow.splitOn_isPrefix (h : AtOrBelow sep p q) : p.splitOn sep <+: q.splitOn sep := by
  rcases h with rfl | h
  · exact prefix_rfl
  · obtain ⟨r, rfl⟩ := below_iff.1 h
    rw [splitOn_append_cons_self]
    exact prefix_append _ _

omit [DecidableEq α] in
lemma intercalate_append {l l' : List (List α)} (hl : l ≠ []) (hl' : l' ≠ []) :
    [sep].intercalate (l ++ l') = [sep].intercalate l ++ sep :: [sep].intercalate l' := by
  induction l with
  | nil => exact absurd rfl hl
  | cons s l ih =>
    cases l with
    | nil =>
      obtain ⟨s', l', rfl⟩ := exists_cons_of_ne_nil hl'
      simp [intercalate]
    | cons s' l =>
      have ih := ih (cons_ne_nil _ _)
      simp only [intercalate, cons_append, intersperse_cons_cons, flatten_cons,
        append_assoc] at ih ⊢
      rw [ih]

omit [DecidableEq α] in
lemma atOrBelow_intercalate {l l' : List (List α)} (hl : l ≠ []) (h : l <+: l') :
    AtOrBelow sep ([sep].intercalate l) ([sep].intercalate l') := by
  obtain ⟨r, rfl⟩ := h
  cases r with
  | nil =>
    rw [append_nil]
    exact Or.inl rfl
  | cons s r =>
    rw [intercalate_append hl (cons_ne_nil _ _)]
    exact Or.inr (below_iff.2 ⟨_, rfl⟩)

end Segments

/-! ### Leaves -/

/-- A member of `keys` with no other member below it. -/
def IsLeaf (sep : α) (keys : List (List α)) (k : List α) : Prop :=
  k ∈ keys ∧ ∀ k' ∈ keys, ¬Below sep k k'

instance [DecidableEq α] (sep : α) (keys : List (List α)) (k : List α) :
    Decidable (IsLeaf sep keys k) :=
  inferInstanceAs (Decidable (k ∈ keys ∧ ∀ k' ∈ keys, ¬Below sep k k'))

variable {keys : List (List α)}

lemma exists_isLeaf_atOrBelow {k : List α} (hk : k ∈ keys) :
    ∃ l, IsLeaf sep keys l ∧ AtOrBelow sep k l := by
  classical
  let s := keys.toFinset.filter (AtOrBelow sep k)
  have hs : s.Nonempty := ⟨k, by simp [s, hk, AtOrBelow]⟩
  obtain ⟨l, hl, hmax⟩ := s.exists_max_image length hs
  have hl' : l ∈ keys ∧ AtOrBelow sep k l := by simpa [s] using hl
  refine ⟨l, ⟨hl'.1, fun k' hk' hbelow => ?_⟩, hl'.2⟩
  have hmem : k' ∈ s := by
    simpa [s, hk'] using hl'.2.trans (Or.inr hbelow)
  exact absurd hbelow.length_lt (not_lt.2 (hmax k' hmem))

lemma below_append_iff (pre : List α) :
    Below sep (pre ++ sep :: p) (pre ++ sep :: q) ↔ Below sep p q := by
  rw [below_iff, below_iff]
  simp

lemma isLeaf_map_append_iff (pre k : List α) :
    IsLeaf sep (keys.map fun key => pre ++ sep :: key) (pre ++ sep :: k) ↔ IsLeaf sep keys k := by
  have hinj : ∀ a b : List α, pre ++ sep :: a = pre ++ sep :: b → a = b := fun a b h =>
    (cons.inj (append_cancel_left h)).2
  constructor
  · rintro ⟨hmem, hleaf⟩
    obtain ⟨k', hk', heq⟩ := mem_map.1 hmem
    refine ⟨hinj _ _ heq ▸ hk', fun k' hk' hbelow => ?_⟩
    exact hleaf _ (mem_map_of_mem hk') ((below_append_iff pre).2 hbelow)
  · rintro ⟨hmem, hleaf⟩
    refine ⟨mem_map_of_mem hmem, fun k' hk' hbelow => ?_⟩
    obtain ⟨k'', hk'', rfl⟩ := mem_map.1 hk'
    exact hleaf k'' hk'' ((below_append_iff pre).1 hbelow)

end Path
