/-
# Runs of a labelled transition relation

A run is a list of transitions, each starting where the one before it ended.  The transitions
carry their source and target, so a condition on what may happen in which state is a condition
on the members of the list.  What every allowed transition preserves, a whole run preserves.
-/
import Mathlib

/-- One step of a system: the state before, what happened, the state after. -/
structure Transition (σ ℓ : Type*) where
  src : σ
  label : ℓ
  dst : σ

/-- `Run step s tr s'`: the transitions of `tr`, one after the other, lead from `s` to `s'`. -/
inductive Run {σ ℓ : Type*} (step : σ → ℓ → σ → Prop) : σ → List (Transition σ ℓ) → σ → Prop
  | refl (s : σ) : Run step s [] s
  | cons {s s' s'' : σ} {l : ℓ} {tr : List (Transition σ ℓ)} :
      step s l s' → Run step s' tr s'' → Run step s (⟨s, l, s'⟩ :: tr) s''

namespace Run

open List

variable {σ ℓ : Type*} {step : σ → ℓ → σ → Prop} {s s' s'' : σ} {tr tr' : List (Transition σ ℓ)}
  {t : Transition σ ℓ}

lemma cons_iff :
    Run step s (t :: tr) s' ↔ t.src = s ∧ step s t.label t.dst ∧ Run step t.dst tr s' := by
  constructor
  · intro h
    cases h with
    | cons hstep hrun => exact ⟨rfl, hstep, hrun⟩
  · rintro ⟨rfl, hstep, hrun⟩
    exact .cons hstep hrun

lemma step_of_mem (h : Run step s tr s') (ht : t ∈ tr) : step t.src t.label t.dst := by
  induction h with
  | refl s => exact absurd ht not_mem_nil
  | cons hstep _ ih =>
    rcases mem_cons.1 ht with rfl | ht
    · exact hstep
    · exact ih ht

lemma preserves {P : σ → Prop} (h : Run step s tr s')
    (hP : ∀ t ∈ tr, step t.src t.label t.dst → P t.src → P t.dst) (hs : P s) : P s' := by
  induction h with
  | refl s => exact hs
  | cons hstep _ ih =>
    refine ih (fun t ht => hP t (mem_cons_of_mem _ ht)) ?_
    exact hP _ mem_cons_self hstep hs

lemma append (h : Run step s tr s') (h' : Run step s' tr' s'') : Run step s (tr ++ tr') s'' := by
  induction h with
  | refl s => exact h'
  | cons hstep _ ih => exact .cons hstep (ih h')

lemma exists_of_append (h : Run step s (tr ++ tr') s'') :
    ∃ m, Run step s tr m ∧ Run step m tr' s'' := by
  induction tr generalizing s with
  | nil => exact ⟨s, .refl s, h⟩
  | cons t tr ih =>
    obtain ⟨rfl, hstep, hrun⟩ := cons_iff.1 h
    obtain ⟨m, h₁, h₂⟩ := ih hrun
    exact ⟨m, cons_iff.2 ⟨rfl, hstep, h₁⟩, h₂⟩

/-- What holds of the history and the state at the start and is kept by each transition holds at the
end.  A transition is met with the part of the run before it. -/
lemma history {P : List (Transition σ ℓ) → σ → Prop} (h : Run step s tr s') (hs : P [] s)
    (hP : ∀ pre t, pre ++ [t] <+: tr → step t.src t.label t.dst → P pre t.src →
      P (pre ++ [t]) t.dst) : P tr s' := by
  induction h generalizing P with
  | refl s => exact hs
  | @cons s m s' l tr hstep _ ih =>
    have hfst : P [⟨s, l, m⟩] m := hP [] ⟨s, l, m⟩ (by simp) hstep hs
    refine ih (P := fun pre => P (⟨s, l, m⟩ :: pre)) hfst fun pre t hpre hstep' hpre' => ?_
    exact hP (⟨s, l, m⟩ :: pre) t (cons_prefix_cons.2 ⟨rfl, hpre⟩) hstep' hpre'

variable {t : Transition σ ℓ}

lemma concat (h : Run step s tr t.src) (hstep : step t.src t.label t.dst) :
    Run step s (tr ++ [t]) t.dst :=
  h.append (cons_iff.2 ⟨rfl, hstep, .refl _⟩)

lemma of_append_cons (h : Run step s (tr ++ t :: tr') s') :
    Run step s tr t.src ∧ step t.src t.label t.dst ∧ Run step t.dst tr' s' := by
  obtain ⟨m, hbef, hrest⟩ := exists_of_append h
  obtain ⟨rfl, hstep, haft⟩ := cons_iff.1 hrest
  exact ⟨hbef, hstep, haft⟩

lemma of_append_singleton (h : Run step s tr s') (hpre : tr' ++ [t] <+: tr) :
    Run step s tr' t.src ∧ step t.src t.label t.dst := by
  obtain ⟨post, rfl⟩ := hpre
  rw [append_assoc] at h
  obtain ⟨hbef, hstep, -⟩ := of_append_cons h
  exact ⟨hbef, hstep⟩

lemma split_of_mem (h : Run step s tr s') (ht : t ∈ tr) :
    ∃ before after, tr = before ++ t :: after ∧ Run step s before t.src ∧
      step t.src t.label t.dst ∧ Run step t.dst after s' := by
  obtain ⟨before, after, rfl⟩ := append_of_mem ht
  exact ⟨before, after, rfl, of_append_cons h⟩

end Run

variable {α : Type*}

lemma List.pairwise_of_forall_before {R : α → α → Prop} {l : List α}
    (h : ∀ pre a, pre ++ [a] <+: l → ∀ b ∈ pre, R b a) : l.Pairwise R := by
  induction l using reverseRecOn with
  | nil => exact Pairwise.nil
  | append_singleton l a ih =>
    refine pairwise_append.2 ⟨ih fun pre b hpre => h pre b ?_, pairwise_singleton R a, ?_⟩
    · exact hpre.trans (prefix_append l [a])
    · intro b hb a' ha'
      obtain rfl := mem_singleton.1 ha'
      exact h l a' (prefix_refl _) b hb

lemma List.exists_before_of_mem {l : List α} {a : α} (h : a ∈ l) :
    ∃ before, before ++ [a] <+: l := by
  obtain ⟨before, after, rfl⟩ := append_of_mem h
  exact ⟨before, after, by simp⟩

/-! ### Since -/

/-- `P` has happened in the list, and `Q` has not happened since. -/
def Since (P Q : α → Prop) (l : List α) : Prop :=
  ∃ before a after, l = before ++ a :: after ∧ P a ∧ ∀ b ∈ after, ¬Q b

namespace Since

variable {P Q : α → Prop} {l l' : List α}

lemma not_nil : ¬Since P Q [] := by
  rintro ⟨before, a, after, h, -⟩
  exact absurd h.symm (by simp)

/-- The last element is what began it, or it goes on. -/
lemma append_singleton_iff {t : α} : Since P Q (l ++ [t]) ↔ P t ∨ ¬Q t ∧ Since P Q l := by
  constructor
  · rintro ⟨before, a, after, heq, hP, hQ⟩
    rcases List.eq_nil_or_concat after with rfl | ⟨after, b, rfl⟩
    · obtain ⟨-, h⟩ := List.append_inj' heq rfl
      obtain rfl := (List.cons.inj h).1
      exact .inl hP
    · rw [List.concat_eq_append] at heq hQ
      rw [← List.cons_append, ← List.append_assoc] at heq
      obtain ⟨rfl, h⟩ := List.append_inj' heq rfl
      obtain rfl := (List.cons.inj h).1
      refine .inr ⟨hQ t (by simp), before, a, after, rfl, hP, fun c hc => hQ c ?_⟩
      exact List.mem_append_left _ hc
  · rintro (hP | ⟨hQ, before, a, after, rfl, hP, haft⟩)
    · exact ⟨l, t, [], rfl, hP, fun b hb => absurd hb List.not_mem_nil⟩
    · refine ⟨before, a, after ++ [t], by simp, hP, fun b hb => ?_⟩
      rcases List.mem_append.1 hb with hb | hb
      · exact haft b hb
      · exact List.mem_singleton.1 hb ▸ hQ

lemma of_mem {a : α} (ha : a ∈ l) (hP : P a) : Since P P l := by
  induction l using List.reverseRecOn with
  | nil => exact absurd ha List.not_mem_nil
  | append_singleton l t ih =>
    rw [append_singleton_iff]
    by_cases ht : P t
    · exact .inl ht
    · rcases List.mem_append.1 ha with ha | ha
      · exact .inr ⟨ht, ih ha⟩
      · exact absurd (List.mem_singleton.1 ha ▸ hP) ht

lemma of_append (hP : ∀ a ∈ l', ¬P a) (h : Since P Q (l ++ l')) : Since P Q l := by
  induction l' using List.reverseRecOn with
  | nil => simpa using h
  | append_singleton l' t ih =>
    rw [← List.append_assoc, append_singleton_iff] at h
    rcases h with h | ⟨-, h⟩
    · exact absurd h (hP t (by simp))
    · exact ih (fun a ha => hP a (by simp [ha])) h

end Since
