/-
# Results of fallible routines

Every fallible routine returns an `Except`.  A routine that is written with `do` is a chain
of binds, so all there is to know about a successful call is found by peeling the binds off
one by one.  This file has the inversion lemmas for that: one for each way a routine can stop
early, and one for each kind of loop over a list.
-/
import Mathlib

universe u v

/-- How a routine ends without a result: with an error that it returns, or in a panic. -/
inductive Fault (ε : Type u) where
  | error (e : ε)
  | panic (message : String)
deriving DecidableEq

def Fault.map {ε : Type u} {ε' : Type v} (f : ε → ε') : Fault ε → Fault ε'
  | .error e => .error (f e)
  | .panic message => .panic message

/-! ### The elements behind a collecting loop -/

namespace List.Forall₂

variable {α β : Type*} {R : α → β → Prop} {l₁ : List α} {l₂ : List β}

lemma exists_of_mem_left (h : Forall₂ R l₁ l₂) {a : α} (ha : a ∈ l₁) : ∃ b ∈ l₂, R a b := by
  induction h with
  | nil => simp at ha
  | cons hab _ ih =>
    rcases mem_cons.1 ha with rfl | ha
    · exact ⟨_, mem_cons_self, hab⟩
    · obtain ⟨b, hb, hab⟩ := ih ha
      exact ⟨b, mem_cons_of_mem _ hb, hab⟩

variable {b : β}

lemma exists_of_mem_right (h : Forall₂ R l₁ l₂) (hb : b ∈ l₂) :
    ∃ a ∈ l₁, R a b := h.flip.exists_of_mem_left hb

lemma exists_of_forall {l : List α} (h : ∀ a ∈ l, ∃ b, R a b) : ∃ l₂, Forall₂ R l l₂ := by
  induction l with
  | nil => exact ⟨[], .nil⟩
  | cons a l ih =>
    obtain ⟨⟨b, hb⟩, hl⟩ := forall_mem_cons.1 h
    obtain ⟨l₂, hl₂⟩ := ih hl
    exact ⟨b :: l₂, .cons hb hl₂⟩

lemma exists_head? (h : Forall₂ R l₁ l₂) (hb : l₂.head? = some b) :
    ∃ a, l₁.head? = some a ∧ R a b := by
  cases h with
  | nil => cases hb
  | cons hab _ =>
    cases hb
    exact ⟨_, rfl, hab⟩

lemma exists_getLast? (h : Forall₂ R l₁ l₂) (hb : l₂.getLast? = some b) :
    ∃ a, l₁.getLast? = some a ∧ R a b := by
  rw [← head?_reverse] at hb ⊢
  exact (forall₂_reverse_iff.2 h).exists_head? hb

end List.Forall₂

namespace Except

open List

variable {ε : Type u} {α β γ : Type v}

/-! ### Straight-line code -/

variable {x : Except ε α} {a : α} {b : β} {o : Option α} {e : ε} {c : Prop} {u : PUnit.{v + 1}}
  {f : α → Except ε (List β)}

lemma ok_unique {b : α} (h : x = .ok a) (h' : x = .ok b) : a = b :=
  ok.inj (h.symm.trans h')

lemma bind_eq_ok {f : α → Except ε β} : (x >>= f) = .ok b ↔ ∃ a, x = .ok a ∧ f a = .ok b := by
  cases x with
  | error e => simp [bind, Except.bind]
  | ok a => simp [bind, Except.bind]

lemma ok_bind (a : α) (f : α → Except ε β) : (Except.ok a >>= f) = f a := rfl

variable {ε' : Type u}

lemma mapError_ok (f : ε → ε') (a : α) : (Except.ok a).mapError f = .ok a := rfl

lemma exists_unit_iff {p : PUnit.{v + 1} → Prop} : (∃ u, p u) ↔ p ⟨⟩ :=
  Unique.exists_iff

lemma pure_eq_ok {b : α} : (pure a : Except ε α) = .ok b ↔ a = b := by
  simp [pure, Except.pure]

lemma map_eq_ok {f : α → β} : x.map f = .ok b ↔ ∃ a, x = .ok a ∧ f a = b := by
  cases x with
  | error e => simp [Except.map]
  | ok a => simp [Except.map]

lemma mapError_eq_ok {f : ε → ε'} : x.mapError f = .ok a ↔ x = .ok a := by
  cases x with
  | error e => simp [Except.mapError]
  | ok a' => simp [Except.mapError]

/-- The value of an option, or the given error. -/
def okOr (o : Option α) (e : ε) : Except ε α :=
  match o with
  | some a => .ok a
  | none => .error e

@[simp] lemma okOr_eq_ok : okOr o e = .ok a ↔ o = some a := by
  cases o with
  | none => simp [okOr]
  | some b => simp [okOr]

/-- An early return with the error `e` unless the condition holds. -/
def ensure (c : Prop) [Decidable c] (e : ε) : Except ε PUnit.{v + 1} :=
  if c then .ok ⟨⟩ else .error e

@[simp] lemma ensure_eq_ok [Decidable c] : ensure c e = .ok u ↔ c := by
  unfold ensure
  by_cases h : c
  · simp [h]
  · simp [h]

lemma ensure_of_pos [Decidable c] (h : c) (e : ε) :
    (ensure c e : Except ε PUnit.{v + 1}) = .ok ⟨⟩ := if_pos h

lemma ensure_congr {d : Prop} [Decidable c] [Decidable d] (h : c ↔ d) (e : ε) :
    ensure c e = ensure d e := by
  unfold ensure
  by_cases hc : c
  · rw [if_pos hc, if_pos (h.1 hc)]
  · rw [if_neg hc, if_neg fun hd => hc (h.2 hd)]

/-- The rules for the steps of straight-line code, as one. -/
lemma ok_iffs :
    (∀ {α β : Type v} {x : Except ε α} {f : α → Except ε β} {b : β},
      (x >>= f) = .ok b ↔ ∃ a, x = .ok a ∧ f a = .ok b) ∧
    (∀ {α : Type v} {a b : α}, (pure a : Except ε α) = .ok b ↔ a = b) ∧
    (∀ {ε' : Type u} {α : Type v} {x : Except ε α} {f : ε → ε'} {a : α},
      x.mapError f = .ok a ↔ x = .ok a) ∧
    (∀ {α : Type v} {o : Option α} {e : ε} {a : α}, okOr o e = .ok a ↔ o = some a) ∧
    ∀ {c : Prop} [Decidable c] {e : ε} {u : PUnit.{v + 1}}, ensure c e = .ok u ↔ c :=
  ⟨bind_eq_ok, pure_eq_ok, mapError_eq_ok, okOr_eq_ok, ensure_eq_ok⟩

/-- A check that is made only under a condition. -/
def checkIf (c : Bool) (x : Except ε PUnit.{v + 1}) : Except ε PUnit.{v + 1} :=
  if c then x else .ok ⟨⟩

@[simp] lemma checkIf_eq_ok {c : Bool} {x : Except ε PUnit.{v + 1}} :
    checkIf c x = .ok u ↔ (c = true → x = .ok ⟨⟩) := by
  cases c with
  | false => simp [checkIf]
  | true => simp [checkIf]

/-! ### Failures -/

lemma bind_eq_error_iff {f : α → Except ε β} :
    (x >>= f) = .error e ↔ x = .error e ∨ ∃ a, x = .ok a ∧ f a = .error e := by
  cases x with
  | error e' => simp [bind, Except.bind]
  | ok a => simp [bind, Except.bind]

lemma pure_eq_error_iff : (pure a : Except ε α) = .error e ↔ False := by
  simp [pure, Except.pure]

lemma mapError_eq_error_iff {f : ε → ε'} {e' : ε'} :
    x.mapError f = .error e' ↔ ∃ e, x = .error e ∧ f e = e' := by
  cases x with
  | error e => simp [Except.mapError]
  | ok a => simp [Except.mapError]

lemma okOr_eq_error_iff {e' : ε} : okOr o e = .error e' ↔ o = none ∧ e = e' := by
  cases o with
  | none => simp [okOr]
  | some a => simp [okOr]

lemma ensure_eq_error_iff [Decidable c] {e' : ε} :
    (ensure c e : Except ε PUnit.{v + 1}) = .error e' ↔ ¬c ∧ e = e' := by
  unfold ensure
  by_cases h : c
  · simp [h]
  · simp [h]

/-- A success whose value passes a test. -/
def okAnd (x : Except ε α) (p : α → Bool) : Bool :=
  match x with
  | .ok a => p a
  | .error _ => false

lemma okAnd_eq_true_iff {p : α → Bool} : okAnd x p = true ↔ ∃ a, x = .ok a ∧ p a = true := by
  cases x with
  | error e => simp [okAnd]
  | ok a => simp [okAnd]

instance decidableExistsOk {p : α → Prop} [DecidablePred p] : Decidable (∃ a, x = .ok a ∧ p a) :=
  decidable_of_iff (okAnd x (fun a => decide (p a)) = true) (by simp [okAnd_eq_true_iff])

/-! ### Loops -/

variable {l : List α}

lemma forM_eq_ok {f : α → Except ε PUnit} : forM l f = .ok ⟨⟩ ↔ ∀ a ∈ l, f a = .ok ⟨⟩ := by
  induction l with
  | nil => simp [pure_eq_ok]
  | cons a l ih =>
    rw [forM_cons, bind_eq_ok]
    constructor
    · rintro ⟨⟨⟩, ha, hl⟩ b hb
      rcases mem_cons.1 hb with rfl | hb
      · exact ha
      · exact ih.1 hl b hb
    · intro h
      exact ⟨⟨⟩, h a (by simp), ih.2 fun b hb => h b (by simp [hb])⟩

variable {bs : List β}

/-- A loop that collects one result for each element succeeds exactly when every element has
a result, and then it returns the results in order. -/
lemma mapM_eq_ok {f : α → Except ε β} :
    l.mapM f = .ok bs ↔ Forall₂ (fun a b => f a = .ok b) l bs := by
  induction l generalizing bs with
  | nil =>
    rw [mapM_nil, pure_eq_ok, forall₂_nil_left_iff]
    exact eq_comm
  | cons a l ih =>
    rw [mapM_cons, bind_eq_ok]
    constructor
    · rintro ⟨b, hb, h⟩
      obtain ⟨bs', hbs', h⟩ := bind_eq_ok.1 h
      obtain rfl := pure_eq_ok.1 h
      exact .cons hb (ih.1 hbs')
    · rintro (_ | ⟨hb, hbs⟩)
      exact ⟨_, hb, bind_eq_ok.2 ⟨_, ih.2 hbs, rfl⟩⟩

lemma mapM_eq_ok_self {f : α → Except ε α} (h : ∀ a ∈ l, f a = .ok a) : l.mapM f = .ok l :=
  mapM_eq_ok.2 (forall₂_same.2 h)

/-- A loop that appends the results of each element to one list. -/
def flatMapM (l : List α) (f : α → Except ε (List β)) : Except ε (List β) :=
  (l.mapM f).map flatten

lemma flatMapM_eq_ok :
    flatMapM l f = .ok bs ↔
      ∃ bss, Forall₂ (fun a b => f a = .ok b) l bss ∧ bss.flatten = bs := by
  simp [flatMapM, map_eq_ok, mapM_eq_ok]

lemma flatMapM_eq_ok_of_forall {g : α → List β}
    (h : ∀ a ∈ l, f a = .ok (g a)) : flatMapM l f = .ok (l.flatMap g) := by
  have hmap : l.mapM f = .ok (l.map g) := mapM_eq_ok.2 (forall₂_map_right_iff.2 (forall₂_same.2 h))
  rw [flatMapM, hmap]
  rfl

lemma flatMapM_map (g : γ → α) (l : List γ) :
    flatMapM (l.map g) f = flatMapM l fun c => f (g c) := by
  rw [flatMapM, mapM_map]
  rfl

lemma flatMapM_cons :
    flatMapM (a :: l) f = do return (← f a) ++ (← flatMapM l f) := by
  rw [flatMapM, flatMapM, mapM_cons]
  cases f a with
  | error e => rfl
  | ok bs => cases l.mapM f <;> rfl

/-- Elements that are left out make no difference. -/
lemma flatMapM_filterMap (g : γ → Option α) (l : List γ) :
    flatMapM (l.filterMap g) f = flatMapM l fun c => (g c).elim (.ok []) f := by
  induction l with
  | nil => rfl
  | cons c l ih =>
    rw [flatMapM_cons, ← ih, filterMap_cons]
    cases g c with
    | none => cases flatMapM (l.filterMap g) f <;> rfl
    | some a => exact flatMapM_cons

lemma exists_of_flatMapM_eq_ok (h : flatMapM l f = .ok bs) (ha : a ∈ l) : ∃ bs', f a = .ok bs' := by
  obtain ⟨bss, hall, -⟩ := flatMapM_eq_ok.1 h
  obtain ⟨bs', -, hbs'⟩ := hall.exists_of_mem_left ha
  exact ⟨bs', hbs'⟩

lemma mem_of_flatMapM_eq_ok (h : flatMapM l f = .ok bs) :
    b ∈ bs ↔ ∃ a ∈ l, ∃ bs', f a = .ok bs' ∧ b ∈ bs' := by
  obtain ⟨bss, hall, rfl⟩ := flatMapM_eq_ok.1 h
  clear h
  induction hall with
  | nil => simp
  | @cons a bs₁ l bss ha _ ih =>
    simp [ih, ha]

/-- The loop rule: what holds before a loop and is kept by each of its rounds holds when the
loop is done. -/
lemma foldlM_invariant {f : β → α → Except ε β} {P : β → Prop} {b' : β} (h : l.foldlM f b = .ok b')
    (hb : P b) (hstep : ∀ b a b', a ∈ l → P b → f b a = .ok b' → P b') : P b' := by
  induction l generalizing b with
  | nil =>
    rwa [← pure_eq_ok.1 h]
  | cons a l ih =>
    obtain ⟨c, hc, h⟩ := bind_eq_ok.1 h
    exact ih h (hstep b a c mem_cons_self hb hc)
      fun b a b' ha => hstep b a b' (mem_cons_of_mem _ ha)

/-! ### Panics -/

/-- The routine does not panic. -/
def Survives (x : Except (Fault ε) α) : Prop := ∀ message, x ≠ .error (.panic message)

namespace Survives

lemma ok (a : α) : Survives (.ok a : Except (Fault ε) α) := nofun

variable {f : α → Except (Fault ε) β}

lemma bind {x : Except (Fault ε) α} (hx : Survives x)
    (hf : ∀ a, x = .ok a → Survives (f a)) : Survives (x >>= f) := by
  cases x with
  | error e => exact fun m h => hx m (congrArg error (error.inj h))
  | ok a => exact hf a rfl

lemma mapError (x : Except ε α) : Survives (x.mapError .error) := by
  cases x <;> exact nofun

lemma ensure (p : Prop) [Decidable p] (e : ε) : Survives (ensure p (.error e)) := by
  by_cases h : p <;> simp [Survives, Except.ensure, h]

lemma mapM (h : ∀ a, Survives (f a)) (l : List α) :
    Survives (l.mapM f) := by
  induction l with
  | nil => exact .ok _
  | cons a l ih =>
    rw [mapM_cons]
    exact (h a).bind fun _ _ => ih.bind fun _ _ => .ok _

end Survives

end Except

export Except (ok_unique ok_iffs bind_eq_ok exists_unit_iff pure_eq_ok mapError_eq_ok okOr okOr_eq_ok ensure
  ensure_eq_ok mapM_eq_ok forM_eq_ok)
export Option (mem_unique)
