/-
# Maps that remember the order of insertion

An `IndexMap` is a list of entries in which no key occurs twice.  Writing to a key that is
present changes its value in place; writing to a new key appends an entry.  Iteration is in the
order of the list, so a lookup and an iteration always agree on the value of a key.
-/
import Mathlib

/-- A map from `κ` to `ν` whose entries are kept in the order in which the keys came in. -/
@[ext] structure IndexMap (κ ν : Type*) where
  /-- The entries, in the order of iteration. -/
  entries : List (κ × ν)
  /-- No key has two entries. -/
  nodup : (entries.map Prod.fst).Nodup

namespace IndexMap

open List Option

variable {κ ν : Type*}

instance [DecidableEq κ] [DecidableEq ν] : DecidableEq (IndexMap κ ν) := fun m n =>
  decidable_of_iff (m.entries = n.entries) IndexMap.ext_iff.symm

def empty : IndexMap κ ν := ⟨[], nodup_nil⟩

def keys (m : IndexMap κ ν) : List κ := m.entries.map Prod.fst

variable {m : IndexMap κ ν} {k : κ}

lemma mem_keys_iff : k ∈ m.keys ↔ ∃ v, (k, v) ∈ m.entries := by
  simp [keys]

variable {w : ν}

lemma value_unique {v : ν} (hv : (k, v) ∈ m.entries) (hw : (k, w) ∈ m.entries) : v = w :=
  congrArg Prod.snd (inj_on_of_nodup_map m.nodup hv hw rfl)

/-! ### Lookup -/

section Lookup

variable [DecidableEq κ]

def get? (m : IndexMap κ ν) (k : κ) : Option ν :=
  (m.entries.find? fun e => e.1 = k).map Prod.snd

@[simp] lemma get?_empty (k : κ) : (empty : IndexMap κ ν).get? k = none := rfl

lemma get?_eq_some_iff {v : ν} : m.get? k = some v ↔ (k, v) ∈ m.entries := by
  constructor
  · intro h
    obtain ⟨e, he, rfl⟩ := map_eq_some_iff.1 h
    have hk : e.1 = k := by simpa using find?_some he
    exact hk ▸ mem_of_find?_eq_some he
  · intro h
    cases hf : m.entries.find? fun e => e.1 = k with
    | none =>
      exact absurd (find?_eq_none.1 hf _ h) (by simp)
    | some e =>
      have hk : e.1 = k := by simpa using find?_some hf
      have he : (k, e.2) ∈ m.entries := hk ▸ mem_of_find?_eq_some hf
      rw [get?, hf, map_some, value_unique he h]

lemma get?_eq_none_iff : m.get? k = none ↔ k ∉ m.keys := by
  rw [mem_keys_iff, eq_none_iff_forall_ne_some]
  simp [get?_eq_some_iff]

end Lookup

/-! ### Writing one key -/

section Upsert

variable [DecidableEq κ]

/-- The entries after the value `f o` has been written to the key `k`, where `o` is the value
the key had before. -/
def upsertEntries (k : κ) (f : Option ν → ν) : List (κ × ν) → List (κ × ν)
  | [] => [(k, f none)]
  | (k', v) :: l => if k' = k then (k', f (some v)) :: l else (k', v) :: upsertEntries k f l

lemma map_fst_upsertEntries (f : Option ν → ν) (l : List (κ × ν)) :
    (upsertEntries k f l).map Prod.fst =
      if k ∈ l.map Prod.fst then l.map Prod.fst else l.map Prod.fst ++ [k] := by
  induction l with
  | nil => rfl
  | cons e l ih =>
    obtain ⟨k', v⟩ := e
    by_cases h : k' = k
    · simp [upsertEntries, h]
    · have h' : k ≠ k' := fun hk => h hk.symm
      simp only [upsertEntries, if_neg h, map_cons, ih, mem_cons, h', false_or]
      split <;> rfl

variable {l : List (κ × ν)}

/-- After a write an entry is the written one or was there before. -/
lemma mem_upsertEntries {f : Option ν → ν} {e : κ × ν}
    (h : e ∈ upsertEntries k f l) : (∃ o, e = (k, f o)) ∨ e ∈ l := by
  induction l with
  | nil => exact Or.inl ⟨none, by simpa [upsertEntries] using h⟩
  | cons x l ih =>
    obtain ⟨k', v⟩ := x
    simp only [upsertEntries] at h
    split at h
    · rename_i hk
      rcases mem_cons.1 h with h | h
      · exact Or.inl ⟨some v, hk ▸ h⟩
      · exact Or.inr (mem_cons_of_mem _ h)
    · rcases mem_cons.1 h with h | h
      · exact Or.inr (h ▸ mem_cons_self)
      · exact (ih h).imp id (mem_cons_of_mem _)

/-- Write to the key `k` a value that may depend on the one it had. -/
def upsert (m : IndexMap κ ν) (k : κ) (f : Option ν → ν) : IndexMap κ ν where
  entries := upsertEntries k f m.entries
  nodup := by
    rw [map_fst_upsertEntries]
    split
    · exact m.nodup
    · rename_i h
      exact nodup_append.2 ⟨m.nodup, nodup_singleton k,
        fun a ha b hb hab => h (by simp_all)⟩

lemma upsertEntries_of_not_mem (f : Option ν → ν)
    (h : k ∉ l.map Prod.fst) : upsertEntries k f l = l ++ [(k, f none)] := by
  induction l with
  | nil => rfl
  | cons e l ih =>
    obtain ⟨hne, hl⟩ := not_or.1 (mem_cons.not.1 h)
    rw [upsertEntries, if_neg fun heq => hne heq.symm, ih hl, cons_append]

def insert (m : IndexMap κ ν) (k : κ) (v : ν) : IndexMap κ ν := m.upsert k fun _ => v

lemma find?_upsertEntries (k k' : κ) (f : Option ν → ν) (l : List (κ × ν)) :
    ((upsertEntries k f l).find? fun e => e.1 = k').map Prod.snd =
      if k' = k then some (f ((l.find? fun e => e.1 = k).map Prod.snd))
      else (l.find? fun e => e.1 = k').map Prod.snd := by
  induction l with
  | nil =>
    by_cases h : k' = k
    · simp [upsertEntries, h]
    · have h' : ¬k = k' := fun hk => h hk.symm
      simp [upsertEntries, h, h']
  | cons e l ih =>
    obtain ⟨a, v⟩ := e
    by_cases ha : a = k
    · subst ha
      by_cases h : k' = a
      · subst h
        simp [upsertEntries]
      · have h' : ¬a = k' := fun hk => h hk.symm
        simp [upsertEntries, h, h']
    · by_cases h : a = k'
      · subst h
        simp [upsertEntries, ha]
      · simpa [upsertEntries, ha, h] using ih

lemma get?_upsert (m : IndexMap κ ν) (k k' : κ) (f : Option ν → ν) :
    (m.upsert k f).get? k' = if k' = k then some (f (m.get? k)) else m.get? k' :=
  find?_upsertEntries k k' f m.entries

lemma get?_insert (m : IndexMap κ ν) (k k' : κ) (v : ν) :
    (m.insert k v).get? k' = if k' = k then some v else m.get? k' :=
  get?_upsert m k k' _

variable {α : Type*} {l : List α}

lemma get?_foldl_upsert_of_not_mem (key : α → κ) (f : α → Option ν → ν) (hnot : k ∉ l.map key)
    (m : IndexMap κ ν) : (l.foldl (fun m a => m.upsert (key a) (f a)) m).get? k = m.get? k := by
  induction l generalizing m with
  | nil => rfl
  | cons b l ih =>
    obtain ⟨hne, hnot⟩ := not_or.1 (mem_cons.not.1 hnot)
    rw [foldl_cons, ih hnot, get?_upsert, if_neg hne]

lemma get?_foldl_upsert_of_nodup (key : α → κ) (f : α → Option ν → ν) (hnd : (l.map key).Nodup)
    (m : IndexMap κ ν) {a : α} (ha : a ∈ l) :
    (l.foldl (fun m a => m.upsert (key a) (f a)) m).get? (key a) = some (f a (m.get? (key a))) := by
  induction l generalizing m with
  | nil => cases ha
  | cons b l ih =>
    obtain ⟨hb, hnd⟩ := nodup_cons.1 hnd
    rw [foldl_cons]
    rcases mem_cons.1 ha with rfl | ha
    · rw [get?_foldl_upsert_of_not_mem key f hb, get?_upsert, if_pos rfl]
    · have hne : key a ≠ key b := fun heq => hb (heq ▸ mem_map_of_mem ha)
      rw [ih hnd _ ha, get?_upsert, if_neg hne]

/-- Collect the elements of a list under their keys, each key with its elements in order. -/
def groupBy {α : Type*} (key : α → κ) (l : List α) : IndexMap κ (List α) :=
  l.foldl (fun m a => m.upsert (key a) fun old => old.getD [] ++ [a]) empty

lemma get?_foldl_upsert (key : α → κ) (m : IndexMap κ (List α)) :
    (l.foldl (fun m a => m.upsert (key a) fun old => old.getD [] ++ [a]) m).get? k =
      if (l.filter fun a => key a = k) = [] then m.get? k
      else some ((m.get? k).getD [] ++ l.filter fun a => key a = k) := by
  induction l generalizing m with
  | nil => simp
  | cons a l ih =>
    rw [foldl_cons, ih, get?_upsert]
    by_cases hk : key a = k
    · subst hk
      by_cases hl : (l.filter fun b => key b = key a) = []
      · simp [hl]
      · simp [hl]
    · have hk' : ¬k = key a := fun h => hk h.symm
      simp [hk, hk']

/-- The elements under a key are those of the list that have it. -/
lemma get?_groupBy_eq_some_iff {key : α → κ} {group : List α} :
    (groupBy key l).get? k = some group ↔
      group = (l.filter fun a => key a = k) ∧ group ≠ [] := by
  rw [groupBy, get?_foldl_upsert, get?_empty, getD_none]
  by_cases h : (l.filter fun a => key a = k) = []
  · rw [if_pos h]
    constructor
    · rintro ⟨⟩
    · rintro ⟨rfl, hne⟩
      exact absurd h hne
  · rw [if_neg h, some.injEq]
    constructor
    · rintro rfl
      exact ⟨rfl, h⟩
    · rintro ⟨rfl, -⟩
      rfl

end Upsert

/-! ### Filtering -/

/-- Walk over the entries, replacing each value or dropping its entry. -/
def retain (m : IndexMap κ ν) (f : κ → ν → Option ν) : IndexMap κ ν where
  entries := m.entries.filterMap fun e => (f e.1 e.2).map (e.1, ·)
  nodup := by
    have hsub : ((m.entries.filterMap fun e => (f e.1 e.2).map (e.1, ·)).map Prod.fst).Sublist
        (m.entries.map Prod.fst) := by
      induction m.entries with
      | nil => simp
      | cons e l ih =>
        rw [filterMap_cons]
        cases h : f e.1 e.2 with
        | none => simpa [h] using ih.cons e.1
        | some w => simpa [h] using ih
    exact m.nodup.sublist hsub

variable {f : κ → ν → Option ν}

lemma mem_retain : (k, w) ∈ (m.retain f).entries ↔ ∃ v, (k, v) ∈ m.entries ∧ f k v = some w := by
  simp [retain]

lemma get?_retain [DecidableEq κ] (m : IndexMap κ ν) (f : κ → ν → Option ν) (k : κ) :
    (m.retain f).get? k = (m.get? k).bind (f k) := by
  ext w
  rw [get?_eq_some_iff, mem_retain, bind_eq_some_iff]
  simp [get?_eq_some_iff]

lemma retain_congr {g : κ → ν → Option ν}
    (h : ∀ k v, (k, v) ∈ m.entries → f k v = g k v) : m.retain f = m.retain g := by
  refine IndexMap.ext (filterMap_congr fun e he => ?_)
  rw [h e.1 e.2 he]

end IndexMap
