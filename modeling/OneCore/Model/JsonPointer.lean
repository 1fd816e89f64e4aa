/-
# Writing into JSON values along pointers

`assign` puts a value at the end of a list of tokens inside a JSON value.  What is missing on the way is
created: a token `0`, or the token `-` for the place after the last element, creates an array, and any
other token an object.  The index of an element must be written in its shortest form, and it must not be
beyond the end of the array.  A scalar on the way is replaced.

The values at paths that are not on the way and not below its end stay as they are
(`atPath_assign_of_not_comparable`); on the way, what is there stays a container of its kind, and the
rest is created (`exists_atPath_assign`).
-/
import OneCore.Model.Json

namespace OneCore

open List Option JsonValue

/-- The kinds of JSON values. -/
inductive Kind where
  | scalar
  | array
  | object
deriving DecidableEq

def JsonValue.kind : JsonValue → Kind
  | .array _ => .array
  | .object _ => .object
  | _ => .scalar

/-- The value has no null in it, no empty container, and no object with a key twice. -/
inductive JsonValue.Filled : JsonValue → Prop
  | scalar {v : JsonValue} (h : v.kind = .scalar) (hnull : v ≠ .null) : Filled v
  | array {values : List JsonValue} (hne : values ≠ []) (h : ∀ v ∈ values, Filled v) :
      Filled (.array values)
  | object {fields : List (Str × JsonValue)} (hne : fields ≠ [])
      (hnodup : (fields.map Prod.fst).Nodup) (h : ∀ f ∈ fields, Filled f.2) :
      Filled (.object fields)

lemma JsonValue.Filled.ne_null {v : JsonValue} (h : v.Filled) : v ≠ .null := by
  rintro rfl
  obtain ⟨-, hnull⟩ := h
  exact hnull rfl

lemma JsonValue.Filled.atPath {v u : JsonValue} (h : v.Filled) {p : List Str}
    (hu : v.atPath p = some u) : u.Filled := by
  induction p generalizing v with
  | nil =>
    cases hu
    exact h
  | cons l p ih =>
    obtain ⟨w, hw, hu⟩ := bind_eq_some_iff.1 hu
    refine ih ?_ hu
    have hmem := mem_of_lookup hw
    cases h with
    | scalar hscl =>
      cases v with
      | null | bool | number | string => cases hmem
      | array | object => cases hscl
    | @array values _ h =>
      refine h w ?_
      have hsnd := mem_map_of_mem (f := Prod.snd) hmem
      rwa [children, map_snd_indexed] at hsnd
    | object _ _ h => exact h _ hmem

namespace JsonPointer

inductive AssignError where
  | failedToParseIndex
  | outOfBounds

/-! ### The code -/

/-- The value with containers around it for the tokens. -/
def expand : List Str → JsonValue → JsonValue
  | [], value => value
  | token :: tokens, value =>
    if token = ['0'] ∨ token = ['-'] then .array [expand tokens value]
    else .object [(token, expand tokens value)]

/-- The index of a token in an array, or the one after its last element. -/
def toIndex (token : Str) (length : Nat) : Except AssignError Nat :=
  if token = ['-'] then .ok length
  else
    match Decimal.parse (2 ^ 64) token with
    | .error _ => .error .failedToParseIndex
    | .ok index =>
      -- no leading zeros, and no sign
      if (toString index).toList ≠ token then .error .failedToParseIndex
      else if index ≤ length then .ok index
      else .error .outOfBounds

def assign : List Str → JsonValue → JsonValue → Except AssignError JsonValue
  | [], src, _ => .ok src
  | token :: tokens, src, .array values =>
    match toIndex token values.length with
    | .error e => .error e
    | .ok index =>
      match values[index]? with
      | some v =>
        match assign tokens src v with
        | .error e => .error e
        | .ok w => .ok (.array (values.set index w))
      | none => .ok (.array (values ++ [expand tokens src]))
  | token :: tokens, src, .object fields =>
    match fields.lookup token with
    | some v =>
      match assign tokens src v with
      | .error e => .error e
      | .ok w => .ok (.object (mapInsert token w fields))
    | none => .ok (.object (fields ++ [(token, expand tokens src)]))
  | tokens, src, _ => .ok (expand tokens src)

/-! ### Labels -/

section Labels

variable {α : Type*} {l : Str}

lemma lookup_indexed_eq_none (values : List α) (h : ∀ j : Nat, l ≠ (toString j).toList) :
    (indexed values).lookup l = none := by
  rw [lookup_eq_none_iff]
  intro e he
  obtain ⟨j, -, hj⟩ := exists_index_of_mem_indexedFrom he
  rw [Nat.zero_add] at hj
  exact bne_iff_ne.2 fun heq => h j (heq.trans hj)

lemma not_mem_of_lookup_eq_none {k : Str} {l : List (Str × α)} (h : l.lookup k = none) :
    k ∉ l.map Prod.fst := by
  intro hmem
  obtain ⟨f, hf, hkey⟩ := mem_map.1 hmem
  exact bne_iff_ne.1 (lookup_eq_none_iff.1 h f hf) hkey.symm

lemma lookup_indexed_congr {values values' : List α} {i : Nat} (hl : l ≠ (toString i).toList)
    (h : ∀ j ≠ i, values[j]? = values'[j]?) :
    (indexed values).lookup l = (indexed values').lookup l := by
  by_cases hj : ∃ j : Nat, l = (toString j).toList
  · obtain ⟨j, rfl⟩ := hj
    rw [lookup_indexed, lookup_indexed]
    refine h j ?_
    rintro rfl
    exact hl rfl
  · have hnone : ∀ j : Nat, l ≠ (toString j).toList := fun j hlj => hj ⟨j, hlj⟩
    rw [lookup_indexed_eq_none values hnone, lookup_indexed_eq_none values' hnone]

end Labels

variable {token : Str} {index : Nat}

lemma toIndex_eq_ok {length : Nat} (hdash : token ≠ ['-'])
    (h : toIndex token length = .ok index) : token = (toString index).toList ∧ index ≤ length := by
  rw [toIndex, if_neg hdash] at h
  split at h
  · cases h
  · next i hpar =>
    split at h
    · cases h
    · next htok =>
      split at h
      · next hle =>
        cases h
        exact ⟨(not_not.1 htok).symm, hle⟩
      · cases h

/-! ### Created values -/

variable {tokens q r : List Str}

section Expand

variable {src : JsonValue}

lemma expand_cons_of_ne (h0 : token ≠ ['0']) (hdash : token ≠ ['-'])
    (tokens : List Str) : expand (token :: tokens) src = .object [(token, expand tokens src)] := by
  rw [expand, if_neg]
  rintro (h | h)
  · exact h0 h
  · exact hdash h

lemma lookup_children_expand {l : Str} (hdash : token ≠ ['-']) :
    (expand (token :: tokens) src).children.lookup l =
      if l = token then some (expand tokens src) else none := by
  by_cases h0 : token = ['0']
  · subst h0
    show (indexed [expand tokens src]).lookup l = _
    by_cases hl : l = ['0']
    · rw [hl]
      rfl
    · have hne : l ≠ (toString 0).toList := hl
      rw [if_neg hl, indexed, indexedFrom, lookup_cons_of_ne hne]
      rfl
  · rw [expand_cons_of_ne h0 hdash, children]
    by_cases hl : l = token
    · rw [if_pos hl, hl, lookup_cons_self]
    · rw [if_neg hl, lookup_cons_of_ne hl, lookup_nil]

lemma atPath_expand_append (hdash : ['-'] ∉ q) :
    (expand (q ++ r) src).atPath q = some (expand r src) := by
  induction q with
  | nil => rfl
  | cons token q ih =>
    obtain ⟨hne, hdash⟩ := not_or.1 (mem_cons.not.1 hdash)
    rw [cons_append, atPath, lookup_children_expand fun h => hne h.symm, if_pos rfl,
      bind_some, ih hdash]

lemma atPath_expand_of_not_comparable (hdash : ['-'] ∉ tokens)
    (h : ¬q <+: tokens) (h' : ¬tokens <+: q) : (expand tokens src).atPath q = none := by
  induction tokens generalizing q with
  | nil => exact absurd nil_prefix h'
  | cons token tokens ih =>
    obtain ⟨hne, hdash'⟩ := not_or.1 (mem_cons.not.1 hdash)
    cases q with
    | nil => exact absurd nil_prefix h
    | cons l q =>
      rw [atPath, lookup_children_expand fun h => hne h.symm]
      by_cases hl : l = token
      · subst hl
        rw [prefix_cons_inj] at h h'
        rw [if_pos rfl, bind_some, ih hdash' h h']
      · rw [if_neg hl, bind_none]

end Expand

/-! ### What one token does -/

section Assign

variable {src dst dst' : JsonValue}

/-- The entries of a container after one of them has been written. -/
def Overwrites (dst : JsonValue) (token : Str) (w dst' : JsonValue) : Prop :=
  dst'.kind = dst.kind ∧ dst.kind ≠ .scalar ∧
    ∀ l, dst'.children.lookup l = if l = token then some w else dst.children.lookup l

variable {w : JsonValue}

lemma Overwrites.atPath_cons (h : Overwrites dst token w dst') (l : Str) :
    dst'.atPath (l :: q) = if l = token then w.atPath q else dst.atPath (l :: q) := by
  rw [atPath, atPath, h.2.2]
  split
  · rw [bind_some]
  · rfl

variable {values : List JsonValue}

lemma overwrites_set (w : JsonValue)
    (h : index < values.length) :
    Overwrites (.array values) (toString index).toList w (.array (values.set index w)) := by
  refine ⟨rfl, by simp [kind], fun l => ?_⟩
  show (indexed (values.set index w)).lookup l = if _ then _ else (indexed values).lookup l
  by_cases hl : l = (toString index).toList
  · rw [if_pos hl, hl, lookup_indexed, getElem?_set_self h]
  · rw [if_neg hl, lookup_indexed_congr hl]
    intro j hj
    exact getElem?_set_ne hj.symm

lemma overwrites_push (values : List JsonValue) (w : JsonValue) :
    Overwrites (.array values) (toString values.length).toList w (.array (values ++ [w])) := by
  refine ⟨rfl, by simp [kind], fun l => ?_⟩
  show (indexed (values ++ [w])).lookup l = if _ then _ else (indexed values).lookup l
  by_cases hl : l = (toString values.length).toList
  · rw [if_pos hl, hl, lookup_indexed, getElem?_concat_length]
  · rw [if_neg hl, lookup_indexed_congr hl]
    intro j hj
    rcases Nat.lt_or_gt_of_ne hj with hlt | hgt
    · rw [getElem?_append_left hlt]
    · rw [getElem?_eq_none (by simp; omega), getElem?_eq_none (Nat.le_of_lt hgt)]

lemma overwrites_insert (fields : List (Str × JsonValue)) (token : Str) (w : JsonValue) :
    Overwrites (.object fields) token w (.object (mapInsert token w fields)) :=
  ⟨rfl, by simp [kind], fun l => lookup_mapInsert token l w fields⟩

lemma filled_push (h : (array values).Filled) (hw : w.Filled) :
    (array (values ++ [w])).Filled := by
  obtain hscl | ⟨-, hvals⟩ := h
  · cases hscl
  · exact .array (by simp) (forall_mem_append.2 ⟨hvals, forall_mem_singleton.2 hw⟩)

lemma filled_set (h : (array values).Filled)
    (hw : w.Filled) : (array (values.set index w)).Filled := by
  obtain hscl | ⟨hne, hvals⟩ := h
  · cases hscl
  · refine .array (by simpa using hne) fun u hu => ?_
    rcases mem_or_eq_of_mem_set hu with hu | rfl
    · exact hvals u hu
    · exact hw

lemma filled_insert {fields : List (Str × JsonValue)} (h : (object fields).Filled)
    (hw : w.Filled) : (object (mapInsert token w fields)).Filled := by
  obtain hscl | _ | ⟨-, hnodup, hfields⟩ := h
  · cases hscl
  · refine .object (ne_nil_of_mem (mem_mapInsert_self token w fields))
      (nodup_mapInsert w hnodup) fun f hf => ?_
    rcases mem_mapInsert hf with rfl | hf
    · exact hw
    · exact hfields f hf

/-- One token leads into an entry that is there, creates an entry, or replaces a scalar.  The token `-`
creates the entry after the last element of an array. -/
lemma assign_cons_cases (h : assign (token :: tokens) src dst = .ok dst') :
    (∃ v w, dst.children.lookup token = some v ∧ assign tokens src v = .ok w ∧
      (dst.Filled → w.Filled → dst'.Filled) ∧ Overwrites dst token w dst') ∨
    (∃ l, (l = token ∨ token = ['-'] ∧ dst.kind = .array) ∧ dst.children.lookup l = none ∧
      (dst.Filled → (expand tokens src).Filled → dst'.Filled) ∧
      Overwrites dst l (expand tokens src) dst') ∨
    (dst.kind = .scalar ∧ dst' = expand (token :: tokens) src) := by
  cases dst with
  | array values =>
    have hend : (indexed values).lookup (toString values.length).toList = none := by
      rw [lookup_indexed]
      exact getElem?_eq_none (Nat.le_refl _)
    by_cases hdash : token = ['-']
    · subst hdash
      have hnone : values[values.length]? = none := getElem?_eq_none (Nat.le_refl _)
      simp only [assign, toIndex, if_true, hnone] at h
      cases h
      exact .inr (.inl ⟨_, .inr ⟨rfl, rfl⟩, hend, filled_push, overwrites_push values _⟩)
    · simp only [assign] at h
      split at h
      · cases h
      · next index hidx =>
        obtain ⟨rfl, hle⟩ := toIndex_eq_ok hdash hidx
        split at h
        · next v hv =>
          split at h
          · cases h
          · next w hw =>
            cases h
            exact .inl ⟨v, w, (lookup_indexed index values).trans hv, hw, filled_set,
              overwrites_set w (List.getElem?_eq_some_iff.1 hv).1⟩
        · next hnone =>
          cases h
          obtain rfl : index = values.length :=
            Nat.le_antisymm hle (getElem?_eq_none_iff.1 hnone)
          exact .inr (.inl ⟨_, .inl rfl, hend, filled_push, overwrites_push values _⟩)
  | object fields =>
    simp only [assign] at h
    split at h
    · next v hv =>
      split at h
      · cases h
      · next w hw =>
        cases h
        exact .inl ⟨v, w, hv, hw, filled_insert, overwrites_insert fields token w⟩
    · next hnone =>
      cases h
      rw [← mapInsert_of_not_mem _ (not_mem_of_lookup_eq_none hnone)]
      exact .inr (.inl ⟨token, .inl rfl, hnone, filled_insert, overwrites_insert fields token _⟩)
  | null | bool _ | number _ | string _ => exact .inr (.inr ⟨rfl, (Except.ok.inj h).symm⟩)

/-! ### What an assignment does -/

lemma children_eq_nil_of_kind (h : dst.kind = .scalar) : dst.children = [] := by
  cases dst with
  | array | object => cases h
  | null | bool | number | string => rfl

lemma atPath_cons_of_scalar (h : dst.kind = .scalar) (l : Str) (q : List Str) :
    dst.atPath (l :: q) = none := by
  rw [atPath, children_eq_nil_of_kind h, lookup_nil, bind_none]

variable {v : JsonValue}

/-- What is there stays, unless it is below the end of the way; and off the way it stays as it is. -/
theorem exists_atPath_of_assign (h : assign tokens src dst = .ok dst')
    (hv : dst.atPath q = some v) (hq : ¬tokens <+: q) :
    ∃ w, dst'.atPath q = some w ∧ (v.kind ≠ .scalar → w.kind = v.kind) ∧
      (¬q <+: tokens → w = v) := by
  induction tokens generalizing dst dst' q with
  | nil => exact absurd nil_prefix hq
  | cons token tokens ih =>
    cases q with
    | nil =>
      cases hv
      refine ⟨dst', rfl, fun hcont => ?_, fun hnot => absurd nil_prefix hnot⟩
      rcases assign_cons_cases h with
        ⟨_, _, -, -, -, hkind, -⟩ | ⟨_, -, -, -, hkind, -⟩ | ⟨hscl, -⟩
      · exact hkind
      · exact hkind
      · exact absurd hscl hcont
    | cons l q =>
      obtain ⟨u, hu, huv⟩ := bind_eq_some_iff.1 hv
      rcases assign_cons_cases h with
        ⟨v₀, w₀, hv₀, hw₀, -, hover⟩ | ⟨l', -, hnone, -, hover⟩ | ⟨hscl, -⟩
      · rw [hover.atPath_cons]
        by_cases hl : l = token
        · subst hl
          obtain rfl := mem_unique hu hv₀
          rw [prefix_cons_inj] at hq ⊢
          rw [if_pos rfl]
          exact ih hw₀ huv hq
        · rw [if_neg hl]
          exact ⟨v, hv, fun _ => rfl, fun _ => rfl⟩
      · have hl : l ≠ l' := fun heq => by
          rw [heq, hnone] at hu
          cases hu
        rw [hover.atPath_cons, if_neg hl]
        exact ⟨v, hv, fun _ => rfl, fun _ => rfl⟩
      · rw [atPath_cons_of_scalar hscl] at hv
        cases hv

/-- On the way from the value, `-` is only the key of a field. -/
def Regular : List Str → JsonValue → Prop
  | [], _ => True
  | token :: tokens, dst =>
    match dst.children.lookup token with
    | some v => Regular tokens v
    | none => (dst.kind ≠ .object → token ≠ ['-']) ∧ ['-'] ∉ tokens

lemma regular_cons_of_some
    (h : dst.children.lookup token = some v) : Regular (token :: tokens) dst ↔ Regular tokens v := by
  rw [Regular, h]

lemma regular_cons_of_none (h : dst.children.lookup token = none) :
    Regular (token :: tokens) dst ↔ (dst.kind ≠ .object → token ≠ ['-']) ∧ ['-'] ∉ tokens := by
  rw [Regular, h]

lemma Regular.ne_dash {l : Str} (h : Regular (q ++ l :: r) dst)
    (hnew : ∀ v, dst.atPath q ≠ some v) : ['-'] ≠ l := by
  induction q generalizing dst with
  | nil => exact absurd rfl (hnew dst)
  | cons token q ih =>
    cases hlkp : dst.children.lookup token with
    | some v =>
      refine ih ((regular_cons_of_some hlkp).1 h) fun u hu => hnew u ?_
      rw [atPath, hlkp, bind_some, hu]
    | none =>
      rintro rfl
      refine ((regular_cons_of_none hlkp).1 h).2 ?_
      exact mem_append_right _ mem_cons_self

lemma lookup_indexed_dash (values : List JsonValue) : (indexed values).lookup ['-'] = none := by
  refine lookup_indexed_eq_none values fun j hj => ?_
  have hdgt : '-' ∈ Nat.toDigits 10 j := by
    rw [← Decimal.toList_toString, ← hj]
    exact mem_singleton_self _
  exact absurd (Nat.isDigit_of_mem_toDigits (by decide) (by decide) hdgt) (by decide)

/-- The two ways on which one regular token goes through a container, and the created values. -/
lemma assign_cons_cases_of_regular
    (h : assign (token :: tokens) src dst = .ok dst') (hreg : Regular (token :: tokens) dst) :
    (∃ v w, dst.children.lookup token = some v ∧ assign tokens src v = .ok w ∧
      Regular tokens v ∧ Overwrites dst token w dst') ∨
    (dst.children.lookup token = none ∧ ['-'] ∉ tokens ∧
      Overwrites dst token (expand tokens src) dst') ∨
    (dst.kind = .scalar ∧ ['-'] ∉ token :: tokens ∧ dst' = expand (token :: tokens) src) := by
  rcases assign_cons_cases h with
    ⟨v, w, hv, hw, -, hover⟩ | ⟨l, hl, hnone, -, hover⟩ | ⟨hscl, hdst'⟩
  · exact .inl ⟨v, w, hv, hw, (regular_cons_of_some hv).1 hreg, hover⟩
  · have hlkp : dst.children.lookup token = none := by
      rcases hl with rfl | ⟨rfl, harr⟩
      · exact hnone
      · cases dst with
        | array values => exact lookup_indexed_dash values
        | null | bool | number | string | object => cases harr
    obtain ⟨htok, htoks⟩ := (regular_cons_of_none hlkp).1 hreg
    rcases hl with rfl | ⟨hdash, harr⟩
    · exact .inr (.inl ⟨hlkp, htoks, hover⟩)
    · exact absurd hdash (htok (by simp [harr]))
  · have hlkp : dst.children.lookup token = none := by
      rw [children_eq_nil_of_kind hscl, lookup_nil]
    obtain ⟨htok, htoks⟩ := (regular_cons_of_none hlkp).1 hreg
    refine .inr (.inr ⟨hscl, ?_, hdst'⟩)
    rw [mem_cons, not_or]
    exact ⟨fun heq => htok (by simp [hscl]) heq.symm, htoks⟩

/-- Along a regular way, paths that are not on it and not below its end lead to the same values as
before. -/
theorem atPath_assign_of_not_comparable
    (h : assign tokens src dst = .ok dst') (hreg : Regular tokens dst) (hq : ¬q <+: tokens)
    (hq' : ¬tokens <+: q) : dst'.atPath q = dst.atPath q := by
  induction tokens generalizing dst dst' q with
  | nil => exact absurd nil_prefix hq'
  | cons token tokens ih =>
    cases q with
    | nil => exact absurd nil_prefix hq
    | cons l q =>
      rcases assign_cons_cases_of_regular h hreg with
        ⟨v, w, hv, hw, hreg', hover⟩ | ⟨hnone, hdash, hover⟩ | ⟨hscl, hdash, rfl⟩
      · rw [hover.atPath_cons]
        by_cases hl : l = token
        · subst hl
          rw [prefix_cons_inj] at hq hq'
          rw [if_pos rfl, ih hw hreg' hq hq', atPath, hv, bind_some]
        · rw [if_neg hl]
      · rw [hover.atPath_cons]
        by_cases hl : l = token
        · subst hl
          rw [prefix_cons_inj] at hq hq'
          rw [if_pos rfl, atPath_expand_of_not_comparable hdash hq hq', atPath, hnone, bind_none]
        · rw [if_neg hl]
      · rw [atPath_expand_of_not_comparable hdash hq hq', atPath_cons_of_scalar hscl]

/-- On a regular way there is a container of the kind it had, or a created one. -/
theorem exists_atPath_assign (h : assign (q ++ r) src dst = .ok dst')
    (hreg : Regular (q ++ r) dst) :
    ∃ w, dst'.atPath q = some w ∧
      ((r ≠ [] ∧ ∃ v, dst.atPath q = some v ∧ v.kind ≠ .scalar ∧ w.kind = v.kind) ∨
       (w = expand r src ∧ (r = [] ∨ ∀ v, dst.atPath q = some v → v.kind = .scalar))) := by
  induction q generalizing dst dst' with
  | nil =>
    refine ⟨dst', rfl, ?_⟩
    cases r with
    | nil => exact .inr ⟨(Except.ok.inj h).symm, .inl rfl⟩
    | cons token tokens =>
      rcases assign_cons_cases_of_regular h hreg with
        ⟨v, w, -, -, -, hkind, hcont, -⟩ | ⟨-, -, hkind, hcont, -⟩ | ⟨hscl, -, rfl⟩
      · exact .inl ⟨cons_ne_nil _ _, dst, rfl, hcont, hkind⟩
      · exact .inl ⟨cons_ne_nil _ _, dst, rfl, hcont, hkind⟩
      · refine .inr ⟨rfl, .inr fun v hv => ?_⟩
        rwa [← some.inj hv]
  | cons token q ih =>
    rw [cons_append] at h hreg
    rcases assign_cons_cases_of_regular h hreg with
      ⟨v, w, hv, hw, hreg', hover⟩ | ⟨hnone, hdash, hover⟩ | ⟨hscl, hdash, rfl⟩
    · rw [hover.atPath_cons, if_pos rfl, atPath, hv, bind_some]
      exact ih hw hreg'
    · have hdashq : ['-'] ∉ q := fun hmem => hdash (mem_append_left _ hmem)
      rw [hover.atPath_cons, if_pos rfl, atPath_expand_append hdashq]
      refine ⟨_, rfl, .inr ⟨rfl, .inr fun v hv => ?_⟩⟩
      rw [atPath, hnone] at hv
      cases hv
    · have hdash' : ['-'] ∉ token :: q := fun hmem => hdash (mem_append_left r hmem)
      refine ⟨_, atPath_expand_append hdash', .inr ⟨rfl, .inr fun v hv => ?_⟩⟩
      rw [atPath_cons_of_scalar hscl] at hv
      cases hv

/-- A way that is not regular leads through an array with the token `-`. -/
theorem exists_array_of_not_regular (h : assign tokens src dst = .ok dst')
    (hreg : ¬Regular tokens dst) :
    ∃ q r values, tokens = q ++ ['-'] :: r ∧ dst'.atPath q = some (.array values) := by
  -- what is created for tokens with `-` in them
  have hexp : ∀ tokens : List Str, ['-'] ∈ tokens → ∃ q r values, tokens = q ++ ['-'] :: r ∧
      (expand tokens src).atPath q = some (.array values) := fun tokens hmem => by
    obtain ⟨q, r, rfl, hq⟩ := eq_append_cons_of_mem hmem
    refine ⟨q, r, [expand r src], rfl, ?_⟩
    rw [atPath_expand_append hq, expand, if_pos (.inr rfl)]
  induction tokens generalizing dst dst' with
  | nil => exact absurd trivial hreg
  | cons token tokens ih =>
    rcases assign_cons_cases h with
      ⟨v, w, hv, hw, -, hover⟩ | ⟨l, hl, hnone, -, hover⟩ | ⟨hscl, rfl⟩
    · rw [regular_cons_of_some hv] at hreg
      obtain ⟨q, r, values, rfl, hvals⟩ := ih hw hreg
      refine ⟨token :: q, r, values, rfl, ?_⟩
      rw [hover.atPath_cons, if_pos rfl, hvals]
    · by_cases harr : token = ['-'] ∧ dst.kind = .array
      · obtain ⟨rfl, harr⟩ := harr
        cases dst' with
        | array values => exact ⟨[], tokens, values, rfl, rfl⟩
        | null | bool | number | string | object =>
          cases harr.symm.trans hover.1.symm
      · obtain rfl := hl.resolve_right harr
        have hdash : ['-'] ∈ tokens := by
          by_contra hdash
          refine hreg ((regular_cons_of_none hnone).2 ⟨fun hobj heq => ?_, hdash⟩)
          cases dst with
          | array values => exact harr ⟨heq, rfl⟩
          | object fields => exact hobj rfl
          | null | bool | number | string => exact hover.2.1 rfl
        obtain ⟨q, r, values, rfl, hvals⟩ := hexp tokens hdash
        refine ⟨l :: q, r, values, rfl, ?_⟩
        rw [hover.atPath_cons, if_pos rfl, hvals]
    · have hnone : dst.children.lookup token = none := by
        rw [children_eq_nil_of_kind hscl, lookup_nil]
      refine hexp (token :: tokens) ?_
      by_contra hdash
      rw [mem_cons, not_or] at hdash
      exact hreg ((regular_cons_of_none hnone).2 ⟨fun _ heq => hdash.1 heq.symm, hdash.2⟩)

/-! ### Filled values -/

lemma filled_expand (hsrc : src.Filled) : (expand tokens src).Filled := by
  induction tokens with
  | nil => exact hsrc
  | cons token tokens ih =>
    rw [expand]
    split
    · exact .array (cons_ne_nil _ _) fun v hv => mem_singleton.1 hv ▸ ih
    · exact .object (cons_ne_nil _ _) (nodup_singleton _)
        fun f hf => mem_singleton.1 hf ▸ ih

lemma filled_assign (h : assign tokens src dst = .ok dst')
    (hsrc : src.Filled) (hdst : dst.Filled) : dst'.Filled := by
  induction tokens generalizing dst dst' with
  | nil => exact Except.ok.inj h ▸ hsrc
  | cons token tokens ih =>
    rcases assign_cons_cases h with
      ⟨v, w, hv, hw, hfill, -⟩ | ⟨_, -, -, hfill, -⟩ | ⟨-, rfl⟩
    · refine hfill hdst (ih hw (hdst.atPath (p := [token]) ?_))
      rw [atPath, hv]
      rfl
    · exact hfill hdst (filled_expand hsrc)
    · exact filled_expand hsrc

lemma filled_assign_nil
    (h : assign (token :: tokens) src (.object []) = .ok dst') (hsrc : src.Filled) :
    dst'.Filled := by
  cases h
  exact .object (cons_ne_nil _ _) (nodup_singleton _) fun f hf => mem_singleton.1 hf ▸ filled_expand hsrc

end Assign

end JsonPointer

end OneCore
