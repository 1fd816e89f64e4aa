/-
# JSON values and claims along paths

A JSON value is a tree: the fields of an object are under their keys, the elements of an array under
their indices.  A path is a list of such keys and indices.  The claims of a credential form the same
kind of tree, with flags at its nodes.

`Shape` is what one node tells without what is below it: the scalar, the length of the array, or that
there is an object.  Two values with the same shapes along all paths are the same value, up to the
order of the fields of their objects.
-/
import OneCore.Lib.Decimal
import OneCore.Model.Credential

namespace OneCore

open List JsonValue

/-- The elements of a list under their indices, from the given one on. -/
def indexedFrom {α : Type*} (i : Nat) : List α → List (Str × α)
  | [] => []
  | a :: l => ((toString i).toList, a) :: indexedFrom (i + 1) l

def indexed {α : Type*} (l : List α) : List (Str × α) := indexedFrom 0 l

section Indexed

variable {α β : Type*}

lemma map_snd_indexedFrom (i : Nat) (l : List α) : (indexedFrom i l).map Prod.snd = l := by
  induction l generalizing i with
  | nil => rfl
  | cons a l ih => rw [indexedFrom, map_cons, ih]

@[simp] lemma map_snd_indexed (l : List α) : (indexed l).map Prod.snd = l :=
  map_snd_indexedFrom 0 l

lemma mem_of_mem_indexed {e : Str × α} {l : List α} (h : e ∈ indexed l) : e.2 ∈ l := by
  rw [← map_snd_indexed l]
  exact mem_map_of_mem h

lemma indexedFrom_map (f : α → β) (i : Nat) (l : List α) :
    indexedFrom i (l.map f) = (indexedFrom i l).map fun e => (e.1, f e.2) := by
  induction l generalizing i with
  | nil => rfl
  | cons a l ih => rw [map_cons, indexedFrom, ih, indexedFrom, map_cons]

lemma indexed_map (f : α → β) (l : List α) :
    indexed (l.map f) = (indexed l).map fun e => (e.1, f e.2) :=
  indexedFrom_map f 0 l

variable {l : List α} {i : Nat}

lemma map_fst_indexedFrom_congr (i : Nat) {l' : List β} (h : l.length = l'.length) :
    (indexedFrom i l).map Prod.fst = (indexedFrom i l').map Prod.fst := by
  induction l generalizing i l' with
  | nil =>
    obtain rfl := length_eq_zero_iff.1 h.symm
    rfl
  | cons a l ih =>
    cases l' with
    | nil => cases h
    | cons b l' =>
      rw [indexedFrom, indexedFrom, map_cons, map_cons, ih (i + 1) (Nat.succ.inj h)]

lemma length_indexedFrom (i : Nat) (l : List α) : (indexedFrom i l).length = l.length := by
  have h := congrArg length (map_snd_indexedFrom i l)
  rwa [length_map] at h

lemma indexedFrom_map_of_labels (f : Str × α → β) {l : List (Str × α)}
    (h : l.map Prod.fst = (indexedFrom i l).map Prod.fst) :
    indexedFrom i (l.map f) = l.map fun e => (e.1, f e) := by
  induction l generalizing i with
  | nil => rfl
  | cons e l ih =>
    obtain ⟨he, hl⟩ := cons.inj h
    rw [map_cons, indexedFrom, ih hl, map_cons, he]

lemma lookup_indexedFrom (i j : Nat) (l : List α) :
    (indexedFrom i l).lookup (toString (i + j)).toList = l[j]? := by
  induction l generalizing i j with
  | nil => rfl
  | cons a l ih =>
    cases j with
    | zero => rw [indexedFrom, Nat.add_zero, lookup_cons_self, getElem?_cons_zero]
    | succ j =>
      have hne : (toString (i + (j + 1))).toList ≠ (toString i).toList := fun h => by
        have hij := Decimal.toString_toList_injective h
        omega
      have hidx : i + (j + 1) = i + 1 + j := by omega
      rw [indexedFrom, lookup_cons_of_ne hne, getElem?_cons_succ, hidx, ih]

lemma lookup_indexed (j : Nat) (l : List α) : (indexed l).lookup (toString j).toList = l[j]? := by
  have h := lookup_indexedFrom 0 j l
  rwa [Nat.zero_add] at h

lemma exists_index_of_mem_indexedFrom {e : Str × α}
    (h : e ∈ indexedFrom i l) : ∃ j < l.length, e.1 = (toString (i + j)).toList := by
  induction l generalizing i with
  | nil => cases h
  | cons a l ih =>
    rcases mem_cons.1 h with rfl | h
    · exact ⟨0, Nat.zero_lt_succ _, rfl⟩
    · obtain ⟨j, hj, he⟩ := ih h
      exact ⟨j + 1, Nat.succ_lt_succ hj, by rw [he, Nat.add_assoc, Nat.add_comm 1 j]⟩

lemma nodup_indexedFrom (i : Nat) (l : List α) : ((indexedFrom i l).map Prod.fst).Nodup := by
  induction l generalizing i with
  | nil => exact nodup_nil
  | cons a l ih =>
    refine nodup_cons.2 ⟨fun hmem => ?_, ih (i + 1)⟩
    obtain ⟨e, he, hkey⟩ := mem_map.1 hmem
    obtain ⟨j, -, hj⟩ := exists_index_of_mem_indexedFrom he
    have hij := Decimal.toString_toList_injective (hkey.symm.trans hj)
    omega

end Indexed

/-! ### Values along paths -/

/-- What a node tells without what is below it. -/
inductive Shape where
  | null
  | bool (b : Bool)
  | number (n : Number)
  | string (s : Str)
  | array (length : Nat)
  | object

namespace JsonValue

/-- Induction over values; the hypotheses are about the elements and about the fields. -/
@[elab_as_elim]
theorem induction {motive : JsonValue → Prop} (null : motive .null) (bool : ∀ b, motive (.bool b))
    (number : ∀ n, motive (.number n)) (string : ∀ s, motive (.string s))
    (array : ∀ values, (∀ v ∈ values, motive v) → motive (.array values))
    (object : ∀ fields, (∀ f ∈ fields, motive f.2) → motive (.object fields)) : ∀ v, motive v
  | .null => null
  | .bool b => bool b
  | .number n => number n
  | .string s => string s
  | .array values => array values fun v _ => induction null bool number string array object v
  | .object fields =>
    object fields fun f _ => induction null bool number string array object f.2
termination_by v => sizeOf v
decreasing_by
  · rename_i hv
    have hlt := sizeOf_lt_of_mem hv
    simp only [JsonValue.array.sizeOf_spec]
    omega
  · rename_i hf
    obtain ⟨k, v⟩ := f
    have hlt := sizeOf_lt_of_mem hf
    simp only [Prod.mk.sizeOf_spec, JsonValue.object.sizeOf_spec] at hlt ⊢
    omega

def shape : JsonValue → Shape
  | .null => .null
  | .bool b => .bool b
  | .number n => .number n
  | .string s => .string s
  | .array values => .array values.length
  | .object _ => .object

/-- The elements of an array under their indices, the fields of an object under their keys. -/
def children : JsonValue → List (Str × JsonValue)
  | .array values => indexed values
  | .object fields => fields
  | _ => []

def atPath : List Str → JsonValue → Option JsonValue
  | [], v => some v
  | key :: path, v => (v.children.lookup key).bind (atPath path)

lemma atPath_append (p q : List Str) (v : JsonValue) :
    v.atPath (p ++ q) = (v.atPath p).bind (atPath q) := by
  induction p generalizing v with
  | nil => rfl
  | cons l p ih =>
    rw [cons_append, atPath, atPath]
    cases v.children.lookup l with
    | none => rfl
    | some w => rw [Option.bind_some, Option.bind_some, ih]

variable {p : List Str}

lemma exists_atPath_of_append {q : List Str} {v w : JsonValue}
    (h : v.atPath (p ++ q) = some w) : ∃ u, v.atPath p = some u ∧ u.atPath q = some w := by
  rw [atPath_append] at h
  exact Option.bind_eq_some_iff.1 h

/-- The values at the paths of at most the given length. -/
def nodes : Nat → JsonValue → List (List Str × JsonValue)
  | 0, v => [([], v)]
  | n + 1, v => ([], v) :: v.children.flatMap fun c => (nodes n c.2).map fun e => (c.1 :: e.1, e.2)

/-- These are all values, if nothing is below the last ones. -/
lemma mem_nodes {n : Nat} {v u : JsonValue}
    (h : ∀ e ∈ v.nodes n, e.1.length < n ∨ e.2.children.isEmpty) (hu : v.atPath p = some u) :
    (p, u) ∈ v.nodes n := by
  induction n generalizing v p with
  | zero =>
    cases p with
    | nil => simp [nodes, Option.some.inj hu]
    | cons l p =>
      have hemp : v.children = [] := by simpa [nodes] using h
      rw [atPath, hemp] at hu
      cases hu
  | succ n ih =>
    cases p with
    | nil => simp [nodes, Option.some.inj hu]
    | cons l p =>
      obtain ⟨w, hw, hu⟩ := Option.bind_eq_some_iff.1 hu
      have hsub : ∀ e ∈ w.nodes n, (l :: e.1, e.2) ∈ v.nodes (n + 1) := fun e he =>
        mem_cons_of_mem _ (mem_flatMap.2 ⟨_, mem_of_lookup hw, mem_map_of_mem he⟩)
      refine hsub _ (ih (fun e he => ?_) hu)
      exact (h _ (hsub e he)).imp_left Nat.lt_of_succ_lt_succ

instance (v : JsonValue) (s : Str) : Decidable (v = .string s) :=
  match v with
  | .string t => decidable_of_iff (t = s) (by simp)
  | .null | .bool _ | .number _ | .array _ | .object _ => isFalse nofun

end JsonValue

namespace CredentialClaimValue

mutual

def toJson : CredentialClaimValue → JsonValue
  | .bool b => .bool b
  | .number n => .number n
  | .string s => .string s
  | .array values => .array (toJsonValues values)
  | .object fields => .object (toJsonFields fields)

def toJsonValues : List CredentialClaim → List JsonValue
  | [] => []
  | .mk _ _ value :: values => toJson value :: toJsonValues values

def toJsonFields : List (Str × CredentialClaim) → List (Str × JsonValue)
  | [] => []
  | (key, .mk _ _ value) :: fields => (key, toJson value) :: toJsonFields fields

end

lemma toJsonValues_eq_map (values : List CredentialClaim) :
    toJsonValues values = values.map fun c => c.value.toJson := by
  induction values with
  | nil => rw [toJsonValues, map_nil]
  | cons c values ih =>
    obtain ⟨sd, md, value⟩ := c
    rw [toJsonValues, ih, map_cons, CredentialClaim.value_mk]

lemma toJsonFields_eq_map (fields : List (Str × CredentialClaim)) :
    toJsonFields fields = fields.map fun f => (f.1, f.2.value.toJson) := by
  induction fields with
  | nil => rw [toJsonFields, map_nil]
  | cons f fields ih =>
    obtain ⟨key, sd, md, value⟩ := f
    rw [toJsonFields, ih, map_cons, CredentialClaim.value_mk]

def shape : CredentialClaimValue → Shape
  | .bool b => .bool b
  | .number n => .number n
  | .string s => .string s
  | .array values => .array values.length
  | .object _ => .object

end CredentialClaimValue

namespace CredentialClaim

/-- The elements of an array under their indices, the claims of an object under their keys. -/
def children : CredentialClaim → List (Str × CredentialClaim)
  | .mk _ _ (.array values) => indexed values
  | .mk _ _ (.object fields) => fields
  | _ => []

def atPath : List Str → CredentialClaim → Option CredentialClaim
  | [], c => some c
  | key :: path, c => (c.children.lookup key).bind (atPath path)

end CredentialClaim

/-! ### Values without nulls -/

/-- There is no null anywhere. -/
inductive NullFree : JsonValue → Prop
  | bool (b : Bool) : NullFree (.bool b)
  | number (n : Number) : NullFree (.number n)
  | string (s : Str) : NullFree (.string s)
  | array {values : List JsonValue} (h : ∀ v ∈ values, NullFree v) : NullFree (.array values)
  | object {fields : List (Str × JsonValue)} (h : ∀ f ∈ fields, NullFree f.2) :
      NullFree (.object fields)

mutual

/-- The claim value of a value without nulls. -/
def plainValue : JsonValue → CredentialClaimValue
  | .null => .bool false
  | .bool b => .bool b
  | .number n => .number n
  | .string s => .string s
  | .array values => .array (plainValues values)
  | .object fields => .object (plainFields fields)

def plainValues : List JsonValue → List CredentialClaim
  | [] => []
  | v :: values => .mk false false (plainValue v) :: plainValues values

def plainFields : List (Str × JsonValue) → List (Str × CredentialClaim)
  | [] => []
  | (key, v) :: fields => (key, .mk false false (plainValue v)) :: plainFields fields

end

lemma plainValues_eq_map (values : List JsonValue) :
    plainValues values = values.map fun v => .mk false false (plainValue v) := by
  induction values with
  | nil => rw [plainValues, map_nil]
  | cons v values ih => rw [plainValues, ih, map_cons]

lemma plainFields_eq_map (fields : List (Str × JsonValue)) :
    plainFields fields = fields.map fun f => (f.1, .mk false false (plainValue f.2)) := by
  induction fields with
  | nil => rw [plainFields, map_nil]
  | cons f fields ih =>
    rw [plainFields, ih, map_cons]

lemma tryFromValues_eq {values : List JsonValue}
    (h : ∀ v ∈ values, CredentialClaimValue.tryFrom v = .ok (plainValue v)) :
    CredentialClaimValue.tryFromValues values = .ok (plainValues values) := by
  induction values with
  | nil => rfl
  | cons v values ih =>
    obtain ⟨hv, hvals⟩ := forall_mem_cons.1 h
    rw [CredentialClaimValue.tryFromValues, hv, ih hvals]
    rfl

lemma tryFromFields_eq {fields : List (Str × JsonValue)}
    (h : ∀ f ∈ fields, CredentialClaimValue.tryFrom f.2 = .ok (plainValue f.2)) :
    CredentialClaimValue.tryFromFields fields = .ok (plainFields fields) := by
  induction fields with
  | nil => rfl
  | cons f fields ih =>
    obtain ⟨key, v⟩ := f
    obtain ⟨hv, hfields⟩ := forall_mem_cons.1 h
    have hnull : v ≠ .null := by
      rintro rfl
      cases hv
    rw [CredentialClaimValue.tryFromFields, hv, ih hfields]
    · rfl
    · exact hnull

variable {v : JsonValue}

lemma tryFrom_of_nullFree (h : NullFree v) :
    CredentialClaimValue.tryFrom v = .ok (plainValue v) := by
  induction h with
  | bool b => rfl
  | number n => rfl
  | string s => rfl
  | array _ ih =>
    rw [CredentialClaimValue.tryFrom, tryFromValues_eq ih]
    rfl
  | object _ ih =>
    rw [CredentialClaimValue.tryFrom, tryFromFields_eq ih]
    rfl

lemma toJson_plainValue (h : NullFree v) : (plainValue v).toJson = v := by
  induction h with
  | bool b => rfl
  | number n => rfl
  | string s => rfl
  | @array values _ ih =>
    rw [plainValue, plainValues_eq_map, CredentialClaimValue.toJson,
      CredentialClaimValue.toJsonValues_eq_map, map_map]
    exact congrArg array (map_congr_left ih |>.trans (map_id _))
  | @object fields _ ih =>
    rw [plainValue, plainFields_eq_map, CredentialClaimValue.toJson,
      CredentialClaimValue.toJsonFields_eq_map, map_map]
    refine congrArg object (map_congr_left (fun f hf => ?_) |>.trans (map_id _))
    exact congrArg (Prod.mk f.1) (ih f hf)

lemma children_plainValue (sd md : Bool) (v : JsonValue) :
    (CredentialClaim.mk sd md (plainValue v)).children =
      v.children.map fun f => (f.1, .mk false false (plainValue f.2)) := by
  cases v with
  | null | bool | number | string => rfl
  | array values =>
    rw [plainValue, plainValues_eq_map]
    exact indexed_map _ _
  | object fields => rw [plainValue, plainFields_eq_map]; rfl

lemma map_value_atPath_plainValue (sd md : Bool) (v : JsonValue) (p : List Str) :
    ((CredentialClaim.mk sd md (plainValue v)).atPath p).map CredentialClaim.value =
      (v.atPath p).map plainValue := by
  induction p generalizing sd md v with
  | nil => rfl
  | cons l p ih =>
    rw [CredentialClaim.atPath, atPath, children_plainValue,
      lookup_map_snd fun _ u => CredentialClaim.mk false false (plainValue u)]
    cases v.children.lookup l with
    | none => rfl
    | some u => exact ih false false u

lemma plainValue_eq_string_iff {s : Str} : plainValue v = .string s ↔ v = .string s := by
  cases v with
  | string t => rw [plainValue, CredentialClaimValue.string.injEq, string.injEq]
  | null | bool | number | array | object => simp [plainValue]

end OneCore
