/-
# Claims that are issued

The claims of a credential that is issued come as a flat list: the path of each claim in one text, its
value, and its data type.  `nestClaims` sorts the list by path and puts one claim after the other into a
JSON object, along its path.

The paths of a flat list of claims form a tree (`Forms`): each claim is at a leaf, and each leaf has a
claim.  The nested object has the kinds of this tree at all paths (`nestClaims_kinds`).  The only way
to a different object is the key `-`, which creates an array where the tree has an object
(`Diverted`).
-/
import OneCore.Lib.Path
import OneCore.Lib.Result
import OneCore.Model.JsonPointer

namespace OneCore

open List Option JsonValue

/-! ### The code -/

inductive PublishedClaimValue where
  | bool (b : Bool)
  | float (bits : UInt64)
  | integer (n : Int)
  | string (s : Str)

structure PublishedClaim where
  key : Str
  value : PublishedClaimValue
  datatype : Option String

namespace PublishedClaimValue

def isFinite (bits : UInt64) : Bool := (bits >>> 52) &&& 0x7FF != 0x7FF

def toJson : PublishedClaimValue → Except FormatterError JsonValue
  | .bool b => .ok (.bool b)
  | .float bits =>
    if isFinite bits then .ok (.number (.float bits)) else .error (.library "Float value is NaN")
  | .integer n => .ok (.number (.int n))
  | .string s => .ok (.string s)

/-- The text of a value, with the given texts for doubles. -/
def toText (displayFloat : UInt64 → Str) : PublishedClaimValue → Str
  | .bool b => if b then "true".toList else "false".toList
  | .float bits => displayFloat bits
  | .integer n => (toString n).toList
  | .string s => s

end PublishedClaimValue

/-- Put one claim into the nested data. -/
def nestClaim (data : JsonValue) (claim : PublishedClaim) : Except FormatterError JsonValue := do
  let value ← claim.value.toJson
  (JsonPointer.assign (claim.key.splitOn nestedClaimMarker) value data).mapError
    fun _ => .library "Jsonptr assign error"

def sortClaims (claims : List PublishedClaim) : List PublishedClaim :=
  claims.insertionSort fun a b => a.key ≤ b.key

def nestClaims (claims : List PublishedClaim) : Except FormatterError (List (Str × JsonValue)) := do
  let data ← (sortClaims claims).foldlM nestClaim (.object [])
  match data with
  | .object fields => .ok fields
  | _ => .error (.jsonMapping "data is not an Object")

/-! ### The tree of the claims -/

def pathKey (p : List Str) : Str := [nestedClaimMarker].intercalate p

/-- The claims are at the leaves of a tree of objects and arrays, each claim at a leaf of its own and
with its text there.  The name of a field has no separator in it, and it is not `0`. -/
structure Forms (displayFloat : UInt64 → Str) (claims : List PublishedClaim) (content : JsonValue) :
    Prop where
  root : content.kind = .object
  nodup : (claims.map PublishedClaim.key).Nodup
  exists_leaf : ∀ c ∈ claims, ∃ p, c.key = pathKey p ∧
    content.atPath p = some (.string (c.value.toText displayFloat))
  exists_claim : ∀ p v, content.atPath p = some v → v.kind = .scalar → ∃ c ∈ claims,
    c.key = pathKey p ∧ v = .string (c.value.toText displayFloat)
  nonempty : ∀ l p v, content.atPath (l :: p) = some v → v.kind ≠ .scalar → v.children ≠ []
  keys : ∀ p fields, content.atPath p = some (.object fields) →
    ∀ f ∈ fields, nestedClaimMarker ∉ f.1 ∧ f.1 ≠ ['0']

/-- The key `-` has created an array where the tree has an object. -/
def Diverted (content data : JsonValue) : Prop :=
  ∃ q values fields, data.atPath q = some (.array values) ∧ content.atPath q = some (.object fields)

namespace JsonValue

lemma eq_of_prefix_of_scalar {p q : List Str} {v u w : JsonValue} (hu : v.atPath p = some u)
    (hscl : u.kind = .scalar) (h : v.atPath q = some w) (hpre : p <+: q) : p = q := by
  obtain ⟨q, rfl⟩ := hpre
  rw [atPath_append, hu, bind_some] at h
  cases q with
  | nil => rw [append_nil]
  | cons l q =>
    rw [JsonPointer.atPath_cons_of_scalar hscl] at h
    cases h

end JsonValue

section Nest

variable {displayFloat : UInt64 → Str} {claims : List PublishedClaim} {content : JsonValue}
  {v : JsonValue} {p q : List Str} {l : Str} {data data' : JsonValue} {done : List PublishedClaim}

section

variable (hforms : Forms displayFloat claims content)

include hforms

/-- The labels along a path of the tree have no separator in them. -/
lemma Forms.not_mem_label (h : content.atPath p = some v) (hl : l ∈ p) : nestedClaimMarker ∉ l := by
  obtain ⟨p₁, p₂, rfl⟩ := append_of_mem hl
  obtain ⟨u, hu, huv⟩ := exists_atPath_of_append h
  obtain ⟨w, hw, -⟩ := bind_eq_some_iff.1 huv
  cases u with
  | object fields => exact (hforms.keys p₁ fields hu (l, w) (mem_of_lookup hw)).1
  | array values =>
    obtain ⟨j, -, hj⟩ := exists_index_of_mem_indexedFrom (mem_of_lookup hw)
    intro hmem
    have hdgt : nestedClaimMarker ∈ Nat.toDigits 10 (0 + j) := by
      rw [← Decimal.toList_toString, ← hj]
      exact hmem
    exact absurd (Nat.isDigit_of_mem_toDigits (by decide) (by decide) hdgt) (by decide)
  | null | bool | number | string => cases hw

lemma Forms.splitOn_pathKey
    (h : content.atPath p = some v) (hne : p ≠ []) : (pathKey p).splitOn nestedClaimMarker = p :=
  splitOn_intercalate _ (fun _ hl => hforms.not_mem_label h hl) hne

variable {c : PublishedClaim}

lemma Forms.exists_path (hc : c ∈ claims) : ∃ p, p ≠ [] ∧ c.key = pathKey p ∧
      c.key.splitOn nestedClaimMarker = p ∧
      content.atPath p = some (.string (c.value.toText displayFloat)) := by
  obtain ⟨p, hkey, hleaf⟩ := hforms.exists_leaf c hc
  have hne : p ≠ [] := by
    rintro rfl
    have hroot := hforms.root
    rw [some.inj hleaf] at hroot
    cases hroot
  exact ⟨p, hne, hkey, by rw [hkey, hforms.splitOn_pathKey hleaf hne], hleaf⟩

/-- Below every value but the root there is a leaf. -/
lemma Forms.exists_leaf_below (hne : q ≠ []) (h : content.atPath q = some v) :
    ∃ r u, content.atPath (q ++ r) = some u ∧ u.kind = .scalar := by
  induction v using induction generalizing q with
  | null | bool _ | number _ | string _ => exact ⟨[], _, by rwa [append_nil], rfl⟩
  | array values ih =>
    obtain ⟨l, q', rfl⟩ := exists_cons_of_ne_nil hne
    have hvals : indexed values ≠ [] := hforms.nonempty l q' _ h (by simp [kind])
    cases values with
    | nil => exact absurd rfl hvals
    | cons v values =>
      have hch : content.atPath (l :: q' ++ [['0']]) = some v := by
        rw [atPath_append, h]
        rfl
      obtain ⟨r, u, hu, hscl⟩ := ih v mem_cons_self (by simp) hch
      exact ⟨['0'] :: r, u, by rw [← hu, append_assoc, singleton_append], hscl⟩
  | object fields ih =>
    obtain ⟨l, q', rfl⟩ := exists_cons_of_ne_nil hne
    have hfields : fields ≠ [] := hforms.nonempty l q' _ h (by simp [kind])
    cases fields with
    | nil => exact absurd rfl hfields
    | cons f fields =>
      have hch : content.atPath (l :: q' ++ [f.1]) = some f.2 := by
        rw [atPath_append, h, bind_some, atPath, children, lookup_cons_self]
        rfl
      obtain ⟨r, u, hu, hscl⟩ := ih f mem_cons_self (by simp) hch
      exact ⟨f.1 :: r, u, by rw [← hu, append_assoc, singleton_append], hscl⟩

/-! ### The order of the keys -/

end

lemma pathKey_append (hp : p ≠ []) (hq : q ≠ []) :
    pathKey (p ++ q) = pathKey p ++ nestedClaimMarker :: pathKey q :=
  Path.intercalate_append hp hq

lemma exists_pathKey_cons : ∃ s, pathKey (l :: p) = l ++ s := by
  cases p with
  | nil => exact ⟨[], by simp [pathKey]⟩
  | cons l' p =>
    simp [pathKey]

lemma pathKey_zero_lt {r r' : List Str} {i : Nat} (hq : q ≠ []) (hi : 0 < i) :
    pathKey (q ++ ['0'] :: r) < pathKey (q ++ (toString i).toList :: r') := by
  obtain ⟨s, hs⟩ := exists_pathKey_cons
  obtain ⟨s', hs'⟩ := exists_pathKey_cons
  obtain ⟨c, digits, hdigits, hc⟩ := Decimal.exists_toString_eq_cons hi
  rw [pathKey_append hq (cons_ne_nil _ _), pathKey_append hq (cons_ne_nil _ _), hs, hs', hdigits]
  refine append_left_lt ?_
  rw [cons_append, cons_append, cons_lt_cons_iff]
  refine .inr ⟨rfl, ?_⟩
  rw [cons_lt_cons_iff]
  exact .inl hc

/-! ### Nesting -/

/-- The data after some of the claims: these claims are in it, and its values have the kinds of the
tree. -/
structure Built (content : JsonValue) (done : List PublishedClaim) (data : JsonValue) : Prop where
  exists_scalar : ∀ c ∈ done, ∃ v, data.atPath (c.key.splitOn nestedClaimMarker) = some v ∧
    v.kind = .scalar
  exists_kind : ∀ q w, data.atPath q = some w →
    ∃ w₀, content.atPath q = some w₀ ∧ w.kind = w₀.kind

lemma PublishedClaimValue.kind_of_toJson {value : PublishedClaimValue}
    (h : value.toJson = .ok v) : v.kind = .scalar ∧ v ≠ .null := by
  cases value with
  | bool | integer | string =>
    cases h
    exact ⟨rfl, by simp⟩
  | float bits =>
    rw [toJson] at h
    split at h
    · cases h
      exact ⟨rfl, by simp⟩
    · cases h

lemma nestClaim_eq_ok_iff :
    nestClaim data c = .ok data' ↔ ∃ v, c.value.toJson = .ok v ∧
      JsonPointer.assign (c.key.splitOn nestedClaimMarker) v data = .ok data' := by
  rw [nestClaim, bind_eq_ok]
  simp [mapError_eq_ok]

section

variable (hforms : Forms displayFloat claims content)

include hforms

/-- An array in the place of an object stays there. -/
lemma Diverted.nestClaim (hdive : Diverted content data) (hc : c ∈ claims)
    (h : nestClaim data c = .ok data') : Diverted content data' := by
  obtain ⟨q, values, fields, hdata, hcont⟩ := hdive
  obtain ⟨v, -, hasg⟩ := nestClaim_eq_ok_iff.1 h
  obtain ⟨p, -, -, hp, hleaf⟩ := hforms.exists_path hc
  rw [hp] at hasg
  -- the claim is at a leaf, so an object of the tree is not below it
  have hnot : ¬p <+: q := by
    intro hpre
    obtain rfl := eq_of_prefix_of_scalar hleaf rfl hcont hpre
    rw [hleaf] at hcont
    cases hcont
  obtain ⟨w, hw, hkind, -⟩ := JsonPointer.exists_atPath_of_assign hasg hdata hnot
  have harr : w.kind = .array := hkind (by simp [kind])
  cases w with
  | array values' => exact ⟨q, values', fields, hw, hcont⟩
  | null | bool | number | string | object => cases harr

/-- The containers that a claim creates are of the kinds of the tree, if the claims that come before
it in the order of the keys are done. -/
lemma Built.kind_expand (hblt : Built content done data) {r : List Str} {text : Str}
    (hleaf : content.atPath (q ++ l :: r) = some (.string text))
    (hdone : ∀ c ∈ claims, c.key < pathKey (q ++ l :: r) → c ∈ done) (hreg : ['-'] ≠ l)
    (hnew : ∀ u, data.atPath q ≠ some u) :
    ∃ w₀, content.atPath q = some w₀ ∧ (JsonPointer.expand (l :: r) v).kind = w₀.kind := by
  obtain ⟨w₀, hw₀, hbelow⟩ := exists_atPath_of_append hleaf
  obtain ⟨u, hu, -⟩ := bind_eq_some_iff.1 hbelow
  refine ⟨w₀, hw₀, ?_⟩
  cases w₀ with
  | object fields =>
    have hne := (hforms.keys q fields hw₀ (l, u) (mem_of_lookup hu)).2
    rw [JsonPointer.expand_cons_of_ne hne hreg.symm]
    rfl
  | array values =>
    obtain ⟨i, hi, hl⟩ := exists_index_of_mem_indexedFrom (mem_of_lookup hu)
    rw [Nat.zero_add] at hl
    obtain rfl : l = (toString i).toList := hl
    rcases Nat.eq_zero_or_pos i with rfl | hpos
    · rfl
    · -- the claims below the first element come before this one
      exfalso
      have hq : q ≠ [] := by
        rintro rfl
        have hroot := hforms.root
        rw [some.inj hw₀] at hroot
        cases hroot
      have hfst : ∃ u₀, content.atPath (q ++ [['0']]) = some u₀ := by
        cases values with
        | nil => simp at hi
        | cons u₀ values =>
          refine ⟨u₀, ?_⟩
          rw [atPath_append, hw₀]
          rfl
      obtain ⟨u₀, hu₀⟩ := hfst
      obtain ⟨r₀, leaf, hleaf₀, hscl⟩ := hforms.exists_leaf_below (by simp) hu₀
      obtain ⟨c₀, hc₀, hkey₀, -⟩ := hforms.exists_claim _ _ hleaf₀ hscl
      have hpath₀ : q ++ [['0']] ++ r₀ = q ++ ['0'] :: r₀ := by
        rw [append_assoc, singleton_append]
      rw [hpath₀] at hkey₀ hleaf₀
      have hlt : c₀.key < pathKey (q ++ (toString i).toList :: r) := by
        rw [hkey₀]
        exact pathKey_zero_lt hq hpos
      obtain ⟨s, hs, -⟩ := hblt.exists_scalar c₀ (hdone c₀ hc₀ hlt)
      rw [hkey₀, hforms.splitOn_pathKey hleaf₀ (by simp)] at hs
      obtain ⟨u', hu', -⟩ := exists_atPath_of_append hs
      exact hnew u' hu'
  | null | bool | number | string => cases hu

/-- One more claim is put in, or it creates an array where the tree has an object. -/
lemma Built.nestClaim
    (hblt : Built content done data) (hsub : ∀ c ∈ done, c ∈ claims) {c : PublishedClaim}
    (hc : c ∈ claims) (hdone : ∀ c' ∈ claims, c'.key < c.key → c' ∈ done)
    (h : nestClaim data c = .ok data') :
    Diverted content data' ∨ Built content (done ++ [c]) data' := by
  obtain ⟨v, hv, hasg⟩ := nestClaim_eq_ok_iff.1 h
  obtain ⟨p, hne, hkey, hp, hleaf⟩ := hforms.exists_path hc
  rw [hp] at hasg
  by_cases hreg : JsonPointer.Regular p data
  · right
    have hself : data'.atPath p = some v := by
      have happ : p = p ++ [] := (append_nil p).symm
      rw [happ] at hasg hreg
      obtain ⟨w, hw, ⟨hnil, -⟩ | ⟨rfl, -⟩⟩ := JsonPointer.exists_atPath_assign hasg hreg
      · exact absurd rfl hnil
      · exact hw
    constructor
    · intro c' hc'
      rcases mem_append.1 hc' with hc' | hc'
      · obtain ⟨p', -, -, hp', hleaf'⟩ := hforms.exists_path (hsub c' hc')
        obtain ⟨s, hs, hscl⟩ := hblt.exists_scalar c' hc'
        rw [hp'] at hs ⊢
        by_cases heq : p' = p
        · exact ⟨v, by rw [heq, hself], (PublishedClaimValue.kind_of_toJson hv).1⟩
        · -- two leaves of the tree
          have hnot : ¬p <+: p' := fun hpre => heq (eq_of_prefix_of_scalar hleaf rfl hleaf' hpre).symm
          have hnot' : ¬p' <+: p := fun hpre => heq (eq_of_prefix_of_scalar hleaf' rfl hleaf hpre)
          obtain ⟨w, hw, -, hsame⟩ := JsonPointer.exists_atPath_of_assign hasg hs hnot
          exact ⟨w, hw, by rwa [hsame hnot']⟩
      · obtain rfl := mem_singleton.1 hc'
        exact ⟨v, by rw [hp, hself], (PublishedClaimValue.kind_of_toJson hv).1⟩
    · intro q w hw
      by_cases hq : q <+: p
      · obtain ⟨r, rfl⟩ := hq
        obtain ⟨w', hw', hcases⟩ := JsonPointer.exists_atPath_assign hasg hreg
        obtain rfl := mem_unique hw hw'
        rcases hcases with ⟨-, u, hu, -, hkind⟩ | ⟨rfl, hnew⟩
        · obtain ⟨w₀, hw₀, hkind₀⟩ := hblt.exists_kind q u hu
          exact ⟨w₀, hw₀, hkind.trans hkind₀⟩
        · cases r with
          | nil =>
            rw [append_nil] at hleaf
            exact ⟨_, hleaf, (PublishedClaimValue.kind_of_toJson hv).1⟩
          | cons l r =>
            have hnone : ∀ u, data.atPath q ≠ some u := fun u hu => by
              obtain ⟨u₀, hu₀, hkind⟩ := hblt.exists_kind q u hu
              have hscl := hnew.resolve_left (cons_ne_nil _ _) u hu
              have hnil := eq_of_prefix_of_scalar hu₀ (hkind ▸ hscl) hleaf (prefix_append _ _)
              simp at hnil
            refine hblt.kind_expand hforms hleaf (fun c' hc' hlt => ?_) (hreg.ne_dash hnone) hnone
            exact hdone c' hc' (hkey ▸ hlt)
      · by_cases hq' : p <+: q
        · have hscl := (PublishedClaimValue.kind_of_toJson hv).1
          obtain rfl := eq_of_prefix_of_scalar hself hscl hw hq'
          exact absurd prefix_rfl hq
        · rw [JsonPointer.atPath_assign_of_not_comparable hasg hreg hq hq'] at hw
          exact hblt.exists_kind q w hw
  · left
    obtain ⟨q, r, values, rfl, hvals⟩ := JsonPointer.exists_array_of_not_regular hasg hreg
    obtain ⟨w₀, hw₀, hbelow⟩ := exists_atPath_of_append hleaf
    obtain ⟨u, hu, -⟩ := bind_eq_some_iff.1 hbelow
    cases w₀ with
    | object fields => exact ⟨q, values, fields, hvals, hw₀⟩
    | array values' =>
      rw [children, JsonPointer.lookup_indexed_dash] at hu
      cases hu
    | null | bool | number | string => cases hu

lemma Built.foldlM {todo : List PublishedClaim}
    (hstart : Diverted content data ∨ Built content done data) (hperm : (done ++ todo).Perm claims)
    (hsrt : todo.Pairwise fun a b => a.key ≤ b.key)
    (h : todo.foldlM OneCore.nestClaim data = .ok data') :
    Diverted content data' ∨ Built content claims data' := by
  induction todo generalizing done data with
  | nil =>
    rw [foldlM_nil, pure_eq_ok] at h
    subst h
    rw [append_nil] at hperm
    refine hstart.imp_right fun hblt => ⟨fun c hc => ?_, hblt.exists_kind⟩
    exact hblt.exists_scalar c (hperm.mem_iff.2 hc)
  | cons c todo ih =>
    rw [foldlM_cons, bind_eq_ok] at h
    obtain ⟨data₁, hstep, h⟩ := h
    obtain ⟨hle, hsrt⟩ := pairwise_cons.1 hsrt
    have hc : c ∈ claims := hperm.mem_iff.1 (by simp)
    have hstart₁ : Diverted content data₁ ∨ Built content (done ++ [c]) data₁ := by
      rcases hstart with hdive | hblt
      · exact .inl (hdive.nestClaim hforms hc hstep)
      · refine hblt.nestClaim hforms (fun c' hc' => ?_) hc (fun c' hc' hlt => ?_) hstep
        · exact hperm.mem_iff.1 (mem_append_left _ hc')
        · -- what comes before the claim is not among those to do
          rcases mem_append.1 (hperm.mem_iff.2 hc') with hmem | hmem
          · exact hmem
          · rcases mem_cons.1 hmem with rfl | hmem
            · exact absurd hlt (lt_irrefl _)
            · exact absurd hlt (not_lt.2 (hle c' hmem))
    refine ih hstart₁ ?_ hsrt h
    rwa [append_assoc]

end

lemma pairwise_sortClaims :
    (sortClaims claims).Pairwise fun a b => a.key ≤ b.key := by
  have : Std.Total fun a b : PublishedClaim => a.key ≤ b.key :=
    ⟨fun a b => le_total a.key b.key⟩
  have : IsTrans PublishedClaim fun a b => a.key ≤ b.key := ⟨fun _ _ _ => le_trans⟩
  exact pairwise_insertionSort _ claims

variable {fields : List (Str × JsonValue)}

lemma nestClaims_eq_ok_iff :
    nestClaims claims = .ok fields ↔
      (sortClaims claims).foldlM nestClaim (.object []) = .ok (.object fields) := by
  rw [nestClaims, bind_eq_ok]
  constructor
  · rintro ⟨data, hdata, h⟩
    cases data with
    | object fields' => rwa [← Except.ok.inj h]
    | null | bool | number | string | array => cases h
  · intro h
    exact ⟨_, h, rfl⟩

/-- The nested claims have no null in them, no empty containers, and no key twice. -/
lemma filled_of_nestClaims (h : nestClaims claims = .ok fields) :
    (fields.map Prod.fst).Nodup ∧ ∀ f ∈ fields, JsonValue.Filled f.2 := by
  have hfilled : (object fields).Filled ∨ object fields = .object [] := by
    refine Except.foldlM_invariant (P := fun data => data.Filled ∨ data = .object [])
      (nestClaims_eq_ok_iff.1 h) (.inr rfl) ?_
    intro data c data' _ hdata hstep
    obtain ⟨v, hv, hasg⟩ := nestClaim_eq_ok_iff.1 hstep
    obtain ⟨hscl, hnull⟩ := PublishedClaimValue.kind_of_toJson hv
    obtain ⟨token, tokens, htoks⟩ :=
      exists_cons_of_ne_nil (splitOn_ne_nil nestedClaimMarker c.key)
    rw [htoks] at hasg
    rcases hdata with hdata | rfl
    · exact .inl (JsonPointer.filled_assign hasg (.scalar hscl hnull) hdata)
    · exact .inl (JsonPointer.filled_assign_nil hasg (.scalar hscl hnull))
  rcases hfilled with (hscl | _ | ⟨-, hnd, hfields⟩) | hnil
  · cases hscl
  · exact ⟨hnd, hfields⟩
  · obtain rfl := object.inj hnil
    exact ⟨nodup_nil, fun f hf => absurd hf not_mem_nil⟩

/-- Nested claims are of the kinds of their tree at all paths, unless a key `-` has created an
array. -/
theorem nestClaims_kinds (hforms : Forms displayFloat claims content)
    (h : nestClaims claims = .ok fields) :
    Diverted content (.object fields) ∨
      ∀ q, ((object fields).atPath q).map kind =
        (content.atPath q).map kind := by
  have hemp : Built content [] (.object []) := by
    refine ⟨fun c hc => absurd hc not_mem_nil, fun q w hw => ?_⟩
    cases q with
    | nil => exact ⟨content, rfl, by rw [← some.inj hw, hforms.root]; rfl⟩
    | cons l q => cases hw
  have hfold := nestClaims_eq_ok_iff.1 h
  refine (Built.foldlM hforms (.inr hemp) (perm_insertionSort _ claims)
    (pairwise_sortClaims) hfold).imp_right fun hblt q => ?_
  cases hdata : (object fields).atPath q with
  | some w =>
    obtain ⟨w₀, hw₀, hkind⟩ := hblt.exists_kind q w hdata
    rw [hw₀, map_some, map_some, hkind]
  | none =>
    -- below a value of the tree there is the leaf of a claim
    cases hcont : content.atPath q with
    | none => rfl
    | some w₀ =>
      have hne : q ≠ [] := by
        rintro rfl
        cases hdata
      obtain ⟨r, leaf, hleaf, hscl⟩ := hforms.exists_leaf_below hne hcont
      obtain ⟨c, hc, hkey, -⟩ := hforms.exists_claim _ _ hleaf hscl
      obtain ⟨s, hs, -⟩ := hblt.exists_scalar c hc
      rw [hkey, hforms.splitOn_pathKey hleaf (by simp [hne]), atPath_append, hdata] at hs
      cases hs

end Nest

end OneCore
