/-
# Selective disclosure of a mobile document

The holder names what to disclose by a list of keys: a namespace, an element `ns/el`, or a path
below an element.  `prepareSelectiveDisclosure` turns the list into a map from namespaces to
element lists, where the empty list stands for the whole namespace, and keeps the items that
the map allows.

What the list should mean is said by `Requested`: a key counts unless another key lies below
it, and it then stands for the namespace or the element it names.  The map is built by two
different writes, so a key for a whole namespace next to keys for elements of it makes the
outcome depend on the order of the list.  This file finds exactly the lists and documents for
which the items kept are the requested ones, in any order of the list.
-/
import OneCore.Lib.Path
import OneCore.Mdoc.Model

namespace OneCore.Mdoc

open List Option IndexMap Path
open Path (splitOnce Below AtOrBelow IsLeaf)

/-! ### The code -/

/-- The namespace that a key addresses and, unless it addresses all of it, the element. -/
def classify (key : Str) : Str × Option Str :=
  match splitOnce nestedClaimMarker key with
  | some (ns, path) =>
    match splitOnce nestedClaimMarker path with
    | some (element, _) => (ns, some element)
    | none => (ns, some path)
  | none => (key, none)

/-- One round of the loop that collects the elements to disclose of each namespace. -/
def addDisclosedKey (elementsForNamespace : IndexMap Str (List Str)) (key : Str) :
    IndexMap Str (List Str) :=
  match classify key with
  | (ns, some element) => elementsForNamespace.upsert ns fun o => o.getD [] ++ [element]
  -- the entire namespace is requested
  | (ns, none) => elementsForNamespace.insert ns []

/-- The elements to disclose of each namespace; the empty list stands for all of them. -/
def elementsForNamespace (disclosedKeys : List Str) : IndexMap Str (List Str) :=
  disclosedKeys.eraseDups.foldl addDisclosedKey .empty

/-- The items kept of one namespace, or `none` if the namespace is dropped. -/
def retainItems (elements : Option (List Str)) (claims : List (EmbeddedCbor IssuerSignedItem)) :
    Option (List (EmbeddedCbor IssuerSignedItem)) :=
  match elements with
  | none => none
  -- disclose the whole namespace
  | some [] => some claims
  | some elements =>
    let kept := claims.filter fun claim => claim.inner.elementIdentifier ∈ elements
    if kept = [] then none else some kept

/-- Keep only the namespaces and claims that we were asked for. -/
def discloseNamespaces (disclosedKeys : List Str) (namespaces : Namespaces) :
    Except FormatterError Namespaces :=
  let kept := namespaces.retain fun ns claims =>
    retainItems ((elementsForNamespace disclosedKeys).get? ns) claims
  if kept.entries = [] then
    .error (.couldNotFormat "No matching claims were found in namespaces")
  else .ok kept

/-- Decode the token, keep the claims that the verifier asked for, encode the result. -/
def prepareSelectiveDisclosure (env : Environment) (token : String)
    (disclosedKeys : List Str) : Except FormatterError String := do
  let issuerSigned ← env.decodeIssuerSigned token
  let namespaces ← okOr issuerSigned.nameSpaces
    (.couldNotFormat "IssuerSigned object is missing namespaces")
  let kept ← discloseNamespaces disclosedKeys namespaces
  env.encodeIssuerSigned { issuerSigned with nameSpaces := some kept }

/-! ### What the keys address -/

section Classify

variable {key ns el : Str}

lemma classify_eq_none_iff : classify key = (ns, none) ↔ key = ns ∧ nestedClaimMarker ∉ ns := by
  unfold classify
  cases h : splitOnce nestedClaimMarker key with
  | none =>
    have hkey := splitOnce_eq_none_iff.1 h
    simp only [Prod.mk.injEq, and_true]
    exact ⟨fun hns => ⟨hns, hns ▸ hkey⟩, fun hns => hns.1⟩
  | some p =>
    obtain ⟨a, b⟩ := p
    have hkey := (splitOnce_eq_some_iff.1 h).1
    have hne : ¬(key = ns ∧ nestedClaimMarker ∉ ns) := by
      rintro ⟨rfl, hmem⟩
      exact hmem (by rw [hkey]; simp)
    simp only [hne, iff_false]
    cases splitOnce nestedClaimMarker b with
    | none => simp
    | some q => simp

lemma classify_eq_some_iff :
    classify key = (ns, some el) ↔
      nestedClaimMarker ∉ ns ∧ nestedClaimMarker ∉ el ∧
        AtOrBelow nestedClaimMarker (ns ++ nestedClaimMarker :: el) key := by
  constructor
  · intro h
    unfold classify at h
    cases hkey : splitOnce nestedClaimMarker key with
    | none =>
      rw [hkey] at h
      simp at h
    | some p =>
      obtain ⟨a, b⟩ := p
      obtain ⟨rfl, ha⟩ := splitOnce_eq_some_iff.1 hkey
      simp only [hkey] at h
      cases hb : splitOnce nestedClaimMarker b with
      | none =>
        rw [hb] at h
        obtain ⟨rfl, rfl⟩ : a = ns ∧ b = el := by simpa using h
        exact ⟨ha, splitOnce_eq_none_iff.1 hb, Or.inl rfl⟩
      | some q =>
        obtain ⟨e, r⟩ := q
        obtain ⟨rfl, he⟩ := splitOnce_eq_some_iff.1 hb
        rw [hb] at h
        obtain ⟨rfl, rfl⟩ : a = ns ∧ e = el := by simpa using h
        exact ⟨ha, he, Or.inr (below_iff.2 ⟨r, by simp⟩)⟩
  · rintro ⟨hns, hel, hkey⟩
    rcases hkey with rfl | hkey
    · -- the key is the element itself
      simp [classify, splitOnce_append hns, splitOnce_eq_none_iff.2 hel]
    · -- the key goes on below the element
      obtain ⟨r, rfl⟩ := below_iff.1 hkey
      simp [classify, splitOnce_append hns, splitOnce_append hel]

lemma exists_classify_of_below (hns : nestedClaimMarker ∉ ns)
    (h : Below nestedClaimMarker ns key) : ∃ e, classify key = (ns, some e) := by
  obtain ⟨r, rfl⟩ := below_iff.1 h
  simp only [classify, splitOnce_append hns]
  cases splitOnce nestedClaimMarker r with
  | none => exact ⟨r, rfl⟩
  | some q => exact ⟨q.1, rfl⟩

lemma below_of_classify (h : classify key = (ns, some el)) : Below nestedClaimMarker ns key :=
  (classify_eq_some_iff.1 h).2.2.below_append

end Classify

/-! ### The loop over the keys -/

variable {keys : List Str} {key : Str}

section Loop

variable {ns : Str}

/-- What one key does to the element list of the namespace `ns`. -/
def elementsStep (ns : Str) (elements : Option (List Str)) (key : Str) : Option (List Str) :=
  match classify key with
  | (n, some element) => if ns = n then some (elements.getD [] ++ [element]) else elements
  | (n, none) => if ns = n then some [] else elements

/-- The elements of the namespace `ns` that a list of keys names. -/
def elementsOf (ns : Str) (keys : List Str) : List Str :=
  keys.filterMap fun key => if (classify key).1 = ns then (classify key).2 else none

lemma mem_elementsOf {e : Str} :
    e ∈ elementsOf ns keys ↔ ∃ key ∈ keys, classify key = (ns, some e) := by
  simp [elementsOf, Prod.ext_iff]

lemma get?_addDisclosedKey (m : IndexMap Str (List Str)) :
    (addDisclosedKey m key).get? ns = elementsStep ns (m.get? ns) key := by
  unfold addDisclosedKey elementsStep
  rcases classify key with ⟨n, _ | element⟩
  · simp [get?_insert]
  · simp only [get?_upsert]
    split
    · rename_i h
      rw [h]
    · rfl

lemma get?_foldl_addDisclosedKey (m : IndexMap Str (List Str)) :
    (keys.foldl addDisclosedKey m).get? ns = keys.foldl (elementsStep ns) (m.get? ns) := by
  induction keys generalizing m with
  | nil => rfl
  | cons key keys ih => rw [foldl_cons, ih, get?_addDisclosedKey, foldl_cons]

/-- As long as no key asks for the whole namespace, the loop collects the elements. -/
lemma foldl_elementsStep (o : Option (List Str))
    (h : ∀ key ∈ keys, classify key ≠ (ns, none)) :
    keys.foldl (elementsStep ns) o =
      if elementsOf ns keys = [] then o else some (o.getD [] ++ elementsOf ns keys) := by
  induction keys generalizing o with
  | nil => simp [elementsOf]
  | cons key keys ih =>
    rw [foldl_cons, ih _ fun k hk => h k (mem_cons_of_mem _ hk)]
    have hkey := h key mem_cons_self
    cases hc : classify key with
    | mk n oe =>
      by_cases hn : ns = n
      · subst hn
        cases oe with
        | none => exact absurd hc hkey
        | some e =>
          simp only [elementsStep, hc, if_true, elementsOf, filterMap_cons, getD_some,
            reduceCtorEq, if_false, append_assoc, cons_append, nil_append]
          split
          · rename_i hnil
            rw [hnil]
          · rfl
      · have hn' : ¬n = ns := fun h => hn h.symm
        have hstep : elementsStep ns o key = o := by
          cases oe <;> simp [elementsStep, hc, hn]
        have hof : elementsOf ns (key :: keys) = elementsOf ns keys := by
          simp [elementsOf, hc, hn']
        rw [hstep, hof]

lemma foldl_elementsStep_whole (keys₁ keys₂ : List Str) (o : Option (List Str))
    (hkey : classify key = (ns, none)) (h : ∀ k ∈ keys₂, classify k ≠ (ns, none)) :
    (keys₁ ++ key :: keys₂).foldl (elementsStep ns) o = some (elementsOf ns keys₂) := by
  have hstep : ∀ o, elementsStep ns o key = some [] := fun o => by
    simp [elementsStep, hkey]
  rw [foldl_append, foldl_cons, hstep, foldl_elementsStep _ h]
  split
  · rename_i hnil
    rw [hnil]
  · simp

lemma get?_elementsForNamespace :
    (elementsForNamespace keys).get? ns = keys.eraseDups.foldl (elementsStep ns) none := by
  rw [elementsForNamespace, get?_foldl_addDisclosedKey, get?_empty]

lemma get?_elementsForNamespace_of_not_mem (h : ns ∉ keys) :
    (elementsForNamespace keys).get? ns =
      if elementsOf ns keys.eraseDups = [] then none else some (elementsOf ns keys.eraseDups) := by
  rw [get?_elementsForNamespace, foldl_elementsStep]
  · rfl
  · intro key hkey hc
    obtain ⟨rfl, -⟩ := classify_eq_none_iff.1 hc
    exact h (mem_eraseDups.1 hkey)

lemma get?_elementsForNamespace_of_marker (h : nestedClaimMarker ∈ ns) :
    (elementsForNamespace keys).get? ns = none := by
  have hnil : elementsOf ns keys.eraseDups = [] := by
    refine eq_nil_iff_forall_not_mem.2 fun e he => ?_
    obtain ⟨key, -, hc⟩ := mem_elementsOf.1 he
    exact (classify_eq_some_iff.1 hc).1 h
  rw [get?_elementsForNamespace, foldl_elementsStep, if_pos hnil]
  intro key _ hc
  exact (classify_eq_none_iff.1 hc).2 h

/-- The elements of a namespace when the key for all of it stands at a given place: those that
are named after that place and not before it. -/
lemma get?_elementsForNamespace_append {keys₁ : List Str} (keys₂ : List Str)
    (hns : nestedClaimMarker ∉ ns) (h₁ : ns ∉ keys₁) :
    ∃ T, (elementsForNamespace (keys₁ ++ ns :: keys₂)).get? ns = some T ∧
      ∀ e, e ∈ T ↔ ∃ key ∈ keys₂, key ∉ keys₁ ∧ classify key = (ns, some e) := by
  have hrem : (ns :: keys₂).removeAll keys₁ = ns :: keys₂.removeAll keys₁ := by
    simp [removeAll, h₁]
  have hspl : (keys₁ ++ ns :: keys₂).eraseDups = keys₁.eraseDups ++
      ns :: ((keys₂.removeAll keys₁).filter fun b => !b == ns).eraseDups := by
    rw [eraseDups_append, hrem, eraseDups_cons]
  refine ⟨elementsOf ns ((keys₂.removeAll keys₁).filter fun b => !b == ns).eraseDups, ?_,
    fun e => ?_⟩
  · rw [get?_elementsForNamespace, hspl]
    refine foldl_elementsStep_whole _ _ _ (classify_eq_none_iff.2 ⟨rfl, hns⟩) fun k hk hc => ?_
    obtain ⟨rfl, -⟩ := classify_eq_none_iff.1 hc
    simp at hk
  · simp only [mem_elementsOf, mem_eraseDups, mem_filter, removeAll,
      Bool.not_eq_true', beq_eq_false_iff_ne, elem_eq_mem, decide_eq_false_iff_not]
    refine exists_congr fun key => ⟨?_, ?_⟩
    · rintro ⟨⟨⟨h₂, h₁'⟩, -⟩, hc⟩
      exact ⟨h₂, h₁', hc⟩
    · rintro ⟨h₂, h₁', hc⟩
      refine ⟨⟨⟨h₂, h₁'⟩, ?_⟩, hc⟩
      rintro rfl
      exact absurd hc (by simp [classify_eq_none_iff.2 ⟨rfl, hns⟩])

/-- With a key for the whole namespace, the element list has some of the elements that the keys
name. -/
lemma exists_get?_elementsForNamespace (hns : nestedClaimMarker ∉ ns) (h : ns ∈ keys) :
    ∃ T, (elementsForNamespace keys).get? ns = some T ∧
      ∀ e ∈ T, ∃ key ∈ keys, classify key = (ns, some e) := by
  obtain ⟨keys₁, keys₂, rfl, h₁⟩ := eq_append_cons_of_mem h
  obtain ⟨T, hget, hT⟩ := get?_elementsForNamespace_append keys₂ hns h₁
  refine ⟨T, hget, fun e he => ?_⟩
  obtain ⟨key, hkey, -, hc⟩ := (hT e).1 he
  exact ⟨key, mem_append_right _ (mem_cons_of_mem _ hkey), hc⟩

end Loop

/-! ### The items of one namespace -/

section Retain

variable {claims kept : List (EmbeddedCbor IssuerSignedItem)}

lemma retainItems_eq_some_iff {T : List Str} (hT : T ≠ []) :
    retainItems (some T) claims = some kept ↔
      kept ≠ [] ∧ claims.filter (fun claim => claim.inner.elementIdentifier ∈ T) = kept := by
  simp only [retainItems, ite_eq_iff, reduceCtorEq, and_false, false_or, some.injEq]
  exact and_congr_left fun h => by rw [h]

lemma sublist_of_retainItems {o : Option (List Str)} (h : retainItems o claims = some kept) :
    kept.Sublist claims := by
  cases o with
  | none => simp [retainItems] at h
  | some T =>
    by_cases hT : T = []
    · subst hT
      obtain rfl : claims = kept := by simpa [retainItems] using h
      exact Sublist.refl _
    · obtain ⟨-, rfl⟩ := (retainItems_eq_some_iff hT).1 h
      exact filter_sublist

end Retain

/-! ### What the keys ask for -/

/-- The key is the namespace itself, or the element, or something below the element. -/
def Addresses (ns el key : Str) : Prop :=
  key = ns ∨ AtOrBelow nestedClaimMarker (ns ++ nestedClaimMarker :: el) key

instance (ns el key : Str) : Decidable (Addresses ns el key) :=
  inferInstanceAs (Decidable (key = ns ∨ AtOrBelow _ _ key))

/-- Some key that has no other key below it addresses the element. -/
def Requested (keys : List Str) (ns el : Str) : Prop :=
  ∃ key ∈ keys, IsLeaf nestedClaimMarker keys key ∧ Addresses ns el key

instance (keys : List Str) (ns el : Str) : Decidable (Requested keys ns el) :=
  inferInstanceAs (Decidable (∃ key ∈ keys, _ ∧ _))

lemma requested_of_atOrBelow {ns el : Str} (hkey : key ∈ keys)
    (h : AtOrBelow nestedClaimMarker (ns ++ nestedClaimMarker :: el) key) :
    Requested keys ns el := by
  obtain ⟨leaf, hleaf, hbelow⟩ :
      ∃ leaf, IsLeaf nestedClaimMarker keys leaf ∧ AtOrBelow nestedClaimMarker key leaf :=
    exists_isLeaf_atOrBelow hkey
  exact ⟨leaf, hleaf.1, hleaf, Or.inr (h.trans hbelow)⟩

def keptItems (result : Except FormatterError Namespaces) (ns : Str) :
    List (EmbeddedCbor IssuerSignedItem) :=
  match result with
  | .ok kept => (kept.get? ns).getD []
  | .error _ => []

/-- The disclosure is exact: the kept items are the requested ones, the order and the
multiplicity of the keys do not matter, and the digests of the kept items still verify. -/
structure MinimalDisclosure (keys : List Str) (namespaces : Namespaces) : Prop where
  kept_eq : ∀ ns items, (ns, items) ∈ namespaces.entries →
    keptItems (discloseNamespaces keys namespaces) ns =
      items.filter fun item => Requested keys ns item.inner.elementIdentifier
  kept_eq_nil : ∀ ns, ns ∉ namespaces.keys →
    keptItems (discloseNamespaces keys namespaces) ns = []
  order_irrelevant : ∀ keys', (∀ key, key ∈ keys' ↔ key ∈ keys) →
    discloseNamespaces keys' namespaces = discloseNamespaces keys namespaces
  digests_verify : ∀ env mso kept, verifyDigests env mso namespaces = .ok () →
    discloseNamespaces keys namespaces = .ok kept → verifyDigests env mso kept = .ok ()

/-- For one namespace: nothing is requested of it if its name has a marker in it; otherwise no
key reaches an item whose identifier has a marker in it, and keys for elements stand next to a
key for the whole namespace only if the namespace has items and each of those keys addresses
all of them. -/
structure UnambiguousFor (keys : List Str) (ns : Str)
    (items : List (EmbeddedCbor IssuerSignedItem)) : Prop where
  marker_ns : nestedClaimMarker ∈ ns →
    ∀ item ∈ items, ¬Requested keys ns item.inner.elementIdentifier
  marker_el : nestedClaimMarker ∉ ns → ∀ item ∈ items,
    nestedClaimMarker ∈ item.inner.elementIdentifier → ∀ key ∈ keys,
      ¬AtOrBelow nestedClaimMarker (ns ++ nestedClaimMarker :: item.inner.elementIdentifier) key
  whole : nestedClaimMarker ∉ ns → ns ∈ keys → ∀ key ∈ keys, Below nestedClaimMarker ns key →
    items ≠ [] ∧ ∀ item ∈ items,
      AtOrBelow nestedClaimMarker (ns ++ nestedClaimMarker :: item.inner.elementIdentifier) key

/-- The keys are unambiguous for every namespace of the document. -/
def Unambiguous (keys : List Str) (namespaces : Namespaces) : Prop :=
  ∀ ns items, (ns, items) ∈ namespaces.entries → UnambiguousFor keys ns items

/-! ### Unambiguous keys disclose exactly -/

variable {keys' : List Str}

section Sufficient

variable {ns : Str} {items : List (EmbeddedCbor IssuerSignedItem)}

lemma requested_iff_of_not_mem (h : ns ∉ keys) {el : Str} :
    Requested keys ns el ↔
      ∃ key ∈ keys, AtOrBelow nestedClaimMarker (ns ++ nestedClaimMarker :: el) key := by
  constructor
  · rintro ⟨key, hkey, -, rfl | haddr⟩
    · exact absurd hkey h
    · exact ⟨key, hkey, haddr⟩
  · rintro ⟨key, hkey, haddr⟩
    exact requested_of_atOrBelow hkey haddr

/-- What an exact disclosure leaves of a namespace. -/
def exactItems (keys : List Str) (ns : Str) (items : List (EmbeddedCbor IssuerSignedItem)) :
    Option (List (EmbeddedCbor IssuerSignedItem)) :=
  let requested := items.filter fun item => Requested keys ns item.inner.elementIdentifier
  if nestedClaimMarker ∉ ns ∧ ns ∈ keys ∧ ∀ key ∈ keys, ¬Below nestedClaimMarker ns key then
    some items
  else if requested = [] then none else some requested

lemma getD_exactItems :
    (exactItems keys ns items).getD [] =
      items.filter fun item => Requested keys ns item.inner.elementIdentifier := by
  unfold exactItems
  dsimp only
  split
  · rename_i h
    have hall : ∀ item ∈ items, Requested keys ns item.inner.elementIdentifier := fun item _ =>
      ⟨ns, h.2.1, h.2, Or.inl rfl⟩
    rw [getD_some, filter_eq_self.2]
    simpa using hall
  · split
    · rename_i h
      rw [h, getD_none]
    · rw [getD_some]

lemma requested_congr (h : ∀ key, key ∈ keys' ↔ key ∈ keys) {el : Str} :
    Requested keys' ns el ↔ Requested keys ns el := by
  simp [Requested, IsLeaf, h]

lemma exactItems_congr (h : ∀ key, key ∈ keys' ↔ key ∈ keys) :
    exactItems keys' ns items = exactItems keys ns items := by
  have hflt : items.filter (fun item => Requested keys' ns item.inner.elementIdentifier) =
      items.filter fun item => Requested keys ns item.inner.elementIdentifier :=
    filter_congr fun _ _ => decide_eq_decide.2 (requested_congr h)
  rw [exactItems, hflt]
  exact if_congr (by simp [h]) rfl rfl

/-- The element list of a namespace without a key for all of it keeps the requested items. -/
lemma retainItems_of_not_mem (hns : nestedClaimMarker ∉ ns) (hmem : ns ∉ keys)
    (h : UnambiguousFor keys ns items) :
    retainItems ((elementsForNamespace keys).get? ns) items = exactItems keys ns items := by
  have hwhole : ¬(nestedClaimMarker ∉ ns ∧ ns ∈ keys ∧
      ∀ key ∈ keys, ¬Below nestedClaimMarker ns key) := fun hw => hmem hw.2.1
  rw [get?_elementsForNamespace_of_not_mem hmem, exactItems, if_neg hwhole]
  set T := elementsOf ns keys.eraseDups with hTdef
  have hT : ∀ e, e ∈ T ↔ ∃ key ∈ keys, classify key = (ns, some e) := fun e => by
    simp [hTdef, mem_elementsOf]
  have hflt : items.filter (fun item => Requested keys ns item.inner.elementIdentifier) =
      items.filter fun item => item.inner.elementIdentifier ∈ T := by
    refine filter_congr fun item hitem => decide_eq_decide.2 ?_
    rw [requested_iff_of_not_mem hmem, hT]
    refine exists_congr fun key => and_congr_right fun hkey => ⟨fun haddr => ?_, fun hc => ?_⟩
    · have hel : nestedClaimMarker ∉ item.inner.elementIdentifier := fun hel =>
        h.marker_el hns item hitem hel key hkey haddr
      exact classify_eq_some_iff.2 ⟨hns, hel, haddr⟩
    · exact (classify_eq_some_iff.1 hc).2.2
  rw [hflt]
  by_cases hnil : T = []
  · simp [hnil, retainItems]
  · rw [if_neg hnil]
    obtain ⟨e, T', hTe⟩ := exists_cons_of_ne_nil hnil
    rw [hTe]
    rfl

/-- A key for the whole namespace keeps all its items, and they are the requested ones. -/
lemma retainItems_of_mem (hns : nestedClaimMarker ∉ ns) (hmem : ns ∈ keys)
    (h : UnambiguousFor keys ns items) :
    retainItems ((elementsForNamespace keys).get? ns) items = exactItems keys ns items := by
  obtain ⟨T, hget, hT⟩ := exists_get?_elementsForNamespace hns hmem
  rw [hget]
  by_cases hbelow : ∀ key ∈ keys, ¬Below nestedClaimMarker ns key
  · -- no key names an element of the namespace
    have hnil : T = [] := by
      refine eq_nil_iff_forall_not_mem.2 fun e he => ?_
      obtain ⟨key, hkey, hc⟩ := hT e he
      exact hbelow key hkey (below_of_classify hc)
    rw [hnil, exactItems, if_pos ⟨hns, hmem, hbelow⟩]
    rfl
  · -- every key for an element addresses all the items
    have hwhole : ¬(nestedClaimMarker ∉ ns ∧ ns ∈ keys ∧
        ∀ key ∈ keys, ¬Below nestedClaimMarker ns key) := fun hw => hbelow hw.2.2
    push Not at hbelow
    obtain ⟨key, hkey, hkeyB⟩ := hbelow
    obtain ⟨hne, hall⟩ := h.whole hns hmem key hkey hkeyB
    have hrequ : items.filter
        (fun item => Requested keys ns item.inner.elementIdentifier) = items := by
      refine filter_eq_self.2 fun item hitem => decide_eq_true ?_
      exact requested_of_atOrBelow hkey (hall item hitem)
    rw [exactItems, if_neg hwhole, hrequ, if_neg hne]
    by_cases hnil : T = []
    · simp [hnil, retainItems]
    · refine (retainItems_eq_some_iff hnil).2 ⟨hne, filter_eq_self.2 fun item hitem => ?_⟩
      obtain ⟨e, he⟩ := exists_mem_of_ne_nil T hnil
      obtain ⟨key', hkey', hc⟩ := hT e he
      have haddr := (h.whole hns hmem key' hkey' (below_of_classify hc)).2 item hitem
      have hel : nestedClaimMarker ∉ item.inner.elementIdentifier := fun hel =>
        h.marker_el hns item hitem hel key' hkey' haddr
      have hc' := classify_eq_some_iff.2 ⟨hns, hel, haddr⟩
      obtain rfl : e = item.inner.elementIdentifier := by
        simpa using hc.symm.trans hc'
      exact decide_eq_true he

lemma retainItems_eq_exactItems (h : UnambiguousFor keys ns items) :
    retainItems ((elementsForNamespace keys).get? ns) items = exactItems keys ns items := by
  by_cases hns : nestedClaimMarker ∈ ns
  · have hnil : items.filter
        (fun item => Requested keys ns item.inner.elementIdentifier) = [] := by
      refine filter_eq_nil_iff.2 fun item hitem => ?_
      simpa using h.marker_ns hns item hitem
    rw [get?_elementsForNamespace_of_marker hns]
    simp [exactItems, hns, hnil, retainItems]
  · by_cases hmem : ns ∈ keys
    · exact retainItems_of_mem hns hmem h
    · exact retainItems_of_not_mem hns hmem h

end Sufficient

/-! ### The result for the whole document -/

section Document

variable {namespaces kept : Namespaces} {ns : Str}
  {items : List (EmbeddedCbor IssuerSignedItem)}

lemma discloseNamespaces_eq_ok_iff :
    discloseNamespaces keys namespaces = .ok kept ↔
      kept.entries ≠ [] ∧ kept = namespaces.retain fun ns claims =>
        retainItems ((elementsForNamespace keys).get? ns) claims := by
  simp only [discloseNamespaces, ite_eq_iff, reduceCtorEq, and_false, false_or, Except.ok.injEq,
    eq_comm (a := kept)]
  exact and_congr_left fun h => by rw [h]

lemma get?_of_discloseNamespaces (h : discloseNamespaces keys namespaces = .ok kept)
    (hmem : (ns, items) ∈ namespaces.entries) :
    kept.get? ns = retainItems ((elementsForNamespace keys).get? ns) items := by
  obtain ⟨-, rfl⟩ := discloseNamespaces_eq_ok_iff.1 h
  rw [get?_retain, get?_eq_some_iff.2 hmem, bind_some]

lemma exists_discloseNamespaces_eq_ok (hmem : (ns, items) ∈ namespaces.entries)
    {w : List (EmbeddedCbor IssuerSignedItem)}
    (h : retainItems ((elementsForNamespace keys).get? ns) items = some w) :
    ∃ kept, discloseNamespaces keys namespaces = .ok kept := by
  refine ⟨_, discloseNamespaces_eq_ok_iff.2 ⟨fun hnil => ?_, rfl⟩⟩
  have hw : (ns, w) ∈ (namespaces.retain fun ns claims =>
      retainItems ((elementsForNamespace keys).get? ns) claims).entries :=
    mem_retain.2 ⟨items, hmem, h⟩
  rw [hnil] at hw
  exact absurd hw not_mem_nil

lemma keptItems_discloseNamespaces (hmem : (ns, items) ∈ namespaces.entries) :
    keptItems (discloseNamespaces keys namespaces) ns =
      (retainItems ((elementsForNamespace keys).get? ns) items).getD [] := by
  cases h : retainItems ((elementsForNamespace keys).get? ns) items with
  | some w =>
    obtain ⟨kept, hkept⟩ := exists_discloseNamespaces_eq_ok hmem h
    rw [hkept, keptItems, get?_of_discloseNamespaces hkept hmem, h]
  | none =>
    cases hres : discloseNamespaces keys namespaces with
    | error e => rfl
    | ok kept => rw [keptItems, get?_of_discloseNamespaces hres hmem, h]

lemma keptItems_of_not_mem (h : ns ∉ namespaces.keys) :
    keptItems (discloseNamespaces keys namespaces) ns = [] := by
  cases hres : discloseNamespaces keys namespaces with
  | error e => rfl
  | ok kept =>
    obtain ⟨-, rfl⟩ := discloseNamespaces_eq_ok_iff.1 hres
    rw [keptItems, get?_retain, get?_eq_none_iff.2 h]
    rfl

/-- The kept items are items of the document with the bytes they had, so their digests are
still the listed ones. -/
lemma verifyDigests_of_discloseNamespaces {env : Environment} {mso : MobileSecurityObject}
    (h : verifyDigests env mso namespaces = .ok ())
    (hres : discloseNamespaces keys namespaces = .ok kept) :
    verifyDigests env mso kept = .ok () := by
  rw [verifyDigests_eq_ok_iff] at h ⊢
  obtain ⟨-, rfl⟩ := discloseNamespaces_eq_ok_iff.1 hres
  intro ns w hw
  obtain ⟨items, hitems, hretain⟩ := mem_retain.1 hw
  obtain ⟨hsome, hlst⟩ := h ns items hitems
  exact ⟨hsome, fun item hitem => hlst item ((sublist_of_retainItems hretain).subset hitem)⟩

lemma discloseNamespaces_eq_of_unambiguous (h : Unambiguous keys namespaces)
    (hkeys : ∀ key, key ∈ keys' ↔ key ∈ keys) :
    discloseNamespaces keys' namespaces = discloseNamespaces keys namespaces := by
  have hu : ∀ ns items, (ns, items) ∈ namespaces.entries → UnambiguousFor keys' ns items := by
    intro ns items hmem
    have h' := h ns items hmem
    refine ⟨fun hns item hitem => ?_, fun hns item hitem hel key hkey => ?_,
      fun hns hmem' key hkey hbelow => ?_⟩
    · rw [requested_congr hkeys]
      exact h'.marker_ns hns item hitem
    · exact h'.marker_el hns item hitem hel key ((hkeys key).1 hkey)
    · exact h'.whole hns ((hkeys ns).1 hmem') key ((hkeys key).1 hkey) hbelow
  have hretain : (namespaces.retain fun ns claims =>
      retainItems ((elementsForNamespace keys').get? ns) claims) =
      namespaces.retain fun ns claims =>
        retainItems ((elementsForNamespace keys).get? ns) claims := by
    refine retain_congr fun ns items hmem => ?_
    rw [retainItems_eq_exactItems (hu ns items hmem), retainItems_eq_exactItems (h ns items hmem),
      exactItems_congr hkeys]
  rw [discloseNamespaces, discloseNamespaces, hretain]

lemma minimalDisclosure_of_unambiguous (h : Unambiguous keys namespaces) :
    MinimalDisclosure keys namespaces where
  kept_eq ns items hmem := by
    rw [keptItems_discloseNamespaces hmem, retainItems_eq_exactItems (h ns items hmem),
      getD_exactItems]
  kept_eq_nil _ hns := keptItems_of_not_mem hns
  order_irrelevant _ hkeys := discloseNamespaces_eq_of_unambiguous h hkeys
  digests_verify _ _ _ hdigs hres := verifyDigests_of_discloseNamespaces hdigs hres

/-! ### Exact disclosure needs unambiguous keys -/

/-- The same keys with the key for the whole namespace moved between those with `p` and the
others. -/
def moveWhole (keys : List Str) (ns : Str) (p : Str → Prop) [DecidablePred p] : List Str :=
  keys.filter (fun k => k ≠ ns ∧ p k) ++ ns :: keys.filter fun k => k ≠ ns ∧ ¬p k

lemma mem_moveWhole (p : Str → Prop) [DecidablePred p] (hns : ns ∈ keys) (key : Str) :
    key ∈ moveWhole keys ns p ↔ key ∈ keys := by
  simp only [moveWhole, mem_append, mem_cons, mem_filter, decide_eq_true_eq]
  by_cases hk : key = ns
  · simp [hk, hns]
  · by_cases hp : p key
    · simp [hk, hp]
    · simp [hk, hp]

/-- In the new order the element list has what the keys without `p` name. -/
lemma get?_elementsForNamespace_moveWhole (p : Str → Prop) [DecidablePred p]
    (hns : nestedClaimMarker ∉ ns) :
    ∃ T, (elementsForNamespace (moveWhole keys ns p)).get? ns = some T ∧
      ∀ e, e ∈ T ↔ ∃ key ∈ keys, ¬p key ∧ classify key = (ns, some e) := by
  have hnot : ns ∉ keys.filter fun k => k ≠ ns ∧ p k := by simp
  obtain ⟨T, hget, hT⟩ :=
    get?_elementsForNamespace_append (keys.filter fun k => k ≠ ns ∧ ¬p k) hns hnot
  refine ⟨T, hget, fun e => ?_⟩
  rw [hT]
  simp only [mem_filter, decide_eq_true_eq]
  refine exists_congr fun key => ⟨?_, ?_⟩
  · rintro ⟨⟨hkey, -, hp⟩, -, hc⟩
    exact ⟨hkey, hp, hc⟩
  · rintro ⟨hkey, hp, hc⟩
    have hne : key ≠ ns := by
      rintro rfl
      exact absurd hc (by simp [classify_eq_none_iff.2 ⟨rfl, hns⟩])
    exact ⟨⟨hkey, hne, hp⟩, fun h => hp h.2.2, hc⟩

variable {item : EmbeddedCbor IssuerSignedItem}

lemma mem_of_mem_getD_retainItems {T : List Str} (hT : T ≠ [])
    (h : item ∈ (retainItems (some T) items).getD []) : item.inner.elementIdentifier ∈ T := by
  cases hr : retainItems (some T) items with
  | none =>
    rw [hr] at h
    exact absurd h not_mem_nil
  | some w =>
    obtain ⟨-, rfl⟩ := (retainItems_eq_some_iff hT).1 hr
    rw [hr, getD_some, mem_filter] at h
    exact of_decide_eq_true h.2

variable (h : MinimalDisclosure keys namespaces)

include h

/-- An item whose identifier has a marker in it is never kept for a key that reaches it. -/
lemma not_atOrBelow_of_minimalDisclosure
    (hmem : (ns, items) ∈ namespaces.entries) (hns : nestedClaimMarker ∉ ns) (hitem : item ∈ items)
    (hel : nestedClaimMarker ∈ item.inner.elementIdentifier) (hkey : key ∈ keys) :
    ¬AtOrBelow nestedClaimMarker (ns ++ nestedClaimMarker :: item.inner.elementIdentifier)
      key := by
  intro haddr
  have hkept : item ∈ keptItems (discloseNamespaces keys namespaces) ns := by
    rw [h.kept_eq ns items hmem, mem_filter]
    exact ⟨hitem, decide_eq_true (requested_of_atOrBelow hkey haddr)⟩
  obtain ⟨e, hc⟩ := exists_classify_of_below hns haddr.below_append
  -- in some order of the keys, the element list is not empty and has only named elements
  obtain ⟨keys', hkeys', T, hget, hT⟩ : ∃ keys' : List Str, (∀ k, k ∈ keys' ↔ k ∈ keys) ∧
      ∃ T, (elementsForNamespace keys').get? ns = some T ∧
        ∀ e, e ∈ T ↔ ∃ key ∈ keys, classify key = (ns, some e) := by
    by_cases hwhole : ns ∈ keys
    · obtain ⟨T, hget, hT⟩ := get?_elementsForNamespace_moveWhole (fun _ => False) hns
      exact ⟨_, mem_moveWhole _ hwhole, T, hget, by simpa using hT⟩
    · have hne : elementsOf ns keys.eraseDups ≠ [] :=
        ne_nil_of_mem (mem_elementsOf.2 ⟨key, mem_eraseDups.2 hkey, hc⟩)
      refine ⟨keys, fun _ => Iff.rfl, elementsOf ns keys.eraseDups, ?_, fun e => ?_⟩
      · rw [get?_elementsForNamespace_of_not_mem hwhole, if_neg hne]
      · simp [mem_elementsOf]
  rw [← h.order_irrelevant keys' hkeys', keptItems_discloseNamespaces hmem, hget] at hkept
  have hTne : T ≠ [] := ne_nil_of_mem ((hT e).2 ⟨key, hkey, hc⟩)
  obtain ⟨key', -, hc'⟩ := (hT _).1 (mem_of_mem_getD_retainItems hTne hkept)
  exact (classify_eq_some_iff.1 hc').2.1 hel

/-- Next to a key for the whole namespace, a key for an element has to address all items. -/
lemma whole_of_minimalDisclosure (hmem : (ns, items) ∈ namespaces.entries) (hns : nestedClaimMarker ∉ ns)
    (hwhole : ns ∈ keys) (hkey : key ∈ keys) (hbelow : Below nestedClaimMarker ns key) :
    items ≠ [] ∧ ∀ item ∈ items,
      AtOrBelow nestedClaimMarker (ns ++ nestedClaimMarker :: item.inner.elementIdentifier)
        key := by
  obtain ⟨e, hc⟩ := exists_classify_of_below hns hbelow
  -- with the key for the whole namespace at the end, everything is kept
  obtain ⟨T₁, hget₁, hT₁⟩ := get?_elementsForNamespace_moveWhole (fun _ => True) hns
  have hnil₁ : T₁ = [] := eq_nil_iff_forall_not_mem.2 fun e he => by
    simpa using (hT₁ e).1 he
  have hretain₁ : retainItems ((elementsForNamespace (moveWhole keys ns fun _ => True)).get? ns)
      items = some items := by
    rw [hget₁, hnil₁]
    rfl
  obtain ⟨kept, hres₁⟩ := exists_discloseNamespaces_eq_ok hmem hretain₁
  have hkept := (get?_of_discloseNamespaces hres₁ hmem).trans hretain₁
  rw [h.order_irrelevant _ (mem_moveWhole _ hwhole)] at hres₁
  -- with the keys for the element after it, only that element is kept
  obtain ⟨T₂, hget₂, hT₂⟩ :=
    get?_elementsForNamespace_moveWhole (fun k => classify k ≠ (ns, some e)) hns
  have hres₂ := (h.order_irrelevant _
    (mem_moveWhole (fun k => classify k ≠ (ns, some e)) hwhole)).trans hres₁
  rw [get?_of_discloseNamespaces hres₂ hmem, hget₂] at hkept
  have hne₂ : T₂ ≠ [] := ne_nil_of_mem ((hT₂ e).2 ⟨key, hkey, by simpa using hc, hc⟩)
  obtain ⟨hitems, hflt⟩ := (retainItems_eq_some_iff hne₂).1 hkept
  refine ⟨hitems, fun item hitem => ?_⟩
  have hel : item.inner.elementIdentifier ∈ T₂ :=
    of_decide_eq_true (filter_eq_self.1 hflt item hitem)
  obtain ⟨key', -, hp, hc'⟩ := (hT₂ _).1 hel
  obtain rfl : e = item.inner.elementIdentifier := by
    simpa using (not_not.1 hp).symm.trans hc'
  exact (classify_eq_some_iff.1 hc).2.2

lemma unambiguous_of_minimalDisclosure : Unambiguous keys namespaces := by
  intro ns items hmem
  refine ⟨fun hns item hitem hreq => ?_, fun hns item hitem hel key hkey => ?_,
    fun hns hwhole key hkey hbelow => ?_⟩
  · have hkept := h.kept_eq ns items hmem
    rw [keptItems_discloseNamespaces hmem, get?_elementsForNamespace_of_marker hns] at hkept
    have hnil : items.filter (fun item => Requested keys ns item.inner.elementIdentifier) = [] :=
      hkept.symm
    exact filter_eq_nil_iff.1 hnil item hitem (decide_eq_true hreq)
  · exact not_atOrBelow_of_minimalDisclosure h hmem hns hitem hel hkey
  · exact whole_of_minimalDisclosure h hmem hns hwhole hkey hbelow

end Document

/-- The selective disclosure of a token keeps what `discloseNamespaces` keeps, and that is
exactly what was requested, in any order of the keys, if and only if the keys are unambiguous
for the document. -/
theorem prepareSelectiveDisclosure_minimal_iff (env : Environment) (token : String)
    (keys : List Str) {issuerSigned : IssuerSigned} {namespaces : Namespaces}
    (hdecode : env.decodeIssuerSigned token = .ok issuerSigned)
    (hns : issuerSigned.nameSpaces = some namespaces) :
    (prepareSelectiveDisclosure env token keys = do
      let kept ← discloseNamespaces keys namespaces
      env.encodeIssuerSigned { issuerSigned with nameSpaces := some kept }) ∧
    (MinimalDisclosure keys namespaces ↔ Unambiguous keys namespaces) := by
  refine ⟨?_, unambiguous_of_minimalDisclosure, minimalDisclosure_of_unambiguous⟩
  rw [prepareSelectiveDisclosure, hdecode]
  simp [bind, hns, okOr, Except.bind]

section Sample

def sampleItem (digestId : Nat) (el : Str) : EmbeddedCbor IssuerSignedItem :=
  ⟨⟨digestId, [], el, .text el⟩, []⟩

def sampleNamespaces : Namespaces :=
  ⟨[(['n'], [sampleItem 0 ['a'], sampleItem 1 ['b']])], by simp⟩

def sampleIssuerSigned (namespaces : Namespaces) : IssuerSigned :=
  ⟨some namespaces, ⟨⟨none, some algorithmES256⟩, [], none, []⟩⟩

def sampleMso : MobileSecurityObject :=
  ⟨.sha256, .empty, ⟨keyTypeOkp, []⟩, "mdl", ⟨0, 0, 0, none⟩, none⟩

def sampleEnvironment : Environment :=
  .fixed (sampleIssuerSigned sampleNamespaces) sampleMso ⟨"", 0, none, .error ""⟩
    fun _ _ _ _ => .ok ()

/-- The element key comes first and the namespace key makes the code forget it: the item `b`
is disclosed although only `a` was asked for. -/
theorem discloseNamespaces_keeps_unrequested :
    (keptItems (discloseNamespaces [['n', '/', 'a'], ['n']] sampleNamespaces) ['n']).map
        (fun item => item.inner.elementIdentifier) = [['a'], ['b']] ∧
      ¬Requested [['n', '/', 'a'], ['n']] ['n'] ['b'] ∧
      ¬MinimalDisclosure [['n', '/', 'a'], ['n']] sampleNamespaces := by
  refine ⟨by decide, by decide, fun h => ?_⟩
  have hkept := congrArg (map fun item => item.inner.elementIdentifier)
    (h.kept_eq ['n'] _ mem_cons_self)
  exact absurd hkept (by decide)

/-- A key for one element, and no key for the whole namespace, is unambiguous. -/
theorem prepareSelectiveDisclosure_minimal_element :
    MinimalDisclosure [['n', '/', 'a', '/', 'x']] sampleNamespaces :=
  (prepareSelectiveDisclosure_minimal_iff sampleEnvironment "token" [['n', '/', 'a', '/', 'x']]
    rfl rfl).2.2 (by
      intro ns items hmem
      obtain ⟨rfl, rfl⟩ : ns = ['n'] ∧ items = [sampleItem 0 ['a'], sampleItem 1 ['b']] := by
        simpa [sampleNamespaces] using hmem
      exact ⟨by decide, by decide, by decide⟩)

end Sample

end OneCore.Mdoc
