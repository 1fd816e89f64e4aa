/-
# The items of a mobile document

A document has one item for each element of each namespace.  This file follows the elements of the
nested claims into the items and back: `WritesNamespace` and `ReadsNamespace` say what the writer and
the reader do with one namespace, `exists_item_of_element` finds the item of an element, and
`exists_claim_of_element` the claim that is read for it.
-/
import OneCore.Mdoc.Elements

namespace OneCore.Mdoc

open List JsonValue

/-! ### Namespaces as they are written -/

variable {namespaces : Namespaces} {env : IssuerEnvironment} {claims : List PublishedClaim} {ns : Str}
  {nested : List (Str × JsonValue)}

section Written

/-- The item has the name of the element and its CBOR value. -/
def WritesElement (env : IssuerEnvironment) (claims : List PublishedClaim) (ns : Str)
    (f : Str × JsonValue) (item : EmbeddedCbor IssuerSignedItem) : Prop :=
  item.inner.elementIdentifier = f.1 ∧
    buildCiboriumValue env claims (subPath ns f.1) f.2 = .ok item.inner.elementValue

/-- The entry has an item for each element of the namespace. -/
def WritesNamespace (env : IssuerEnvironment) (claims : List PublishedClaim)
    (f : Str × JsonValue) (e : Str × List (EmbeddedCbor IssuerSignedItem)) : Prop :=
  e.1 = f.1 ∧ ∃ object, f.2 = .object object ∧ Forall₂ (WritesElement env claims f.1) object e.2

lemma subPath_eq_pathKey (el : Str) : subPath ns el = pathKey [ns, el] := by
  have h : subPath (pathKey [ns]) el = pathKey [ns, el] :=
    subPath_pathKey (cons_ne_nil _ _) el
  simpa [pathKey] using h

variable {object : List (Str × JsonValue)} {items : List (EmbeddedCbor IssuerSignedItem)}
  {digestId : Nat}

lemma map_elementIdentifier (h : Forall₂ (WritesElement env claims ns) object items) :
    (items.map fun item => item.inner.elementIdentifier) = object.map Prod.fst := by
  induction h with
  | nil => rfl
  | cons h _ ih => rw [map_cons, map_cons, h.1, ih]

lemma writesElement_of_signedItems (h : signedItems env claims ns digestId object = .ok items) :
    Forall₂ (WritesElement env claims ns) object items := by
  induction object generalizing digestId items with
  | nil =>
    cases h
    exact .nil
  | cons f object ih =>
    simp only [signedItems, signedItem, ok_iffs] at h
    obtain ⟨_, ⟨value, hval, bytes, -, rfl⟩, rest, hrest, rfl⟩ := h
    exact .cons ⟨rfl, hval⟩ (ih hrest)

lemma writesNamespace_of_addNamespaces {result : Namespaces}
    (hnd : (namespaces.entries.map Prod.fst ++ nested.map Prod.fst).Nodup)
    (h : addNamespaces env claims digestId namespaces nested = .ok result) :
    ∃ added, result.entries = namespaces.entries ++ added ∧
      Forall₂ (WritesNamespace env claims) nested added := by
  induction nested generalizing digestId namespaces with
  | nil =>
    cases h
    exact ⟨[], (append_nil _).symm, .nil⟩
  | cons f nested ih =>
    rw [addNamespaces, bind_eq_ok] at h
    obtain ⟨object, hobj, h⟩ := h
    obtain ⟨items, hitems, h⟩ := bind_eq_ok.1 h
    have hobj := okOr_eq_ok.1 hobj
    have hval : f.2 = .object object := by
      cases hf : f.2 with
      | object fields =>
        rw [hf] at hobj
        rw [Option.some.inj hobj]
      | null | bool | number | string | array =>
        rw [hf] at hobj
        cases hobj
    -- the name of the namespace is new, so its entry comes last
    have hnew : f.1 ∉ namespaces.entries.map Prod.fst := fun hmem =>
      (nodup_append.1 hnd).2.2 _ hmem _ mem_cons_self rfl
    have hents : (namespaces.upsert f.1 fun old => old.getD [] ++ items).entries =
        namespaces.entries ++ [(f.1, items)] := IndexMap.upsertEntries_of_not_mem _ hnew
    obtain ⟨added, hadded, hwrs⟩ := ih (by simpa [hents] using hnd) h
    refine ⟨(f.1, items) :: added, by rw [hadded, hents]; simp, .cons ?_ hwrs⟩
    exact ⟨rfl, object, hval, writesElement_of_signedItems hitems⟩

lemma writesNamespace_of_tryBuildNamespaces (hnd : (nested.map Prod.fst).Nodup)
    (h : tryBuildNamespaces env claims nested = .ok namespaces) :
    Forall₂ (WritesNamespace env claims) nested namespaces.entries := by
  have hemp : ((IndexMap.empty : Namespaces).entries.map Prod.fst ++
      nested.map Prod.fst).Nodup := hnd
  obtain ⟨added, hadded, hwrs⟩ := writesNamespace_of_addNamespaces hemp h
  rwa [hadded]

end Written

/-! ### Namespaces as they are read -/

section Read

variable {env : Environment}

/-- Claims under new names are collected one after the other. -/
lemma foldlM_mapInsert_eq_ok_iff {α ν ε : Type} (key : α → Str) (read : α → Except ε ν)
    {l : List α} {content result : List (Str × ν)}
    (hnd : (content.map Prod.fst ++ l.map key).Nodup) :
    l.foldlM (fun content a => do
      let v ← read a
      return mapInsert (key a) v content) content = .ok result ↔
      ∃ fields, result = content ++ fields ∧
        Forall₂ (fun a f => f.1 = key a ∧ read a = .ok f.2) l fields := by
  induction l generalizing content with
  | nil =>
    simp only [foldlM_nil, pure_eq_ok, forall₂_nil_left_iff, exists_eq_right, append_nil]
    exact eq_comm
  | cons a l ih =>
    have hnew : key a ∉ content.map Prod.fst := fun hmem =>
      (nodup_append.1 hnd).2.2 _ hmem _ mem_cons_self rfl
    have hnd' : ∀ v : ν, ((content ++ [(key a, v)]).map Prod.fst ++ l.map key).Nodup := by
      intro v
      simpa using hnd
    simp only [foldlM_cons, bind_assoc, pure_bind, bind_eq_ok, mapInsert_of_not_mem _ hnew, ih (hnd' _)]
    constructor
    · rintro ⟨v, hv, fields, rfl, hfields⟩
      exact ⟨(key a, v) :: fields, by simp, .cons ⟨rfl, hv⟩ hfields⟩
    · rintro ⟨_, rfl, _ | ⟨⟨hkey, hv⟩, hfields⟩⟩
      exact ⟨_, hv, _, by simp [← hkey], hfields⟩

/-- The claim is read from the item and is under its name. -/
def ReadsElement (env : Environment) (item : EmbeddedCbor IssuerSignedItem)
    (f : Str × CredentialClaim) : Prop :=
  f.1 = item.inner.elementIdentifier ∧ itemClaim env item = .ok f.2

lemma namespaceClaims_eq_ok_iff {items : List (EmbeddedCbor IssuerSignedItem)}
    (hnd : (items.map fun item => item.inner.elementIdentifier).Nodup)
    {content : List (Str × CredentialClaim)} :
    namespaceClaims env items = .ok content ↔ Forall₂ (ReadsElement env) items content := by
  have h : namespaceClaims env items = .ok content ↔ ∃ fields, content = [] ++ fields ∧
      Forall₂ (ReadsElement env) items fields :=
    foldlM_mapInsert_eq_ok_iff (fun item : EmbeddedCbor IssuerSignedItem =>
      item.inner.elementIdentifier) (itemClaim env) hnd
  rw [h]
  simp

/-- The claim is the object of the claims of the namespace and is under its name. -/
def ReadsNamespace (env : Environment) (e : Str × List (EmbeddedCbor IssuerSignedItem))
    (f : Str × CredentialClaim) : Prop :=
  f.1 = e.1 ∧ ∃ content, f.2 = .mk true false (.object content) ∧
    namespaceClaims env e.2 = .ok content

lemma extractClaims_eq_ok_iff {claims : List (Str × CredentialClaim)} :
    extractClaims env namespaces = .ok claims ↔
      Forall₂ (ReadsNamespace env) namespaces.entries claims := by
  let read (e : Str × List (EmbeddedCbor IssuerSignedItem)) : Except FormatterError CredentialClaim :=
    do return .mk true false (.object (← namespaceClaims env e.2))
  have hread : ∀ e f, f.1 = e.1 ∧ read e = .ok f.2 ↔ ReadsNamespace env e f := by
    intro e f
    refine and_congr_right fun _ => ?_
    rw [bind_eq_ok]
    simp only [pure_eq_ok]
    exact exists_congr fun content => by rw [and_comm, eq_comm]
  have hfold : extractClaims env namespaces = namespaces.entries.foldlM (fun result e => do
      let v ← read e
      return mapInsert e.1 v result) [] := by
    simp [extractClaims, read]
  have hnd : (([] : List (Str × CredentialClaim)).map Prod.fst ++
      namespaces.entries.map Prod.fst).Nodup := namespaces.nodup
  rw [hfold, foldlM_mapInsert_eq_ok_iff Prod.fst read hnd]
  simp [hread]

end Read

/-! ### Elements as claims -/

variable {q : List Str} {v : JsonValue}
  {value : CborValue} {j : JsonValue}

lemma exists_string_of_leaf (laws : env.Laws) {c : PublishedClaim}
    (h : mapToCiboriumValue env c = .ok value)
    (hj : buildJsonValue env.toEnvironment value = .ok j) : ∃ s, j = .string s := by
  obtain ⟨d, datatype, hd, hdt⟩ := exists_datatype h
  have hdate : ∀ {isDate kind text}, handleDate env.toEnvironment (.text text) isDate kind = .ok j →
      ∃ s, j = .string s := by
    intro isDate kind text hj
    obtain ⟨s, -, hj⟩ := bind_eq_ok.1 hj
    obtain ⟨⟨⟩, -, hj⟩ := bind_eq_ok.1 hj
    exact ⟨s, (pure_eq_ok.1 hj).symm⟩
  cases writtenAs_of_mapToCiboriumValue h hd hdt with
  | string pattern | boolean b hb => exact ⟨_, (Except.ok.inj hj).symm⟩
  | number min max hn => exact ⟨_, (buildJsonValue_cborInteger.1 hj).2⟩
  | fullDate | dateTime => exact hdate hj
  | portrait accept fileSize hspl hbytes =>
    obtain ⟨s, -, hj⟩ := bind_eq_ok.1 hj
    exact ⟨_, (pure_eq_ok.1 hj).symm⟩
  | picture accept fileSize hspl =>
    exact ⟨_, Except.ok.inj (hj.symm.trans (picture_reads laws hspl))⟩

/-- No null is read from what was written. -/
lemma nullFree_of_buildJsonValue (laws : env.Laws) (hfilled : v.Filled) (hq : q ≠ [])
    (h : buildCiboriumValue env claims (pathKey q) v = .ok value)
    (hj : buildJsonValue env.toEnvironment value = .ok j) : NullFree j := by
  induction hfilled generalizing q value j with
  | scalar hscl hnull =>
    obtain ⟨c, -, -, hval⟩ := exists_claim_of_scalar h hscl hnull
    obtain ⟨s, rfl⟩ := exists_string_of_leaf laws hval hj
    exact .string s
  | @array values hne hvals ih =>
    obtain ⟨items, rfl, hitems⟩ := exists_items hq h
    cases items with
    | nil =>
      cases hj
      exact .array fun v hv => absurd hv not_mem_nil
    | cons first rest =>
      rcases buildJsonValue_array_cases hj with ⟨js, rfl, -, hjs⟩ | ⟨s, rfl⟩
      · refine .array fun j' hj' => ?_
        obtain ⟨item, hitem, hread⟩ := hjs.exists_of_mem_right hj'
        obtain ⟨l, u, -, hu, hwrite⟩ := exists_element_of_item hitems hitem
        exact ih u hu (by simp) hwrite hread
      · exact .string s
  | @object fields hne huniq hfields ih =>
    obtain ⟨fields', rfl, hrel⟩ := (object_relays_iff hq huniq h).1 hj
    refine .object fun f' hf' => ?_
    obtain ⟨f, hf, -, item, hwrite, hread⟩ := hrel.exists_of_mem_right hf'
    exact ih f hf (by simp) hwrite hread

/-- What is below a written value was written, too. -/
lemma exists_value_below (hq : q ≠ [])
    (h : buildCiboriumValue env claims (pathKey q) v = .ok value) {r : List Str} {u : JsonValue}
    (hu : v.atPath r = some u) :
    ∃ value', buildCiboriumValue env claims (pathKey (q ++ r)) u = .ok value' := by
  induction r generalizing q v value with
  | nil =>
    cases hu
    rw [append_nil]
    exact ⟨value, h⟩
  | cons l r ih =>
    obtain ⟨w, hw, hu⟩ := Option.bind_eq_some_iff.1 hu
    obtain ⟨item, hitem⟩ := exists_child hq h hw
    have hbelow := ih (by simp) hitem hu
    rwa [append_assoc] at hbelow

lemma itemClaim_eq_ok_iff (laws : env.Laws) (hfilled : v.Filled) (hq : q ≠ [])
    {item : EmbeddedCbor IssuerSignedItem}
    (h : buildCiboriumValue env claims (pathKey q) v = .ok item.inner.elementValue)
    {claim : CredentialClaim} :
    itemClaim env.toEnvironment item = .ok claim ↔
      ∃ j, buildJsonValue env.toEnvironment item.inner.elementValue = .ok j ∧
        claim = .mk true false (plainValue j) := by
  rw [itemClaim, bind_eq_ok]
  refine exists_congr fun j => and_congr_right fun hj => ?_
  rw [tryFrom_of_nullFree (nullFree_of_buildJsonValue laws hfilled hq h hj)]
  exact pure_eq_ok.trans eq_comm

/-! ### The tree of a document -/

section Tree

variable (hnest : nestClaims claims = .ok nested)
  (hwrite : tryBuildNamespaces env claims nested = .ok namespaces)
include hnest hwrite

variable {u : JsonValue}

lemma exists_items_of_namespace {w : JsonValue} (hw : nested.lookup ns = some w) :
    ∃ object items, w = .object object ∧ (object.map Prod.fst).Nodup ∧
      (∀ f ∈ object, JsonValue.Filled f.2) ∧ (ns, items) ∈ namespaces.entries ∧
      Forall₂ (WritesElement env claims ns) object items := by
  obtain ⟨hnd, hfilled⟩ := filled_of_nestClaims hnest
  obtain ⟨e, he, hname, object, hobj, hitems⟩ :=
    (writesNamespace_of_tryBuildNamespaces hnd hwrite).exists_of_mem_left (mem_of_lookup hw)
  obtain rfl : w = .object object := hobj
  obtain rfl : e.1 = ns := hname
  cases hfilled _ (mem_of_lookup hw) with
  | scalar hscl => cases hscl
  | object hne huniq hfields => exact ⟨object, e.2, rfl, huniq, hfields, he, hitems⟩

lemma exists_element_path (hu : (object nested).atPath q = some u)
    (hkind : u.kind ≠ .object) : ∃ ns el r, q = ns :: el :: r := by
  rcases q with _ | ⟨ns, _ | ⟨el, r⟩⟩
  · cases hu
    exact absurd rfl hkind
  · obtain ⟨w, hw, hu⟩ := Option.bind_eq_some_iff.1 hu
    cases hu
    obtain ⟨object, _, rfl, -⟩ := exists_items_of_namespace hnest hwrite hw
    exact absurd rfl hkind
  · exact ⟨ns, el, r, rfl⟩

variable {el : Str}

lemma exists_item_of_element
    (hv : (object nested).atPath [ns, el] = some v) :
    ∃ items item, (ns, items) ∈ namespaces.entries ∧
      (items.map fun i => i.inner.elementIdentifier).Nodup ∧ item ∈ items ∧
      item.inner.elementIdentifier = el ∧ v.Filled ∧
      buildCiboriumValue env claims (pathKey [ns, el]) v = .ok item.inner.elementValue := by
  obtain ⟨w, hw, hv⟩ := Option.bind_eq_some_iff.1 hv
  obtain ⟨object, items, rfl, hnd, hfilled, hmem, hitems⟩ :=
    exists_items_of_namespace hnest hwrite hw
  obtain ⟨v', hv', hv⟩ := Option.bind_eq_some_iff.1 hv
  obtain rfl := Option.some.inj hv
  have hlkp : object.lookup el = some v' := hv'
  obtain ⟨item, hitem, hname, hval⟩ := hitems.exists_of_mem_left (mem_of_lookup hlkp)
  have hnames := map_elementIdentifier hitems
  refine ⟨items, item, hmem, hnames ▸ hnd, hitem, hname, hfilled _ (mem_of_lookup hlkp), ?_⟩
  rwa [← subPath_eq_pathKey]

lemma exists_value_of_path {r : List Str}
    (hu : (object nested).atPath (ns :: el :: r) = some u) :
    u.Filled ∧ ∃ value, buildCiboriumValue env claims (pathKey (ns :: el :: r)) u = .ok value := by
  have hspl : (object nested).atPath ([ns, el] ++ r) = some u := hu
  obtain ⟨v, hv, hu⟩ := exists_atPath_of_append hspl
  obtain ⟨_, item, -, -, -, -, hfilled, hval⟩ := exists_item_of_element hnest hwrite hv
  exact ⟨hfilled.atPath hu, exists_value_below (by simp) hval hu⟩

/-- A document in which an array has taken the place of an object is never written: the first element
of the array has no claim. -/
lemma not_diverted {content : JsonValue} (hforms : Forms env.displayFloat claims content) :
    ¬Diverted content (.object nested) := by
  rintro ⟨q, values, fields, hq, hfields⟩
  obtain ⟨ns, el, r, rfl⟩ := exists_element_path hnest hwrite hq (by simp [kind])
  obtain ⟨hfilled, -⟩ := exists_value_of_path hnest hwrite hq
  cases hfilled with
  | scalar hscl => cases hscl
  | array hne _ =>
    obtain ⟨v, rest, rfl⟩ := exists_cons_of_ne_nil hne
    have hfst : (object nested).atPath (ns :: el :: (r ++ [['0']])) = some v := by
      have happ : ns :: el :: (r ++ [['0']]) = ns :: el :: r ++ [['0']] := rfl
      rw [happ, atPath_append, hq]
      rfl
    obtain ⟨hv, value, hval⟩ := exists_value_of_path hnest hwrite hfst
    obtain ⟨r', u, c, -, -, hc, hkey⟩ := exists_claim_below hv (by simp) hval
    -- the path of the claim leads through a field with the name `0`
    obtain ⟨p, -, -, hp, hleaf⟩ := hforms.exists_path hc
    have hbelow : Path.AtOrBelow nestedClaimMarker (pathKey (ns :: el :: (r ++ [['0']]))) c.key := by
      rw [hkey]
      exact Path.atOrBelow_intercalate (by simp) (prefix_append _ _)
    have hlabels : (pathKey (ns :: el :: r ++ [['0']])).splitOn nestedClaimMarker =
        ns :: el :: r ++ [['0']] := by
      refine splitOn_intercalate _ (fun l hl => ?_) (by simp)
      rcases mem_append.1 hl with hl | hl
      · exact hforms.not_mem_label hfields hl
      · obtain rfl := mem_singleton.1 hl
        decide
    have hpfx : ns :: el :: r ++ [['0']] <+: p := by
      rw [← hlabels, ← hp]
      exact hbelow.splitOn_isPrefix
    obtain ⟨p', rfl⟩ := hpfx
    obtain ⟨w, hw, -⟩ := exists_atPath_of_append hleaf
    rw [atPath_append, hfields, Option.bind_some] at hw
    obtain ⟨w', hw', -⟩ := Option.bind_eq_some_iff.1 hw
    exact (hforms.keys _ fields hfields _ (mem_of_lookup hw')).2 rfl

lemma exists_claim_of_element (laws : env.Laws) {result : List (Str × CredentialClaim)}
    (hread : extractClaims env.toEnvironment namespaces = .ok result)
    (hv : (object nested).atPath [ns, el] = some v) :
    ∃ content value j, result.lookup ns = some (.mk true false (.object content)) ∧
      content.lookup el = some (.mk true false (plainValue j)) ∧
      buildCiboriumValue env claims (pathKey [ns, el]) v = .ok value ∧
      buildJsonValue env.toEnvironment value = .ok j := by
  obtain ⟨items, item, hmem, hnd, hitem, rfl, hfilled, hval⟩ :=
    exists_item_of_element hnest hwrite hv
  obtain ⟨_, hns, content, rfl, hcont⟩ := exists_lookup_of_forall₂
    (R := fun e claim => ∃ content, claim = CredentialClaim.mk true false (.object content) ∧
      namespaceClaims env.toEnvironment e.2 = .ok content)
    (extractClaims_eq_ok_iff.1 hread) namespaces.nodup hmem
  obtain ⟨claim, hel, hclm⟩ := exists_lookup_of_forall₂
    (R := fun item claim => itemClaim env.toEnvironment item = .ok claim) ((namespaceClaims_eq_ok_iff hnd).1 hcont) hnd hitem
  obtain ⟨j, hj, rfl⟩ := (itemClaim_eq_ok_iff laws hfilled (by simp) hval).1 hclm
  exact ⟨content, _, j, hns, hel, hval, hj⟩

/-- If every element can be read, then all can. -/
lemma exists_extractClaims (laws : env.Laws)
    (hread : ∀ ns el v value, (object nested).atPath [ns, el] = some v →
      buildCiboriumValue env claims (pathKey [ns, el]) v = .ok value →
      ∃ j, buildJsonValue env.toEnvironment value = .ok j) :
    ∃ result, extractClaims env.toEnvironment namespaces = .ok result := by
  obtain ⟨hnd, -⟩ := filled_of_nestClaims hnest
  have hnames : ∀ e ∈ namespaces.entries, ∃ f, ReadsNamespace env.toEnvironment e f := by
    intro e he
    obtain ⟨f, hf, hname, object, hobj, -⟩ :=
      (writesNamespace_of_tryBuildNamespaces hnd hwrite).exists_of_mem_right he
    have hw : nested.lookup e.1 = some (.object object) := by
      rw [lookup_eq_some_iff_mem hnd, hname, ← hobj]
      exact hf
    obtain ⟨_, items, heq, huniq, hfilled, hmem, hitems⟩ :=
      exists_items_of_namespace hnest hwrite hw
    obtain rfl := JsonValue.object.inj heq
    obtain rfl := namespaces.value_unique he hmem
    have hclm : ∀ item ∈ e.2, ∃ f, ReadsElement env.toEnvironment item f := by
      intro item hitem
      obtain ⟨⟨el, v⟩, hel, hid, hval⟩ := hitems.exists_of_mem_right hitem
      have hv : (JsonValue.object nested).atPath [e.1, el] = some v := by
        have hlkp := (lookup_eq_some_iff_mem huniq).2 hel
        simp [atPath, children, hw, hlkp]
      rw [subPath_eq_pathKey] at hval
      obtain ⟨j, hj⟩ := hread e.1 el v _ hv hval
      exact ⟨(item.inner.elementIdentifier, .mk true false (plainValue j)), rfl,
        (itemClaim_eq_ok_iff laws (hfilled _ hel) (by simp) hval).2 ⟨j, hj, rfl⟩⟩
    obtain ⟨content, hcont⟩ := Forall₂.exists_of_forall hclm
    have hids : (e.2.map fun item => item.inner.elementIdentifier).Nodup := by
      rw [map_elementIdentifier hitems]
      exact huniq
    exact ⟨(e.1, .mk true false (.object content)), rfl, content, rfl,
      (namespaceClaims_eq_ok_iff hids).2 hcont⟩
  obtain ⟨result, hres⟩ := Forall₂.exists_of_forall hnames
  exact ⟨result, extractClaims_eq_ok_iff.2 hres⟩

end Tree

end OneCore.Mdoc
