/-
# Keys that need not name claims

The holder follows a key part by part.  A part names a field, or an element of an array by its index;
the index may be written in more than one way.  A part that no field is named by ends the walk, and
the disclosures met so far are kept.  So a key *reaches* the claims on the way as far as it can be read
and, if it can be read to its end, those below (`Reached`).

The disclosures that are selected for a list of keys are those of the claims that are reached by the
keys which no other key continues (`mem_selectDisclosures_iff`).  Nothing is selected inside the plain
values of a payload, or in the list of digests itself.
-/
import OneCore.SdJwt.Token

namespace OneCore.SdJwt

open List LabelledTree JsonValue SdTree
open Path (IsLeaf)

/-! ### Reading keys -/

/-- The label that a part of a key stands for in a value. -/
def readLabel (part : Str) : JsonValue → Str
  | .array _ =>
    match Decimal.parse usizeBound part with
    | .ok index => (toString index).toList
    | .error _ => part
  | _ => part

/-- The labels that are found along a key, and whether all of its parts are found. -/
def readAlong : List Str → JsonValue → List Str × Bool
  | [], _ => ([], true)
  | part :: parts, v =>
    match v.children.lookup (readLabel part v) with
    | some w => (readLabel part v :: (readAlong parts w).1, (readAlong parts w).2)
    | none => ([], false)

variable {parts : List Str} {part : Str} {v : JsonValue}

lemma readAlong_cons_of_lookup {w : JsonValue} {label : Str}
    (hlab : readLabel part v = label) (h : v.children.lookup label = some w) :
    readAlong (part :: parts) v = (label :: (readAlong parts w).1, (readAlong parts w).2) := by
  rw [readAlong, hlab, h]

lemma readAlong_cons_of_lookup_eq_none
    (h : v.children.lookup (readLabel part v) = none) : readAlong (part :: parts) v = ([], false) := by
  rw [readAlong, h]

/-- The path lies on the way along the key or, if there is something at the end of the key, at or
below it. -/
def Reached (claims : JsonValue) (key : Str) (p : List Str) : Prop :=
  p <+: (readAlong (key.splitOn nestedClaimMarker) claims).1 ∨
    (readAlong (key.splitOn nestedClaimMarker) claims).2 = true ∧
      (readAlong (key.splitOn nestedClaimMarker) claims).1 <+: p

/-! ### Values without digests -/

/-- There are no digests in the value. -/
inductive Inert : JsonValue → Prop
  | null : Inert .null
  | bool (b : Bool) : Inert (.bool b)
  | number (n : Number) : Inert (.number n)
  | string (s : Str) : Inert (.string s)
  | array {values : List JsonValue} (hplain : ∀ v ∈ values, ¬IsPlaceholder v)
      (h : ∀ v ∈ values, Inert v) : Inert (.array values)
  | object {fields : List (Str × JsonValue)} (hkeys : ∀ f ∈ fields, f.1 ≠ selectiveDisclosureMarker)
      (h : ∀ f ∈ fields, Inert f.2) : Inert (.object fields)

lemma Disclosable.inert (h : Disclosable v) : Inert v := by
  induction h with
  | bool b => exact .bool b
  | number n => exact .number n
  | string s => exact .string s
  | array _ hplain _ ih => exact .array hplain ih
  | object _ hkeys _ ih => exact .object hkeys ih

lemma inert_digests (digests : List Str) : Inert (.array (digests.map .string)) := by
  refine .array (fun v hv => ?_) fun v hv => ?_
  · obtain ⟨d, -, rfl⟩ := mem_map.1 hv
    rintro ⟨w, hw⟩
    cases hw
  · obtain ⟨d, -, rfl⟩ := mem_map.1 hv
    exact .string d

variable {texts : List Str} {fields : List (Str × JsonValue)} {last : Option JsonValue}
  {allDigests : List (Str × Disclosure)}

lemma arrayElementDisclosure_of_not_isPlaceholder (h : ¬IsPlaceholder v) :
    arrayElementDisclosure allDigests v = none := by
  unfold arrayElementDisclosure
  split
  · next key sdHash =>
    refine if_neg fun hkey => h ⟨.string sdHash, ?_⟩
    rw [hkey]
  · rfl

lemma objectDisclosures_eq_nil (h : ∀ f ∈ fields, f.1 ≠ selectiveDisclosureMarker) :
    objectDisclosures allDigests fields = [] := by
  have hlkp : fields.lookup selectiveDisclosureMarker = none := by
    rw [lookup_eq_none_iff]
    exact fun f hf => bne_iff_ne.2 fun heq => h f hf heq.symm
  rw [objectDisclosures, sdHashes, hlkp]
  rfl

/-- Nothing is selected on the way through a value without digests. -/
lemma Inert.selectAlong (hv : Inert v) {key : Str}
    (h : selectAlong allDigests key parts v = .ok (texts, last)) :
    texts = [] ∧ ∀ w ∈ last, Inert w := by
  induction parts generalizing v with
  | nil =>
    have hok : (Except.ok ([], some v) : Except FormatterError _) = .ok (texts, last) := by
      rw [← h]
      cases v <;> rfl
    obtain ⟨rfl, rfl⟩ := Prod.mk.inj (Except.ok.inj hok)
    refine ⟨rfl, fun w hw => ?_⟩
    cases hw
    exact hv
  | cons part parts ih =>
    cases hv with
    | @array values hplain hvals =>
      rw [SdJwt.selectAlong, bind_eq_ok] at h
      obtain ⟨i, -, h⟩ := h
      split at h
      · cases h
      · next child hch =>
        have hmem := mem_of_getElem? hch
        rw [arrayElementDisclosure_of_not_isPlaceholder (hplain child hmem)] at h
        exact ih (hvals child hmem) h
    | @object fields hkeys hfields =>
      rw [SdJwt.selectAlong] at h
      split at h
      · next child hch =>
        exact ih (hfields _ (mem_of_lookup hch)) h
      · rw [objectDisclosures_eq_nil hkeys] at h
        obtain ⟨rfl, rfl⟩ := Prod.mk.inj (Except.ok.inj h)
        exact ⟨rfl, fun w hw => (by cases hw)⟩
    | _ => cases h

lemma Inert.directDisclosures (hv : Inert v) : directDisclosures allDigests v = [] := by
  cases hv with
  | array hplain =>
    rw [SdJwt.directDisclosures, filterMap_eq_nil_iff]
    exact fun element helt => arrayElementDisclosure_of_not_isPlaceholder (hplain element helt)
  | object hkeys => exact objectDisclosures_eq_nil hkeys
  | _ => rfl

lemma Inert.collect (hv : Inert v) (bound : Nat) :
    collectAllSubdisclosures allDigests (bound + 1) v = .ok [] := by
  obtain ⟨arrange, -, hsucc⟩ := exists_collect_succ allDigests v
  rw [hsucc, hv.directDisclosures]
  rfl

/-! ### The walk along a key -/

variable {env : Environment} {Leaf : JsonValue → Prop}
  {children : List (Str × Link × SdTree)} {key : Str}

/-- The walk along a key has met the links of the tree that are on the way, and has ended where the
key leads to or in a value without digests. -/
def Follows (t : SdTree) (parts texts : List Str) (last : Option JsonValue) : Prop :=
  ∃ (links : List Link) (s : SdTree), t.walk (readAlong parts t.claims).1 = some (links, s) ∧
    texts = links.map Link.text ∧
    if (readAlong parts t.claims).2 then last = some s.payload else ∀ w ∈ last, Inert w

variable {kind : Container}

lemma Follows.cons {link : Link} {s : SdTree} {label : Str}
    (hlnk : Linked env Leaf (.node kind children)) (hlkp : children.lookup label = some (link, s))
    (hlab : readLabel part (claims (.node kind children)) = label)
    (h : Follows s parts texts last) :
    Follows (.node kind children) (part :: parts) (link.text :: texts) last := by
  obtain ⟨links, s', hwalk, rfl, hlast⟩ := h
  have hcls := lookup_map_snd (fun _ (c : Link × SdTree) => claims c.2) label children
  rw [hlkp] at hcls
  have hch : (claims (.node kind children)).children.lookup label =
      some (claims s) := by
    rw [hlnk.children_claims]
    exact hcls
  rw [Follows, readAlong_cons_of_lookup hlab hch]
  refine ⟨link :: links, s', ?_, rfl, hlast⟩
  exact walk_cons_eq_some_iff.2 ⟨link, s, links, hlkp, hwalk, rfl⟩

lemma follows_of_lookup_eq_none (hlnk : Linked env Leaf (.node kind children))
    (hlkp : children.lookup (readLabel part (claims (.node kind children))) = none)
    (hlast : ∀ w ∈ last, Inert w) : Follows (.node kind children) (part :: parts) [] last := by
  have hcls := lookup_map_snd (fun _ (c : Link × SdTree) => claims c.2)
    (readLabel part (claims (.node kind children))) children
  rw [hlkp] at hcls
  have hnone : (claims (.node kind children)).children.lookup
      (readLabel part (claims (.node kind children))) = none := by
    rw [hlnk.children_claims]
    exact hcls
  rw [Follows, readAlong_cons_of_lookup_eq_none hnone]
  exact ⟨[], _, rfl, rfl, hlast⟩

lemma find?_disclosure_eq_none {l : Str}
    (hleads : ∀ c ∈ children, c.2.1.LeadsTo env .object c.1 c.2.2) (h : children.lookup l = none) :
    ((children.map fun c => c.2.1.disclosure).find? fun d => d.key = some l) = none := by
  rw [find?_eq_none]
  intro d hd
  obtain ⟨c, hc, rfl⟩ := mem_map.1 hd
  have hkey : c.2.1.disclosure.key = some c.1 := (hleads c hc).key_eq
  have hne := bne_iff_ne.1 (lookup_eq_none_iff.1 h c hc)
  rw [hkey, decide_eq_true_eq]
  exact fun heq => hne (Option.some.inj heq).symm

/-- The step of the walk at an object with digests and plain values. -/
lemma HoldsDigests.follows
    (h : HoldsDigests (children.map fun c => c.2.1.digest) (children.map Prod.fst) fields)
    (hlnk : Linked env Leaf (.node .object children))
    (hlooks : LooksUp allDigests (.node .object children))
    (hrest : ∀ c ∈ children, ∀ texts last,
      selectAlong allDigests key parts c.2.2.payload = .ok (texts, last) →
        Follows c.2.2 parts texts last)
    (hsel : selectAlong allDigests key (part :: parts) (.object fields) = .ok (texts, last)) :
    Follows (.node .object children) (part :: parts) texts last := by
  have hlab : readLabel part (claims (.node .object children)) = part := rfl
  cases hlnk with
  | node labels leads hchs =>
  have hlnk : Linked env Leaf (.node .object children) := .node labels leads hchs
  rw [selectAlong] at hsel
  cases hfield : fields.lookup part with
  | some child =>
    -- a plain value, or the digests themselves
    have hmem := mem_of_lookup hfield
    have hinert : Inert child := by
      by_cases hmarker : part = selectiveDisclosureMarker
      · rw [hmarker, h.digests_eq] at hfield
        cases hfield
        exact inert_digests _
      · exact (h.plain _ hmem hmarker).inert
    have hnone : children.lookup part = none := by
      rw [lookup_eq_none_iff]
      refine fun c hc => bne_iff_ne.2 fun heq => h.fresh _ hmem ?_
      rw [show part = c.1 from heq]
      exact mem_map_of_mem hc
    rw [hfield] at hsel
    obtain ⟨rfl, hlast⟩ := hinert.selectAlong hsel
    exact follows_of_lookup_eq_none hlnk hnone hlast
  | none =>
    rw [hfield] at hsel
    simp only [objectDisclosures_eq hlooks h.digests_eq] at hsel
    cases hlkp : children.lookup part with
    | none =>
      rw [find?_disclosure_eq_none leads hlkp] at hsel
      obtain ⟨rfl, rfl⟩ := Prod.mk.inj (Except.ok.inj hsel)
      exact follows_of_lookup_eq_none hlnk hlkp fun w hw => (by cases hw)
    | some c =>
      obtain ⟨link, s⟩ := c
      have hc := mem_of_lookup hlkp
      have hval : link.disclosure.value = payload s := (leads _ hc).value_eq
      rw [find?_disclosure_of_lookup leads hlkp] at hsel
      obtain ⟨rest, hrest', hok⟩ := bind_eq_ok.1 hsel
      obtain ⟨rfl, rfl⟩ := Prod.mk.inj (Except.ok.inj hok)
      rw [hval] at hrest'
      exact (hrest _ hc rest.1 rest.2 hrest').cons hlnk hlkp hlab

variable {keys : List Str}

lemma holdsDigests_sdObject (digests : List Str)
    (h : selectiveDisclosureMarker ∉ keys) :
    HoldsDigests digests keys [(selectiveDisclosureMarker, .array (digests.map .string))] where
  unique := nodup_singleton _
  digests_eq := lookup_cons_self
  plain f hf hne := by
    rw [mem_singleton.1 hf] at hne
    exact absurd rfl hne
  fresh f hf := by
    rw [mem_singleton.1 hf]
    exact h

lemma lookup_of_getElem? {i : Nat} {c : Str × Link × SdTree}
    (hlabels : LabelsFit .array (children.map Prod.fst)) (h : children[i]? = some c) :
    children.lookup (toString i).toList = some c.2 := by
  have hfst := hlabels.1.trans (map_fst_indexedFrom_congr 0 (length_map Prod.fst))
  have hidx : indexed (children.map Prod.snd) = children :=
    (indexedFrom_map_of_labels Prod.snd hfst).trans (map_id _)
  rw [← hidx, lookup_indexed, getElem?_map, h, Option.map_some]

/-- A walk that does not fail follows the tree. -/
lemma Linked.follows (hleaf : ∀ v, Leaf v → IsScalar v) {t : SdTree}
    (hlnk : Linked env Leaf t) (hlooks : LooksUp allDigests t)
    (hsel : selectAlong allDigests key parts t.payload = .ok (texts, last)) :
    Follows t parts texts last := by
  induction parts generalizing t texts last with
  | nil =>
    have hok : (Except.ok ([], some t.payload) : Except FormatterError _) = .ok (texts, last) := by
      rw [← hsel]
      cases t.payload <;> rfl
    obtain ⟨rfl, rfl⟩ := Prod.mk.inj (Except.ok.inj hok)
    exact ⟨[], t, rfl, rfl, rfl⟩
  | cons part parts ih =>
    have hlnk' := hlnk
    cases hlnk with
    | @leaf v h =>
      have hscl := hleaf v h
      cases v with
      | array values => cases hscl
      | object fields => cases hscl
      | _ => cases hsel
    | @node kind children labels leads h =>
      have hrest : ∀ c ∈ children, ∀ texts last,
          selectAlong allDigests key parts c.2.2.payload = .ok (texts, last) →
            Follows c.2.2 parts texts last := by
        intro c hc texts last hsel
        exact ih (h c hc) (hlooks.of_subset (edges_subset_edges hc)) hsel
      cases kind with
      | object =>
        exact (holdsDigests_sdObject _ labels.2).follows hlnk' hlooks hrest hsel
      | array =>
        rw [payload, sdArray, selectAlong, bind_eq_ok] at hsel
        obtain ⟨i, hpar, hsel⟩ := hsel
        have hlab : readLabel part (claims (.node .array children)) =
            (toString i).toList := by
          rw [mapError_eq_ok] at hpar
          rw [claims, readLabel, hpar]
        split at hsel
        · cases hsel
        · next child hch =>
          rw [map_map, getElem?_map, Option.map_eq_some_iff] at hch
          obtain ⟨c, hc, rfl⟩ := hch
          have hmem := mem_of_getElem? hc
          have hdisc : arrayElementDisclosure allDigests (sdElement c.2.1.digest) =
              some c.2.1.disclosure := by
            exact hlooks c.2.1 (edge_mem_edges hmem)
          simp only [Function.comp_apply, hdisc] at hsel
          obtain ⟨rest, hrest', hok⟩ := bind_eq_ok.1 hsel
          obtain ⟨rfl, rfl⟩ := Prod.mk.inj (Except.ok.inj hok)
          rw [(leads c hmem).value_eq] at hrest'
          exact (hrest c hmem rest.1 rest.2 hrest').cons hlnk' (lookup_of_getElem? labels hc) hlab

lemma Carries.exists_fields {digests path : List Str} {payload : JsonValue}
    (h : Carries digests keys path payload) (allDigests : List (Str × Disclosure)) (key : Str) :
    ∃ fields, HoldsDigests digests keys fields ∧ ∀ parts,
      selectAlong allDigests key (path ++ parts) payload =
        selectAlong allDigests key parts (.object fields) := by
  induction h with
  | here h => exact ⟨_, h, fun parts => rfl⟩
  | inside unique plain value h ih =>
    obtain ⟨fields, hfields, hwalk⟩ := ih
    refine ⟨fields, hfields, fun parts => ?_⟩
    rw [cons_append, selectAlong, value]
    exact hwalk parts

/-! ### The keys of claims inside a payload -/

section Keys

/-- The key of a claim that is at a path in the payload. -/
def keyAt (userClaimPath : List Str) (key : Str) : Str :=
  if userClaimPath = [] then key
  else [nestedClaimMarker].intercalate userClaimPath ++ nestedClaimMarker :: key

lemma keysAt_eq_map (userClaimPath keys : List Str) :
    keysAt userClaimPath keys = keys.map (keyAt userClaimPath) := by
  unfold keysAt keyAt
  split
  · exact (map_id keys).symm
  · rfl

variable {userClaimPath : List Str}

lemma splitOn_keyAt (hpath : ∀ l ∈ userClaimPath, nestedClaimMarker ∉ l) :
    (keyAt userClaimPath key).splitOn nestedClaimMarker =
      userClaimPath ++ key.splitOn nestedClaimMarker := by
  unfold keyAt
  split
  · next hnil => rw [hnil, nil_append]
  · next hne =>
    rw [splitOn_append_cons_self, splitOn_intercalate nestedClaimMarker hpath hne]

lemma mem_leafs_keysAt_iff {k : Str} :
    k ∈ pathsToLeafs (keysAt userClaimPath keys) ↔
      ∃ key, IsLeaf nestedClaimMarker keys key ∧ k = keyAt userClaimPath key := by
  rw [mem_pathsToLeafs_iff, keysAt_eq_map]
  by_cases hnil : userClaimPath = []
  · have hid : ∀ key, keyAt userClaimPath key = key := fun key => if_pos hnil
    rw [map_congr_left fun key _ => hid key, map_id']
    constructor
    · exact fun h => ⟨k, h, (hid k).symm⟩
    · rintro ⟨key, hleaf, rfl⟩
      rwa [hid]
  · have hkey : ∀ key, keyAt userClaimPath key =
        [nestedClaimMarker].intercalate userClaimPath ++ nestedClaimMarker :: key := fun key =>
      if_neg hnil
    rw [map_congr_left fun key _ => hkey key]
    constructor
    · intro h
      obtain ⟨key, -, rfl⟩ := mem_map.1 h.1
      exact ⟨key, (Path.isLeaf_map_append_iff _ key).1 h, (hkey key).symm⟩
    · rintro ⟨key, hleaf, rfl⟩
      rw [hkey]
      exact (Path.isLeaf_map_append_iff _ key).2 hleaf

end Keys

/-! ### The selected disclosures -/

variable (hleaf : ∀ v, Leaf v → IsScalar v) {path : List Str} {payload : JsonValue}

/-- The text is that of a link on the way along a key or, if the key can be read to its end, below. -/
def Selects (t : SdTree) (key text : Str) : Prop :=
  ∃ (links : List Link) (s : SdTree),
    t.walk (readAlong (key.splitOn nestedClaimMarker) t.claims).1 = some (links, s) ∧
      (text ∈ links.map Link.text ∨
        (readAlong (key.splitOn nestedClaimMarker) t.claims).2 = true ∧
          text ∈ s.edges.map Link.text)

lemma Selects.exists_link {t : SdTree} {text : Str} (h : Selects t key text) :
    ∃ link ∈ t.edges, link.text = text := by
  obtain ⟨links, s, hwalk, hx⟩ := h
  obtain ⟨hlinks, hs⟩ := mem_edges_of_walk hwalk
  rcases hx with hx | ⟨-, hx⟩
  · obtain ⟨link, hlink, rfl⟩ := mem_map.1 hx
    exact ⟨link, hlinks hlink, rfl⟩
  · obtain ⟨link, hlink, rfl⟩ := mem_map.1 hx
    exact ⟨link, hs hlink, rfl⟩

section Selected

variable (hlnk : Linked env Leaf (.node .object children))
  (hlooks : LooksUp allDigests (.node .object children))
  (hcarr : Carries (children.map fun c => c.2.1.digest) (children.map Prod.fst) path payload)
  (hpath : ∀ l ∈ path, nestedClaimMarker ∉ l) {bound : Nat}
  (hbound : height sizeOf (.node .object children : SdTree) + 1 ≤ bound)
include hleaf hlnk hlooks hcarr hpath hbound

lemma mem_selectForKey_iff {out : List Str}
    (h : selectForKey allDigests bound payload (keyAt path key) = .ok out) :
    (∃ texts last, Follows (.node .object children) (key.splitOn nestedClaimMarker) texts last) ∧
      ∀ x, x ∈ out ↔ Selects (.node .object children) key x := by
  obtain ⟨fields, hfields, hwalk⟩ := hcarr.exists_fields allDigests (keyAt path key)
  obtain ⟨part, parts, hparts⟩ := exists_cons_of_ne_nil (splitOn_ne_nil nestedClaimMarker key)
  simp only [selectForKey, splitOn_keyAt hpath, hwalk, ok_iffs] at h
  obtain ⟨⟨onTheWay, last⟩, hsel, hlast⟩ := h
  have hfoll : Follows (.node .object children) (key.splitOn nestedClaimMarker) onTheWay last := by
    rw [hparts] at hsel ⊢
    refine hfields.follows hlnk hlooks (fun c hc texts last hrest => ?_) hsel
    cases hlnk with
    | node labels leads hchs =>
      exact (hchs c hc).follows hleaf (hlooks.of_subset (edges_subset_edges hc)) hrest
  refine ⟨⟨onTheWay, last, hfoll⟩, fun x => ?_⟩
  obtain ⟨links, s, hwalk', rfl, hend⟩ := hfoll
  -- the links and the subtree are determined by the key
  have hsels : Selects (.node .object children) key x ↔ x ∈ links.map Link.text ∨
      (readAlong (key.splitOn nestedClaimMarker) (claims (.node .object children))).2 = true ∧
        x ∈ s.edges.map Link.text := by
    constructor
    · rintro ⟨links', s', hwalk'', hx⟩
      obtain ⟨rfl, rfl⟩ := Prod.mk.inj (mem_unique hwalk' hwalk'')
      exact hx
    · exact fun hx => ⟨links, s, hwalk', hx⟩
  rw [hsels]
  obtain ⟨bound, rfl⟩ : ∃ b, bound = b + 1 := ⟨bound - 1, by omega⟩
  split at hend
  · next hwhole =>
    subst hend
    have hsub := (mem_edges_of_walk hwalk').2
    have hheight := height_le_of_walk sizeOf hwalk'
    obtain ⟨below, hbelow, hiff⟩ := exists_collectAllSubdisclosures hleaf (hlnk.of_walk hwalk')
      (hlooks.of_subset hsub)
    simp only [hbelow _ (show bound + 1 ≥ _ by omega)] at hlast
    cases hlast
    rw [mem_append, hiff, hwhole]
    simp
  · next hwhole =>
    have hout : links.map Link.text = out := by
      cases last with
      | none => exact Except.ok.inj hlast
      | some v =>
        simp only [(hend v rfl).collect bound] at hlast
        exact (append_nil _).symm.trans (Except.ok.inj hlast)
    rw [← hout]
    simp [hwhole]

lemma mem_selectDisclosures_iff {disclosures : List Disclosure} {selected : List Str}
    (hdigs : computeDigests env disclosures = .ok allDigests)
    (h : selectDisclosures env bound (keysAt path keys) payload disclosures = .ok selected) :
    (∀ key, IsLeaf nestedClaimMarker keys key → ∃ texts last,
        Follows (.node .object children) (key.splitOn nestedClaimMarker) texts last) ∧
      ∀ x, x ∈ selected ↔ ∃ key, IsLeaf nestedClaimMarker keys key ∧
        Selects (.node .object children) key x := by
  rw [selectDisclosures, hdigs] at h
  obtain ⟨_, hok, h⟩ := bind_eq_ok.1 h
  cases hok
  obtain ⟨result, hres, hok⟩ := bind_eq_ok.1 h
  cases hok
  obtain ⟨outs, hall, rfl⟩ := Except.flatMapM_eq_ok.1 hres
  have hkey : ∀ key, IsLeaf nestedClaimMarker keys key → ∃ out ∈ outs,
      selectForKey allDigests bound payload (keyAt path key) = .ok out := by
    intro key hkey
    obtain ⟨out, hout, hsel⟩ := hall.exists_of_mem_left (mem_leafs_keysAt_iff.2 ⟨key, hkey, rfl⟩)
    exact ⟨out, hout, hsel⟩
  refine ⟨fun key hleafKey => ?_, fun x => ?_⟩
  · obtain ⟨out, -, hsel⟩ := hkey key hleafKey
    exact (mem_selectForKey_iff hleaf hlnk hlooks hcarr hpath hbound hsel).1
  · rw [mem_eraseDups, mem_flatten]
    constructor
    · rintro ⟨out, hout, hx⟩
      obtain ⟨k, hk, hsel⟩ := hall.exists_of_mem_right hout
      obtain ⟨key, hleafKey, rfl⟩ := mem_leafs_keysAt_iff.1 hk
      have hiff := (mem_selectForKey_iff hleaf hlnk hlooks hcarr hpath hbound hsel).2
      exact ⟨key, hleafKey, (hiff x).1 hx⟩
    · rintro ⟨key, hleafKey, hx⟩
      obtain ⟨out, hout, hsel⟩ := hkey key hleafKey
      have hiff := (mem_selectForKey_iff hleaf hlnk hlooks hcarr hpath hbound hsel).2
      exact ⟨out, hout, (hiff x).2 hx⟩

end Selected

/-! ### Tokens of issued credentials -/

/-- A token with all disclosures of a credential, whose claims are at a path in the payload. -/
structure IssuedToken extends Issued where
  lib : TokenLibrary
  token : Str
  disclosures_eq : (tokenParts token).disclosures = disclosures
  /-- A disclosure is not an empty text. -/
  disclosures_nonempty : [] ∉ disclosures
  tokenPayload : JsonValue
  tokenPayload_eq : lib.decomposeToken (tokenParts token).jwt = .ok tokenPayload
  userClaimPath : List Str
  userClaimPath_plain : ∀ l ∈ userClaimPath, nestedClaimMarker ∉ l
  carries : Carries digests (claims.fields.map Prod.fst) userClaimPath tokenPayload

namespace IssuedToken

variable (cred : IssuedToken)

/-- The holder presents the claims at the given keys with the given token. -/
def Presents (keys : List Str) (token : Str) : Prop :=
  Returns (fun bound => prepareSdPresentation cred.env cred.lib bound cred.token keys
    cred.userClaimPath) token

variable {cred} {token : Str}

section Tree

variable (ht : cred.IsTree (.node .object children))
include ht

lemma carries_of_isTree :
    Carries (children.map fun c => c.2.1.digest) (children.map Prod.fst) cred.userClaimPath
      cred.tokenPayload := by
  have hdigs : (children.map fun c => c.2.1.digest) = cred.digests := by
    have h := ht.payload_eq
    have hfields := (cons.inj (object.inj h)).1
    have harr := array.inj (Prod.mk.inj hfields).2
    exact map_injective_iff.2 (fun a b hab => string.inj hab) harr
  rw [hdigs]
  refine cred.carries.mono fun k hk => ?_
  -- the labels of the tree are the keys of the claims
  obtain ⟨c, hc, rfl⟩ := mem_map.1 hk
  have hlkp : children.lookup c.1 = some c.2 :=
    (lookup_eq_some_iff_mem ht.linked.labels_nodup).2 hc
  have hpath := ht.atPath_eq [c.1] (cons_ne_nil _ _)
  have hwalk : walk [c.1] (.node .object children) = some ([c.2.1], c.2.2) :=
    walk_cons_eq_some_iff.2 ⟨c.2.1, c.2.2, [], hlkp, rfl, rfl⟩
  rw [atPath_claims (fun v h => ⟨h.2 rfl, h.1⟩) ht.linked, hwalk, atPath] at hpath
  obtain ⟨v, hv, -⟩ := Option.bind_eq_some_iff.1 hpath.symm
  exact mem_map_of_mem (mem_of_lookup hv)

/-- The keys are read in the claims of the tree as in those of the credential. -/
lemma readAlong_claims (hparts : parts ≠ []) :
    readAlong parts (claims (.node .object children)) = readAlong parts cred.claims.json := by
  obtain ⟨part, parts, rfl⟩ := exists_cons_of_ne_nil hparts
  have hlkp : (claims (.node .object children)).children.lookup part =
      cred.claims.json.children.lookup part := by
    have hpath := ht.atPath_eq [part] (cons_ne_nil _ _)
    simp only [atPath] at hpath
    cases h : (claims (.node .object children)).children.lookup part with
    | none =>
      rw [h] at hpath
      cases h' : cred.claims.json.children.lookup part with
      | none => rfl
      | some w =>
        rw [h'] at hpath
        cases hpath
    | some v =>
      rw [h] at hpath
      obtain ⟨w, hw, heq⟩ := Option.bind_eq_some_iff.1 hpath.symm
      rw [hw, Option.some.inj heq]
  have hlab : readLabel part (claims (.node .object children)) = part := rfl
  have hlab' : readLabel part cred.claims.json = part := rfl
  rw [readAlong, readAlong, hlab, hlab', hlkp]

/-- What is presented for some keys: the JWT with the disclosures that the keys select. -/
lemma exists_presented (h : cred.Presents keys token) : ∃ presented,
      tokenParts token = ⟨(tokenParts cred.token).jwt, presented, none⟩ ∧
      (∀ key, IsLeaf nestedClaimMarker keys key → ∃ texts last,
        Follows (.node .object children) (key.splitOn nestedClaimMarker) texts last) ∧
      ∀ x, x ∈ presented ↔ ∃ key, IsLeaf nestedClaimMarker keys key ∧
        Selects (.node .object children) key x := by
  obtain ⟨entries, hents, hdec, -⟩ := exists_entries ht.linked cred.reliable ht.text_mem
    fun s hs => (ht.mem_disclosures s).1 hs
  obtain ⟨allDigests, hdigs, hlooks⟩ := exists_computeDigests ht.linked cred.reliable ht.text_mem
    hents fun link hlink => (ht.mem_disclosures _).2 ⟨link, hlink, rfl⟩
  obtain ⟨bound₀, hbound⟩ := h
  -- a bound that is large enough for the selection
  have hprep := hbound
    (max bound₀ (height sizeOf (.node .object children : SdTree) + 1))
    (le_max_left _ _)
  simp only [prepareSdPresentation, parseToken, cred.disclosures_eq, hdec, ok_iffs] at hprep
  obtain ⟨_, ⟨_, hok, hparsed⟩, hprep⟩ := hprep
  cases hok
  cases hparsed
  obtain ⟨_, hpay, selected, hseld, htok⟩ := hprep
  have hpay' := hpay.symm.trans cred.tokenPayload_eq
  cases hpay'
  cases htok
  obtain ⟨hfoll, hmem⟩ := mem_selectDisclosures_iff (fun v h => h.2 rfl) ht.linked hlooks
    (carries_of_isTree ht) cred.userClaimPath_plain (le_max_right _ _) hdigs hseld
  have hmem' : ∀ x, x ∈ cred.lib.hashSetOrder selected ↔ ∃ key, IsLeaf nestedClaimMarker keys key ∧
      Selects (.node .object children) key x := fun x =>
    (cred.lib.hashSetOrder_perm selected).mem_iff.trans (hmem x)
  refine ⟨cred.lib.hashSetOrder selected, ?_, hfoll, hmem'⟩
  refine tokenParts_appendDisclosures not_mem_tokenParts.1 fun d hd => ?_
  obtain ⟨key, -, hd⟩ := (hmem' d).1 hd
  have hdisc : d ∈ cred.disclosures := (ht.mem_disclosures d).2 hd.exists_link
  refine ⟨not_mem_tokenParts.2 d (cred.disclosures_eq ▸ hdisc), ?_⟩
  rintro rfl
  exact cred.disclosures_nonempty hdisc

lemma exists_expandToken {presented : List Str}
    (hparts : tokenParts token = ⟨(tokenParts cred.token).jwt, presented, none⟩)
    (hpres : ∀ d ∈ presented, ∃ link ∈ edges (.node .object children : SdTree),
      link.text = d) :
    ∃ result, Returns (fun bound => expandToken cred.env cred.lib bound token) result ∧
      ∀ p ≠ [], seen (cred.userClaimPath ++ p) result =
        seen p (.mk false false (reveal presented (.node .object children))) := by
  obtain ⟨entries, hents, hdec, hhash⟩ := exists_entries ht.linked cred.reliable ht.text_mem hpres
  have hfinds : Finds entries presented (.node .object children) := fun link hlink =>
    findDisclosure_entries ht.linked cred.reliable ht.text_mem hents hlink
  have hcarr := carries_of_isTree ht
  obtain ⟨result, hres, hseen⟩ := hcarr.exists_expand (fun v h => h.1) ht.linked hfinds
  refine ⟨result, ⟨sizeOf cred.tokenPayload + heightOf sizeOf children + 3,
    fun bound hbound => ?_⟩, hseen⟩
  have hpar : parseToken cred.env token =
      .ok ⟨(tokenParts cred.token).jwt, entries.map HashedDisclosure.disclosure, none⟩ := by
    rw [parseToken, hparts, hdec]
    rfl
  show expandToken cred.env cred.lib bound token = _
  rw [expandToken, hpar]
  simp only [ok_iffs]
  exact ⟨_, rfl, _, cred.tokenPayload_eq, _, hhash, _, tryFrom_of_nullFree hcarr.nullFree,
    hres bound hbound⟩

end Tree

/-- The verifier of a presentation sees the claims that are reached by the keys which no other key
continues. -/
theorem seen_iff_reached (h : cred.Presents keys token) :
    ∃ result, Returns (fun bound => expandToken cred.env cred.lib bound token) result ∧
      ∀ p ≠ [], (seen (cred.userClaimPath ++ p) result).isSome ↔
        (cred.claims.json.atPath p).isSome ∧
          ∃ key, IsLeaf nestedClaimMarker keys key ∧ Reached cred.claims.json key p := by
  obtain ⟨children, ht⟩ := cred.exists_isTree
  obtain ⟨presented, hparts, hfoll, hmem⟩ := exists_presented ht h
  have hleaf : ∀ v, EncodedLeaf true v → IsScalar v ∧ Disclosable v := fun v h => ⟨h.2 rfl, h.1⟩
  have hread : ∀ key : Str, readAlong (key.splitOn nestedClaimMarker)
      (claims (.node .object children)) =
        readAlong (key.splitOn nestedClaimMarker) cred.claims.json := fun key =>
    readAlong_claims ht (splitOn_ne_nil nestedClaimMarker key)
  obtain ⟨result, hres, hseen⟩ := exists_expandToken ht hparts fun d hd => by
    obtain ⟨key, -, hd⟩ := (hmem d).1 hd
    exact hd.exists_link
  refine ⟨result, hres, fun p hp => ?_⟩
  -- the ends are those of the leaves of the keys, as far as they can be read
  have hiff : ∀ links s, walk p (.node .object children) = some (links, s) →
      ((∀ link ∈ links, link.text ∈ presented) ↔
        ∃ key, IsLeaf nestedClaimMarker keys key ∧ Reached cred.claims.json key p) := by
    intro links s hwalk
    have hall := @forall_presented_iff _ s presented p links (fun q whole =>
      ∃ key, IsLeaf nestedClaimMarker keys key ∧
        readAlong (key.splitOn nestedClaimMarker) (claims (.node .object children)) =
          (q, whole)) ht.nodup ?_ ?_ hp hwalk
    · rw [hall]
      constructor
      · rintro ⟨q, whole, ⟨key, hkey, hq⟩, hpq⟩
        refine ⟨key, hkey, ?_⟩
        rw [hread] at hq
        rw [Reached, hq]
        exact hpq
      · rintro ⟨key, hkey, hpq⟩
        rw [Reached, ← hread] at hpq
        exact ⟨_, _, ⟨key, hkey, rfl⟩, hpq⟩
    · rintro q whole ⟨key, hkey, hq⟩
      obtain ⟨texts, last, links, s, hwalk, -⟩ := hfoll key hkey
      rw [hq] at hwalk
      exact ⟨links, s, hwalk⟩
    · intro x
      rw [hmem]
      constructor
      · rintro ⟨key, hkey, links, s, hwalk, hx⟩
        exact ⟨_, _, ⟨key, hkey, rfl⟩, links, s, hwalk, hx⟩
      · rintro ⟨q, whole, ⟨key, hkey, hq⟩, links, s, hwalk, hx⟩
        refine ⟨key, hkey, links, s, ?_⟩
        rw [hq]
        exact ⟨hwalk, hx⟩
  rw [hseen p hp, ← ht.atPath_eq p hp, atPath_claims hleaf ht.linked, Option.isSome_map,
    Option.isSome_iff_exists, Option.isSome_iff_exists]
  constructor
  · rintro ⟨shape, hshape⟩
    obtain ⟨links, s, hwalk, hdisd, -⟩ := (seen_reveal_iff hleaf ht.linked hp false false).1 hshape
    exact ⟨⟨_, hwalk⟩, (hiff links s hwalk).1 hdisd⟩
  · rintro ⟨⟨⟨links, s⟩, hwalk⟩, hrch⟩
    exact ⟨_, (seen_reveal_iff hleaf ht.linked hp false false).2
      ⟨links, s, hwalk, (hiff links s hwalk).2 hrch, rfl⟩⟩

end IssuedToken

end OneCore.SdJwt
