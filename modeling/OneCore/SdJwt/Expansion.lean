/-
# Putting disclosures in their places

The verifier starts with the digests of the payload and replaces those of which it has the disclosure,
again and again.  What comes out is determined by the tree of disclosures and the links that are
disclosed (`expand_eq_reveal`): a field whose link is not disclosed is not there, and an element whose
link is not disclosed stays as its digest.

With all disclosures, in any order, the result is the object of claims that was encoded
(`expandedPayload_of_all`).  This rests on the encodings that are used: `Reliable` says that they can
be read back and that the hash is injective on the texts that are hashed.
-/
import OneCore.Lib.IterationOrder
import OneCore.SdJwt.Tree

namespace OneCore.SdJwt

open List LabelledTree JsonValue SdTree
open SdJwtVcFormatter (extendClaims)

lemma Disclosable.nullFree {v : JsonValue} (h : Disclosable v) : NullFree v := by
  induction h with
  | bool b => exact .bool b
  | number n => exact .number n
  | string s => exact .string s
  | array _ _ _ ih => exact .array ih
  | object _ _ _ ih => exact .object ih

/-! ### What the encodings are relied on for -/

/-- The texts that are hashed: the disclosures and the arrays inside them. -/
def hashedTexts (env : Environment) (disclosures : List Str) : Set Str :=
  {s | s ∈ disclosures ∨ ∃ d ∈ disclosures, env.stringToB64url s = .ok d}

/-- The encoding can be undone, the array inside each of the disclosures can be read, and the hash is
injective on the texts that are hashed. -/
structure Reliable (env : Environment) (disclosures : List Str) : Prop where
  decode_encode : ∀ s d, env.stringToB64url s = .ok d → env.b64urlToString d = .ok s
  /-- The alphabet of the encoding has no brackets. -/
  encode_ne_array : ∀ s d values, env.stringToB64url s = .ok d → d ≠ env.printJson (.array values)
  parse_print : ∀ values d, env.stringToB64url (env.printJson (.array values)) = .ok d →
    d ∈ disclosures → env.parseJson (env.printJson (.array values)) = .ok (.array values)
  hash_ok : ∀ s ∈ hashedTexts env disclosures, ∃ h, env.hashBase64Url s = .ok h
  hash_injOn : Set.InjOn env.hashBase64Url (hashedTexts env disclosures)

variable {t : SdTree}

section Reading

variable {env : Environment} {Leaf : JsonValue → Prop} {link : Link}

lemma Linked.exists_leadsTo (h : Linked env Leaf t)
    (hlink : link ∈ t.edges) : ∃ kind label s, link.LeadsTo env kind label s := by
  induction h with
  | leaf h => simp at hlink
  | node labels leads h ih =>
    rw [edges_node] at hlink
    obtain ⟨c, hc, hmem⟩ := mem_flatMap.1 hlink
    rcases mem_append.1 hmem with hmem | hmem
    · exact ih c hc hmem
    · obtain rfl := mem_singleton.1 hmem
      exact ⟨_, _, _, leads c hc⟩

lemma readDisclosure {salt : Str} {key : Option Str} {value : JsonValue}
    {array disclosure : Str}
    (h : env.parseJson array = .ok (.array (disclosureElements salt key value))) :
    parseDisclosure env array disclosure = .ok ⟨salt, key, value, array, disclosure⟩ := by
  cases key with
  | none =>
    -- an array of two elements is not one of a claim
    have hnone : readDisclosureArray (.array [.string salt, value]) = none := by
      cases value <;> rfl
    rw [parseDisclosure, h]
    simp only [disclosureElements, bind_eq_ok]
    exact ⟨_, rfl, by rw [hnone]; rfl⟩
  | some key =>
    rw [parseDisclosure, h]
    rfl

variable {texts : List Str} {kind : Container} {label : Str}

lemma Link.LeadsTo.decodeDisclosure_eq (h : link.LeadsTo env kind label t)
    (henv : Reliable env texts) (hmem : link.text ∈ texts) :
    decodeDisclosure env link.text = .ok link.disclosure := by
  have hencd := h.encoded
  have harr := h.array_eq
  have hpar := henv.parse_print _ _ (harr ▸ hencd) hmem
  rw [← harr] at hpar
  rw [decodeDisclosure, henv.decode_encode _ _ hencd]
  exact readDisclosure hpar

variable {kind' : Container} {label' : Str} {link' : Link} {t' : SdTree} {entry : HashedDisclosure}

section

variable (h : link.LeadsTo env kind label t)

include h

lemma Link.LeadsTo.disclosure_congr
    (h' : link'.LeadsTo env kind' label' t') (henv : Reliable env texts) (hmem : link.text ∈ texts)
    (heq : link'.text = link.text) : link'.disclosure = link.disclosure := by
  have hdec := h.decodeDisclosure_eq henv hmem
  rw [← heq, h'.decodeDisclosure_eq henv (heq ▸ hmem)] at hdec
  exact Except.ok.inj hdec

lemma Link.LeadsTo.array_mem_hashedTexts
    (hmem : link.text ∈ texts) : link.disclosure.disclosureArray ∈ hashedTexts env texts :=
  .inr ⟨_, hmem, h.encoded⟩

/-- Neither digest of a disclosure is that of another disclosure. -/
lemma Link.LeadsTo.disclosure_eq_of_digest (h' : link'.LeadsTo env kind' label' t')
    (henv : Reliable env texts) (hmem : link.text ∈ texts) (hmem' : link'.text ∈ texts)
    (hdig : env.hashBase64Url link'.text = .ok link.digest ∨
      env.hashBase64Url link'.disclosure.disclosureArray = .ok link.digest) :
    link'.text = link.text := by
  have htext : link.text ∈ hashedTexts env texts := .inl hmem
  rcases hdig with hdig | hdig
  · exact henv.hash_injOn (.inl hmem') htext (hdig.trans h.hashed.symm)
  · -- the text of an array is not one of a disclosure
    have heq := henv.hash_injOn (h'.array_mem_hashedTexts hmem') htext (hdig.trans h.hashed.symm)
    exact absurd (heq.symm.trans h'.array_eq) (henv.encode_ne_array _ _ _ h.encoded)

end

/-- The verifier's entry for the disclosure of a link. -/
structure EntryOf (env : Environment) (t : SdTree) (text : Str) (entry : HashedDisclosure) :
    Prop where
  exists_link : ∃ link ∈ t.edges, link.text = text ∧ entry.disclosure = link.disclosure
  hashed : entry.disclosure.hashDisclosure env = .ok entry.hash
  arrayHashed : entry.disclosure.hashDisclosureArray env = .ok entry.arrayHash

variable {disclosed : List Str} (hlnk : Linked env Leaf t) (henv : Reliable env texts)
  (htexts : ∀ link ∈ t.edges, link.text ∈ texts)
include hlnk henv htexts

lemma exists_entries
    (hdisd : ∀ s ∈ disclosed, ∃ link ∈ t.edges, link.text = s) :
    ∃ entries, Forall₂ (EntryOf env t) disclosed entries ∧
      disclosed.mapM (decodeDisclosure env) = .ok (entries.map HashedDisclosure.disclosure) ∧
      hashDisclosures env (entries.map HashedDisclosure.disclosure) = .ok entries := by
  have hent : ∀ s ∈ disclosed, ∃ entry, EntryOf env t s entry := by
    intro s hs
    obtain ⟨link, hlink, rfl⟩ := hdisd s hs
    obtain ⟨kind, label, u, hleads⟩ := hlnk.exists_leadsTo hlink
    obtain ⟨h, hh⟩ := henv.hash_ok _ (.inl (htexts link hlink))
    obtain ⟨h', hh'⟩ := henv.hash_ok _ (hleads.array_mem_hashedTexts (htexts link hlink))
    exact ⟨⟨link.disclosure, h, h'⟩, ⟨link, hlink, rfl, rfl⟩, hh, hh'⟩
  obtain ⟨entries, hents⟩ := Forall₂.exists_of_forall hent
  refine ⟨entries, hents, mapM_eq_ok.2 ?_, mapM_eq_ok.2 ?_⟩
  · refine forall₂_map_right_iff.2 (hents.imp fun s entry h => ?_)
    obtain ⟨link, hlink, rfl, hent⟩ := h.exists_link
    obtain ⟨kind, label, u, hleads⟩ := hlnk.exists_leadsTo hlink
    rw [hent]
    exact hleads.decodeDisclosure_eq henv (htexts link hlink)
  · refine forall₂_map_left_iff.2 (forall₂_same.2 fun entry hmem => ?_)
    obtain ⟨s, -, h⟩ := hents.exists_of_mem_right hmem
    simp only [h.hashed, h.arrayHashed]
    rfl

lemma EntryOf.of_digest {text : Str} (h : EntryOf env t text entry)
    (hlink : link ∈ t.edges) (hdig : link.digest = entry.hash ∨ link.digest = entry.arrayHash) :
    text = link.text ∧ entry.disclosure = link.disclosure := by
  obtain ⟨kind, label, u, hleads⟩ := hlnk.exists_leadsTo hlink
  obtain ⟨link', hlink', rfl, hent⟩ := h.exists_link
  obtain ⟨kind', label', u', hleads'⟩ := hlnk.exists_leadsTo hlink'
  have hhashed := h.hashed
  have harra := h.arrayHashed
  rw [hent] at hhashed harra
  have htext : link'.text = link.text := by
    refine hleads.disclosure_eq_of_digest hleads' henv (htexts _ hlink) (htexts _ hlink') ?_
    rcases hdig with hdig | hdig
    · exact .inl (by rw [hdig]; exact hhashed)
    · exact .inr (by rw [hdig]; exact harra)
  exact ⟨htext, hent.trans (hleads.disclosure_congr hleads' henv (htexts _ hlink) htext)⟩

omit henv htexts in
lemma EntryOf.hash_eq (hlink : link ∈ t.edges) (h : EntryOf env t link.text entry) :
    entry.hash = link.digest := by
  obtain ⟨kind, label, u, hleads⟩ := hlnk.exists_leadsTo hlink
  obtain ⟨link', hlink', htext, hdisc⟩ := h.exists_link
  have hhash : entry.disclosure.hashDisclosure env = .ok link.digest := by
    rw [hdisc]
    exact (congrArg env.hashBase64Url htext).trans hleads.hashed
  exact ok_unique h.hashed hhash

/-- The digest of a link leads to its disclosure, if this is among those of the token. -/
lemma findDisclosure_entries {entries : List HashedDisclosure}
    (hents : Forall₂ (EntryOf env t) disclosed entries) (hlink : link ∈ t.edges) :
    findDisclosure entries link.digest =
      if link.text ∈ disclosed then some link.disclosure else none := by
  cases hfind : entries.find? fun d => link.digest = d.hash ∨ link.digest = d.arrayHash with
  | some entry =>
    have hdig : link.digest = entry.hash ∨ link.digest = entry.arrayHash := by
      simpa using find?_some hfind
    obtain ⟨s, hs, h⟩ := hents.exists_of_mem_right (mem_of_find?_eq_some hfind)
    obtain ⟨rfl, hent⟩ := h.of_digest hlnk henv htexts hlink hdig
    rw [findDisclosure, hfind, if_pos hs, Option.map_some, hent]
  | none =>
    have hmem : link.text ∉ disclosed := by
      intro hmem
      obtain ⟨entry, hent, h⟩ := hents.exists_of_mem_left hmem
      have hhash := h.hash_eq hlnk hlink
      exact absurd (find?_eq_none.1 hfind entry hent) (by simp [hhash])
    rw [findDisclosure, hfind, if_neg hmem, Option.map_none]

end Reading

/-! ### What is revealed -/

def hiddenElement (digest : Str) : CredentialClaim :=
  .mk false false (.object [(selectiveDisclosureArrayMarker, .mk false false (.string digest))])

section Reveal

variable (disclosed : List Str)

mutual

/-- The claims of a tree of which some links are disclosed. -/
def reveal : SdTree → CredentialClaimValue
  | .leaf v => plainValue v
  | .node .array children => .array (revealElements children)
  | .node .object children => .object (revealFields children)

def revealElements : List (Str × Link × SdTree) → List CredentialClaim
  | [] => []
  | (_, link, t) :: children =>
    (if link.text ∈ disclosed then .mk true false (reveal t) else hiddenElement link.digest) ::
      revealElements children

def revealFields : List (Str × Link × SdTree) → List (Str × CredentialClaim)
  | [] => []
  | (label, link, t) :: children =>
    if link.text ∈ disclosed then (label, .mk true false (reveal t)) :: revealFields children
    else revealFields children

end

def revealedElement (c : Str × Link × SdTree) : CredentialClaim :=
  if c.2.1.text ∈ disclosed then .mk true false (reveal disclosed c.2.2)
  else hiddenElement c.2.1.digest

variable (children : List (Str × Link × SdTree))

def disclosedChildren : List (Str × Link × SdTree) :=
  children.filter fun c => c.2.1.text ∈ disclosed

lemma revealElements_eq_map :
    revealElements disclosed children = children.map (revealedElement disclosed) := by
  induction children with
  | nil => rw [revealElements, map_nil]
  | cons c children ih =>
    rw [revealElements, ih, map_cons, revealedElement]

lemma revealFields_eq_map :
    revealFields disclosed children = (disclosedChildren disclosed children).map
      fun c => (c.1, .mk true false (reveal disclosed c.2.2)) := by
  induction children with
  | nil => rw [revealFields, disclosedChildren, filter_nil, map_nil]
  | cons c children ih =>
    obtain ⟨label, link, t⟩ := c
    rw [revealFields, ih]
    by_cases h : link.text ∈ disclosed
    · simp [disclosedChildren, h]
    · simp [disclosedChildren, h]

end Reveal

/-! ### The expansion of plain values -/

section Plain

variable {entries : List HashedDisclosure} {bound : Nat}

lemma expand_object {map values map' : List (Str × CredentialClaim)}
    (hvals : gatherInsertablesFromObject entries map = .ok values)
    (hmap : (extendClaims (map.filter fun e => e.1 ≠ selectiveDisclosureMarker) values).mapM
      (fun e => do return (e.1, ← recursivelyExpandDisclosures entries bound e.2)) = .ok map')
    (sd md : Bool) :
    recursivelyExpandDisclosures entries (bound + 1) (.mk sd md (.object map)) =
      .ok (.mk sd md (.object map')) := by
  rw [recursivelyExpandDisclosures, hvals]
  exact bind_eq_ok.2 ⟨_, rfl, bind_eq_ok.2 ⟨_, hmap, rfl⟩⟩

lemma expand_array {array elements array' : List CredentialClaim}
    (helem : expandArrayElementsInPlace entries array = .ok elements)
    (harr : elements.mapM (recursivelyExpandDisclosures entries bound) = .ok array')
    (sd md : Bool) :
    recursivelyExpandDisclosures entries (bound + 1) (.mk sd md (.array array)) =
      .ok (.mk sd md (.array array')) := by
  rw [recursivelyExpandDisclosures, helem]
  exact bind_eq_ok.2 ⟨_, rfl, bind_eq_ok.2 ⟨_, harr, rfl⟩⟩

variable {fields : List (Str × JsonValue)}

lemma lookup_plainFields_marker {k : Str}
    (h : ∀ f ∈ fields, f.1 ≠ k) : (plainFields fields).lookup k = none := by
  rw [plainFields_eq_map, lookup_eq_none_iff]
  intro f hf
  obtain ⟨f', hf', rfl⟩ := mem_map.1 hf
  exact bne_iff_ne.2 fun heq => h f' hf' heq.symm

lemma expand_plainFields {map' : List (Str × CredentialClaim)}
    (hkeys : ∀ f ∈ fields, f.1 ≠ selectiveDisclosureMarker)
    (hmap : (plainFields fields).mapM (fun e => do
      return (e.1, ← recursivelyExpandDisclosures entries bound e.2)) = .ok map') (sd md : Bool) :
    recursivelyExpandDisclosures entries (bound + 1) (.mk sd md (plainValue (.object fields))) =
      .ok (.mk sd md (.object map')) := by
  have hgather : gatherInsertablesFromObject entries (plainFields fields) = .ok [] := by
    rw [gatherInsertablesFromObject, gatherObjectSdHashes, lookup_plainFields_marker hkeys]
    rfl
  have hflt : ((plainFields fields).filter fun e => e.1 ≠ selectiveDisclosureMarker) =
      plainFields fields := by
    rw [filter_eq_self, plainFields_eq_map]
    intro e he
    obtain ⟨f, hf, rfl⟩ := mem_map.1 he
    exact decide_eq_true (hkeys f hf)
  refine expand_object hgather ?_ sd md
  rw [hflt]
  exact hmap

variable {v : JsonValue}

lemma elementSdHash_plain (h : ¬IsPlaceholder v) :
    elementSdHash (.mk false false (plainValue v)) = none := by
  cases v with
  | object fields =>
    match fields with
    | [] => rfl
    | [(key, w)] =>
      have hkey : key ≠ selectiveDisclosureArrayMarker := by
        rintro rfl
        exact h ⟨w, rfl⟩
      rw [plainValue, plainFields, plainFields, elementSdHash, if_neg hkey]
    | _ :: _ :: _ => rfl
  | _ => rfl

lemma exists_succ_of_sizeOf_le (h : sizeOf v ≤ bound) : ∃ b, bound = b + 1 := by
  have hpos : 0 < sizeOf v := by cases v <;> simp
  exact ⟨bound - 1, by omega⟩

/-- A value that can be disclosed selectively, but is not, is left as it is. -/
lemma expand_plain (h : Disclosable v) (hbound : sizeOf v ≤ bound) (sd md : Bool) :
    recursivelyExpandDisclosures entries bound (.mk sd md (plainValue v)) =
      .ok (.mk sd md (plainValue v)) := by
  obtain ⟨bound, rfl⟩ := exists_succ_of_sizeOf_le hbound
  induction h generalizing bound sd md with
  | bool b => rfl
  | number n => rfl
  | string s => rfl
  | @array values hlen hplain h ih =>
    have helem : expandArrayElementsInPlace entries (plainValues values) =
        .ok (plainValues values) := by
      rw [plainValues_eq_map]
      refine Except.mapM_eq_ok_self fun c hc => ?_
      obtain ⟨v, hv, rfl⟩ := mem_map.1 hc
      rw [expandElement, elementSdHash_plain (hplain v hv)]
      rfl
    have hexp : (plainValues values).mapM (recursivelyExpandDisclosures entries bound) =
        .ok (plainValues values) := by
      rw [plainValues_eq_map]
      refine Except.mapM_eq_ok_self fun c hc => ?_
      obtain ⟨v, hv, rfl⟩ := mem_map.1 hc
      have hsize : sizeOf v ≤ bound := by
        have hlt := sizeOf_lt_of_mem hv
        rw [array.sizeOf_spec] at hbound
        omega
      obtain ⟨b, rfl⟩ := exists_succ_of_sizeOf_le hsize
      exact ih v hv false false b hsize
    exact expand_array helem hexp sd md
  | @object fields huniq hkeys h ih =>
    have hexp : (plainFields fields).mapM (fun e => do
        return (e.1, ← recursivelyExpandDisclosures entries bound e.2)) =
          .ok (plainFields fields) := by
      rw [plainFields_eq_map]
      refine Except.mapM_eq_ok_self fun c hc => ?_
      obtain ⟨⟨key, v⟩, hv, rfl⟩ := mem_map.1 hc
      have hsize : sizeOf v ≤ bound := by
        have hlt := sizeOf_lt_of_mem hv
        rw [object.sizeOf_spec] at hbound
        rw [Prod.mk.sizeOf_spec] at hlt
        omega
      obtain ⟨b, rfl⟩ := exists_succ_of_sizeOf_le hsize
      exact bind_eq_ok.2 ⟨_, ih _ hv false false b hsize, rfl⟩
    exact expand_plainFields hkeys hexp sd md

end Plain

/-! ### The expansion of a tree -/

section Tree

lemma extendClaims_of_nodup {claims added : List (Str × CredentialClaim)}
    (h : ((claims ++ added).map Prod.fst).Nodup) : extendClaims claims added = claims ++ added := by
  induction added generalizing claims with
  | nil => rw [append_nil, extendClaims, foldl_nil]
  | cons a added ih =>
    have hnew : a.1 ∉ claims.map Prod.fst := by
      intro hmem
      rw [map_append] at h
      exact (nodup_append.1 h).2.2 _ hmem _ mem_cons_self rfl
    have happ : claims ++ a :: added = claims ++ [a] ++ added := by
      rw [append_assoc, cons_append, nil_append]
    rw [happ] at h ⊢
    rw [← ih h, extendClaims, extendClaims, foldl_cons, mapInsert_of_not_mem _ hnew]

lemma gatherObjectSdHashes_sdObject (digests : List Str) :
    gatherObjectSdHashes [(selectiveDisclosureMarker,
      .mk false false (.array (digests.map fun d => .mk false false (.string d))))] = digests := by
  rw [gatherObjectSdHashes, lookup_cons_self]
  simp only [filterMap_map]
  exact filterMap_some

variable {env : Environment} {Leaf : JsonValue → Prop} (hleaf : ∀ v, Leaf v → Disclosable v)

include hleaf in
lemma Linked.nullFree_payload (h : Linked env Leaf t) : NullFree t.payload := by
  cases h with
  | leaf h => exact (hleaf _ h).nullFree
  | @node kind children labels leads h =>
    cases kind with
    | array =>
      refine .array fun v hv => ?_
      obtain ⟨d, -, rfl⟩ := mem_map.1 hv
      exact .object fun f hf => by
        rw [mem_singleton.1 hf]
        exact .string d
    | object =>
      refine .object fun f hf => ?_
      rw [mem_singleton.1 hf]
      refine .array fun v hv => ?_
      obtain ⟨d, -, rfl⟩ := mem_map.1 hv
      exact .string d

variable {entries : List HashedDisclosure} {disclosed : List Str}

/-- The links of a tree are found by their digests exactly if they are disclosed. -/
def Finds (entries : List HashedDisclosure) (disclosed : List Str) (t : SdTree) : Prop :=
  ∀ link ∈ t.edges, findDisclosure entries link.digest =
    if link.text ∈ disclosed then some link.disclosure else none

variable {children : List (Str × Link × SdTree)} {c : Str × Link × SdTree} {kind : Container}

lemma Finds.child (h : Finds entries disclosed (.node kind children))
    (hc : c ∈ children) : Finds entries disclosed c.2.2 :=
  fun link hlink => h link (edges_subset_edges hc hlink)

/-- A child of a container whose disclosure is found if it is disclosed. -/
structure Expandable (env : Environment) (entries : List HashedDisclosure) (disclosed : List Str)
    (kind : Container) (c : Str × Link × SdTree) : Prop where
  leads : c.2.1.LeadsTo env kind c.1 c.2.2
  finds : findDisclosure entries c.2.1.digest =
    if c.2.1.text ∈ disclosed then some c.2.1.disclosure else none
  payload : NullFree c.2.2.payload

lemma Finds.expandable (h : Finds entries disclosed (.node kind children))
    (hleads : ∀ c ∈ children, c.2.1.LeadsTo env kind c.1 c.2.2)
    (hpay : ∀ c ∈ children, NullFree c.2.2.payload) :
    ∀ c ∈ children, Expandable env entries disclosed kind c :=
  fun c hc => ⟨hleads c hc, h c.2.1 (edge_mem_edges hc), hpay c hc⟩

/-- The loop over the digests of an object gathers the disclosed children. -/
lemma foldlM_gatherStep {acc : List (Str × CredentialClaim)}
    (hchs : ∀ c ∈ children, Expandable env entries disclosed .object c)
    (hnd : (acc.map Prod.fst ++ children.map Prod.fst).Nodup) :
    (children.map fun c => c.2.1.digest).foldlM (gatherStep entries) acc =
      .ok (acc ++ (disclosedChildren disclosed children).map
        fun c => (c.1, .mk true false (plainValue c.2.2.payload))) := by
  induction children generalizing acc with
  | nil => simp [disclosedChildren, pure, Except.pure]
  | cons c children ih =>
    obtain ⟨⟨hc, hfind, hnull⟩, hchs⟩ := forall_mem_cons.1 hchs
    rw [map_cons, foldlM_cons]
    by_cases hmem : c.2.1.text ∈ disclosed
    · -- the claim is added under its key, which is new
      have hnew : c.1 ∉ acc.map Prod.fst := fun hacc =>
        (nodup_append.1 hnd).2.2 _ hacc _ mem_cons_self rfl
      have hstep : gatherStep entries acc c.2.1.digest =
          .ok (acc ++ [(c.1, .mk true false (plainValue c.2.2.payload))]) := by
        rw [gatherStep, hfind, if_pos hmem]
        simp only [hc.value_eq, hc.key_eq, disclosedKey, tryFrom_of_nullFree hnull]
        rw [← mapInsert_of_not_mem _ hnew]
        rfl
      have hnd' : ((acc ++ [(c.1, CredentialClaim.mk true false
          (plainValue c.2.2.payload))]).map Prod.fst ++ children.map Prod.fst).Nodup := by
        rw [map_append, map_cons, append_assoc]
        exact hnd
      rw [hstep]
      refine (ih hchs hnd').trans ?_
      simp [disclosedChildren, hmem]
    · have hstep : gatherStep entries acc c.2.1.digest = .ok acc := by
        rw [gatherStep, hfind, if_neg hmem]
      have hnd' : (acc.map Prod.fst ++ children.map Prod.fst).Nodup := by
        refine hnd.sublist (Sublist.append_left ?_ _)
        exact sublist_cons_self _ _
      rw [hstep]
      refine (ih hchs hnd').trans ?_
      simp [disclosedChildren, hmem]

section Object

variable {map : List (Str × CredentialClaim)}
  (hhashes : gatherObjectSdHashes map = children.map fun c => c.2.1.digest)
  (hchs : ∀ c ∈ children, Expandable env entries disclosed .object c)
include hhashes hchs

lemma gatherInsertablesFromObject_eq
    (hnd : (children.map Prod.fst).Nodup) :
    gatherInsertablesFromObject entries map = .ok ((disclosedChildren disclosed children).map
      fun c => (c.1, .mk true false (plainValue c.2.2.payload))) := by
  rw [gatherInsertablesFromObject, hhashes]
  split
  · next hnil =>
    obtain rfl := map_eq_nil_iff.1 hnil
    rfl
  · exact foldlM_gatherStep hchs hnd

/-- The expansion of an object of plain values and digests. -/
lemma expand_object_eq {plain : List (Str × JsonValue)} {bound : Nat}
    (hmap : (map.filter fun e => e.1 ≠ selectiveDisclosureMarker) = plainFields plain)
    (hplain : ∀ f ∈ plain, Disclosable f.2 ∧ sizeOf f.2 ≤ bound)
    (hnd : (plain.map Prod.fst ++ children.map Prod.fst).Nodup)
    (hexp : ∀ c ∈ children, recursivelyExpandDisclosures entries bound
      (.mk true false (plainValue c.2.2.payload)) = .ok (.mk true false (reveal disclosed c.2.2)))
    (sd md : Bool) :
    recursivelyExpandDisclosures entries (bound + 1) (.mk sd md (.object map)) =
      .ok (.mk sd md (.object (plainFields plain ++ revealFields disclosed children))) := by
  refine expand_object (gatherInsertablesFromObject_eq hhashes hchs (nodup_append.1 hnd).2.1)
    ?_ sd md
  have hkeys : ((plainFields plain ++ (disclosedChildren disclosed children).map fun c =>
      (c.1, CredentialClaim.mk true false (plainValue c.2.2.payload))).map Prod.fst).Nodup := by
    rw [map_append, plainFields_eq_map, map_map, map_map]
    exact hnd.sublist (Sublist.append_left (filter_sublist.map _) _)
  rw [hmap, extendClaims_of_nodup hkeys, revealFields_eq_map, plainFields_eq_map, mapM_eq_ok]
  refine rel_append ?_ ?_
  · rw [forall₂_map_left_iff, forall₂_map_right_iff, forall₂_same]
    intro f hf
    exact bind_eq_ok.2 ⟨_, expand_plain (hplain f hf).1 (hplain f hf).2 false false, rfl⟩
  · rw [forall₂_map_left_iff, forall₂_map_right_iff, forall₂_same]
    intro c hc
    exact bind_eq_ok.2 ⟨_, hexp c (mem_of_mem_filter hc), rfl⟩

end Object

variable {bound : Nat}

/-- The digests in the places of the elements are replaced where they are disclosed. -/
lemma expandArrayElementsInPlace_eq
    (hchs : ∀ c ∈ children, Expandable env entries disclosed .array c) :
    expandArrayElementsInPlace entries (children.map fun c => hiddenElement c.2.1.digest) =
      .ok (children.map fun c =>
        if c.2.1.text ∈ disclosed then .mk true false (plainValue c.2.2.payload)
        else hiddenElement c.2.1.digest) := by
  rw [expandArrayElementsInPlace, mapM_eq_ok, forall₂_map_left_iff,
    forall₂_map_right_iff, forall₂_same]
  intro c hc
  have hhash : elementSdHash (hiddenElement c.2.1.digest) = some c.2.1.digest := rfl
  rw [expandElement, hhash, Option.bind_some, (hchs c hc).finds]
  by_cases hmem : c.2.1.text ∈ disclosed
  · rw [if_pos hmem, if_pos hmem]
    simp only [(hchs c hc).leads.value_eq, tryFrom_of_nullFree (hchs c hc).payload]
    rfl
  · rw [if_neg hmem, if_neg hmem]

include hleaf in
/-- The expansion of what is seen of a tree: the claims over the disclosed links. -/
theorem expand_eq_reveal (hlnk : Linked env Leaf t)
    (hfinds : Finds entries disclosed t) (hbound : t.height sizeOf + 2 ≤ bound) (sd md : Bool) :
    recursivelyExpandDisclosures entries bound (.mk sd md (plainValue t.payload)) =
      .ok (.mk sd md (reveal disclosed t)) := by
  induction hlnk generalizing bound sd md with
  | @leaf v h =>
    rw [reveal]
    refine expand_plain (hleaf v h) ?_ sd md
    rw [height] at hbound
    omega
  | @node kind children labels leads h ih =>
    rw [height] at hbound
    obtain ⟨bound, rfl⟩ : ∃ b, bound = b + 1 := ⟨bound - 1, by omega⟩
    have hch : ∀ c ∈ children, c.2.2.height sizeOf + 2 ≤ bound := by
      intro c hc
      have hle := height_le_heightOf sizeOf hc
      omega
    have hchs := hfinds.expandable leads fun c hc => (h c hc).nullFree_payload hleaf
    cases kind with
    | array =>
      have hplain : plainValue (payload (.node .array children)) =
          .array (children.map fun c => hiddenElement c.2.1.digest) := by
        rw [payload, sdArray, plainValue, plainValues_eq_map, map_map, map_map]
        rfl
      rw [hplain, reveal, revealElements_eq_map]
      refine expand_array (expandArrayElementsInPlace_eq hchs) ?_ sd md
      rw [mapM_eq_ok, forall₂_map_left_iff, forall₂_map_right_iff, forall₂_same]
      intro c hc
      rw [revealedElement]
      by_cases hmem : c.2.1.text ∈ disclosed
      · rw [if_pos hmem, if_pos hmem]
        exact ih c hc (hfinds.child hc) (hch c hc) true false
      · rw [if_neg hmem, if_neg hmem]
        obtain ⟨bound, rfl⟩ : ∃ b, bound = b + 1 + 1 := ⟨bound - 2, by omega⟩
        rfl
    | object =>
      have hplain : plainValue (payload (.node .object children)) =
          .object [(selectiveDisclosureMarker, .mk false false (.array
            ((children.map fun c => c.2.1.digest).map fun d => .mk false false (.string d))))] := by
        rw [payload, sdObject, plainValue, plainFields, plainFields, plainValue, plainValues_eq_map,
          map_map]
        rfl
      rw [hplain, reveal]
      refine expand_object_eq (gatherObjectSdHashes_sdObject _) hchs
        (show _ = plainFields [] by simp [plainFields])
        (fun f hf => (by cases hf)) labels.nodup
        (fun c hc => ih c hc (hfinds.child hc) (hch c hc) true false) sd md

/-! ### All disclosures -/

include hleaf in
/-- With all links disclosed, the claims of the tree are revealed. -/
lemma toJson_reveal (hlnk : Linked env Leaf t)
    (hall : ∀ link ∈ t.edges, link.text ∈ disclosed) : (reveal disclosed t).toJson = t.claims := by
  induction hlnk with
  | @leaf v h => rw [reveal, claims, toJson_plainValue (hleaf v h).nullFree]
  | @node kind children labels leads h ih =>
    have hmem : ∀ c ∈ children, c.2.1.text ∈ disclosed := fun c hc =>
      hall _ (edge_mem_edges hc)
    have hch : ∀ c ∈ children, (reveal disclosed c.2.2).toJson = claims c.2.2 :=
      fun c hc => ih c hc fun link hlink => hall link (edges_subset_edges hc hlink)
    cases kind with
    | array =>
      rw [reveal, revealElements_eq_map, CredentialClaimValue.toJson,
        CredentialClaimValue.toJsonValues_eq_map, claims, claimsOf_eq_map,
        map_map, map_map]
      refine congrArg array (map_congr_left fun c hc => ?_)
      rw [Function.comp_apply, revealedElement, if_pos (hmem c hc)]
      exact hch c hc
    | object =>
      have hflt : disclosedChildren disclosed children = children :=
        filter_eq_self.2 fun c hc => decide_eq_true (hmem c hc)
      rw [reveal, revealFields_eq_map, hflt, CredentialClaimValue.toJson,
        CredentialClaimValue.toJsonFields_eq_map, claims, claimsOf_eq_map,
        map_map]
      refine congrArg object (map_congr_left fun c hc => ?_)
      exact congrArg (Prod.mk c.1) (hch c hc)

lemma Linked.perm {children' : List (Str × Link × SdTree)}
    (h : Linked env Leaf (.node .object children)) (hperm : children'.Perm children) :
    Linked env Leaf (.node .object children') := by
  cases h with
  | node labels leads h =>
    have hkeys := hperm.map Prod.fst
    exact .node ⟨hkeys.nodup_iff.2 labels.1, fun hmem => labels.2 (hkeys.mem_iff.1 hmem)⟩
      (fun c hc => leads c (hperm.mem_iff.1 hc)) fun c hc => h c (hperm.mem_iff.1 hc)

include hleaf in
/-- What the verifier makes of what is seen of a tree and some of its disclosures. -/
lemma expandedPayload_eq {texts : List Str} (hlnk : Linked env Leaf t)
    (henv : Reliable env texts) (htexts : ∀ link ∈ t.edges, link.text ∈ texts)
    (hdisd : ∀ s ∈ disclosed, ∃ link ∈ t.edges, link.text = s) :
    Returns (fun bound => expandedPayload env bound disclosed t.payload)
      (.mk false false (reveal disclosed t)) := by
  obtain ⟨entries, hents, hdec, hhash⟩ := exists_entries hlnk henv htexts hdisd
  have hfinds : Finds entries disclosed t := fun link hlink =>
    findDisclosure_entries hlnk henv htexts hents hlink
  have htry := tryFrom_of_nullFree (hlnk.nullFree_payload hleaf)
  refine ⟨t.height sizeOf + 2, fun bound hbound => ?_⟩
  have hexp := expand_eq_reveal hleaf hlnk hfinds hbound false false
  show expandedPayload env bound disclosed t.payload = _
  rw [expandedPayload, hdec]
  simp only [Except.mapError, bind_eq_ok]
  exact ⟨_, rfl, _, by rw [hhash], _, by rw [htry], hexp⟩

/-- The tree with its children in the order of the digests. -/
lemma IsTreeOf.exists_perm {claims : ClaimsObject} {sdArrayElements : Bool} {n : Nat}
    {computed : Computed} {digests : List Str}
    (h : IsTreeOf env sdArrayElements claims n computed children)
    (hdigs : digests.Perm computed.digests) :
    ∃ children', children'.Perm children ∧ (children'.map fun c => c.2.1.digest) = digests ∧
      Linked env (EncodedLeaf sdArrayElements) (.node .object children') ∧
      (edges (.node .object children')).Perm (edges (.node .object children)) ∧
      ∀ link ∈ edges (.node .object children'), link.text ∈ computed.disclosures := by
  rw [← h.digests_eq] at hdigs
  obtain ⟨children', hperm, hdigs⟩ := exists_perm_of_perm_map hdigs
  have hedges : (edges (.node .object children')).Perm (edges (.node .object children)) := by
    rw [edges_node, edges_node]
    exact hperm.flatMap_right _
  refine ⟨children', hperm, hdigs, h.linked.perm hperm, hedges, fun link hlink => ?_⟩
  rw [← h.disclosures_eq]
  exact mem_map_of_mem (hedges.mem_iff.1 hlink)

/-- **Round trip.**  The digests of an object of claims in any order and its disclosures in any order
give the object back, up to the order of its fields, and nothing else. -/
theorem expandedPayload_of_all {claims : ClaimsObject} {sdArrayElements : Bool} {n : Nat}
    {computed : Computed} {digests disclosures : List Str}
    (hcomputed : computeObjectDisclosures env claims.json sdArrayElements n = .ok computed)
    (henv : Reliable env computed.disclosures) (hdigests : digests.Perm computed.digests)
    (hdisclosures : disclosures.Perm computed.disclosures) :
    ∃ result fields,
      Returns (fun bound => expandedPayload env bound disclosures (sdObject digests)) result ∧
      result.value.toJson = .object fields ∧ fields.Perm claims.fields := by
  obtain ⟨children, htree⟩ := exists_tree_of_computeObjectDisclosures hcomputed
  have hleaf : ∀ v, EncodedLeaf sdArrayElements v → Disclosable v := fun v h => h.1
  obtain ⟨children', hperm, rfl, hlnk, hedges, htexts⟩ := htree.exists_perm hdigests
  have hdisd : ∀ s ∈ disclosures,
      ∃ link ∈ edges (.node .object children'), link.text = s := by
    intro s hs
    rw [hdisclosures.mem_iff, ← htree.disclosures_eq] at hs
    obtain ⟨link, hlink, rfl⟩ := mem_map.1 hs
    exact ⟨link, hedges.mem_iff.2 hlink, rfl⟩
  have hjson := toJson_reveal hleaf hlnk fun link hlink =>
    hdisclosures.mem_iff.2 (htexts link hlink)
  rw [SdTree.claims, SdTree.claimsOf_eq_map] at hjson
  refine ⟨_, _, expandedPayload_eq hleaf hlnk henv htexts hdisd, hjson, ?_⟩
  have hfields : (children.map fun c => (c.1, SdTree.claims c.2.2)) = claims.fields := by
    have hcls := htree.claims_eq
    rw [SdTree.claims, SdTree.claimsOf_eq_map] at hcls
    exact object.inj hcls
  rw [← hfields]
  exact hperm.map _

end Tree

/-! ### An object in an object -/

section Sample

/-- The text of disclosure arrays with one character for the salt, the key and each digest. -/
def samplePrint : JsonValue → Str
  | .array [.string [salt], .string [key], .bool true] => ['[', 't', salt, key]
  | .array [.string [salt], .string [key], .bool false] => ['[', 'f', salt, key]
  | .array [.string [salt], .string [key],
      .object [(marker, .array [.string [d₁], .string [d₂]])]] =>
    if marker = selectiveDisclosureMarker then ['[', 'o', salt, key, d₁, d₂] else ['[']
  | .array _ => ['[']
  | _ => []

def sampleParse : Str → Except FormatterError JsonValue
  | ['[', 't', salt, key] => .ok (.array [.string [salt], .string [key], .bool true])
  | ['[', 'f', salt, key] => .ok (.array [.string [salt], .string [key], .bool false])
  | ['[', 'o', salt, key, d₁, d₂] =>
    .ok (.array [.string [salt], .string [key], sdObject [[d₁], [d₂]]])
  | _ => .error (.library "")

def sampleHash : Str → Str
  | 'b' :: '[' :: _ :: salt :: _ => [salt]
  | s => 'h' :: s

def sampleEnvironment : Environment where
  printJson := samplePrint
  parseJson := sampleParse
  stringToB64url s := .ok ('b' :: s)
  b64urlToString s := .ok s.tail
  hashBase64Url s := .ok (sampleHash s)
  generateSalt n := [Char.ofNat (48 + n)]

def sampleClaims : ClaimsObject where
  fields := [(['a'], .object [(['b'], .bool true), (['c'], .bool false)])]
  disclosable := by
    refine .object (by decide) (by decide) fun f hf => ?_
    obtain rfl := mem_singleton.1 hf
    refine .object (by decide) (by decide) fun f hf => ?_
    rcases mem_pair.1 hf with rfl | rfl
    · exact .bool true
    · exact .bool false

def sampleDisclosures : List Str :=
  [['b', '[', 't', '0', 'b'], ['b', '[', 'f', '1', 'c'], ['b', '[', 'o', '2', 'a', '0', '1']]

lemma sample_computed :
    computeObjectDisclosures sampleEnvironment sampleClaims.json true 0 =
      .ok ⟨sampleDisclosures, [['2']], 3⟩ := rfl

lemma head_samplePrint (values : List JsonValue) :
    (samplePrint (.array values)).head? = some '[' := by
  unfold samplePrint
  split
  · rfl
  · rfl
  · split <;> rfl
  · rfl
  · next hne => exact absurd rfl (hne values)

lemma sampleParse_samplePrint {values : List JsonValue} (h : samplePrint (.array values) ≠ ['[']) :
    sampleParse (samplePrint (.array values)) = .ok (.array values) := by
  unfold samplePrint at h ⊢
  split at h
  · next heq => rw [heq]; rfl
  · next heq => rw [heq]; rfl
  · next heq =>
    split at h
    · next hmarker =>
      subst hmarker
      rw [heq]
      rfl
    · exact absurd rfl h
  · exact absurd rfl h
  · next hne => exact absurd rfl (hne values)

lemma mem_of_mem_hashedTexts {s : Str} (h : s ∈ hashedTexts sampleEnvironment sampleDisclosures) :
    s ∈ sampleDisclosures ++ sampleDisclosures.map tail := by
  rcases h with h | ⟨d, hd, hs⟩
  · exact mem_append_left _ h
  · obtain rfl : 'b' :: s = d := Except.ok.inj hs
    exact mem_append_right _ (mem_map_of_mem hd)

lemma sample_reliable : Reliable sampleEnvironment sampleDisclosures where
  decode_encode := by
    rintro s d ⟨⟩
    rfl
  encode_ne_array := by
    rintro s d values ⟨⟩ heq
    have hhead : some 'b' = (samplePrint (.array values)).head? := congrArg head? heq
    rw [head_samplePrint] at hhead
    cases hhead
  parse_print := by
    rintro values d ⟨⟩ hmem
    refine sampleParse_samplePrint fun heq => ?_
    have hmem' : 'b' :: samplePrint (.array values) ∈ sampleDisclosures := hmem
    rw [heq] at hmem'
    revert hmem'
    decide
  hash_ok := fun s _ => ⟨_, rfl⟩
  hash_injOn := by
    intro s hs s' hs' heq
    have hinj : ∀ s ∈ sampleDisclosures ++ sampleDisclosures.map tail,
        ∀ s' ∈ sampleDisclosures ++ sampleDisclosures.map tail,
          sampleHash s = sampleHash s' → s = s' := by decide
    exact hinj s (mem_of_mem_hashedTexts hs) s' (mem_of_mem_hashedTexts hs') (Except.ok.inj heq)

/-- The claims are found again from the digest and the disclosures in reverse order. -/
theorem expandedPayload_of_all_sample :
    ∃ result fields,
      Returns (fun bound => expandedPayload sampleEnvironment bound sampleDisclosures.reverse
        (sdObject [['2']])) result ∧
      result.value.toJson = .object fields ∧ fields.Perm sampleClaims.fields :=
  expandedPayload_of_all sample_computed sample_reliable (Perm.refl _) (reverse_perm _)

end Sample

end OneCore.SdJwt
