/-
# What a presentation reveals

The verifier expands the payload of a token with the disclosures that the holder has selected for some
keys.  What is *seen* at a path is the claim there, if it comes out of a disclosure.

What is seen is determined by the keys (`presentation_exact`): the claims on the way to a key that no
other key continues, at it and below it, with their values and, in arrays, at their places.  All else
that is at a path are digests in the places of elements.  So credentials whose claims agree along these
paths cannot be told apart by what is seen.  The salts must be different, since disclosures with equal
salts may be equal.
-/
import OneCore.SdJwt.Selection

namespace OneCore.SdJwt

open List LabelledTree CredentialClaim SdTree
open Path (IsLeaf)

/-! ### What is seen -/

/-- What is seen at a path: the claim there, if it was disclosed. -/
def seen (p : List Str) (c : CredentialClaim) : Option Shape :=
  (c.atPath p).bind fun d => if d.selectivelyDisclosable then some d.value.shape else none

variable {t : SdTree}

section Seen

variable {env : Environment} {Leaf : JsonValue → Prop}
  (hleaf : ∀ v, Leaf v → IsScalar v ∧ Disclosable v) {disclosed : List Str}

lemma seen_cons (l : Str) (p : List Str) (c : CredentialClaim) :
    seen (l :: p) c = (c.children.lookup l).bind (seen p) := by
  rw [seen, atPath]
  cases c.children.lookup l with
  | none => rfl
  | some d => rfl

lemma seen_hiddenElement (p : List Str) (digest : Str) : seen p (hiddenElement digest) = none := by
  cases p with
  | nil => rfl
  | cons l p =>
    rw [seen_cons, hiddenElement, children]
    by_cases h : l = selectiveDisclosureArrayMarker
    · rw [h]
      cases p <;> rfl
    · rw [lookup_cons_of_ne h]
      rfl

include hleaf in
lemma shape_reveal (hlnk : Linked env Leaf t) : (reveal disclosed t).shape = t.claims.shape := by
  cases hlnk with
  | @leaf v h =>
    obtain ⟨hscl, hdisc⟩ := hleaf v h
    rw [claims]
    cases hdisc with
    | bool b => rfl
    | number n => rfl
    | string s => rfl
    | array => cases hscl
    | object => cases hscl
  | @node kind children labels leads h =>
    cases kind with
    | array =>
      rw [reveal, claims, revealElements_eq_map, claimsOf_eq_map,
        CredentialClaimValue.shape, JsonValue.shape]
      simp
    | object => rw [reveal, claims, CredentialClaimValue.shape, JsonValue.shape]

lemma children_plainValue {v : JsonValue} (h : IsScalar v) (sd md : Bool) :
    (mk sd md (plainValue v)).children = [] ∧ v.children = [] := by
  cases v with
  | array values => cases h
  | object fields => cases h
  | _ => exact ⟨rfl, rfl⟩

variable {children : List (Str × Link × SdTree)}

lemma lookup_disclosedChildren (l : Str) (hnd : (children.map Prod.fst).Nodup) :
    ((disclosedChildren disclosed children).map
        fun c => (c.1, mk true false (reveal disclosed c.2.2))).lookup l =
      (children.lookup l).bind fun c => if c.1.text ∈ disclosed then
        some (.mk true false (reveal disclosed c.2)) else none := by
  induction children with
  | nil => rfl
  | cons c children ih =>
    obtain ⟨hnew, hnd⟩ := nodup_cons.1 hnd
    have ih := ih hnd
    have hcons : disclosedChildren disclosed (c :: children) = if c.2.1.text ∈ disclosed then
        c :: disclosedChildren disclosed children else disclosedChildren disclosed children := by
      simp [disclosedChildren, filter_cons]
    rw [hcons]
    by_cases hl : l = c.1
    · subst hl
      rw [lookup_cons_self, Option.bind_some]
      by_cases hmem : c.2.1.text ∈ disclosed
      · rw [if_pos hmem, map_cons, lookup_cons_self, if_pos hmem]
      · have hnone : children.lookup c.1 = none := by
          rw [lookup_eq_none_iff]
          exact fun e he => bne_iff_ne.2 fun heq => hnew (heq ▸ mem_map_of_mem he)
        rw [if_neg hmem, ih, hnone, if_neg hmem, Option.bind_none]
    · rw [lookup_cons_of_ne hl, ← ih]
      by_cases hmem : c.2.1.text ∈ disclosed
      · rw [if_pos hmem, map_cons, lookup_cons_of_ne hl]
      · rw [if_neg hmem]

def revealedChild (disclosed : List Str) (kind : Container) (c : Link × SdTree) :
    Option CredentialClaim :=
  if c.1.text ∈ disclosed then some (.mk true false (reveal disclosed c.2))
  else
    match kind with
    | .array => some (hiddenElement c.1.digest)
    | .object => none

variable {c : Link × SdTree}

lemma revealedChild_of_mem (h : c.1.text ∈ disclosed) (kind : Container) :
    revealedChild disclosed kind c = some (.mk true false (reveal disclosed c.2)) := if_pos h

lemma revealedChild_array_of_not_mem (h : c.1.text ∉ disclosed) :
    revealedChild disclosed .array c = some (hiddenElement c.1.digest) := if_neg h

lemma revealedChild_object_of_not_mem (h : c.1.text ∉ disclosed) :
    revealedChild disclosed .object c = none := if_neg h

lemma lookup_children_reveal {kind : Container}
    (labels : LabelsFit kind (children.map Prod.fst)) (sd md : Bool) (l : Str) :
    (mk sd md (reveal disclosed (.node kind children))).children.lookup l =
      (children.lookup l).bind (revealedChild disclosed kind) := by
  cases kind with
  | object =>
    rw [reveal, CredentialClaim.children, revealFields_eq_map,
      lookup_disclosedChildren l labels.nodup]
    rfl
  | array =>
    have hfst := labels.1.trans (map_fst_indexedFrom_congr 0 (length_map Prod.fst))
    have hidx : indexed (children.map (revealedElement disclosed)) =
        children.map fun e => (e.1, revealedElement disclosed e) :=
      indexedFrom_map_of_labels (revealedElement disclosed) hfst
    have hlkp := lookup_map_snd (fun k c => revealedElement disclosed (k, c)) l children
    rw [reveal, CredentialClaim.children, revealElements_eq_map, hidx]
    refine hlkp.trans ?_
    cases children.lookup l with
    | none => rfl
    | some c =>
      rw [Option.map_some, Option.bind_some, revealedElement, revealedChild]
      split
      · rfl
      · rfl

include hleaf in
/-- A claim is seen exactly if all links on the way to it are disclosed, and then with its shape. -/
lemma seen_reveal_iff (hlnk : Linked env Leaf t) {p : List Str} (hp : p ≠ [])
    (sd md : Bool) {shape : Shape} :
    seen p (.mk sd md (reveal disclosed t)) = some shape ↔ ∃ links s,
      t.walk p = some (links, s) ∧ (∀ link ∈ links, link.text ∈ disclosed) ∧
        (claims s).shape = shape := by
  induction p generalizing t sd md with
  | nil => exact absurd rfl hp
  | cons l p ih =>
    simp only [walk_cons_eq_some_iff]
    cases hlnk with
    | @leaf v h =>
      have hnone : seen (l :: p) (.mk sd md (reveal disclosed (.leaf v))) = none := by
        rw [seen_cons, reveal, (children_plainValue (hleaf v h).1 sd md).1]
        rfl
      rw [hnone]
      refine ⟨fun h => (by cases h), ?_⟩
      rintro ⟨links, s, ⟨link, c, links', hch, -⟩, -⟩
      cases hch
    | @node kind children labels leads h =>
      rw [seen_cons, lookup_children_reveal labels]
      cases hlkp : children.lookup l with
      | none =>
        refine ⟨fun h => (by cases h), ?_⟩
        rintro ⟨links, s, ⟨link, c, links', hch, -⟩, -⟩
        rw [child, hlkp] at hch
        cases hch
      | some c =>
        obtain ⟨link, c⟩ := c
        have hch : child l (.node kind children) = some (link, c) := hlkp
        have hlnk : Linked env Leaf c := h _ (mem_of_lookup hlkp)
        rw [Option.bind_some]
        by_cases hmem : link.text ∈ disclosed
        · rw [revealedChild_of_mem hmem, Option.bind_some]
          cases p with
          | nil =>
            have hshape : seen [] (.mk true false (reveal disclosed c)) =
                some (claims c).shape := congrArg some (shape_reveal hleaf hlnk)
            rw [hshape, Option.some.injEq]
            constructor
            · rintro rfl
              exact ⟨[link], c, ⟨link, c, [], hch, rfl, rfl⟩, by simpa using hmem, rfl⟩
            · rintro ⟨links, s, ⟨link', c', links', hch', hwalk, rfl⟩, -, hs⟩
              obtain ⟨rfl, rfl⟩ := Prod.mk.inj (mem_unique hch hch')
              obtain ⟨-, rfl⟩ : [] = links' ∧ c = s := by simpa [walk] using hwalk
              exact hs
          | cons l' p =>
            rw [ih hlnk (cons_ne_nil _ _)]
            constructor
            · rintro ⟨links, s, hwalk, hall, hs⟩
              exact ⟨link :: links, s, ⟨link, c, links, hch, hwalk, rfl⟩,
                forall_mem_cons.2 ⟨hmem, hall⟩, hs⟩
            · rintro ⟨links, s, ⟨link', c', links', hch', hwalk, rfl⟩, hall, hs⟩
              obtain ⟨rfl, rfl⟩ := Prod.mk.inj (mem_unique hch hch')
              exact ⟨links', s, hwalk, (forall_mem_cons.1 hall).2, hs⟩
        · -- the child is hidden, and so is what is below it
          have hnone : (revealedChild disclosed kind (link, c)).bind (seen p) = none := by
            cases kind with
            | array =>
              rw [revealedChild_array_of_not_mem hmem]
              exact seen_hiddenElement p link.digest
            | object => rw [revealedChild_object_of_not_mem hmem, Option.bind_none]
          rw [hnone]
          refine ⟨fun h => (by cases h), ?_⟩
          rintro ⟨links, s, ⟨link', c', links', hch', hwalk, rfl⟩, hall, -⟩
          obtain ⟨rfl, rfl⟩ := Prod.mk.inj (mem_unique hch hch')
          exact absurd (hall _ mem_cons_self) hmem

include hleaf in
lemma atPath_claims (hlnk : Linked env Leaf t) (p : List Str) :
    t.claims.atPath p = (t.walk p).map fun w => claims w.2 := by
  induction p generalizing t with
  | nil => rfl
  | cons l p ih =>
    rw [JsonValue.atPath, walk]
    cases hlnk with
    | @leaf v h =>
      rw [claims, (children_plainValue (hleaf v h).1 false false).2]
      rfl
    | @node kind children labels leads h =>
      have hlkp := lookup_map_snd (fun _ (c : Link × SdTree) => claims c.2) l children
      rw [(Linked.node labels leads h).children_claims, hlkp, child]
      cases hch : children.lookup l with
      | none => rfl
      | some c =>
        have hlnk : Linked env Leaf c.2 := h _ (mem_of_lookup hch)
        rw [Option.map_some, Option.bind_some, Option.bind_some, ih hlnk, Option.map_map]
        rfl

end Seen

/-! ### What else is there -/

section Hidden

variable {env : Environment} {Leaf : JsonValue → Prop}
  (hleaf : ∀ v, Leaf v → IsScalar v ∧ Disclosable v) {disclosed : List Str}

/-- The digest of a hidden element, or the element that consists of it. -/
def IsDigestOf (digest : Str) (c : CredentialClaim) : Prop :=
  c = hiddenElement digest ∨ c = .mk false false (.string digest)

variable {p : List Str} {c : CredentialClaim}

lemma isDigestOf_of_atPath {digest : Str}
    (h : (hiddenElement digest).atPath p = some c) : IsDigestOf digest c := by
  match p with
  | [] => exact .inl (Option.some.inj h).symm
  | l :: p =>
    rw [atPath, hiddenElement, children] at h
    by_cases hl : l = selectiveDisclosureArrayMarker
    · rw [hl, lookup_cons_self] at h
      cases p with
      | nil => exact .inr (Option.some.inj h).symm
      | cons l' p => cases h
    · rw [lookup_cons_of_ne hl] at h
      cases h

include hleaf in
/-- What is at a path of a revealed tree was disclosed, or is the digest of a link that was not. -/
lemma disclosed_or_digest_of_atPath (hlnk : Linked env Leaf t) (hp : p ≠ [])
    {sd md : Bool} (h : (mk sd md (reveal disclosed t)).atPath p = some c) :
    c.selectivelyDisclosable = true ∨
      ∃ link ∈ t.edges, link.text ∉ disclosed ∧ IsDigestOf link.digest c := by
  induction p generalizing t sd md with
  | nil => exact absurd rfl hp
  | cons l p ih =>
    rw [atPath] at h
    cases hlnk with
    | @leaf v hv =>
      rw [reveal, (children_plainValue (hleaf v hv).1 sd md).1] at h
      cases h
    | @node kind children labels leads hchs =>
      rw [lookup_children_reveal labels] at h
      cases hlkp : children.lookup l with
      | none =>
        rw [hlkp] at h
        cases h
      | some child =>
        have hch : LabelledTree.child l (.node kind children) = some (child.1, child.2) := hlkp
        obtain ⟨hmem, hsub⟩ := LabelledTree.mem_edges_of_child hch
        rw [hlkp, Option.bind_some] at h
        by_cases hdisd : child.1.text ∈ disclosed
        · rw [revealedChild_of_mem hdisd, Option.bind_some] at h
          cases p with
          | nil =>
            cases h
            exact .inl rfl
          | cons l' p =>
            rcases ih (hchs _ (mem_of_lookup hlkp)) (cons_ne_nil _ _) h with
              h | ⟨link, hlink, hnot, hdig⟩
            · exact .inl h
            · exact .inr ⟨link, hsub hlink, hnot, hdig⟩
        · cases kind with
          | array =>
            rw [revealedChild_array_of_not_mem hdisd, Option.bind_some] at h
            exact .inr ⟨child.1, hmem, hdisd, isDigestOf_of_atPath h⟩
          | object =>
            rw [revealedChild_object_of_not_mem hdisd] at h
            cases h

end Hidden

/-! ### Credentials and their presentations -/

/-- A credential as it is issued: claims with disclosures for all of them, in tokens whose digests and
disclosures may be in any order. -/
structure Issued where
  env : Environment
  claims : ClaimsObject
  firstSalt : Nat
  computed : Computed
  computed_eq : computeObjectDisclosures env claims.json true firstSalt = .ok computed
  reliable : Reliable env computed.disclosures
  /-- Every salt is a fresh one. -/
  fresh : Set.InjOn env.generateSalt {i | firstSalt ≤ i ∧ i < computed.salts}
  digests : List Str
  digests_perm : digests.Perm computed.digests
  disclosures : List Str
  disclosures_perm : disclosures.Perm computed.disclosures

namespace Issued

variable (cred : Issued)

def payload : JsonValue := sdObject cred.digests

/-- The keys name claims of the credential. -/
def NamesPaths (keys : List Str) : Prop :=
  ∀ key ∈ keys, (cred.claims.json.atPath (key.splitOn nestedClaimMarker)).isSome

/-- The verifier gets the given claims for the given keys. -/
def Reveals (keys : List Str) (result : CredentialClaim) : Prop :=
  ∃ selected presented,
    Returns (fun bound => presentedDisclosures cred.env bound keys cred.payload cred.disclosures)
      selected ∧
    presented.Perm selected ∧
    Returns (fun bound => expandedPayload cred.env bound presented cred.payload) result

end Issued

/-- The path lies on the way to a key that no other key continues, or at it or below it. -/
def Addressed (keys : List Str) (p : List Str) : Prop :=
  ∃ key, IsLeaf nestedClaimMarker keys key ∧
    (p <+: key.splitOn nestedClaimMarker ∨ key.splitOn nestedClaimMarker <+: p)

/-- The links on the ways to the given ends are presented and, below the ends that are marked, all
links.  Then those on the way along a path are presented exactly if the path is on the way to an end,
or at or below a marked one. -/
lemma forall_presented_iff {s : SdTree} {presented p : List Str} {links : List Link}
    {End : List Str → Bool → Prop} (hnd : (t.edges.map Link.text).Nodup)
    (hwalks : ∀ q whole, End q whole → ∃ links s, t.walk q = some (links, s))
    (hpres : ∀ x, x ∈ presented ↔ ∃ q whole, End q whole ∧ ∃ links s,
      t.walk q = some (links, s) ∧
        (x ∈ links.map Link.text ∨ whole = true ∧ x ∈ s.edges.map Link.text))
    (hp : p ≠ []) (hwalk : t.walk p = some (links, s)) :
    (∀ link ∈ links, link.text ∈ presented) ↔
      ∃ q whole, End q whole ∧ (p <+: q ∨ whole = true ∧ q <+: p) := by
  have hinj := inj_on_of_nodup_map hnd
  have hedges := Nodup.of_map _ hnd
  constructor
  · intro hall
    -- the last link on the way is met by, or lies below, an end
    obtain ⟨l, p', rfl⟩ := exists_cons_of_ne_nil hp
    obtain ⟨link, c, links', -, -, hlinks⟩ := walk_cons_eq_some_iff.1 hwalk
    obtain ⟨es, e, rfl⟩ : ∃ es e, links = es ++ [e] := by
      rcases eq_nil_or_concat' links with hnil | h
      · rw [hnil] at hlinks
        cases hlinks
      · exact h
    have hemem : e ∈ t.edges := (mem_edges_of_walk hwalk).1 (by simp)
    obtain ⟨q, whole, hend, links₂, s₂, hwalk₂, hmem⟩ := (hpres _).1 (hall e (by simp))
    obtain ⟨hlinks₂, hs₂⟩ := mem_edges_of_walk hwalk₂
    have hpq := isPrefix_of_mem hedges hwalk hwalk₂
    refine ⟨q, whole, hend, ?_⟩
    rcases hmem with hmem | ⟨hwhole, hmem⟩
    · obtain ⟨e', he', htext⟩ := mem_map.1 hmem
      obtain rfl := hinj (hlinks₂ he') hemem htext
      exact .inl (hpq.1 he')
    · obtain ⟨e', he', htext⟩ := mem_map.1 hmem
      obtain rfl := hinj (hs₂ he') hemem htext
      exact .inr ⟨hwhole, hpq.2 he'⟩
  · rintro ⟨q, whole, hend, hcomp⟩ link hlink
    obtain ⟨links₂, s₂, hwalk₂⟩ := hwalks q whole hend
    refine (hpres _).2 ⟨q, whole, hend, links₂, s₂, hwalk₂, ?_⟩
    rcases hcomp with ⟨r, rfl⟩ | ⟨hwhole, r, rfl⟩
    · obtain ⟨es₁, s₁, es₂, hwalk₁, -, rfl⟩ := walk_append_eq_some_iff.1 hwalk₂
      obtain ⟨rfl, rfl⟩ := Prod.mk.inj (mem_unique hwalk hwalk₁)
      exact .inl (mem_map_of_mem (mem_append_left _ hlink))
    · obtain ⟨es₁, s₁, es₂, hwalk₁, hrest, rfl⟩ := walk_append_eq_some_iff.1 hwalk
      obtain ⟨rfl, rfl⟩ := Prod.mk.inj (mem_unique hwalk₂ hwalk₁)
      rcases mem_append.1 hlink with hlink | hlink
      · exact .inl (mem_map_of_mem hlink)
      · exact .inr ⟨hwhole, mem_map_of_mem ((mem_edges_of_walk hrest).1 hlink)⟩

namespace Issued

/-- The tree of an issued credential, with its children in the order of the payload. -/
structure IsTree (cred : Issued) (t : SdTree) : Prop where
  linked : Linked cred.env (EncodedLeaf true) t
  payload_eq : t.payload = cred.payload
  atPath_eq : ∀ p ≠ [], t.claims.atPath p = cred.claims.json.atPath p
  text_mem : ∀ link ∈ t.edges, link.text ∈ cred.computed.disclosures
  mem_disclosures : ∀ s, s ∈ cred.disclosures ↔ ∃ link ∈ t.edges, link.text = s
  nodup : (t.edges.map Link.text).Nodup

lemma nodup_texts {env : Environment} {Leaf : JsonValue → Prop} {texts : List Str}
    (hlnk : Linked env Leaf t) (henv : Reliable env texts)
    (htexts : ∀ link ∈ t.edges, link.text ∈ texts)
    (hsalts : (t.edges.map fun link => link.disclosure.salt).Nodup) :
    (t.edges.map Link.text).Nodup := by
  refine Nodup.map_on (fun link hlink link' hlink' htext => ?_) (Nodup.of_map _ hsalts)
  obtain ⟨kind, label, s, hleads⟩ := hlnk.exists_leadsTo hlink
  obtain ⟨kind', label', s', hleads'⟩ := hlnk.exists_leadsTo hlink'
  have hdisc := hleads'.disclosure_congr hleads henv (htexts _ hlink') htext
  exact inj_on_of_nodup_map hsalts hlink hlink' (congrArg Disclosure.salt hdisc)

lemma exists_isTree (cred : Issued) : ∃ children, cred.IsTree (.node .object children) := by
  obtain ⟨children, htree⟩ := exists_tree_of_computeObjectDisclosures cred.computed_eq
  obtain ⟨children', hperm, hpay, hlnk, hedges, htexts⟩ := htree.exists_perm cred.digests_perm
  refine ⟨children', hlnk, ?_, ?_, htexts, ?_, ?_⟩
  · rw [SdTree.payload, hpay, payload]
  · intro p hp
    obtain ⟨l, p, rfl⟩ := exists_cons_of_ne_nil hp
    have hcls := htree.claims_eq
    rw [SdTree.claims, SdTree.claimsOf_eq_map] at hcls ⊢
    rw [← hcls, JsonValue.atPath, JsonValue.atPath, JsonValue.children, JsonValue.children]
    rw [lookup_perm (hperm.map _) (by rw [map_map]; exact hlnk.labels_nodup)]
  · intro s
    rw [cred.disclosures_perm.mem_iff, ← htree.disclosures_eq]
    simp [hedges.mem_iff]
  · refine nodup_texts hlnk cred.reliable htexts ?_
    rw [(hedges.map _).nodup_iff, htree.salts_eq]
    refine Nodup.map_on (fun i hi j hj heq => cred.fresh ?_ ?_ heq) nodup_range'
    · rw [mem_range'_1, ← htree.next_eq] at hi
      exact hi
    · rw [mem_range'_1, ← htree.next_eq] at hj
      exact hj

variable (cred : Issued)

/-- Exactly the addressed claims are seen, as they are; all else are digests of what is not
presented. -/
structure Exact (keys : List Str) (result : CredentialClaim) : Prop where
  seen_iff : ∀ p ≠ [], ∀ shape, seen p result = some shape ↔
    Addressed keys p ∧ (cred.claims.json.atPath p).map JsonValue.shape = some shape
  digest_of_not_disclosed : ∀ p ≠ [], ∀ c, result.atPath p = some c →
    c.selectivelyDisclosable = true ∨ ∃ d ∈ cred.computed.disclosures, ∃ digest,
      cred.env.hashBase64Url d = .ok digest ∧ IsDigestOf digest c

variable {cred}

variable {keys : List Str}

lemma IsTree.exists_walk (ht : cred.IsTree t)
    (hkeys : cred.NamesPaths keys) {key : Str} (hkey : key ∈ keys) :
    ∃ links s, t.walk (key.splitOn nestedClaimMarker) = some (links, s) := by
  have hsome := hkeys key hkey
  rw [← ht.atPath_eq _ (splitOn_ne_nil _ _),
    atPath_claims (fun v h => ⟨h.2 rfl, h.1⟩) ht.linked, Option.isSome_map] at hsome
  obtain ⟨⟨links, s⟩, hwalk⟩ := Option.isSome_iff_exists.1 hsome
  exact ⟨links, s, hwalk⟩

/-- What is revealed of the tree with the presented disclosures is exact. -/
lemma IsTree.exact_reveal (ht : cred.IsTree t) {presented : List Str}
    (hkeys : cred.NamesPaths keys)
    (hpres : ∀ x, x ∈ presented ↔ ∃ key, IsLeaf nestedClaimMarker keys key ∧ ∃ links s,
      t.walk (key.splitOn nestedClaimMarker) = some (links, s) ∧
        x ∈ (links ++ s.edges).map Link.text) :
    cred.Exact keys (.mk false false (reveal presented t)) := by
  have hleaf : ∀ v, EncodedLeaf true v → IsScalar v ∧ Disclosable v := fun v h => ⟨h.2 rfl, h.1⟩
  -- all leaves of the keys are ends
  have hall : ∀ p ≠ [], ∀ links s, t.walk p = some (links, s) →
      ((∀ link ∈ links, link.text ∈ presented) ↔ Addressed keys p) := by
    intro p hp links s hwalk
    have hiff := @forall_presented_iff t s presented p links (fun q whole => whole = true ∧
      ∃ key, IsLeaf nestedClaimMarker keys key ∧ q = key.splitOn nestedClaimMarker) ht.nodup ?_ ?_
      hp hwalk
    · simp [hiff, Addressed]
    · rintro _ _ ⟨-, key, hkey, rfl⟩
      exact ht.exists_walk hkeys hkey.1
    · intro x
      rw [hpres]
      simp only [map_append, mem_append]
      constructor
      · rintro ⟨key, hkey, links, s, hwalk, hx⟩
        exact ⟨_, true, ⟨rfl, key, hkey, rfl⟩, links, s, hwalk, hx.imp_right fun h => ⟨rfl, h⟩⟩
      · rintro ⟨_, _, ⟨-, key, hkey, rfl⟩, links, s, hwalk, hx⟩
        exact ⟨key, hkey, links, s, hwalk, hx.imp_right And.right⟩
  refine ⟨fun p hp shape => ?_, fun p hp c hc => ?_⟩
  · rw [seen_reveal_iff hleaf ht.linked hp, ← ht.atPath_eq p hp, atPath_claims hleaf ht.linked,
      Option.map_map, Option.map_eq_some_iff]
    constructor
    · rintro ⟨links, s, hwalk, hdisd, hshape⟩
      exact ⟨(hall p hp links s hwalk).1 hdisd, (links, s), hwalk, hshape⟩
    · rintro ⟨haddr, ⟨links, s⟩, hwalk, hshape⟩
      exact ⟨links, s, hwalk, (hall p hp links s hwalk).2 haddr, hshape⟩
  · rcases disclosed_or_digest_of_atPath hleaf ht.linked hp hc with h | ⟨link, hlink, -, hdig⟩
    · exact .inl h
    · obtain ⟨kind, label, s, hleads⟩ := ht.linked.exists_leadsTo hlink
      exact .inr ⟨link.text, ht.text_mem link hlink, link.digest, hleads.hashed, hdig⟩

/-- What the verifier gets is what is revealed of the tree with the selected disclosures. -/
lemma reveals_iff (ht : cred.IsTree t)
    (hkeys : cred.NamesPaths keys) : ∃ selected,
      (∀ x, x ∈ selected ↔ ∃ key, IsLeaf nestedClaimMarker keys key ∧ ∃ links s,
        t.walk (key.splitOn nestedClaimMarker) = some (links, s) ∧
          x ∈ (links ++ s.edges).map Link.text) ∧
      ∀ result, cred.Reveals keys result ↔
        ∃ presented, presented.Perm selected ∧ result = .mk false false (reveal presented t) := by
  obtain ⟨selected, hseld, hmem⟩ := exists_presentedDisclosures (fun v h => h.2 rfl) ht.linked
    cred.reliable ht.text_mem ht.mem_disclosures fun key hkey => ht.exists_walk hkeys hkey
  refine ⟨selected, hmem, fun result => ?_⟩
  rw [ht.payload_eq] at hseld
  -- every presented disclosure is one of the tree
  have hexp : ∀ presented : List Str, presented.Perm selected →
      Returns (fun bound => expandedPayload cred.env bound presented cred.payload)
        (.mk false false (reveal presented t)) := by
    intro presented hperm
    rw [← ht.payload_eq]
    refine expandedPayload_eq (fun v h => h.1) ht.linked cred.reliable ht.text_mem fun x hx => ?_
    obtain ⟨key, -, links, s, hwalk, hx⟩ := (hmem x).1 (hperm.mem_iff.1 hx)
    obtain ⟨link, hlink, rfl⟩ := mem_map.1 hx
    obtain ⟨hlinks, hs⟩ := mem_edges_of_walk hwalk
    rcases mem_append.1 hlink with h | h
    · exact ⟨link, hlinks h, rfl⟩
    · exact ⟨link, hs h, rfl⟩
  constructor
  · rintro ⟨selected', presented, hseld', hperm, hres⟩
    obtain rfl := hseld.unique hseld'
    exact ⟨presented, hperm, hres.unique (hexp presented hperm)⟩
  · rintro ⟨presented, hperm, rfl⟩
    exact ⟨selected, presented, hseld, hperm, hexp presented hperm⟩

lemma exact_of_reveals (hkeys : cred.NamesPaths keys) {result : CredentialClaim}
    (h : cred.Reveals keys result) : cred.Exact keys result := by
  obtain ⟨children, ht⟩ := cred.exists_isTree
  obtain ⟨selected, hmem, hreve⟩ := reveals_iff ht hkeys
  obtain ⟨presented, hperm, rfl⟩ := (hreve result).1 h
  exact ht.exact_reveal hkeys fun x => hperm.mem_iff.trans (hmem x)

variable (cred)

/-- **Minimal disclosure.**  For keys that name claims of a credential, a presentation succeeds, and
it is exact.  So if the claims of another credential agree along the addressed paths, the same is seen
of both. -/
theorem presentation_exact {keys : List Str} (hkeys : cred.NamesPaths keys) :
    (∃ result, cred.Reveals keys result) ∧
    (∀ result, cred.Reveals keys result → cred.Exact keys result) ∧
    ∀ cred' : Issued, cred'.NamesPaths keys →
      (∀ p, Addressed keys p → (cred.claims.json.atPath p).map JsonValue.shape =
        (cred'.claims.json.atPath p).map JsonValue.shape) →
      ∀ result result', cred.Reveals keys result → cred'.Reveals keys result' →
        ∀ p ≠ [], seen p result = seen p result' := by
  refine ⟨?_, fun result => exact_of_reveals hkeys, ?_⟩
  · obtain ⟨children, ht⟩ := cred.exists_isTree
    obtain ⟨selected, -, hreve⟩ := reveals_iff ht hkeys
    exact ⟨_, (hreve _).2 ⟨selected, Perm.refl _, rfl⟩⟩
  · intro cred' hkeys' hagree result result' hres hres' p hp
    refine Option.ext fun shape => ?_
    rw [(exact_of_reveals hkeys hres).seen_iff p hp, (exact_of_reveals hkeys' hres').seen_iff p hp]
    refine and_congr_right fun haddr => ?_
    rw [hagree p haddr]

end Issued

/-! ### One of two claims -/

section Sample

def sampleIssued : Issued where
  env := sampleEnvironment
  claims := sampleClaims
  firstSalt := 0
  computed := ⟨sampleDisclosures, [['2']], 3⟩
  computed_eq := sample_computed
  reliable := sample_reliable
  fresh := by
    rintro i ⟨-, hi⟩ j ⟨-, hj⟩ heq
    have hinj : ∀ i < 3, ∀ j < 3, sampleEnvironment.generateSalt i =
        sampleEnvironment.generateSalt j → i = j := by decide
    exact hinj i hi j hj heq
  digests := [['2']]
  digests_perm := .refl _
  disclosures := sampleDisclosures
  disclosures_perm := .refl _

/-- With the key `a/b`, the claims `a` and `b` are seen and `c` is not. -/
theorem presentation_exact_sample :
    ∃ result, sampleIssued.Reveals [['a', '/', 'b']] result ∧
      sampleIssued.Exact [['a', '/', 'b']] result := by
  have hkeys : sampleIssued.NamesPaths [['a', '/', 'b']] := by
    intro key hkey
    rw [mem_singleton.1 hkey]
    rfl
  obtain ⟨⟨result, hres⟩, hexact, -⟩ := sampleIssued.presentation_exact hkeys
  exact ⟨result, hres, hexact result hres⟩

end Sample

end OneCore.SdJwt
