/-
# The disclosures that are handed on

The holder selects disclosures by keys: for each key that no other key continues, the disclosures on
the way along the key and all those below its end.  In terms of the tree of disclosures, these are the
links on the walk along the key and the edges of the subtree at its end
(`exists_presentedDisclosures`).

The holder finds the disclosures by their digests, under both the present and the earlier digest of
each; neither leads to another disclosure.
-/
import OneCore.Lib.Path
import OneCore.SdJwt.Expansion

namespace OneCore.SdJwt

open List LabelledTree SdTree
open Path (Below AtOrBelow IsLeaf)

/-! ### The leaves of a list of keys -/

section Leaves

lemma lt_of_below {p q : Str} (h : Below nestedClaimMarker p q) : p < q := by
  obtain ⟨r, rfl⟩ := Path.below_iff.1 h
  induction p with
  | nil => exact Lex.nil
  | cons c p ih => exact Lex.cons (ih (Path.below_iff.2 ⟨r, rfl⟩))

variable {k : Str}

lemma mem_insertLeaf_iff {leafs : List Str} {key : Str} :
    k ∈ insertLeaf leafs key ↔
      k ∈ leafs ∨ (k = key ∧ ∀ leaf ∈ leafs, ¬Below nestedClaimMarker key leaf) := by
  have hany : (leafs.any fun leaf => (key ++ [nestedClaimMarker]).isPrefixOf leaf) = true ↔
      ∃ leaf ∈ leafs, Below nestedClaimMarker key leaf := by
    simp only [any_eq_true, isPrefixOf_iff_prefix]
    rfl
  unfold insertLeaf
  split
  · next h =>
    tauto
  · next h =>
    have hnone : ∀ leaf ∈ leafs, ¬Below nestedClaimMarker key leaf := fun leaf hleaf hbelow =>
      h (hany.2 ⟨leaf, hleaf, hbelow⟩)
    rw [mem_insert_iff]
    tauto

/-- The loop over keys in descending order keeps the leaves of the keys that it has seen. -/
lemma mem_foldl_insertLeaf_iff (seen keys leafs : List Str)
    (hleafs : ∀ k, k ∈ leafs ↔ IsLeaf nestedClaimMarker seen k)
    (hsrt : (seen ++ keys).Pairwise fun a b => ¬a < b) (k : Str) :
    k ∈ keys.foldl insertLeaf leafs ↔ IsLeaf nestedClaimMarker (seen ++ keys) k := by
  induction keys generalizing seen leafs with
  | nil => rw [foldl_nil, append_nil, hleafs]
  | cons key keys ih =>
    have happ : seen ++ key :: keys = seen ++ [key] ++ keys := by
      rw [append_assoc, cons_append, nil_append]
    rw [happ] at hsrt ⊢
    refine ih _ _ (fun k => ?_) hsrt
    -- no key that came before is continued by the new one
    have hbef : ∀ k ∈ seen, ¬Below nestedClaimMarker k key := fun k hk hbelow =>
      (pairwise_append.1 (pairwise_append.1 hsrt).1).2.2 k hk key
        (mem_singleton_self key) (lt_of_below hbelow)
    have hself : ¬Below nestedClaimMarker key key := fun h => absurd h.length_lt (lt_irrefl _)
    rw [mem_insertLeaf_iff, hleafs]
    constructor
    · rintro (⟨hmem, hleaf⟩ | ⟨rfl, hnone⟩)
      · refine ⟨mem_append_left _ hmem, fun k' hk' => ?_⟩
        rcases mem_append.1 hk' with hk' | hk'
        · exact hleaf k' hk'
        · rw [mem_singleton.1 hk']
          exact hbef k hmem
      · refine ⟨mem_append_right _ (mem_singleton_self k), fun k' hk' hbelow => ?_⟩
        rcases mem_append.1 hk' with hk' | hk'
        · -- a leaf at or below the continuation also continues the key
          obtain ⟨leaf, hleaf, hat⟩ : ∃ leaf, IsLeaf nestedClaimMarker seen leaf ∧
              AtOrBelow nestedClaimMarker k' leaf := Path.exists_isLeaf_atOrBelow hk'
          refine hnone leaf ((hleafs leaf).2 hleaf) ?_
          rcases hat with rfl | hat
          · exact hbelow
          · exact hbelow.trans hat
        · rw [mem_singleton.1 hk'] at hbelow
          exact hself hbelow
    · rintro ⟨hmem, hleaf⟩
      rcases mem_append.1 hmem with hmem | hmem
      · exact .inl ⟨hmem, fun k' hk' => hleaf k' (mem_append_left _ hk')⟩
      · refine .inr ⟨mem_singleton.1 hmem, fun leaf hleafmem => ?_⟩
        rw [← mem_singleton.1 hmem]
        exact hleaf leaf (mem_append_left _ ((hleafs leaf).1 hleafmem).1)

/-- Exactly the keys that no other key continues are kept. -/
lemma mem_pathsToLeafs_iff {keys : List Str} :
    k ∈ pathsToLeafs keys ↔ IsLeaf nestedClaimMarker keys k := by
  have hsrt : (keys.mergeSort fun a b => b ≤ a).Pairwise fun a b => decide (b ≤ a) = true :=
    pairwise_mergeSort
      (fun a b c hab hbc => by
        simp only [decide_eq_true_eq] at hab hbc ⊢
        exact le_trans hbc hab)
      (fun a b => by
        simp only [Bool.or_eq_true, decide_eq_true_eq]
        exact le_total b a) keys
  have hdesc : (keys.mergeSort fun a b => b ≤ a).Pairwise fun a b => ¬a < b :=
    hsrt.imp fun h => by simpa using h
  have hleaf := mem_foldl_insertLeaf_iff [] _ [] (fun k => by simp [IsLeaf]) hdesc k
  rw [pathsToLeafs, hleaf]
  simp [IsLeaf]

lemma nodup_pathsToLeafs (keys : List Str) : (pathsToLeafs keys).Nodup := by
  refine foldlRecOn _ insertLeaf nodup_nil fun leafs hnd key _ => ?_
  unfold insertLeaf
  split
  · exact hnd
  · exact hnd.insert

/-- The second path has the segments of the first one and more after them. -/
def Continues (p q : Str) : Prop :=
  p.splitOn nestedClaimMarker <+: q.splitOn nestedClaimMarker ∧ p ≠ q

lemma below_iff_continues {p q : Str} : Below nestedClaimMarker p q ↔ Continues p q := by
  constructor
  · intro h
    refine ⟨Path.AtOrBelow.splitOn_isPrefix (.inr h), ?_⟩
    rintro rfl
    exact absurd h.length_lt (lt_irrefl _)
  · rintro ⟨hpfx, hne⟩
    have hat := @Path.atOrBelow_intercalate _ nestedClaimMarker _ _ (splitOn_ne_nil _ _) hpfx
    rw [intercalate_splitOn, intercalate_splitOn] at hat
    exact hat.resolve_left fun h => hne h.symm

/-- The leaves are the paths of which no other path has the segments and more, each of them once.
Neither the order of the paths nor how often they occur matters. -/
theorem pathsToLeafs_exact (paths : List Str) :
    (pathsToLeafs paths).Nodup ∧
    (∀ p, p ∈ pathsToLeafs paths ↔ p ∈ paths ∧ ∀ q ∈ paths, ¬Continues p q) ∧
    ∀ paths' : List Str, (∀ p, p ∈ paths' ↔ p ∈ paths) → pathsToLeafs paths' ~ pathsToLeafs paths := by
  refine ⟨nodup_pathsToLeafs paths, fun p => ?_, fun paths' h => ?_⟩
  · simp only [mem_pathsToLeafs_iff, IsLeaf, below_iff_continues]
  · refine (perm_ext_iff_of_nodup (nodup_pathsToLeafs paths') (nodup_pathsToLeafs paths)).2 fun p => ?_
    simp only [mem_pathsToLeafs_iff, IsLeaf, h]

end Leaves

/-! ### Disclosures by their digests -/

variable {t s : SdTree} {env : Environment} {Leaf : JsonValue → Prop} {entries : List HashedDisclosure}

/-- The loop over the disclosures: a digest in the map belongs to one of them, and the digests of all
of them are in the map. -/
lemma exists_foldlM_insertDigests
    (hents : ∀ e ∈ entries, e.disclosure.hashDisclosure env = .ok e.hash ∧
      e.disclosure.hashDisclosureArray env = .ok e.arrayHash) (digests : List (Str × Disclosure)) :
    ∃ result, (entries.map HashedDisclosure.disclosure).foldlM (insertDigests env) digests =
        .ok result ∧
      (∀ h d, result.lookup h = some d → digests.lookup h = some d ∨
        ∃ e ∈ entries, d = e.disclosure ∧ (h = e.hash ∨ h = e.arrayHash)) ∧
      (∀ h, (digests.lookup h).isSome ∨ (∃ e ∈ entries, h = e.hash) →
        (result.lookup h).isSome) := by
  induction entries generalizing digests with
  | nil =>
    refine ⟨digests, rfl, fun h d hd => .inl hd, fun h hh => ?_⟩
    rcases hh with hh | ⟨e, he, -⟩
    · exact hh
    · cases he
  | cons e entries ih =>
    obtain ⟨⟨hhash, harr⟩, hents⟩ := forall_mem_cons.1 hents
    let digests' := mapInsert e.hash e.disclosure (mapInsert e.arrayHash e.disclosure digests)
    have hstep : insertDigests env digests e.disclosure = .ok digests' := by
      rw [insertDigests, harr, hhash]
      rfl
    have hlkp : ∀ h, digests'.lookup h = if h = e.hash then some e.disclosure else
        if h = e.arrayHash then some e.disclosure else digests.lookup h := by
      intro h
      rw [lookup_mapInsert, lookup_mapInsert]
    obtain ⟨result, hres, hfrom, hto⟩ := ih hents digests'
    refine ⟨result, ?_, fun h d hd => ?_, fun h hh => hto h ?_⟩
    · rw [map_cons, foldlM_cons, hstep]
      exact hres
    · rcases hfrom h d hd with hd | ⟨e', he', hd⟩
      · rw [hlkp] at hd
        split at hd
        · next heq =>
          exact .inr ⟨e, mem_cons_self, (Option.some.inj hd).symm, .inl heq⟩
        · split at hd
          · next heq =>
            exact .inr ⟨e, mem_cons_self, (Option.some.inj hd).symm, .inr heq⟩
          · exact .inl hd
      · exact .inr ⟨e', mem_cons_of_mem _ he', hd⟩
    · rw [hlkp]
      rcases hh with hh | ⟨e', he', rfl⟩
      · refine .inl ?_
        split
        · rfl
        · split
          · rfl
          · exact hh
      · rcases mem_cons.1 he' with rfl | he'
        · exact .inl (by rw [if_pos rfl]; rfl)
        · exact .inr ⟨e', he', rfl⟩

/-- The digest of every link of a tree leads to its disclosure. -/
def LooksUp (allDigests : List (Str × Disclosure)) (t : SdTree) : Prop :=
  ∀ link ∈ t.edges, allDigests.lookup link.digest = some link.disclosure

lemma LooksUp.of_subset {allDigests : List (Str × Disclosure)}
    (h : LooksUp allDigests t) (hsub : s.edges ⊆ t.edges) : LooksUp allDigests s :=
  fun link hlink => h link (hsub hlink)

/-- The holder finds the disclosures of its token by their digests. -/
lemma exists_computeDigests {texts disclosed : List Str}
    (hlnk : Linked env Leaf t) (henv : Reliable env texts)
    (htexts : ∀ link ∈ t.edges, link.text ∈ texts)
    (hents : Forall₂ (EntryOf env t) disclosed entries)
    (hall : ∀ link ∈ t.edges, link.text ∈ disclosed) :
    ∃ allDigests, computeDigests env (entries.map HashedDisclosure.disclosure) = .ok allDigests ∧
      LooksUp allDigests t := by
  have hhashed : ∀ e ∈ entries, e.disclosure.hashDisclosure env = .ok e.hash ∧
      e.disclosure.hashDisclosureArray env = .ok e.arrayHash := by
    intro e he
    obtain ⟨s, -, h⟩ := hents.exists_of_mem_right he
    exact ⟨h.hashed, h.arrayHashed⟩
  obtain ⟨allDigests, hcomp, hfrom, hto⟩ := exists_foldlM_insertDigests hhashed []
  refine ⟨allDigests, hcomp, fun link hlink => ?_⟩
  obtain ⟨e, he, hent⟩ := hents.exists_of_mem_left (hall link hlink)
  have hsome := hto link.digest (.inr ⟨e, he, (hent.hash_eq hlnk hlink).symm⟩)
  obtain ⟨d, hd⟩ := Option.isSome_iff_exists.1 hsome
  rcases hfrom _ _ hd with hd' | ⟨e', he', rfl, hdig⟩
  · cases hd'
  · obtain ⟨s, -, h⟩ := hents.exists_of_mem_right he'
    obtain ⟨-, hdisc⟩ := h.of_digest hlnk henv htexts hlink hdig
    rw [hd, hdisc]

/-! ### The walk of the holder -/

variable {links : List Link} {allDigests : List (Str × Disclosure)}
  {children : List (Str × Link × SdTree)} {link : Link}

lemma LooksUp.elementDisclosure_eq (hlooks : LooksUp allDigests t)
    (h : link ∈ t.edges) :
    arrayElementDisclosure allDigests (sdElement link.digest) = some link.disclosure := by
  exact hlooks link h

lemma objectDisclosures_eq {fields : List (Str × JsonValue)}
    (hlooks : LooksUp allDigests (.node .object children))
    (hfields : fields.lookup selectiveDisclosureMarker =
      some (.array ((children.map fun c => c.2.1.digest).map .string))) :
    objectDisclosures allDigests fields = children.map fun c => c.2.1.disclosure := by
  have hhashes : sdHashes fields = children.map fun c => c.2.1.digest := by
    rw [sdHashes, hfields]
    simp only [filterMap_map]
    exact congrFun (filterMap_eq_map (f := fun c => c.2.1.digest)) children
  rw [objectDisclosures, hhashes, filterMap_map]
  refine (filterMap_congr fun c hc => ?_).trans
    (congrFun (filterMap_eq_map (f := fun c => c.2.1.disclosure)) children)
  exact hlooks c.2.1 (edge_mem_edges hc)

variable {l : Str} {p : List Str}

/-- The children of an array are at the places of their labels. -/
lemma exists_index_of_lookup
    (hlabels : LabelsFit .array (children.map Prod.fst)) (h : children.lookup l = some (link, s)) :
    ∃ i, l = (toString i).toList ∧ i < usizeBound ∧
      (children.map Prod.snd)[i]? = some (link, s) := by
  have hidx : indexed (children.map Prod.snd) = children := by
    have hfst := hlabels.1.trans (map_fst_indexedFrom_congr 0 (length_map Prod.fst))
    exact (indexedFrom_map_of_labels Prod.snd hfst).trans (map_id _)
  obtain ⟨l₁, l₂, hspl, -⟩ := lookup_eq_some_iff.1 h
  have hmem : (l, link, s) ∈ indexedFrom 0 (children.map Prod.snd) := by
    show (l, link, s) ∈ indexed (children.map Prod.snd)
    rw [hidx, hspl]
    simp
  obtain ⟨i, hi, hl⟩ := exists_index_of_mem_indexedFrom hmem
  rw [Nat.zero_add] at hl
  have hl' : l = (toString i).toList := hl
  have hlen := hlabels.2
  rw [length_map] at hi hlen
  refine ⟨i, hl', by omega, ?_⟩
  rw [← lookup_indexed, hidx, ← hl', h]

/-- The first disclosure with a key is the one of the child under the key. -/
lemma find?_disclosure_of_lookup
    (hleads : ∀ c ∈ children, c.2.1.LeadsTo env .object c.1 c.2.2)
    (h : children.lookup l = some (link, s)) :
    ((children.map fun c => c.2.1.disclosure).find? fun d => d.key = some l) =
      some link.disclosure := by
  induction children with
  | nil => cases h
  | cons c children ih =>
    obtain ⟨hc, hleads⟩ := forall_mem_cons.1 hleads
    have hkey : c.2.1.disclosure.key = some c.1 := hc.key_eq
    by_cases hl : l = c.1
    · subst hl
      rw [lookup_cons_self] at h
      rw [map_cons, find?_cons_of_pos (by simp [hkey])]
      exact congrArg some (congrArg (fun e => e.1.disclosure) (Option.some.inj h))
    · rw [lookup_cons_of_ne hl] at h
      have hne : ¬c.2.1.disclosure.key = some l := by
        rw [hkey]
        exact fun heq => hl (Option.some.inj heq).symm
      rw [map_cons, find?_cons_of_neg (by simpa using hne)]
      exact ih hleads h

/-- The walk along a key that leads to a subtree meets the links on the way. -/
lemma selectAlong_eq (key : Str) (hlnk : Linked env Leaf t)
    (hlooks : LooksUp allDigests t) (hwalk : t.walk p = some (links, s)) :
    selectAlong allDigests key p t.payload = .ok (links.map Link.text, some s.payload) := by
  induction p generalizing t links with
  | nil =>
    obtain ⟨rfl, rfl⟩ : [] = links ∧ t = s := by simpa [walk] using hwalk
    cases t.payload <;> rfl
  | cons l p ih =>
    obtain ⟨link, c, links', hch, hwalk', rfl⟩ := walk_cons_eq_some_iff.1 hwalk
    obtain ⟨hmem, hsub⟩ := mem_edges_of_child hch
    obtain ⟨kind, children, rfl, hlkp, hc⟩ := exists_children_of_child hch
    cases hlnk with
    | node labels leads h =>
      have hval : link.disclosure.value = payload c := (leads _ hc).value_eq
      have hrest : selectAlong allDigests key p link.disclosure.value =
          .ok (links'.map Link.text, some s.payload) := by
        rw [hval]
        exact ih (h _ hc) (hlooks.of_subset hsub) hwalk'
      cases kind with
      | array =>
        obtain ⟨i, rfl, hi, hget⟩ := exists_index_of_lookup labels hlkp
        have hclm : ((children.map fun c => c.2.1.digest).map sdElement)[i]? =
            some (sdElement link.digest) := by
          have hmap := congrArg (Option.map fun e : Link × SdTree => sdElement e.1.digest) hget
          rw [← getElem?_map, map_map] at hmap
          rw [map_map]
          exact hmap
        rw [payload, sdArray, selectAlong, Decimal.parse_toString hi]
        simp only [Except.mapError, bind_eq_ok]
        refine ⟨i, rfl, ?_⟩
        simp only [hclm, hlooks.elementDisclosure_eq hmem, hrest]
        rfl
      | object =>
        have hne : l ≠ selectiveDisclosureMarker := by
          rintro rfl
          exact labels.2 (mem_map_of_mem hc)
        rw [payload, sdObject, selectAlong, lookup_cons_of_ne hne]
        simp only [objectDisclosures_eq hlooks lookup_cons_self,
          find?_disclosure_of_lookup leads hlkp, hrest]
        rfl

lemma Linked.of_walk (hlnk : Linked env Leaf t)
    (hwalk : t.walk p = some (links, s)) : Linked env Leaf s := by
  induction p generalizing t links with
  | nil =>
    obtain ⟨-, rfl⟩ : [] = links ∧ t = s := by simpa [walk] using hwalk
    exact hlnk
  | cons l p ih =>
    obtain ⟨link, c, links', hch, hwalk', rfl⟩ := walk_cons_eq_some_iff.1 hwalk
    obtain ⟨kind, children, rfl, -, hc⟩ := exists_children_of_child hch
    cases hlnk with
    | node labels leads h => exact ih (h _ hc) hwalk'

/-! ### The disclosures below a node -/

variable (hleaf : ∀ v, Leaf v → IsScalar v)

/-- The disclosures behind the digests of a value itself. -/
def directDisclosures (allDigests : List (Str × Disclosure)) : JsonValue → List Disclosure
  | .array elements => elements.filterMap (arrayElementDisclosure allDigests)
  | .object claims => objectDisclosures allDigests claims
  | _ => []

/-- There is one round for each of these, in which the disclosure comes first or last. -/
lemma exists_collect_succ (allDigests : List (Str × Disclosure)) (v : JsonValue) :
    ∃ arrange : Disclosure → List Str → List Str,
      (∀ d texts x, x ∈ arrange d texts ↔ x = d.disclosure ∨ x ∈ texts) ∧
      ∀ bound, collectAllSubdisclosures allDigests (bound + 1) v =
        Except.flatMapM (directDisclosures allDigests v) fun d => do
          return arrange d (← collectAllSubdisclosures allDigests bound d.value) := by
  cases v with
  | object claims => exact ⟨fun d texts => texts ++ [d.disclosure], by simp [or_comm], fun _ => rfl⟩
  | array elements =>
    refine ⟨fun d texts => d.disclosure :: texts, by simp, fun bound => ?_⟩
    rw [directDisclosures, Except.flatMapM_filterMap]
    refine congrArg (Except.flatMapM _) (funext fun element => ?_)
    cases arrayElementDisclosure allDigests element <;> rfl
  | _ => exact ⟨fun d texts => d.disclosure :: texts, by simp, fun _ => rfl⟩

lemma directDisclosures_payload {kind : Container}
    (hlooks : LooksUp allDigests (.node kind children)) :
    directDisclosures allDigests (payload (.node kind children)) =
      children.map fun c => c.2.1.disclosure := by
  cases kind with
  | object => exact objectDisclosures_eq hlooks lookup_cons_self
  | array =>
    rw [payload, sdArray, directDisclosures, map_map, filterMap_map]
    refine (filterMap_congr fun c hc => ?_).trans
      (congrFun (filterMap_eq_map (f := fun c => c.2.1.disclosure)) children)
    exact hlooks.elementDisclosure_eq (edge_mem_edges hc)

include hleaf in
/-- The collection below a node finds the links below it. -/
lemma exists_collectAllSubdisclosures (hlnk : Linked env Leaf t) (hlooks : LooksUp allDigests t) :
    ∃ out, (∀ bound ≥ t.height sizeOf + 1,
        collectAllSubdisclosures allDigests bound t.payload = .ok out) ∧
      ∀ x, x ∈ out ↔ x ∈ t.edges.map Link.text := by
  induction hlnk with
  | @leaf v h =>
    refine ⟨[], fun bound hbound => ?_, fun x => by simp⟩
    obtain ⟨bound, rfl⟩ : ∃ b, bound = b + 1 := ⟨bound - 1, by omega⟩
    have hscl := hleaf v h
    rw [payload]
    cases v with
    | array values => cases hscl
    | object fields => cases hscl
    | _ => rfl
  | @node kind children labels leads h ih =>
    have hch : ∀ c ∈ children, ∃ out, (∀ bound ≥ heightOf sizeOf children + 1,
        collectAllSubdisclosures allDigests bound c.2.1.disclosure.value = .ok out) ∧
          ∀ x, x ∈ out ↔ x ∈ c.2.2.edges.map Link.text := by
      intro c hc
      have hle := height_le_heightOf sizeOf hc
      obtain ⟨out, hout, hiff⟩ := ih c hc (hlooks.of_subset (edges_subset_edges hc))
      refine ⟨out, fun bound hbound => ?_, hiff⟩
      rw [(leads c hc).value_eq]
      exact hout bound (by omega)
    choose! out hout hiff using hch
    obtain ⟨arrange, harr, hsucc⟩ := exists_collect_succ allDigests (payload (.node kind children))
    refine ⟨children.flatMap fun c => arrange c.2.1.disclosure (out c), fun bound hbound => ?_,
      fun x => ?_⟩
    · rw [height] at hbound
      obtain ⟨bound, rfl⟩ : ∃ b, bound = b + 1 := ⟨bound - 1, by omega⟩
      rw [hsucc, directDisclosures_payload hlooks, Except.flatMapM_map]
      refine Except.flatMapM_eq_ok_of_forall fun c hc => ?_
      rw [hout c hc bound (by omega)]
      rfl
    · rw [edges_node, map_flatMap, mem_flatMap, mem_flatMap]
      refine exists_congr fun c => and_congr_right fun hc => ?_
      rw [harr, hiff c hc, map_append, mem_append, or_comm, map_cons, map_nil, mem_singleton]
      rfl

include hleaf in
lemma exists_selectForKey {key : Str} (hlnk : Linked env Leaf t) (hlooks : LooksUp allDigests t)
    (hwalk : t.walk (key.splitOn nestedClaimMarker) = some (links, s)) :
    ∃ out, (∀ bound ≥ t.height sizeOf + 1,
        selectForKey allDigests bound t.payload key = .ok out) ∧
      ∀ x, x ∈ out ↔ x ∈ (links ++ s.edges).map Link.text := by
  have halong := selectAlong_eq key hlnk hlooks hwalk
  have hsub := (mem_edges_of_walk hwalk).2
  have hheight := height_le_of_walk sizeOf hwalk
  obtain ⟨out, hout, hiff⟩ := exists_collectAllSubdisclosures hleaf (hlnk.of_walk hwalk)
    (hlooks.of_subset hsub)
  refine ⟨links.map Link.text ++ out, fun bound hbound => ?_, fun x => ?_⟩
  · rw [selectForKey, halong]
    simp only [Except.mapError, bind_eq_ok]
    exact ⟨_, rfl, bind_eq_ok.2 ⟨out, hout bound (by omega), rfl⟩⟩
  · rw [mem_append, hiff, map_append, mem_append]

/-! ### The selected disclosures -/

include hleaf in
/-- The texts of the links on the ways to the leaves of the keys and below them are selected. -/
lemma exists_presentedDisclosures {texts disclosures keys : List Str}
    (hlnk : Linked env Leaf t) (henv : Reliable env texts)
    (htexts : ∀ link ∈ t.edges, link.text ∈ texts)
    (hdiscs : ∀ s, s ∈ disclosures ↔ ∃ link ∈ t.edges, link.text = s)
    (hkeys : ∀ key ∈ keys, ∃ links s,
      t.walk (key.splitOn nestedClaimMarker) = some (links, s)) :
    ∃ selected,
      Returns (fun bound => presentedDisclosures env bound keys t.payload disclosures) selected ∧
      ∀ x, x ∈ selected ↔ ∃ key, IsLeaf nestedClaimMarker keys key ∧ ∃ links s,
        t.walk (key.splitOn nestedClaimMarker) = some (links, s) ∧
          x ∈ (links ++ s.edges).map Link.text := by
  obtain ⟨entries, hents, hdec, -⟩ := exists_entries hlnk henv htexts
    fun s hs => (hdiscs s).1 hs
  obtain ⟨allDigests, hdigs, hlooks⟩ := exists_computeDigests hlnk henv htexts hents
    fun link hlink => (hdiscs _).2 ⟨link, hlink, rfl⟩
  have hkey : ∀ key ∈ pathsToLeafs keys, ∃ out, (∀ bound ≥ t.height sizeOf + 1,
      selectForKey allDigests bound t.payload key = .ok out) ∧ ∀ x, x ∈ out ↔ ∃ links s,
        t.walk (key.splitOn nestedClaimMarker) = some (links, s) ∧
          x ∈ (links ++ s.edges).map Link.text := by
    intro key hmem
    obtain ⟨links, s, hwalk⟩ := hkeys key (mem_pathsToLeafs_iff.1 hmem).1
    obtain ⟨out, hout, hiff⟩ := exists_selectForKey hleaf hlnk hlooks hwalk
    refine ⟨out, hout, fun x => (hiff x).trans ⟨fun hx => ⟨links, s, hwalk, hx⟩, ?_⟩⟩
    rintro ⟨links', s', hwalk', hx⟩
    obtain ⟨rfl, rfl⟩ := Prod.mk.inj (mem_unique hwalk hwalk')
    exact hx
  choose! out hout hiff using hkey
  refine ⟨((pathsToLeafs keys).flatMap out).eraseDups,
    ⟨t.height sizeOf + 1, fun bound hbound => ?_⟩, fun x => ?_⟩
  · show presentedDisclosures env bound keys t.payload disclosures = _
    rw [presentedDisclosures, hdec]
    simp only [selectDisclosures, Except.mapError, bind_eq_ok]
    exact ⟨_, rfl, _, by rw [hdigs], _,
      Except.flatMapM_eq_ok_of_forall fun key hmem => hout key hmem bound hbound, rfl⟩
  · rw [mem_eraseDups, mem_flatMap]
    constructor
    · rintro ⟨key, hmem, hx⟩
      exact ⟨key, mem_pathsToLeafs_iff.1 hmem, (hiff key hmem x).1 hx⟩
    · rintro ⟨key, hmem, hx⟩
      have hmem' := mem_pathsToLeafs_iff.2 hmem
      exact ⟨key, hmem', (hiff key hmem' x).2 hx⟩

end OneCore.SdJwt
