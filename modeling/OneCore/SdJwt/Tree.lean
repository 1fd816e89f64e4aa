/-
# The tree of disclosures

What the issuer computes is a tree that is linked by digests: each edge is a disclosure, under the key
or the index of its claim, and the value inside the disclosure has the digests of the edges below.
The tree says which claims it stands for (`claims`) and what is seen of it without its disclosures
(`payload`).

Every object of claims is encoded by such a tree, whose edges are the disclosures that are returned
(`exists_tree_of_computeObjectDisclosures`).
-/
import OneCore.Lib.LabelledTree
import OneCore.SdJwt.Disclosures

namespace OneCore.SdJwt

open List LabelledTree

/-! ### Claims that can be disclosed selectively -/

/-- An element of this form would be taken for the digest of an element. -/
def IsPlaceholder (v : JsonValue) : Prop :=
  ∃ w, v = .object [(selectiveDisclosureArrayMarker, w)]

/-- There are no nulls, the keys of each object are unique and none is the key of the digests, and no
element of an array looks like a digest. -/
inductive Disclosable : JsonValue → Prop
  | bool (b : Bool) : Disclosable (.bool b)
  | number (n : Number) : Disclosable (.number n)
  | string (s : Str) : Disclosable (.string s)
  | array {values : List JsonValue} (hlength : values.length ≤ usizeBound)
      (hplain : ∀ v ∈ values, ¬IsPlaceholder v) (h : ∀ v ∈ values, Disclosable v) :
      Disclosable (.array values)
  | object {fields : List (Str × JsonValue)} (hunique : (fields.map Prod.fst).Nodup)
      (hkeys : ∀ f ∈ fields, f.1 ≠ selectiveDisclosureMarker)
      (h : ∀ f ∈ fields, Disclosable f.2) : Disclosable (.object fields)

structure ClaimsObject where
  fields : List (Str × JsonValue)
  disclosable : Disclosable (.object fields)

def ClaimsObject.json (claims : ClaimsObject) : JsonValue := .object claims.fields

def IsScalar : JsonValue → Prop
  | .array _ => False
  | .object _ => False
  | _ => True

/-! ### Trees -/

/-- The values that have claims inside them. -/
inductive Container where
  | array
  | object

structure Link where
  disclosure : Disclosure
  digest : Str

def Link.text (link : Link) : Str := link.disclosure.disclosure

/-- The claims of a credential, each under its key or index and over the link to it. -/
abbrev SdTree := LabelledTree Str Link Container JsonValue

namespace SdTree

/-- What is seen without disclosures. -/
def payload : SdTree → JsonValue
  | .leaf v => v
  | .node .array children => sdArray (children.map fun c => c.2.1.digest)
  | .node .object children => sdObject (children.map fun c => c.2.1.digest)

mutual

def claims : SdTree → JsonValue
  | .leaf v => v
  | .node .array children => .array ((claimsOf children).map Prod.snd)
  | .node .object children => .object (claimsOf children)

def claimsOf : List (Str × Link × SdTree) → List (Str × JsonValue)
  | [] => []
  | (label, _, t) :: children => (label, claims t) :: claimsOf children

end

lemma claimsOf_eq_map (children : List (Str × Link × SdTree)) :
    claimsOf children = children.map fun c => (c.1, claims c.2.2) := by
  induction children with
  | nil => rw [claimsOf, map_nil]
  | cons c children ih =>
    rw [claimsOf, ih, map_cons]

end SdTree

def disclosureElements (salt : Str) (key : Option Str) (value : JsonValue) : List JsonValue :=
  match key with
  | some key => [.string salt, .string key, value]
  | none => [.string salt, value]

def disclosedKey (kind : Container) (label : Str) : Option Str :=
  match kind with
  | .array => none
  | .object => some label

/-- The link leads to the given tree: its disclosure has what is seen of it, and its digest is that of
the disclosure. -/
structure Link.LeadsTo (env : Environment) (kind : Container) (label : Str) (link : Link)
    (t : SdTree) : Prop where
  key_eq : link.disclosure.key = disclosedKey kind label
  value_eq : link.disclosure.value = t.payload
  array_eq : link.disclosure.disclosureArray = env.printJson
    (.array (disclosureElements link.disclosure.salt link.disclosure.key link.disclosure.value))
  encoded : env.stringToB64url link.disclosure.disclosureArray = .ok link.text
  hashed : env.hashBase64Url link.text = .ok link.digest

/-- The elements of an array are under their indices, and the fields of an object under different
keys. -/
def LabelsFit (kind : Container) (labels : List Str) : Prop :=
  match kind with
  | .array => labels = (indexed labels).map Prod.fst ∧ labels.length ≤ usizeBound
  | .object => labels.Nodup ∧ selectiveDisclosureMarker ∉ labels

variable {kind : Container}

lemma LabelsFit.nodup {labels : List Str} (h : LabelsFit kind labels) : labels.Nodup := by
  cases kind with
  | array =>
    rw [h.1]
    exact nodup_indexedFrom 0 labels
  | object => exact h.1

/-- A tree whose links lead where they stand and whose leaves are as given. -/
inductive Linked (env : Environment) (Leaf : JsonValue → Prop) : SdTree → Prop
  | leaf {v : JsonValue} (h : Leaf v) : Linked env Leaf (.leaf v)
  | node {kind : Container} {children : List (Str × Link × SdTree)}
      (labels : LabelsFit kind (children.map Prod.fst))
      (leads : ∀ c ∈ children, c.2.1.LeadsTo env kind c.1 c.2.2)
      (h : ∀ c ∈ children, Linked env Leaf c.2.2) : Linked env Leaf (.node kind children)

variable {children : List (Str × Link × SdTree)} {Leaf : JsonValue → Prop} {env : Environment}

lemma Linked.labels_nodup (h : Linked env Leaf (.node kind children)) :
    (children.map Prod.fst).Nodup := by
  cases h with
  | node labels _ _ => exact labels.nodup

lemma Linked.children_claims (h : Linked env Leaf (.node kind children)) :
    (SdTree.claims (.node kind children)).children =
      children.map fun c => (c.1, SdTree.claims c.2.2) := by
  cases h with
  | node labels leads h =>
    cases kind with
    | object => rw [SdTree.claims, SdTree.claimsOf_eq_map, JsonValue.children]
    | array =>
      rw [SdTree.claims, SdTree.claimsOf_eq_map, map_map]
      refine indexedFrom_map_of_labels _ (labels.1.trans ?_)
      exact map_fst_indexedFrom_congr 0 (length_map _)

/-! ### The tree of an encoding -/

section Encoding

variable (env : Environment)

/-- The loops over fields and over elements in one: a disclosure for each entry under its label. -/
def computeEntries (sdArrayElements : Bool) (kind : Container) :
    List (Str × JsonValue) → Nat → Except FormatterError Computed
  | [], n => .ok ⟨[], [], n⟩
  | (label, value) :: entries, n => do
    let nested ← computeNested env sdArrayElements value n
    let disclosure ← env.stringToB64url (env.printJson (.array
      (disclosureElements (env.generateSalt nested.salts) (disclosedKey kind label) nested.value)))
    let hashedDisclosure ← env.hashBase64Url disclosure
    let rest ← computeEntries sdArrayElements kind entries (nested.salts + 1)
    return ⟨nested.disclosures ++ disclosure :: rest.disclosures, hashedDisclosure :: rest.digests,
      rest.salts⟩

lemma computeFieldDisclosures_eq (sdArrayElements : Bool) (fields : List (Str × JsonValue))
    (n : Nat) : computeFieldDisclosures env sdArrayElements fields n =
      computeEntries env sdArrayElements .object fields n := by
  induction fields generalizing n with
  | nil => rw [computeFieldDisclosures, computeEntries]
  | cons f fields ih =>
    rw [computeFieldDisclosures]
    simp only [ih]
    rfl

lemma computeElementDisclosures_eq (values : List JsonValue) (i n : Nat) :
    computeElementDisclosures env values n =
      computeEntries env true .array (indexedFrom i values) n := by
  induction values generalizing i n with
  | nil => rw [computeElementDisclosures, indexedFrom, computeEntries]
  | cons value values ih =>
    rw [computeElementDisclosures, indexedFrom]
    simp only [ih (i + 1)]
    rfl

/-- The tree stands for the value; it uses the salts from the given one on. -/
structure Encodes (Leaf : JsonValue → Prop) (v : JsonValue) (n : Nat) (nested : Nested)
    (t : SdTree) : Prop where
  linked : Linked env Leaf t
  claims_eq : t.claims = v
  payload_eq : t.payload = nested.value
  disclosures_eq : t.edges.map Link.text = nested.disclosures
  salts_eq : t.edges.map (fun link => link.disclosure.salt) =
    (range' n t.edges.length).map env.generateSalt
  next_eq : nested.salts = n + t.edges.length

/-- The children stand for the entries. -/
structure EncodesAll (Leaf : JsonValue → Prop) (kind : Container)
    (entries : List (Str × JsonValue)) (n : Nat) (computed : Computed)
    (children : List (Str × Link × SdTree)) : Prop where
  leads : ∀ c ∈ children, c.2.1.LeadsTo env kind c.1 c.2.2
  linked : ∀ c ∈ children, Linked env Leaf c.2.2
  claims_eq : (children.map fun c => (c.1, SdTree.claims c.2.2)) = entries
  digests_eq : (children.map fun c => c.2.1.digest) = computed.digests
  disclosures_eq : (edgesOf children).map Link.text = computed.disclosures
  salts_eq : (edgesOf children).map (fun link => link.disclosure.salt) =
    (range' n (edgesOf children).length).map env.generateSalt
  next_eq : computed.salts = n + (edgesOf children).length

variable {env} {sdArrayElements : Bool}

variable {computed : Computed}

variable {entries : List (Str × JsonValue)} {n : Nat} {v : JsonValue}

/-- If the values of the entries are encoded by trees, so are the entries. -/
lemma exists_children_of_computeEntries
    (hnested : ∀ e ∈ entries, ∀ n nested, computeNested env sdArrayElements e.2 n = .ok nested →
      ∃ t, Encodes env Leaf e.2 n nested t)
    (h : computeEntries env sdArrayElements kind entries n = .ok computed) :
    ∃ children, EncodesAll env Leaf kind entries n computed children := by
  induction entries generalizing n computed with
  | nil =>
    cases h
    exact ⟨[], by constructor <;> simp [edgesOf]⟩
  | cons e entries ih =>
    obtain ⟨label, value⟩ := e
    simp only [computeEntries, ok_iffs] at h
    obtain ⟨nested, hval, disclosure, hencd, digest, hhashed, rest, hrest, rfl⟩ := h
    obtain ⟨t, ht⟩ := hnested _ mem_cons_self n nested hval
    obtain ⟨children, hchs⟩ := ih (fun e he => hnested e (mem_cons_of_mem _ he)) hrest
    let link : Link := ⟨⟨env.generateSalt nested.salts, disclosedKey kind label, nested.value,
      env.printJson (.array (disclosureElements (env.generateSalt nested.salts)
        (disclosedKey kind label) nested.value)), disclosure⟩, digest⟩
    have hlink : link.LeadsTo env kind label t :=
      ⟨rfl, ht.payload_eq.symm, rfl, hencd, hhashed⟩
    have hedges : edgesOf ((label, link, t) :: children) =
        t.edges ++ link :: edgesOf children := by rw [edgesOf]
    refine ⟨(label, link, t) :: children, ?_, ?_, ?_, ?_, ?_, ?_, ?_⟩
    · exact forall_mem_cons.2 ⟨hlink, hchs.leads⟩
    · exact forall_mem_cons.2 ⟨ht.linked, hchs.linked⟩
    · rw [map_cons, ht.claims_eq, hchs.claims_eq]
    · rw [map_cons, hchs.digests_eq]
    · rw [hedges, map_append, map_cons, ht.disclosures_eq, hchs.disclosures_eq]
      rfl
    · -- first the salts below the link, then its own, then those of the other entries
      have hnext := ht.next_eq
      rw [hedges, map_append, map_cons, ht.salts_eq, hchs.salts_eq, hnext,
        length_append, length_cons, ← range'_append_1, map_append,
        range'_succ, map_cons]
      simp [link, hnext]
    · show rest.salts = _
      have hlen := congrArg length hedges
      have hnext := ht.next_eq
      have hnext' := hchs.next_eq
      simp only [length_append, length_cons] at hlen
      omega

lemma EncodesAll.encodes {value : JsonValue}
    (h : EncodesAll env Leaf kind entries n computed children)
    (hlabels : LabelsFit kind (entries.map Prod.fst))
    (hcls : SdTree.claims (.node kind children) = v)
    (hpay : SdTree.payload (.node kind children) = value) :
    Encodes env Leaf v n ⟨computed.disclosures, value, computed.salts⟩ (.node kind children) := by
  have hedges : edges (.node kind children) = edgesOf children := by
    rw [edges]
  have hlabels' : LabelsFit kind (children.map Prod.fst) := by
    rw [← h.claims_eq, map_map] at hlabels
    exact hlabels
  exact ⟨.node hlabels' h.leads h.linked, hcls, hpay, by rw [hedges, h.disclosures_eq],
    by rw [hedges, h.salts_eq], by rw [hedges, h.next_eq]⟩

lemma EncodesAll.encodes_object {fields : List (Str × JsonValue)}
    (h : EncodesAll env Leaf .object fields n computed children)
    (hunique : (fields.map Prod.fst).Nodup)
    (hkeys : ∀ f ∈ fields, f.1 ≠ selectiveDisclosureMarker) :
    Encodes env Leaf (.object fields) n
      ⟨computed.disclosures, sdObject computed.digests, computed.salts⟩ (.node .object children) := by
  refine h.encodes ⟨hunique, fun hmem => ?_⟩ ?_ ?_
  · obtain ⟨f, hf, hkey⟩ := mem_map.1 hmem
    exact hkeys f hf hkey
  · rw [SdTree.claims, SdTree.claimsOf_eq_map, h.claims_eq]
  · rw [SdTree.payload, h.digests_eq]

/-- The leaves of the tree of an encoding: scalars, and arrays unless their elements are replaced. -/
def EncodedLeaf (sdArrayElements : Bool) (v : JsonValue) : Prop :=
  Disclosable v ∧ (sdArrayElements = true → IsScalar v)

lemma encodes_leaf (h : EncodedLeaf sdArrayElements v) :
    Encodes env (EncodedLeaf sdArrayElements) v n ⟨[], v, n⟩ (.leaf v) :=
  ⟨.leaf h, rfl, rfl, rfl, rfl, rfl⟩

/-- The value inside a disclosure comes with a tree. -/
lemma exists_tree_of_computeNested (hv : Disclosable v) {nested : Nested}
    (h : computeNested env sdArrayElements v n = .ok nested) :
    ∃ t, Encodes env (EncodedLeaf sdArrayElements) v n nested t := by
  induction v using JsonValue.induction generalizing n nested with
  | null => cases hv
  | bool b =>
    cases h
    exact ⟨_, encodes_leaf ⟨hv, fun _ => trivial⟩⟩
  | number m =>
    cases h
    exact ⟨_, encodes_leaf ⟨hv, fun _ => trivial⟩⟩
  | string s =>
    cases h
    exact ⟨_, encodes_leaf ⟨hv, fun _ => trivial⟩⟩
  | array values ih =>
    rw [computeNested] at h
    split at h
    · next hsd =>
      simp only [ok_iffs] at h
      obtain ⟨computed, hcomp, rfl⟩ := h
      rw [computeElementDisclosures_eq env values 0, ← hsd] at hcomp
      cases hv with
      | array hlength hplain helem =>
        have hmem : ∀ e ∈ indexedFrom 0 values, e.2 ∈ values := fun e he => by
          rw [← map_snd_indexedFrom 0 values]
          exact mem_map_of_mem he
        obtain ⟨children, hchs⟩ := exists_children_of_computeEntries
          (fun e he n nested => ih e.2 (hmem e he) (helem e.2 (hmem e he))) hcomp
        refine ⟨_, hchs.encodes ⟨?_, ?_⟩ ?_ ?_⟩
        · exact map_fst_indexedFrom_congr 0 (by rw [length_map, length_indexedFrom])
        · rw [length_map, length_indexedFrom]
          exact hlength
        · rw [SdTree.claims, SdTree.claimsOf_eq_map, hchs.claims_eq, map_snd_indexedFrom]
        · rw [SdTree.payload, hchs.digests_eq]
    · next hsd =>
      cases h
      exact ⟨_, encodes_leaf ⟨hv, fun hsd' => absurd hsd' hsd⟩⟩
  | object fields ih =>
    simp only [computeNested, ok_iffs] at h
    obtain ⟨computed, hcomp, rfl⟩ := h
    rw [computeFieldDisclosures_eq] at hcomp
    cases hv with
    | object hunique hkeys hfields =>
      obtain ⟨children, hchs⟩ := exists_children_of_computeEntries
        (fun e he n nested => ih e he (hfields e he)) hcomp
      exact ⟨_, hchs.encodes_object hunique hkeys⟩

structure IsTreeOf (env : Environment) (sdArrayElements : Bool) (claims : ClaimsObject) (n : Nat)
    (computed : Computed) (children : List (Str × Link × SdTree)) : Prop where
  linked : Linked env (EncodedLeaf sdArrayElements) (.node .object children)
  claims_eq : SdTree.claims (.node .object children) = claims.json
  digests_eq : (children.map fun c => c.2.1.digest) = computed.digests
  disclosures_eq : (edges (.node .object children)).map Link.text =
    computed.disclosures
  salts_eq : (edges (.node .object children)).map (fun link => link.disclosure.salt) =
    (range' n (edges (.node .object children)).length).map env.generateSalt
  next_eq : computed.salts = n + (edges (.node .object children)).length

/-- What the issuer computes for an object of claims are the links of a tree that stands for it. -/
theorem exists_tree_of_computeObjectDisclosures {claims : ClaimsObject}
    (h : computeObjectDisclosures env claims.json sdArrayElements n = .ok computed) :
    ∃ children, IsTreeOf env sdArrayElements claims n computed children := by
  obtain ⟨fields, hdisc⟩ := claims
  rw [ClaimsObject.json, computeObjectDisclosures, computeFieldDisclosures_eq] at h
  cases hdisc with
  | object hunique hkeys hfields =>
    obtain ⟨children, hchs⟩ := exists_children_of_computeEntries
      (fun e he n nested => exists_tree_of_computeNested (hfields e he)) h
    have henco := hchs.encodes_object hunique hkeys
    exact ⟨children, henco.linked, henco.claims_eq, hchs.digests_eq,
      henco.disclosures_eq, henco.salts_eq, henco.next_eq⟩

end Encoding

end OneCore.SdJwt
