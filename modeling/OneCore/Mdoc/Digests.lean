/-
# The digests of a mobile document

A mobile security object names its hash function.  The standard has three names; the code has a
name for each of its three algorithms, and one of them is spelled differently.  `EncodedMso` is a mobile
security object with its name as it is written, and `decode` finds the algorithm.

An item is covered if the digest of its bytes, with the function that the standard means by the name, is
in the object under the namespace and the digest id of the item.  The check succeeds exactly for covered
items if the name is one that the code knows and if the object also lists the namespaces that have no
items (`decode_verifyDigests_iff`).  The documents that the code itself writes are covered, and so is
every part of them (`verifyDigests_of_tryBuildNamespaces`), since the digest ids run through the whole
document.
-/
import OneCore.Mdoc.Issuance

namespace OneCore.Mdoc

open List IndexMap

/-! ### The names of the hash functions -/

def DigestAlgorithm.isoName : DigestAlgorithm → String
  | .sha256 => "SHA-256"
  | .sha384 => "SHA-384"
  | .sha512 => "SHA-512"

/-- The names that are written and read. -/
def DigestAlgorithm.name : DigestAlgorithm → String
  | .sha256 => "SHA-256"
  | .sha384 => "SHA-348"
  | .sha512 => "SHA-512"

def DigestAlgorithm.ofName (name : String) : Option DigestAlgorithm :=
  [DigestAlgorithm.sha256, .sha384, .sha512].find? fun a => a.name = name

structure EncodedMso where
  digestAlgorithm : String
  valueDigests : ValueDigests
  deviceKey : CoseKey
  docType : String
  validityInfo : ValidityInfo
  status : Option MsoStatus

def EncodedMso.decode (m : EncodedMso) : Except FormatterError MobileSecurityObject := do
  let digestAlgorithm ← okOr (DigestAlgorithm.ofName m.digestAlgorithm)
    (.library ("unknown variant `" ++ m.digestAlgorithm ++
      "`, expected one of `SHA-256`, `SHA-348`, `SHA-512`"))
  return ⟨digestAlgorithm, m.valueDigests, m.deviceKey, m.docType, m.validityInfo, m.status⟩

def MobileSecurityObject.encode (mso : MobileSecurityObject) : EncodedMso :=
  ⟨mso.digestAlgorithm.name, mso.valueDigests, mso.deviceKey, mso.docType, mso.validityInfo,
    mso.status⟩

lemma DigestAlgorithm.ofName_name (a : DigestAlgorithm) : ofName a.name = some a := by
  cases a <;> decide

lemma MobileSecurityObject.decode_encode (mso : MobileSecurityObject) :
    mso.encode.decode = .ok mso := by
  rw [EncodedMso.decode, encode, DigestAlgorithm.ofName_name]
  rfl

variable {mso : MobileSecurityObject} {m : EncodedMso}

lemma EncodedMso.decode_eq_ok_iff :
    m.decode = .ok mso ↔ ∃ a, DigestAlgorithm.ofName m.digestAlgorithm = some a ∧
      mso = ⟨a, m.valueDigests, m.deviceKey, m.docType, m.validityInfo, m.status⟩ := by
  simp only [decode, ok_iffs]
  exact exists_congr fun a => and_congr_right fun _ => eq_comm

lemma DigestAlgorithm.ofName_isoName (a : DigestAlgorithm) :
    ofName a.isoName = if a = .sha384 then none else some a := by
  cases a <;> decide

/-! ### The check -/

section Check

variable (env : Environment)

/-- Every item has its digest under its namespace and its digest id. -/
def Covered (alg : DigestAlgorithm) (valueDigests : ValueDigests) (namespaces : Namespaces) : Prop :=
  ∀ ns items, (ns, items) ∈ namespaces.entries → ∀ item ∈ items,
    ∃ digestIds, valueDigests.get? ns = some digestIds ∧
      digestIds.get? item.inner.digestId = some (env.digest alg item.originalBytes)

/-- The object lists the namespaces that have no items. -/
def ListsEmpty (valueDigests : ValueDigests) (namespaces : Namespaces) : Prop :=
  ∀ ns, (ns, []) ∈ namespaces.entries → (valueDigests.get? ns).isSome

variable {env}

variable {namespaces : Namespaces}

/-- The check of the digests: every item is covered, and every namespace is listed. -/
lemma verifyDigests_iff_covered :
    verifyDigests env mso namespaces = .ok () ↔
      Covered env mso.digestAlgorithm mso.valueDigests namespaces ∧
        ListsEmpty mso.valueDigests namespaces := by
  rw [verifyDigests_eq_ok_iff]
  constructor
  · intro h
    exact ⟨fun ns items hmem item hitem => (h ns items hmem).2 item hitem,
      fun ns hmem => (h ns [] hmem).1⟩
  · rintro ⟨hcov, hemp⟩ ns items hmem
    refine ⟨?_, fun item hitem => hcov ns items hmem item hitem⟩
    cases items with
    | nil => exact hemp ns hmem
    | cons item items =>
      obtain ⟨digestIds, hids, -⟩ := hcov ns _ hmem item mem_cons_self
      rw [hids]
      rfl

/-- Decoding and the check succeed for a name of the standard. -/
lemma decode_verifyDigests_iff {alg : DigestAlgorithm} (hname : m.digestAlgorithm = alg.isoName) :
    (∃ mso, m.decode = .ok mso ∧ verifyDigests env mso namespaces = .ok ()) ↔
      alg ≠ .sha384 ∧ Covered env alg m.valueDigests namespaces ∧
        ListsEmpty m.valueDigests namespaces := by
  simp only [EncodedMso.decode_eq_ok_iff, hname, DigestAlgorithm.ofName_isoName]
  constructor
  · rintro ⟨mso, ⟨a, ha, rfl⟩, hvfy⟩
    split at ha
    · cases ha
    · next hne =>
      cases ha
      exact ⟨hne, verifyDigests_iff_covered.1 hvfy⟩
  · rintro ⟨hne, hcov⟩
    exact ⟨_, ⟨alg, if_neg hne, rfl⟩, verifyDigests_iff_covered.2 hcov⟩

end Check

/-! ### Documents that are written -/

section Written

variable {env : IssuerEnvironment} {claims : List PublishedClaim} {digestId : Nat}
  {items : List (EmbeddedCbor IssuerSignedItem)} {fields : List (Str × JsonValue)} {ns : Str}
  {namespaces : Namespaces}

/-- The digest ids of the items of a namespace run on from the given one. -/
lemma digestIds_signedItems (h : signedItems env claims ns digestId fields = .ok items) :
    items.map (fun item => item.inner.digestId) = range' digestId fields.length := by
  induction fields generalizing digestId items with
  | nil =>
    cases h
    rfl
  | cons f fields ih =>
    simp only [signedItems, signedItem, ok_iffs] at h
    obtain ⟨_, ⟨value, -, bytes, -, rfl⟩, rest, hrest, rfl⟩ := h
    rw [map_cons, ih hrest, length_cons, range'_succ]

/-- The digest ids in a namespace are different, and they are less than the next one. -/
def Numbered (digestId : Nat) (namespaces : Namespaces) : Prop :=
  ∀ ns items, namespaces.get? ns = some items →
    (items.map fun item => item.inner.digestId).Nodup ∧
      ∀ item ∈ items, item.inner.digestId < digestId

lemma Numbered.upsert (hnumb : Numbered digestId namespaces)
    (hitems : signedItems env claims ns digestId fields = .ok items) :
    Numbered (digestId + fields.length)
      (namespaces.upsert ns fun old => old.getD [] ++ items) := by
  have hids := digestIds_signedItems hitems
  have hnew : ∀ item ∈ items,
      digestId ≤ item.inner.digestId ∧ item.inner.digestId < digestId + fields.length := by
    intro item hitem
    have hmem : item.inner.digestId ∈ items.map fun item => item.inner.digestId :=
      mem_map.2 ⟨item, hitem, rfl⟩
    rw [hids, mem_range'_1] at hmem
    exact hmem
  obtain ⟨holdN, hold⟩ : (((namespaces.get? ns).getD []).map fun item => item.inner.digestId).Nodup ∧
      ∀ item ∈ (namespaces.get? ns).getD [], item.inner.digestId < digestId := by
    cases hget : namespaces.get? ns with
    | none => exact ⟨nodup_nil, nofun⟩
    | some old => exact hnumb ns old hget
  intro ns' items' hget
  rw [get?_upsert] at hget
  split at hget
  · cases hget
    refine ⟨?_, fun item hitem => ?_⟩
    · rw [map_append]
      refine Nodup.append holdN ?_ fun id hid hid' => ?_
      · rw [hids]
        exact nodup_range'
      · obtain ⟨item, hitem, rfl⟩ := mem_map.1 hid
        obtain ⟨item', hitem', heq⟩ := mem_map.1 hid'
        have hlt := hold item hitem
        have hle := (hnew item' hitem').1
        omega
    · rcases mem_append.1 hitem with hitem | hitem
      · have hlt := hold item hitem
        omega
      · exact (hnew item hitem).2
  · obtain ⟨hnd, hlt⟩ := hnumb ns' items' hget
    refine ⟨hnd, fun item hitem => ?_⟩
    have := hlt item hitem
    omega

variable {nested : List (Str × JsonValue)}

lemma numbered_addNamespaces {result : Namespaces} (hnumb : Numbered digestId namespaces)
    (h : addNamespaces env claims digestId namespaces nested = .ok result) :
    ∃ n, Numbered n result := by
  induction nested generalizing digestId namespaces with
  | nil =>
    cases h
    exact ⟨digestId, hnumb⟩
  | cons e nested ih =>
    rw [addNamespaces, bind_eq_ok] at h
    obtain ⟨fields, -, h⟩ := h
    obtain ⟨items, hitems, h⟩ := bind_eq_ok.1 h
    exact ih (hnumb.upsert hitems) h

lemma get?_tryBuildValueDigests {n : Nat} (hnumb : Numbered n namespaces)
    (alg : DigestAlgorithm) (hmem : (ns, items) ∈ namespaces.entries) :
    ∃ digestIds, (tryBuildValueDigests env namespaces alg).get? ns = some digestIds ∧
      ∀ item ∈ items,
        digestIds.get? item.inner.digestId = some (env.digest alg item.originalBytes) := by
  have hnd := (hnumb ns items (get?_eq_some_iff.2 hmem)).1
  refine ⟨_, get?_foldl_upsert_of_nodup Prod.fst _ namespaces.nodup .empty hmem, ?_⟩
  intro item hitem
  exact get?_foldl_upsert_of_nodup (fun i : EmbeddedCbor IssuerSignedItem =>
    i.inner.digestId) (fun i _ => env.digest alg i.originalBytes) hnd _ hitem

/-- The items of one map are among those of another one. -/
def Within (kept namespaces : Namespaces) : Prop :=
  ∀ ns items, (ns, items) ∈ kept.entries →
    ∃ items', (ns, items') ∈ namespaces.entries ∧ ∀ item ∈ items, item ∈ items'

/-- Every part of a written document passes the check. -/
theorem verifyDigests_of_tryBuildNamespaces {kept : Namespaces}
    (h : tryBuildNamespaces env claims nested = .ok namespaces) (hkept : Within kept namespaces)
    (hmso : mso.valueDigests = tryBuildValueDigests env namespaces mso.digestAlgorithm) :
    verifyDigests env.toEnvironment mso kept = .ok () := by
  have hemp : Numbered 0 (empty : Namespaces) := fun ns items hget => by cases hget
  obtain ⟨n, hnumb⟩ := numbered_addNamespaces hemp h
  rw [verifyDigests_iff_covered, hmso]
  constructor
  · intro ns items hmem item hitem
    obtain ⟨items', hmem', hsub⟩ := hkept ns items hmem
    obtain ⟨digestIds, hget, hall⟩ := get?_tryBuildValueDigests hnumb mso.digestAlgorithm hmem'
    exact ⟨digestIds, hget, hall item (hsub item hitem)⟩
  · intro ns hmem
    obtain ⟨items', hmem', -⟩ := hkept ns [] hmem
    obtain ⟨digestIds, hget, -⟩ := get?_tryBuildValueDigests hnumb mso.digestAlgorithm hmem'
    rw [hget]
    rfl

/-- For an object with a name of the standard, the check succeeds for exactly the covered items if and
only if covered items have no object that names SHA-384 and no namespace without items that is not
listed.  Every part of a written document passes the check, with every hash function. -/
theorem digest_check_exact_iff (env : IssuerEnvironment) :
    (∀ (alg : DigestAlgorithm) (m : EncodedMso), m.digestAlgorithm = alg.isoName →
      ∀ namespaces : Namespaces,
        (((∃ mso, m.decode = .ok mso ∧
            verifyDigests env.toEnvironment mso namespaces = .ok ()) ↔
          Covered env.toEnvironment alg m.valueDigests namespaces) ↔
        (Covered env.toEnvironment alg m.valueDigests namespaces →
          alg ≠ .sha384 ∧ ListsEmpty m.valueDigests namespaces))) ∧
    (∀ claims nested namespaces, tryBuildNamespaces env claims nested = .ok namespaces →
      ∀ mso : MobileSecurityObject,
        mso.valueDigests = tryBuildValueDigests env namespaces mso.digestAlgorithm →
        ∀ kept, Within kept namespaces → ∃ decoded, mso.encode.decode = .ok decoded ∧
          verifyDigests env.toEnvironment decoded kept = .ok ()) := by
  constructor
  · intro alg m hname namespaces
    rw [decode_verifyDigests_iff hname]
    constructor
    · intro hexact hcov
      obtain ⟨hne, -, hemp⟩ := hexact.2 hcov
      exact ⟨hne, hemp⟩
    · intro hcond
      constructor
      · rintro ⟨-, hcov, -⟩
        exact hcov
      · intro hcov
        obtain ⟨hne, hemp⟩ := hcond hcov
        exact ⟨hne, hcov, hemp⟩
  · intro claims nested namespaces h mso hmso kept hkept
    exact ⟨mso, mso.decode_encode, verifyDigests_of_tryBuildNamespaces h hkept hmso⟩

/-! ### One item under each name -/

def sampleIssuer : IssuerEnvironment :=
  .sample ⟨none, ⟨⟨none, none⟩, [], none, []⟩⟩
    ⟨.sha256, .empty, ⟨keyTypeOkp, []⟩, "doc", ⟨0, 0, 0, none⟩, none⟩ fun _ => some .boolean

def oneItem : Namespaces :=
  ⟨[("ns".toList, [⟨⟨0, [], "a".toList, .bool true⟩, [0]⟩])], by decide⟩

/-- An object with the digest of this item, under the given name of a hash function. -/
def sampleObject (digestAlgorithm : String) : EncodedMso :=
  ⟨digestAlgorithm, ⟨[("ns".toList, ⟨[(0, [0])], by decide⟩)], by decide⟩, ⟨keyTypeOkp, []⟩, "doc",
    ⟨0, 0, 0, none⟩, none⟩

lemma covered_oneItem (alg : DigestAlgorithm) (name : String) :
    Covered sampleIssuer.toEnvironment alg (sampleObject name).valueDigests oneItem := by
  intro ns items hmem item hitem
  obtain ⟨rfl, rfl⟩ := Prod.mk.inj (mem_singleton.1 hmem)
  obtain rfl := mem_singleton.1 hitem
  exact ⟨_, rfl, rfl⟩

/-- With SHA-256 the item passes the check, and so does the document when it is written. -/
theorem digest_check_exact_sample :
    (∃ mso, (sampleObject "SHA-256").decode = .ok mso ∧
      verifyDigests sampleIssuer.toEnvironment mso oneItem = .ok ()) ∧
    ∃ decoded, (MobileSecurityObject.mk .sha256
        (tryBuildValueDigests sampleIssuer oneItem .sha256) ⟨keyTypeOkp, []⟩ "doc"
        ⟨0, 0, 0, none⟩ none).encode.decode = .ok decoded ∧
      verifyDigests sampleIssuer.toEnvironment decoded oneItem = .ok () := by
  have hemp : ListsEmpty (sampleObject "SHA-256").valueDigests oneItem := fun ns hmem => by
    cases (Prod.mk.inj (mem_singleton.1 hmem)).2
  constructor
  · refine (((digest_check_exact_iff sampleIssuer).1 .sha256 (sampleObject "SHA-256") rfl
      oneItem).2 ?_).2 (covered_oneItem .sha256 "SHA-256")
    exact fun _ => ⟨by decide, hemp⟩
  · refine (digest_check_exact_iff sampleIssuer).2
      [⟨"ns/a".toList, .bool true, some "BOOLEAN"⟩] [("ns".toList, .object [("a".toList, .bool true)])]
      oneItem rfl _ rfl oneItem ?_
    exact fun ns items hmem => ⟨items, hmem, fun _ hitem => hitem⟩

/-- With SHA-384 the same item is covered, and the object is not decoded. -/
theorem sha384_object_refused :
    (sampleObject "SHA-384").digestAlgorithm = DigestAlgorithm.sha384.isoName ∧
    Covered sampleIssuer.toEnvironment .sha384 (sampleObject "SHA-384").valueDigests
      oneItem ∧
    ¬∃ mso, (sampleObject "SHA-384").decode = .ok mso ∧
      verifyDigests sampleIssuer.toEnvironment mso oneItem = .ok () := by
  refine ⟨rfl, covered_oneItem .sha384 "SHA-384", ?_⟩
  rintro ⟨mso, hmso, -⟩
  obtain ⟨a, ha, -⟩ := EncodedMso.decode_eq_ok_iff.1 hmso
  have hnone : DigestAlgorithm.ofName "SHA-384" = none := by decide
  exact absurd (hnone.symm.trans ha) (by simp)

end Written

end OneCore.Mdoc
