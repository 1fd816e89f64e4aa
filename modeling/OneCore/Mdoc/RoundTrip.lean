/-
# A mobile document, written and read

The claims of a credential form a tree of namespaces, elements, objects and arrays.  The issuer nests
them, writes one item for each element of each namespace, and signs the digests of the items.  The
reader parses the chain of the issuer's certificate, compares the digests and converts the items.

`roundTrips_iff` says when every claim comes back at its path with its text.  Reading adds the type of
the document under the name `doctype`, so no namespace may have this name, and every element has to be
readable in the sense of `OneCore.Mdoc.Elements`.
-/
import OneCore.Mdoc.Digests
import OneCore.Mdoc.Items

namespace OneCore.Mdoc

open List Option JsonValue CredentialClaim

/-! ### The claims and the tree -/

variable {v : JsonValue}

section Kinds

variable {env : IssuerEnvironment} {claims : List PublishedClaim} {data content : JsonValue}
  {q : List Str} {values values' : List JsonValue}

lemma element_kind_iff (h : data.atPath q = some (.array values)) {l : Str} {kind : Kind} :
    (∃ u, (indexed values).lookup l = some u ∧ u.kind = kind) ↔
      (data.atPath (q ++ [l])).map JsonValue.kind = some kind := by
  rw [atPath_append, h, bind_some, map_eq_some_iff]
  simp [JsonValue.atPath, JsonValue.children]

variable (hkinds : ∀ q, (data.atPath q).map kind = (content.atPath q).map kind)
  (hdata : data.atPath q = some (.array values))
  (hcontent : content.atPath q = some (.array values'))
include hkinds hdata hcontent

lemma exists_element_of_kind (hv : v ∈ values) : ∃ v' ∈ values', v'.kind = v.kind := by
  rw [← map_snd_indexed values] at hv
  obtain ⟨⟨l, u⟩, hu, rfl⟩ := mem_map.1 hv
  have hlkp := (lookup_eq_some_iff_mem (nodup_indexedFrom 0 values)).2 hu
  have hkind := (element_kind_iff hdata).1 ⟨u, hlkp, rfl⟩
  rw [hkinds] at hkind
  obtain ⟨u', hu', hkind⟩ := (element_kind_iff hcontent).2 hkind
  exact ⟨u', mem_of_mem_indexed (mem_of_lookup hu'), hkind⟩

lemma isElement_iff (c : PublishedClaim) : IsElement q values c ↔ IsElement q values' c := by
  refine exists_congr fun l => ?_
  simp only [← and_assoc, exists_and_right, element_kind_iff hdata, element_kind_iff hcontent, hkinds]

lemma datesAgree_iff : DatesAgree env claims q values ↔ DatesAgree env claims q values' := by
  simp [DatesAgree, isElement_iff hkinds hdata hcontent]

lemma OneType.of_kinds (h : OneType claims q values') : OneType claims q values := by
  have hall : ∀ kind, (∀ v ∈ values', v.kind = kind) → ∀ v ∈ values, v.kind = kind := by
    intro kind hkind v hv
    obtain ⟨v', hv', heq⟩ := exists_element_of_kind hkinds hdata hcontent hv
    rw [← heq, hkind v' hv']
  rcases h with h | h | ⟨h, d, hd⟩
  · exact .inl (hall _ h)
  · exact .inr (.inl (hall _ h))
  · refine .inr (.inr ⟨hall _ h, d, fun c hc helt => hd c hc ?_⟩)
    exact (isElement_iff hkinds hdata hcontent c).1 helt

end Kinds

/-! ### Reading an issued document -/

section Document

variable {env : IssuerEnvironment} {data : CredentialData} {token : String} {verify : Bool}

/-- How the chain of the issuer's certificate is checked. -/
def chainContext (verify : Bool) : CertificateValidationOptions :=
  if verify then .signatureAndValidity (some [.digitalSignature]) else .noValidation

/-- The reader accepts the chain of the issuer's certificate and describes it like this. -/
def ReadsCertificate (env : IssuerEnvironment) (data : CredentialData) (verify : Bool)
    (cert : CertificateDetails) : Prop :=
  ∃ x5c chain parsed, issuerX5c env data = .ok x5c ∧ x5c.mapM env.decodeBase64 = .ok chain ∧
    env.certificateValidator.parsePemChain (env.encodePemChain chain) (chainContext verify) =
      .ok parsed ∧
    cert = ⟨env.encodePemChain chain, parsed.fingerprint, parsed.notAfter, parsed.subjectCommonName⟩

def ChainAccepted (env : IssuerEnvironment) (data : CredentialData) (verify : Bool) : Prop :=
  ∃ cert, ReadsCertificate env data verify cert

/-- The certificates in the header of a document are those that were put there. -/
lemma extractCertificate_eq_ok_iff {cose : CoseSign1} {chain : List Bytes}
    (h : cose.unprotectedRest = [(x5ChainLabel, x5chainValue chain)]) {cert : CertificateDetails} :
    extractCertificateFromX5chainHeader env.toEnvironment cose verify = .ok cert ↔
      ∃ parsed, env.certificateValidator.parsePemChain (env.encodePemChain chain)
          (chainContext verify) = .ok parsed ∧
        cert = ⟨env.encodePemChain chain, parsed.fingerprint, parsed.notAfter,
          parsed.subjectCommonName⟩ := by
  have hall : ∀ l : List Bytes, (l.map CborValue.bytes).filterMap CborValue.asBytes = l := by
    intro l
    rw [filterMap_map]
    exact filterMap_some
  have hread : extractCertificateFromX5chainHeader env.toEnvironment cose verify = (do
      let parsed ← (env.certificateValidator.parsePemChain (env.encodePemChain chain)
        (chainContext verify)).mapError .nested
      return ⟨env.encodePemChain chain, parsed.fingerprint, parsed.notAfter,
        parsed.subjectCommonName⟩) := by
    rw [extractCertificateFromX5chainHeader, h]
    rcases chain with - | ⟨cert, - | ⟨cert', chain⟩⟩
    · rfl
    · rfl
    · conv_rhs => rw [← hall (cert :: cert' :: chain)]
      rfl
  rw [hread, bind_eq_ok]
  refine exists_congr fun parsed => and_congr mapError_eq_ok ?_
  exact pure_eq_ok.trans eq_comm

lemma exists_toJwk (laws : env.Laws) {key : PublicJwk} {coseKey : CoseKey}
    (h : tryBuildCoseKey env key = .ok coseKey) :
    ∃ jwk, coseKey.toJwk env.toEnvironment = .ok jwk := by
  unfold tryBuildCoseKey at h
  split at h
  · split at h
    · simp only [ok_iffs] at h
      obtain ⟨x, -, y, -, rfl⟩ := h
      obtain ⟨sx, hsx⟩ := laws.base64Url x
      obtain ⟨sy, hsy⟩ := laws.base64Url y
      refine ⟨.ec ⟨none, none, none, "P-256", sx, some sy⟩, ?_⟩
      exact bind_eq_ok.2 ⟨(), rfl, bind_eq_ok.2 ⟨sx, hsx, bind_eq_ok.2 ⟨sy, hsy, rfl⟩⟩⟩
    · cases h
  · split at h
    · simp only [ok_iffs] at h
      obtain ⟨x, -, rfl⟩ := h
      obtain ⟨sx, hsx⟩ := laws.base64Url x
      refine ⟨.okp ⟨none, none, none, "Ed25519", sx, none⟩, ?_⟩
      exact bind_eq_ok.2 ⟨(), rfl, bind_eq_ok.2 ⟨sx, hsx, rfl⟩⟩
    · cases h
  · cases h

/-- What an issued document is read as.  The claims are those of the items, and only the certificate
chain and the items can be refused. -/
lemma exists_extractCredentials_iff (laws : env.Laws) (h : formatCredential env data = .ok token) :
    ∃ nested namespaces mso jwk, nestClaims data.claims = .ok nested ∧
      tryBuildNamespaces env data.claims nested = .ok namespaces ∧
      ∀ credential, extractCredentials env.toEnvironment token verify = .ok credential ↔
        ∃ cert claims, ReadsCertificate env data verify cert ∧
          extractClaims env.toEnvironment namespaces = .ok claims ∧
          credential = detailCredential mso cert jwk claims := by
  obtain ⟨document, hdoc, htok⟩ := bind_eq_ok.1 h
  simp only [issuerSigned, ok_iffs] at hdoc
  obtain ⟨docType, -, nested, hnest, namespaces, hwrite, key, -, coseKey, hkey, payload, hpay,
    _, -, _, -, x5c, hx5c, header, hhd, _, -, rfl⟩ := hdoc
  obtain ⟨chain, hchain, hhd⟩ := bind_eq_ok.1 hhd
  obtain rfl := pure_eq_ok.1 hhd
  obtain ⟨decoded, hdec, hname, hauth, hrest⟩ := laws.decodeIssuerSigned _ _ htok
  obtain ⟨mso, hmso, halg, hdigs, hdevice⟩ := laws.decodeMso _ _ hpay
  obtain ⟨jwk, hjwk⟩ := exists_toJwk laws hkey
  have hmso' : tryExtractMobileSecurityObject env.toEnvironment decoded.issuerAuth = .ok mso.inner :=
    (tryExtractMobileSecurityObject_eq_ok_iff _).2 ⟨payload, hauth, mso, hmso, rfl⟩
  have hjwk' : tryExtractHolderPublicKey env.toEnvironment decoded.issuerAuth = .ok jwk :=
    (tryExtractHolderPublicKey_eq_ok_iff _).2 ⟨mso.inner, hmso', by rw [hdevice]; exact hjwk⟩
  have hvfy : verifyDigests env.toEnvironment mso.inner namespaces = .ok () := by
    refine verifyDigests_of_tryBuildNamespaces hwrite
      (fun ns items hmem => ⟨items, hmem, fun _ hitem => hitem⟩) ?_
    rw [hdigs, halg]
    rfl
  have hcert : ∀ cert, extractCertificateFromX5chainHeader env.toEnvironment decoded.issuerAuth verify =
      .ok cert ↔ ReadsCertificate env data verify cert := by
    intro cert
    rw [extractCertificate_eq_ok_iff hrest]
    constructor
    · rintro ⟨parsed, hparsed, hcert⟩
      exact ⟨x5c, chain, parsed, hx5c, hchain, hparsed, hcert⟩
    · rintro ⟨x5c', chain', parsed, hx5c', hchain', hparsed, hcert⟩
      obtain rfl := ok_unique hx5c hx5c'
      obtain rfl := ok_unique hchain hchain'
      exact ⟨parsed, hparsed, hcert⟩
  refine ⟨nested, namespaces, mso.inner, jwk, hnest, hwrite, fun credential => ?_⟩
  rw [extractCredentials_eq_ok_iff]
  constructor
  · rintro ⟨⟨s, cert, m, n, k, hs, hc, hm, hn, hk⟩, claims, -, hcls, rfl⟩
    obtain rfl := ok_unique hdec hs
    obtain rfl := ok_unique hmso' hm
    obtain rfl := mem_unique hname hn
    obtain rfl := ok_unique hjwk' hk
    exact ⟨cert, claims, (hcert cert).1 hc, hcls, rfl⟩
  · rintro ⟨cert, claims, hc, hcls, rfl⟩
    exact ⟨⟨decoded, cert, mso.inner, namespaces, jwk, hdec, (hcert cert).2 hc, hmso',
      hname, hjwk'⟩, claims, fun _ => hvfy, hcls, rfl⟩

end Document

/-! ### The round trip -/

variable {claims : List PublishedClaim} {namespaces : Namespaces}

section RoundTrip

variable {env : IssuerEnvironment} {content : JsonValue}

/-- Every array of a tree of claims has elements of one type. -/
def OneTypeArrays (claims : List PublishedClaim) (content : JsonValue) : Prop :=
  ∀ q values, content.atPath q = some (.array values) → OneType claims q values

/-- Every claim of a tree can be read again. -/
structure Readable (env : IssuerEnvironment) (claims : List PublishedClaim) (content : JsonValue) :
    Prop where
  leaf : ∀ c ∈ claims, LeafReadable env c
  dates : ∀ q values, content.atPath q = some (.array values) → DatesAgree env claims q values

/-- The token is read as a credential with the text of each leaf of the tree at its path. -/
def RoundTrips (env : IssuerEnvironment) (content : JsonValue) (token : String) (verify : Bool) :
    Prop :=
  ∃ credential, extractCredentials env.toEnvironment token verify = .ok credential ∧
    ∀ p s, content.atPath p = some (.string s) →
      ((mk false false (.object credential.claims.claims)).atPath p).map value = some (.string s)

lemma exists_array_of_kind (h : v.kind = .array) : ∃ values, v = .array values := by
  cases v with
  | array values => exact ⟨values, rfl⟩
  | null | bool | number | string | object => cases h

variable {ns el : Str} {w : JsonValue}

section Nested

variable {nested : List (Str × JsonValue)}
  (hnest : nestClaims claims = .ok nested)
  (hwrite : tryBuildNamespaces env claims nested = .ok namespaces)
  (hforms : Forms env.displayFloat claims content)
  (hkinds : ∀ q, ((object nested).atPath q).map kind = (content.atPath q).map kind)
include hnest hwrite hforms hkinds

omit hforms in
lemma exists_nested_of_path {q : List Str} (hw : content.atPath q = some w)
    (hkind : w.kind ≠ .object) :
    ∃ ns el r v u, q = ns :: el :: r ∧ (object nested).atPath [ns, el] = some v ∧
      v.atPath r = some u ∧ u.kind = w.kind := by
  have hsome := hkinds q
  rw [hw] at hsome
  obtain ⟨u, hu, hukind⟩ := map_eq_some_iff.1 hsome
  obtain ⟨ns, el, r, rfl⟩ := exists_element_path hnest hwrite hu (hukind ▸ hkind)
  have hspl : (object nested).atPath ([ns, el] ++ r) = some u := hu
  obtain ⟨v, hv, hu⟩ := exists_atPath_of_append hspl
  exact ⟨ns, el, r, v, u, rfl, hv, hu, hukind⟩

omit hnest hwrite hforms in
lemma exists_array_of_nested {r : List Str} {values : List JsonValue}
    (hv : (object nested).atPath [ns, el] = some v) (hvals : v.atPath r = some (.array values)) :
    (object nested).atPath ([ns, el] ++ r) = some (.array values) ∧
      ∃ values', content.atPath ([ns, el] ++ r) = some (.array values') := by
  have hdata : (object nested).atPath ([ns, el] ++ r) = some (.array values) := by
    rw [atPath_append, hv, bind_some, hvals]
  have hkind := hkinds ([ns, el] ++ r)
  rw [hdata] at hkind
  obtain ⟨w, hw, hwkind⟩ := map_eq_some_iff.1 hkind.symm
  obtain ⟨values', rfl⟩ := exists_array_of_kind hwkind
  exact ⟨hdata, values', hw⟩

/-- The tree can be read if and only if each of its elements can. -/
lemma forall_readableAt_iff :
    (∀ ns el v, (object nested).atPath [ns, el] = some v →
      ReadableAt env claims [ns, el] v) ↔ Readable env claims content := by
  constructor
  · intro h
    constructor
    · intro c hc
      obtain ⟨p, -, hkey, -, hleaf⟩ := hforms.exists_path hc
      obtain ⟨ns, el, r, v, u, rfl, hv, hu, hkind⟩ :=
        exists_nested_of_path hnest hwrite hkinds hleaf (by simp [kind])
      exact (h ns el v hv).leaf r u hu hkind c hc hkey
    · intro q values hvals
      obtain ⟨ns, el, r, v, u, rfl, hv, hu, hkind⟩ :=
        exists_nested_of_path hnest hwrite hkinds hvals (by simp [kind])
      obtain ⟨values', rfl⟩ := exists_array_of_kind hkind
      obtain ⟨hdata, -⟩ := exists_array_of_nested hkinds hv hu
      exact (datesAgree_iff hkinds hdata hvals).1 ((h ns el v hv).dates r values' hu)
  · intro h ns el v hv
    refine ⟨fun r u hu hscl c hc hkey => h.leaf c hc, fun r values hvals => ?_⟩
    obtain ⟨hdata, values', hw⟩ := exists_array_of_nested hkinds hv hvals
    exact (datesAgree_iff hkinds hdata hw).2 (h.dates _ values' hw)

lemma element_reads_iff (laws : env.Laws) (hone : OneTypeArrays claims content)
    (hv : (object nested).atPath [ns, el] = some v) {value : CborValue}
    (hval : buildCiboriumValue env claims (pathKey [ns, el]) v = .ok value) :
    (∃ j, buildJsonValue env.toEnvironment value = .ok j ∧ ReadsAs env claims [ns, el] v j) ↔
      ReadableAt env claims [ns, el] v := by
  obtain ⟨_, _, -, -, -, -, hfilled, -⟩ := exists_item_of_element hnest hwrite hv
  refine exists_reads_iff laws hforms.nodup hfilled (by simp) (fun r values hvals => ?_) hval
  obtain ⟨hdata, values', hw⟩ := exists_array_of_nested hkinds hv hvals
  exact (hone _ values' hw).of_kinds hkinds hdata hw

end Nested

variable {result : List (Str × CredentialClaim)} {sd md : Bool}

lemma map_value_atPath_result {fields : List (Str × CredentialClaim)} {j : JsonValue}
    (docType : CredentialClaim) (hns : result.lookup ns = some (.mk sd md (.object fields)))
    (hel : fields.lookup el = some (.mk sd md (plainValue j))) (hne : ns ≠ doctypeKey)
    (r : List Str) :
    ((CredentialClaim.mk false false (.object (mapInsert doctypeKey docType result))).atPath
      (ns :: el :: r)).map CredentialClaim.value = (j.atPath r).map plainValue := by
  rw [CredentialClaim.atPath, CredentialClaim.children, lookup_mapInsert, if_neg hne, hns,
    bind_some, CredentialClaim.atPath, CredentialClaim.children, hel, bind_some]
  exact map_value_atPath_plainValue sd md j r

lemma ne_doctypeKey (h : content.atPath [doctypeKey] = none) {p : List Str}
    (hw : content.atPath (ns :: p) = some w) : ns ≠ doctypeKey := by
  rintro rfl
  have hspl : content.atPath ([doctypeKey] ++ p) = some w := hw
  obtain ⟨u, hu, -⟩ := exists_atPath_of_append hspl
  rw [h] at hu
  cases hu

/-- What is read has every leaf of the tree at its path, and no namespace is overwritten. -/
lemma readable_of_texts (laws : env.Laws) {nested : List (Str × JsonValue)}
    (hnest : nestClaims claims = .ok nested)
    (hwrite : tryBuildNamespaces env claims nested = .ok namespaces)
    (hforms : Forms env.displayFloat claims content) (hone : OneTypeArrays claims content)
    (hkinds : ∀ q, ((object nested).atPath q).map kind =
      (content.atPath q).map kind) {docType : Str}
    (hread : extractClaims env.toEnvironment namespaces = .ok result)
    (htext : ∀ p s, content.atPath p = some (.string s) →
      ((mk false false (.object (mapInsert doctypeKey
        (.mk sd md (.string docType)) result))).atPath p).map value =
        some (.string s)) :
    content.atPath [doctypeKey] = none ∧ Readable env claims content := by
  have hdoct : content.atPath [doctypeKey] = none := by
    rw [eq_none_iff_forall_ne_some]
    intro w hw
    -- a leaf below the name would be below the text with the type of the document
    obtain ⟨r, u, hu, hscl⟩ := hforms.exists_leaf_below (cons_ne_nil _ _) hw
    obtain ⟨c, -, -, rfl⟩ := hforms.exists_claim _ u hu hscl
    obtain ⟨ns, el, r', v, u', hpath, -⟩ :=
      exists_nested_of_path hnest hwrite hkinds hu (by simp [kind])
    have hroot := htext _ _ hu
    obtain ⟨rfl, rfl⟩ := cons.inj hpath
    rw [cons_append, CredentialClaim.atPath, CredentialClaim.children, lookup_mapInsert,
      if_pos rfl] at hroot
    cases hroot
  refine ⟨hdoct, (forall_readableAt_iff hnest hwrite hforms hkinds).1 fun ns el v hv => ?_⟩
  obtain ⟨fields, value, j, hns, hel, hval, hj⟩ :=
    exists_claim_of_element hnest hwrite laws hread hv
  refine (element_reads_iff hnest hwrite hforms hkinds laws hone hv hval).1 ⟨j, hj, ?_⟩
  intro r u hu hscl c hc hkey
  have hkind := hkinds ([ns, el] ++ r)
  rw [atPath_append, hv, bind_some, hu, map_some] at hkind
  obtain ⟨w, hw, hwkind⟩ := map_eq_some_iff.1 hkind.symm
  obtain ⟨c', hc', hkey', rfl⟩ := hforms.exists_claim _ w hw (hwkind.trans hscl)
  obtain rfl : c = c' := inj_on_of_nodup_map hforms.nodup hc hc' (hkey.trans hkey'.symm)
  have hroot := htext _ _ hw
  rw [cons_append, cons_append, nil_append, map_value_atPath_result _ hns hel
    (ne_doctypeKey hdoct hw)] at hroot
  obtain ⟨t, ht, hstring⟩ := map_eq_some_iff.1 hroot
  rw [ht, plainValue_eq_string_iff.1 hstring]
  rfl

/-- An issued document round trips if and only if the reader accepts the issuer's certificates, no
namespace has the name of the claim that reading adds, and every claim is readable: numbers have 64
bits and are in their shortest form, portraits are JPEGs, and the dates of an array have one format. -/
theorem roundTrips_iff (laws : env.Laws) (data : CredentialData)
    (hforms : Forms env.displayFloat data.claims content) (hone : OneTypeArrays data.claims content)
    {token : String} (hformat : formatCredential env data = .ok token) (verify : Bool) :
    RoundTrips env content token verify ↔
      ChainAccepted env data verify ∧ content.atPath [doctypeKey] = none ∧
        Readable env data.claims content := by
  obtain ⟨nested, namespaces, mso, jwk, hnest, hwrite, hread⟩ :=
    exists_extractCredentials_iff laws hformat
  have hkinds := (nestClaims_kinds hforms hnest).resolve_left (not_diverted hnest hwrite hforms)
  constructor
  · rintro ⟨credential, hcred, htext⟩
    obtain ⟨cert, result, hcert, hres, rfl⟩ := (hread credential).1 hcred
    exact ⟨⟨cert, hcert⟩, readable_of_texts laws hnest hwrite hforms hone hkinds hres htext⟩
  · rintro ⟨⟨cert, hcert⟩, hdoct, hrdb⟩
    have hat := (forall_readableAt_iff hnest hwrite hforms hkinds).2 hrdb
    obtain ⟨result, hres⟩ := exists_extractClaims hnest hwrite laws fun ns el v value hv hval => by
      obtain ⟨j, hj, -⟩ :=
        (element_reads_iff hnest hwrite hforms hkinds laws hone hv hval).2 (hat ns el v hv)
      exact ⟨j, hj⟩
    refine ⟨_, (hread _).2 ⟨cert, result, hcert, hres, rfl⟩, fun p s hs => ?_⟩
    obtain ⟨c, hc, hkey, htext⟩ := hforms.exists_claim p _ hs rfl
    obtain ⟨ns, el, r, v, u, rfl, hv, hu, hkind⟩ :=
      exists_nested_of_path hnest hwrite hkinds hs (by simp [kind])
    obtain ⟨fields, value, j, hns, hel, hval, hj⟩ :=
      exists_claim_of_element hnest hwrite laws hres hv
    obtain ⟨j', hj', hreads⟩ :=
      (element_reads_iff hnest hwrite hforms hkinds laws hone hv hval).2 (hat ns el v hv)
    obtain rfl := ok_unique hj hj'
    have hleaf := hreads r u hu hkind c hc hkey
    show ((mk false false (.object (mapInsert doctypeKey _ result))).atPath
      (ns :: el :: r)).map CredentialClaim.value = _
    rw [map_value_atPath_result _ hns hel (ne_doctypeKey hdoct hs), hleaf, string.inj htext]
    rfl

end RoundTrip

/-! ### Documents with one element -/

/-- An issuer whose digests are the bytes of the items. -/
def plainIssuer (config : DatatypeConfig) : IssuerEnvironment :=
  .sample ⟨none, ⟨⟨none, none⟩, [], none, []⟩⟩
    ⟨.sha256, .empty, ⟨keyTypeOkp, []⟩, "doc", ⟨0, 0, 0, none⟩, none⟩ config

def closedMso (namespaces : Namespaces) : MobileSecurityObject :=
  issuerMso (plainIssuer fun _ => none) "doc" namespaces
    ⟨keyTypeOkp, [(keyParamCrv, .integer curveEd25519), (keyParamX, .bytes [])]⟩

def closedDocument (namespaces : Namespaces) : IssuerSigned :=
  ⟨some namespaces, ⟨⟨none, some algorithmEdDSA⟩, [(x5ChainLabel, .bytes [])], some [], []⟩⟩

open Classical in
/-- An issuer that writes one document only, and whose encodings can be undone. -/
noncomputable def closedIssuer (config : DatatypeConfig) (namespaces : Namespaces) :
    IssuerEnvironment :=
  { IssuerEnvironment.sample (closedDocument namespaces) (closedMso namespaces) config with
    encodeIssuerSigned := fun document =>
      if document = closedDocument namespaces then .ok "token" else .error (.couldNotFormat "")
    embedMso := fun mso =>
      if mso = closedMso namespaces then .ok [] else .error (.couldNotFormat "") }

lemma laws_closedIssuer (config : DatatypeConfig) :
    (closedIssuer config namespaces).Laws := by
  constructor
  · intro document token h
    simp only [closedIssuer] at h
    split at h
    · next hdoc =>
      subst hdoc
      exact ⟨_, rfl, rfl, rfl, rfl⟩
    · cases h
  · intro mso payload h
    simp only [closedIssuer] at h
    split at h
    · next hmso =>
      subst hmso
      exact ⟨_, rfl, rfl, rfl, rfl⟩
    · cases h
  · intro s bytes h
    cases h
    exact congrArg Except.ok (ofThreeBytes_threeBytes s)
  · exact ofThreeBytes_threeBytes
  · exact fun _ => ⟨_, rfl⟩

def sampleData (claims : List PublishedClaim) : CredentialData :=
  ⟨some "doc", claims, some ⟨.key, some ⟨"EDDSA", []⟩, none⟩, none, some "pem"⟩

lemma formatCredential_closedIssuer {config : DatatypeConfig} (nested : List (Str × JsonValue))
    (hnest : nestClaims claims = .ok nested)
    (hwrite : tryBuildNamespaces (closedIssuer config namespaces) claims nested = .ok namespaces) :
    formatCredential (closedIssuer config namespaces) (sampleData claims) = .ok "token" := by
  have hmso : (closedIssuer config namespaces).embedMso (closedMso namespaces) = .ok [] := if_pos rfl
  have hsgn : issuerSigned (closedIssuer config namespaces) (sampleData claims) =
      .ok (closedDocument namespaces) := by
    refine bind_eq_ok.2 ⟨"doc", rfl, bind_eq_ok.2 ⟨nested, hnest,
      bind_eq_ok.2 ⟨namespaces, hwrite, ?_⟩⟩⟩
    refine bind_eq_ok.2 ⟨_, rfl, bind_eq_ok.2 ⟨_, rfl, bind_eq_ok.2 ⟨[], hmso, rfl⟩⟩⟩
  exact bind_eq_ok.2 ⟨_, hsgn, if_pos rfl⟩

def mdlDatatypes : DatatypeConfig := fun name =>
  if name = "NUMBER" then some (.number none none)
  else if name = "DATE" then some (.date [.date, .datetime] none none none)
  else if name = "PORTRAIT" then some (.picture none none true)
  else none

def oneElement (name : Str) (value : CborValue) : Namespaces :=
  ⟨[("ns".toList, [⟨⟨0, [], name, value⟩, [0]⟩])], nodup_singleton _⟩

def mixedDates : List PublishedClaim :=
  [⟨"ns/d/0".toList, .string "2020-01-01".toList, some "DATE"⟩,
    ⟨"ns/d/1".toList, .string "2020-01-01T00:00:00Z".toList, some "DATE"⟩]

def hugeNumber : List PublishedClaim :=
  [⟨"ns/n".toList, .string "18446744073709551616".toList, some "NUMBER"⟩]

def pngPortrait : List PublishedClaim :=
  [⟨"ns/p".toList, .string "data:image/png;base64,AA".toList, some "PORTRAIT"⟩]

def oneElementTree (el : Str) (w : JsonValue) : JsonValue :=
  .object [("ns".toList, .object [(el, w)])]

lemma forms_of_nodes {displayFloat : UInt64 → Str}
    (n : Nat) (hroot : content.kind = .object) (hnd : (claims.map PublishedClaim.key).Nodup)
    (hleaf : ∀ c ∈ claims, c.key = pathKey (c.key.splitOn nestedClaimMarker) ∧
      ∃ v ∈ content.atPath (c.key.splitOn nestedClaimMarker), v = .string (c.value.toText displayFloat))
    (hnodes : ∀ e ∈ content.nodes n, (e.1.length < n ∨ e.2.children.isEmpty) ∧
      (e.2.kind = .scalar → ∃ c ∈ claims, c.key = pathKey e.1 ∧
        e.2 = .string (c.value.toText displayFloat)) ∧
      (e.1 = [] ∨ e.2.kind = .scalar ∨ e.2.children ≠ []) ∧
      (e.2.kind = .object → ∀ f ∈ e.2.children, nestedClaimMarker ∉ f.1 ∧ f.1 ≠ ['0'])) :
    Forms displayFloat claims content := by
  have hall : ∀ {p v}, content.atPath p = some v → (p, v) ∈ content.nodes n :=
    fun h => mem_nodes (fun e he => (hnodes e he).1) h
  refine ⟨hroot, hnd, fun c hc => ?_, fun p v h => (hnodes _ (hall h)).2.1, fun l p v h hkind => ?_,
    fun p fields h => (hnodes _ (hall h)).2.2.2 rfl⟩
  · obtain ⟨hkey, v, hv, rfl⟩ := hleaf c hc
    exact ⟨_, hkey, hv⟩
  · exact ((hnodes _ (hall h)).2.2.1.resolve_left (cons_ne_nil l p)).resolve_left hkind

lemma oneTypeArrays_of_nodes (n : Nat) (d : String)
    (hd : ∀ c ∈ claims, c.datatype = some d)
    (hnodes : ∀ e ∈ content.nodes n, (e.1.length < n ∨ e.2.children.isEmpty) ∧
      (e.2.kind = .array → ∀ f ∈ e.2.children, f.2.kind = .scalar)) : OneTypeArrays claims content := by
  refine fun q values h => .inr (.inr ⟨fun v hv => ?_, d, fun c hc _ => hd c hc⟩)
  rw [← map_snd_indexed values] at hv
  obtain ⟨f, hf, rfl⟩ := mem_map.1 hv
  exact (hnodes _ (mem_nodes (fun e he => (hnodes e he).1) h)).2 rfl f hf

def datesTree : JsonValue := oneElementTree "d".toList
  (.array [.string "2020-01-01".toList, .string "2020-01-01T00:00:00Z".toList])

def datesDocument : Namespaces := oneElement "d".toList (.array
  [.tag fullDateTag (.text "2020-01-01".toList), .tag tdateTag (.text "2020-01-01T00:00:00Z".toList)])

def numberDocument : Namespaces := oneElement "n".toList (cborInteger (2 ^ 64))

def portraitDocument : Namespaces := oneElement "p".toList (.bytes (threeBytes "AA".toList))

def mdlChecks : DatatypeEnvironment where
  regex _ := .error ""
  parseF64 _ := .ok 0
  ltF64 _ _ := false
  parseDate s := if s.length = 10 then .ok 0 else .error ""
  parseDateTime s := if s.length = 20 then .ok 0 else .error ""
  today := 0
  now := 0

/-- Every claim has passed the check of its data type. -/
def ClaimsAccepted (checks : DatatypeEnvironment) (env : IssuerEnvironment)
    (claims : List PublishedClaim) : Prop :=
  ∀ c ∈ claims, ∃ d, c.datatype = some d ∧
    validateDatatypeValue checks (claimText env c) d env.datatypeConfig = .ok ()

instance (checks : DatatypeEnvironment) (env : IssuerEnvironment) (claims : List PublishedClaim) :
    Decidable (ClaimsAccepted checks env claims) :=
  inferInstanceAs (Decidable (∀ c ∈ claims, ∃ d ∈ c.datatype,
    validateDatatypeValue checks (claimText env c) d env.datatypeConfig = .ok ()))

/-- Accepted claims that form elements are written, and they do not come back. -/
structure BreaksRoundTrip (claims : List PublishedClaim) (content : JsonValue)
    (namespaces : Namespaces) : Prop where
  laws : (closedIssuer mdlDatatypes namespaces).Laws
  accepted : ClaimsAccepted mdlChecks (closedIssuer mdlDatatypes namespaces) claims
  forms : Forms (closedIssuer mdlDatatypes namespaces).displayFloat claims content
  oneType : OneTypeArrays claims content
  written : formatCredential (closedIssuer mdlDatatypes namespaces) (sampleData claims) = .ok "token"
  lost : ¬RoundTrips (closedIssuer mdlDatatypes namespaces) content "token" true

lemma breaks_mixedDates : BreaksRoundTrip mixedDates datesTree datesDocument where
  laws := laws_closedIssuer _
  accepted := by decide +kernel
  forms := forms_of_nodes 3 rfl (by decide) (by decide +kernel) (by decide +kernel)
  oneType := oneTypeArrays_of_nodes 3 "DATE" (by decide) (by decide +kernel)
  written := formatCredential_closedIssuer _ rfl rfl
  lost := by
    rintro ⟨credential, hread, -⟩
    cases hread

lemma breaks_hugeNumber : BreaksRoundTrip hugeNumber
    (oneElementTree "n".toList (.string "18446744073709551616".toList)) numberDocument where
  laws := laws_closedIssuer _
  accepted := by decide +kernel
  forms := forms_of_nodes 2 rfl (by decide) (by decide +kernel) (by decide +kernel)
  oneType := oneTypeArrays_of_nodes 2 "NUMBER" (by decide) (by decide +kernel)
  written := formatCredential_closedIssuer _ rfl rfl
  lost := by
    rintro ⟨credential, hread, -⟩
    cases hread

lemma breaks_pngPortrait : BreaksRoundTrip pngPortrait
    (oneElementTree "p".toList (.string "data:image/png;base64,AA".toList)) portraitDocument where
  laws := laws_closedIssuer _
  accepted := by decide +kernel
  forms := forms_of_nodes 2 rfl (by decide) (by decide +kernel) (by decide +kernel)
  oneType := oneTypeArrays_of_nodes 2 "PORTRAIT" (by decide) (by decide +kernel)
  written := formatCredential_closedIssuer _ rfl rfl
  lost := by
    rintro ⟨credential, hread, htext⟩
    cases hread
    have hleaf := htext ["ns".toList, "p".toList] _ rfl
    have hjpeg := CredentialClaimValue.string.inj (some.inj hleaf)
    exact absurd hjpeg (by decide)

/-- An array of dates in two formats, a number of 65 bits and a PNG portrait are accepted and written,
and they do not come back. -/
theorem dates_number_portrait_break : BreaksRoundTrip mixedDates datesTree datesDocument ∧
    BreaksRoundTrip hugeNumber
      (oneElementTree "n".toList (.string "18446744073709551616".toList)) numberDocument ∧
    BreaksRoundTrip pngPortrait
      (oneElementTree "p".toList (.string "data:image/png;base64,AA".toList)) portraitDocument :=
  ⟨breaks_mixedDates, breaks_hugeNumber, breaks_pngPortrait⟩

/-- A date comes back. -/
theorem roundTrips_date : RoundTrips
    (closedIssuer mdlDatatypes
      (oneElement "d".toList (.tag fullDateTag (.text "2020-01-01".toList))))
    (oneElementTree "d".toList (.string "2020-01-01".toList)) "token" true := by
  refine (roundTrips_iff (laws_closedIssuer _)
    (sampleData [⟨"ns/d".toList, .string "2020-01-01".toList, some "DATE"⟩])
    (forms_of_nodes 2 rfl (by decide) (by decide +kernel) (by decide +kernel))
    (oneTypeArrays_of_nodes 2 "DATE" (by decide) (by decide +kernel))
    (formatCredential_closedIssuer _ rfl rfl) true).2
      ⟨⟨_, _, _, _, rfl, rfl, rfl, rfl⟩, rfl, fun c hc => ?_, fun q values _ c hc c' hc' => ?_⟩
  · obtain rfl := mem_singleton.1 hc
    exact (leafReadable_iff rfl rfl).2 (by simp)
  · obtain rfl := mem_singleton.1 hc
    obtain rfl := mem_singleton.1 hc'
    exact fun _ _ _ _ => rfl

end OneCore.Mdoc
