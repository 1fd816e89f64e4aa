/-
# Issuer authentication of a mobile document

A wallet that receives a mobile document reads it with `extractCredentials` and
`parseCredential`.  What it should be able to rely on is that the issuer's signature over the
mobile security object verifies under the key of the issuer's certificate, and that every claim
is the content of an item whose digest the mobile security object lists.  The second part holds
for every accepted token.  The first part is not checked: it holds exactly for the tokens whose
issuer authentication the presentation formatter would accept.
-/
import OneCore.Mdoc.Presentation

namespace OneCore.Mdoc

variable {env : Environment} {token : String}

/-! ### What an accepted document should be -/

/-- The issuer's signature over the protected header and the payload verifies under the key of
the leaf certificate of the chain. -/
def IssuerSignatureVerifies (env : Environment) (cose : CoseSign1) (chain : String) : Prop :=
  ∃ leaf alg jwk, env.certificateValidator.parsePemChain chain
      (.signatureAndValidity (some [.digitalSignature])) = .ok leaf ∧
    extractAlgorithmFromHeader cose = some alg ∧ leaf.publicKeyAsJwk = .ok jwk ∧
    env.verifier (.jwk jwk) alg (issuerSignedBytes env cose) cose.signature = .ok ()

/-- A claim of the credential is the type of the document, or holds the contents of listed items
of one namespace. -/
def IsListedClaim (r : Reading env token true) (key : Str) (claim : CredentialClaim) : Prop :=
  (key = doctypeKey ∧ claim = .mk false true (.string r.mso.docType.toList)) ∨
    ∃ items content, (key, items) ∈ r.namespaces.entries ∧
      claim = .mk true false (.object content) ∧
      ∀ el c, (el, c) ∈ content → ∃ item ∈ items, item.inner.elementIdentifier = el ∧
        itemClaim env item = .ok c ∧ Listed env r.mso key item

/-- A stored claim is the type of the document, or stands for a namespace without a value, or is
part of a listed item. -/
def IsListedPart (r : Reading env token true) (claim : Claim) : Prop :=
  claim = doctypeClaim r.mso.docType ∨
    ∃ ns items, (ns, items) ∈ r.namespaces.entries ∧
      (claim.path = ns ∧ claim.value = none ∨
        ∃ item ∈ items, IsPartOf env ns item claim ∧ Listed env r.mso ns item)

/-- The credential is what the document says, the issuer's signature of the document verifies,
and every claim is listed. -/
def AuthenticCredential (env : Environment) (token : String) (credential : DetailCredential) :
    Prop :=
  ∃ r : Reading env token true,
    credential.issuer = .certificate r.issuerCert ∧
    credential.credentialSchema = some ⟨r.mso.docType, "mdoc"⟩ ∧
    credential.subject = some (.key r.holderJwk) ∧
    IssuerSignatureVerifies env r.issuerSigned.issuerAuth r.issuerCert.chain ∧
    ∀ key claim, (key, claim) ∈ credential.claims.claims → IsListedClaim r key claim

def AuthenticStoredCredential (env : Environment) (token : String)
    (credential : StoredCredential) : Prop :=
  ∃ r : Reading env token true,
    credential.issuer = .certificate r.issuerCert ∧
    credential.schemaId = r.mso.docType ∧
    credential.holder = .key r.holderJwk ∧
    IssuerSignatureVerifies env r.issuerSigned.issuerAuth r.issuerCert.chain ∧
    ∀ claim ∈ credential.claims, IsListedPart r claim

/-- Whatever the two routines accept a token as is authentic. -/
def IssuerAuthentication (env : Environment) (token : String) : Prop :=
  (∀ credential, extractCredentials env token true = .ok credential →
    AuthenticCredential env token credential) ∧
  ∀ credential, parseCredential env token = .ok credential →
    AuthenticStoredCredential env token credential

/-- The presentation formatter, without trust anchors, accepts the issuer authentication of the
document in the token. -/
def PassesIssuerAuth (env : Environment) (token : String) : Prop :=
  ∃ issuerSigned cert, env.decodeIssuerSigned token = .ok issuerSigned ∧
    extractIssuerCertificate env issuerSigned.issuerAuth none = .ok cert ∧
    tryVerifyIssuerAuth env issuerSigned.issuerAuth cert.chain none = .ok ()

/-! ### The links of the chain -/

variable {r : Reading env token true}

lemma isListedClaim_of_extractClaims {claims : List (Str × CredentialClaim)}
    (hdigs : verifyDigests env r.mso r.namespaces = .ok ())
    (hcls : extractClaims env r.namespaces = .ok claims) {key : Str} {claim : CredentialClaim}
    (hmem : (key, claim) ∈ (detailCredential r.mso r.issuerCert r.holderJwk claims).claims.claims) :
    IsListedClaim r key claim := by
  rcases mem_mapInsert hmem with heq | hmem
  · exact Or.inl (by simpa using heq)
  · obtain ⟨⟨key, items⟩, hent, content, hcont, ⟨⟩⟩ := exists_of_mem_inserted hcls hmem
    refine Or.inr ⟨items, content, hent, rfl, fun el c hc => ?_⟩
    obtain ⟨item, hitem, _, hclm, ⟨⟩⟩ := exists_of_mem_inserted hcont hc
    have hlst := (verifyDigests_eq_ok_iff env).1 hdigs key items hent
    exact ⟨item, hitem, rfl, hclm, hlst.2 item hitem⟩

lemma isListedPart_of_parseClaims {claims : List Claim}
    (hdigs : verifyDigests env r.mso r.namespaces = .ok ())
    (hcls : parseClaims env r.namespaces = .ok claims) {claim : Claim}
    (hmem : claim ∈ claims ++ [doctypeClaim r.mso.docType]) : IsListedPart r claim := by
  rcases List.mem_append.1 hmem with hmem | hmem
  · obtain ⟨ns, items, hent, horigin⟩ := mem_parseClaims hcls hmem
    refine Or.inr ⟨ns, items, hent, horigin.imp id ?_⟩
    rintro ⟨item, hitem, hpart⟩
    have hlst := (verifyDigests_eq_ok_iff env).1 hdigs ns items hent
    exact ⟨item, hitem, hpart, hlst.2 item hitem⟩
  · exact Or.inl (List.mem_singleton.1 hmem)

/-- For a token that can be read, the missing link is exactly the check of the presentation
formatter. -/
lemma passesIssuerAuth_iff (r : Reading env token true) :
    PassesIssuerAuth env token ↔
      IssuerSignatureVerifies env r.issuerSigned.issuerAuth r.issuerCert.chain := by
  have hleaf : ∀ chain leaf, issuerLeaf env chain none = .ok leaf ↔
      env.certificateValidator.parsePemChain chain
        (.signatureAndValidity (some [.digitalSignature])) = .ok leaf := by
    intro chain leaf
    exact mapError_eq_ok
  constructor
  · rintro ⟨issuerSigned, cert, hdec, hcert, hvfy⟩
    obtain rfl : issuerSigned = r.issuerSigned := ok_unique hdec r.decode_eq
    obtain rfl : cert = r.issuerCert := ok_unique hcert r.cert_eq
    obtain ⟨leaf, alg, jwk, hl, halg, hjwk, hv⟩ := (tryVerifyIssuerAuth_eq_ok_iff env).1 hvfy
    exact ⟨leaf, alg, jwk, (hleaf _ _).1 hl, halg, hjwk, hv⟩
  · rintro ⟨leaf, alg, jwk, hl, halg, hjwk, hv⟩
    exact ⟨r.issuerSigned, r.issuerCert, r.decode_eq, r.cert_eq,
      (tryVerifyIssuerAuth_eq_ok_iff env).2 ⟨leaf, alg, jwk, (hleaf _ _).2 hl, halg, hjwk, hv⟩⟩

lemma authenticCredential_iff {credential : DetailCredential}
    (h : extractCredentials env token true = .ok credential) :
    AuthenticCredential env token credential ↔ PassesIssuerAuth env token := by
  obtain ⟨r, claims, hdigs, hcls, rfl⟩ := extractCredentials_eq_ok_iff.1 h
  rw [passesIssuerAuth_iff r]
  constructor
  · rintro ⟨r', -, -, -, hsig, -⟩
    rwa [r.eq r']
  · intro hsig
    exact ⟨r, rfl, rfl, rfl, hsig,
      fun key claim => isListedClaim_of_extractClaims (hdigs rfl) hcls⟩

lemma authenticStoredCredential_iff {credential : StoredCredential}
    (h : parseCredential env token = .ok credential) :
    AuthenticStoredCredential env token credential ↔ PassesIssuerAuth env token := by
  obtain ⟨r, claims, hdigs, hcls, -, rfl⟩ := parseCredential_eq_ok_iff.1 h
  rw [passesIssuerAuth_iff r]
  constructor
  · rintro ⟨r', -, -, -, hsig, -⟩
    rwa [r.eq r']
  · intro hsig
    exact ⟨r, rfl, rfl, rfl, hsig, fun claim => isListedPart_of_parseClaims hdigs hcls⟩

/-! ### What the issuer has signed -/

/-- The owner of the issuer's key signed the payload that decodes to the mobile security object,
and the bytes of each item are the only ones with the digest that is listed for it. -/
def SignedByIssuer (Signed : PublicJwk → Bytes → Prop) (r : Reading env token true) : Prop :=
  (∃ leaf jwk payload mso, env.certificateValidator.parsePemChain r.issuerCert.chain
      (.signatureAndValidity (some [.digitalSignature])) = .ok leaf ∧
    leaf.publicKeyAsJwk = .ok jwk ∧ r.issuerSigned.issuerAuth.payload = some payload ∧
    env.decodeMso payload = .ok mso ∧ mso.inner = r.mso ∧
    Signed jwk (env.sigStructureData r.issuerSigned.issuerAuth.protectedHeader [] payload)) ∧
  ∀ ns items, (ns, items) ∈ r.namespaces.entries → ∀ item ∈ items, ∀ bytes,
    env.digest r.mso.digestAlgorithm bytes = env.digest r.mso.digestAlgorithm item.originalBytes →
      bytes = item.originalBytes

lemma signedByIssuer_of_verifies {Signed : PublicJwk → Bytes → Prop}
    (hunf : Unforgeable env.verifier Signed)
    (hdig : ∀ alg, Function.Injective (env.digest alg))
    (h : IssuerSignatureVerifies env r.issuerSigned.issuerAuth r.issuerCert.chain) :
    SignedByIssuer Signed r := by
  obtain ⟨leaf, alg, jwk, hleaf, halg, hjwk, hvfy⟩ := h
  obtain ⟨payload, hpay, mso, hmso, heq⟩ :=
    (tryExtractMobileSecurityObject_eq_ok_iff env).1 r.mso_eq
  refine ⟨⟨leaf, jwk, payload, mso, hleaf, hjwk, hpay, hmso, heq, ?_⟩, ?_⟩
  · have hsgn := hunf _ _ _ _ hvfy
    rwa [issuerSignedBytes, hpay] at hsgn
  · intro ns items _ item _ bytes hbytes
    exact hdig _ hbytes

/-- A token that one of the two routines accepts is authentic if and only if the presentation
formatter accepts its issuer authentication; and then, if signatures cannot be forged and
digests do not collide, its content was signed by the issuer. -/
theorem issuerAuthentication_iff (env : Environment) (token : String)
    (h : (∃ credential, extractCredentials env token true = .ok credential) ∨
      ∃ credential, parseCredential env token = .ok credential) :
    (IssuerAuthentication env token ↔ PassesIssuerAuth env token) ∧
    ∀ Signed, Unforgeable env.verifier Signed →
      (∀ alg, Function.Injective (env.digest alg)) → PassesIssuerAuth env token →
      ∀ r : Reading env token true, SignedByIssuer Signed r := by
  refine ⟨⟨fun hauth => ?_, fun hpass => ?_⟩, fun Signed hunf hinj hpass r => ?_⟩
  · rcases h with ⟨credential, h⟩ | ⟨credential, h⟩
    · exact (authenticCredential_iff h).1 (hauth.1 credential h)
    · exact (authenticStoredCredential_iff h).1 (hauth.2 credential h)
  · exact ⟨fun credential h => (authenticCredential_iff h).2 hpass,
      fun credential h => (authenticStoredCredential_iff h).2 hpass⟩
  · exact signedByIssuer_of_verifies hunf hinj ((passesIssuerAuth_iff r).1 hpass)

section Sample

/-- A document with one item and the given signature over the payload `[1]`. -/
def sampleDocument (signature : Bytes) : IssuerSigned where
  nameSpaces := some ⟨[(['n'], [⟨⟨0, [], ['a'], .text ['v']⟩, [7]⟩])], by simp⟩
  issuerAuth := ⟨⟨none, some algorithmES256⟩, [(x5ChainLabel, .bytes [0])], some [1], signature⟩

/-- The mobile security object that lists the digest of the item. -/
def sampleDocumentMso : MobileSecurityObject where
  digestAlgorithm := .sha256
  valueDigests := ⟨[(['n'], ⟨[(0, [7])], by simp⟩)], by simp⟩
  deviceKey := ⟨keyTypeOkp, [(keyParamCrv, .integer curveEd25519), (keyParamX, .bytes [2])]⟩
  docType := "mdl"
  validityInfo := ⟨0, 0, 10, none⟩
  status := none

def sampleLeaf : ParsedCertificate :=
  ⟨"fingerprint", 10, none, .ok (.ec ⟨none, none, none, "P-256", "x", some "y"⟩)⟩

/-- An environment whose verifier accepts a signature that repeats the signed bytes. -/
def sampleDocumentEnvironment (signature : Bytes) : Environment :=
  .fixed (sampleDocument signature) sampleDocumentMso sampleLeaf fun _ _ token signature =>
    if signature = token then .ok () else .error (.validationFailed "signature")

lemma sample_accepted (signature : Bytes) :
    (∃ c, extractCredentials (sampleDocumentEnvironment signature) "token" true = .ok c) ∧
      ∃ c, parseCredential (sampleDocumentEnvironment signature) "token" = .ok c :=
  ⟨⟨_, rfl⟩, ⟨_, rfl⟩⟩

lemma sample_passes_iff (signature : Bytes) :
    PassesIssuerAuth (sampleDocumentEnvironment signature) "token" ↔ signature = [1] := by
  constructor
  · rintro ⟨issuerSigned, cert, hdec, -, hvfy⟩
    obtain rfl : sampleDocument signature = issuerSigned := Except.ok.inj hdec
    obtain ⟨leaf, alg, jwk, -, -, -, hv⟩ := (tryVerifyIssuerAuth_eq_ok_iff _).1 hvfy
    by_contra hne
    have herr : (sampleDocumentEnvironment signature).verifier (.jwk jwk) alg
        (issuerSignedBytes (sampleDocumentEnvironment signature)
          (sampleDocument signature).issuerAuth) (sampleDocument signature).issuerAuth.signature =
        .error (.validationFailed "signature") := if_neg hne
    rw [herr] at hv
    cases hv
  · rintro rfl
    exact ⟨_, _, rfl, rfl, rfl⟩

/-- A document with a signature that does not verify is accepted by both routines. -/
theorem forged_document_accepted :
    (∃ c, extractCredentials (sampleDocumentEnvironment []) "token" true = .ok c) ∧
      (∃ c, parseCredential (sampleDocumentEnvironment []) "token" = .ok c) ∧
      ¬IssuerAuthentication (sampleDocumentEnvironment []) "token" := by
  obtain ⟨⟨c, hc⟩, hpar⟩ := sample_accepted []
  refine ⟨⟨c, hc⟩, hpar, fun hauth => ?_⟩
  have hpass := (authenticCredential_iff hc).1 (hauth.1 c hc)
  exact absurd ((sample_passes_iff []).1 hpass) (by decide)

/-- A document with a signature that verifies is authentic. -/
theorem issuerAuthentication_signed_document :
    IssuerAuthentication (sampleDocumentEnvironment [1]) "token" :=
  (issuerAuthentication_iff (sampleDocumentEnvironment [1]) "token"
    (Or.inl (sample_accepted [1]).1)).1.2 ((sample_passes_iff [1]).2 rfl)

end Sample

end OneCore.Mdoc
