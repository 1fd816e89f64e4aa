/-
# Soundness of the ISO mDL verifier

A proof is sound if every claim that is attributed to a credential schema comes from a document
of the type of that schema, within its validity, and all documents are signed with one device
key.  The verifier compares the device keys and the end of the validity.  It never compares the
type of a document with the schema, nor the start of the validity with the current time.

So the verifier is sound for a device response exactly when, in every assignment of its
documents to the requested schemas, the types and the starts of validity happen to fit.
-/
import OneCore.IsoMdl.VerifyProof
import OneCore.Mdoc.IssuerAuth

namespace OneCore.IsoMdl

open List Schema Mdoc Option

variable (penv : PresentationEnvironment) (now : Timestamp) (leeway : Nat)

/-! ### Sound proofs -/

/-- The document is signed with its device key, which is the given one. -/
def DeviceSigned (sessionTranscript : Bytes) (jwk : PublicJwk) (document : Document) : Prop :=
  tryExtractHolderPublicKey penv.toEnvironment document.issuerSigned.issuerAuth = .ok jwk ∧
    ∃ signature, document.deviceSignature = some signature ∧
      tryVerifyDeviceSigned penv sessionTranscript document.docType signature jwk = .ok ()

/-- The claim is one of the document, and the document is of the right type and valid now. -/
structure ProvedBy (document : Document) (mso : MobileSecurityObject) (claim : ProvedClaim) :
    Prop where
  mso_eq : tryExtractMobileSecurityObject penv.toEnvironment document.issuerSigned.issuerAuth =
    .ok mso
  credential_eq : issuedCredential penv.toEnvironment document.issuerSigned true =
    .ok claim.credential
  value_eq : findRequested claim.credential claim.value.1 = some claim.value.2
  docType_eq : mso.docType = claim.credentialSchema.schemaId
  validFrom_le : mso.validityInfo.validFrom ≤ now + seconds leeway
  le_validUntil : now - seconds leeway ≤ mso.validityInfo.validUntil

/-- Every claim is one of a document of the right type that is valid now, and one device key
has signed all documents. -/
def SoundProof (sessionTranscript : Bytes) (documents : List Document)
    (proved : List ProvedClaim) : Prop :=
  (∃ jwk, ∀ document ∈ documents, DeviceSigned penv sessionTranscript jwk document) ∧
    ∀ claim ∈ proved, ∃ document ∈ documents, ∃ mso, ProvedBy penv now leeway document mso claim

/-- Whatever is accepted of the documents, in whatever order the hash maps are iterated, is
sound. -/
def SoundVerifier (proofSchema : ProofSchema) (presentation : String) (sessionTranscript : Bytes)
    (documents : List Document) : Prop :=
  ∀ order provedOrder holder claims proved,
    validateProof penv now leeway order provedOrder proofSchema presentation sessionTranscript =
      .ok (holder, claims) →
    attributeClaims proofSchema claims = .ok proved →
    SoundProof penv now leeway sessionTranscript documents proved

/-! ### When types and validity fit -/

/-- The document is of the type of every schema to which the claims that it proves are
attributed, and its validity has begun. -/
def Fits (pairs : List (ProofInputClaimSchema × Schema.CredentialSchema))
    (assigned : Document × RequestedClaims) : Prop :=
  ∀ mso received,
    tryExtractMobileSecurityObject penv.toEnvironment assigned.1.issuerSigned.issuerAuth = .ok mso →
    issuedCredential penv.toEnvironment assigned.1.issuerSigned true = .ok received →
    ∀ claim ∈ assigned.2.2, (findRequested received claim.schema.key).isSome →
      mso.validityInfo.validFrom ≤ now + seconds leeway ∧
      ∀ pair, findClaimSchema pairs claim.schema.id = some pair → mso.docType = pair.2.schemaId

/-- In every assignment of the documents that leaves no required claim open, every document
fits the schema that it is assigned to. -/
def AssignmentsFit (holder : IdentifierDetails) (documents : List Document)
    (requested : List RequestedClaims)
    (pairs : List (ProofInputClaimSchema × Schema.CredentialSchema)) : Prop :=
  ∀ assigned rest, Assigns penv.toEnvironment now leeway holder requested documents assigned rest →
    (∀ r ∈ rest, ∀ claim ∈ r.2, claim.required = false) →
    ∀ a ∈ assigned, Fits penv now leeway pairs a

/-! ### The circumstances of a verification -/

/-- The presentation formatter accepts the device response with the given documents, on behalf
of the given holder, and the tokens that it hands on decode to the documents. -/
structure Presented (presentation : String) (sessionTranscript : Bytes)
    (documents : List Document) (holder : IdentifierDetails) : Prop where
  decode_eq : penv.decodeDeviceResponse presentation = .ok (some documents)
  extracted : ∃ p, extractPresentation penv presentation (.ok (sessionTranscript, none)) none
    none none = .ok p ∧ p.issuer = some holder
  round_trip : ∀ document ∈ documents, ∀ token,
    penv.encodeIssuerSigned document.issuerSigned = .ok token →
      penv.decodeIssuerSigned token = .ok document.issuerSigned

/-- The proof schema is complete and asks for the given claims. -/
structure Requests (proofSchema : ProofSchema) (requested : List RequestedClaims)
    (pairs : List (ProofInputClaimSchema × Schema.CredentialSchema)) : Prop where
  requested_eq : requestedClaims proofSchema = .ok requested
  pairs_eq : ∃ inputSchemas, proofSchema.inputSchemas = some inputSchemas ∧
    claimSchemasWithCredSchemas inputSchemas = .ok pairs

lemma loadedInputSchemas_eq_ok_iff {proofSchema : ProofSchema} {msg : String}
    {inputSchemas : List ProofInputSchema} :
    loadedInputSchemas proofSchema msg = .ok inputSchemas ↔
      proofSchema.inputSchemas = some inputSchemas ∧ inputSchemas ≠ [] := by
  simp [loadedInputSchemas, filter_eq_some_iff]

variable {penv now leeway} {claims : List ValidatedProofClaimDTO}
  {proofSchema : ProofSchema} {requested : List RequestedClaims}
  {pairs : List (ProofInputClaimSchema × Schema.CredentialSchema)}
  {presentation : String} {sessionTranscript : Bytes} {documents : List Document}
  {holder : IdentifierDetails}

namespace Requests

lemma findClaimSchema_isSome (h : Requests proofSchema requested pairs) {r : RequestedClaims}
    (hr : r ∈ requested) {claim : ProofInputClaimSchema} (hclm : claim ∈ r.2) :
    ∃ pair, findClaimSchema pairs claim.schema.id = some pair := by
  obtain ⟨inputSchemas, hinps, hpairs⟩ := h.pairs_eq
  have hreq := h.requested_eq
  simp only [requestedClaims, ok_iffs, loadedInputSchemas_eq_ok_iff] at hreq
  obtain ⟨_, ⟨hinps', -⟩, ids, -, pairs', hpairs', rfl⟩ := hreq
  obtain rfl := mem_unique hinps hinps'
  obtain rfl := ok_unique hpairs hpairs'
  obtain ⟨id, -, rfl⟩ := mem_map.1 hr
  obtain ⟨p, hp, rfl⟩ := mem_map.1 hclm
  refine isSome_iff_exists.1 (find?_isSome.2 ⟨p, ?_, by simp⟩)
  exact (mem_filter.1 hp).1

/-- The claims of an accepted proof and what they are attributed to. -/
lemma attributeClaims_eq_ok_iff (h : Requests proofSchema requested pairs)
    {proved : List ProvedClaim} :
    attributeClaims proofSchema claims = .ok proved ↔
      Forall₂ (fun dto p => ∃ pair, findClaimSchema pairs dto.claimSchemaId = some pair ∧
        p = ⟨pair.1.schema, dto.value, dto.credential, pair.2⟩) claims proved := by
  obtain ⟨inputSchemas, hinps, hpairs⟩ := h.pairs_eq
  have hne : inputSchemas ≠ [] := by
    have hreq := h.requested_eq
    simp only [requestedClaims, bind_eq_ok, loadedInputSchemas_eq_ok_iff] at hreq
    obtain ⟨_, ⟨hinps', hne⟩, -⟩ := hreq
    rwa [mem_unique hinps hinps']
  have hload : loadedInputSchemas proofSchema "proof input schemas are missing" =
      .ok inputSchemas := loadedInputSchemas_eq_ok_iff.2 ⟨hinps, hne⟩
  simp only [attributeClaims, hload, ok_iffs, Except.ok.injEq, exists_eq_left', hpairs, mapM_eq_ok]
  simp [eq_comm]

end Requests

namespace Presented

variable (hp : Presented penv presentation sessionTranscript documents holder)

include hp

lemma exists_extracted : ∃ extracted, Forall₂ (fun document e =>
      extractDocument penv sessionTranscript none document = .ok e) documents extracted ∧
    (extracted.getLast?.map Prod.fst).map .key = some holder ∧
    extractPresentation penv presentation (.ok (sessionTranscript, none)) none none none =
      .ok ⟨some holder, none, none, none, extracted.map Prod.snd⟩ := by
  obtain ⟨p, hext, hissuer⟩ := hp.extracted
  obtain ⟨documents', transcript, nonce, extracted, hdec, hctx, hall, rfl⟩ :=
    (extractPresentation_eq_ok_iff penv).1 hext
  obtain rfl : documents' = documents := by
    simpa using hdec.symm.trans hp.decode_eq
  obtain ⟨rfl, rfl⟩ : sessionTranscript = transcript ∧ none = nonce := by simpa using hctx
  exact ⟨extracted, hall, hissuer, hissuer ▸ hext⟩

lemma exists_tokens : ∃ tokens, Tokens penv.toEnvironment documents tokens ∧
    extractPresentation penv presentation (.ok (sessionTranscript, none)) none none none =
      .ok ⟨some holder, none, none, none, tokens⟩ := by
  obtain ⟨extracted, hall, -, hext⟩ := hp.exists_extracted
  refine ⟨extracted.map Prod.snd, forall₂_map_right_iff.2 ?_, hext⟩
  refine ((forall₂_and_left _ _).2 ⟨fun document hmem => hmem, hall⟩).imp ?_
  rintro document ⟨jwk, token⟩ ⟨hmem, hdoc⟩
  exact hp.round_trip document hmem token (extractDocument_eq_ok penv hdoc).2.2.2

lemma deviceSigned : ∀ document ∈ documents, ∃ jwk,
    DeviceSigned penv sessionTranscript jwk document := by
  intro document hdocu
  obtain ⟨extracted, hall, -⟩ := hp.exists_extracted
  obtain ⟨⟨jwk, token⟩, -, hdoc⟩ := hall.exists_of_mem_left hdocu
  obtain ⟨-, hjwk, hsgn, -⟩ := extractDocument_eq_ok penv hdoc
  exact ⟨jwk, hjwk, hsgn⟩

lemma ne_nil : documents ≠ [] := by
  rintro rfl
  obtain ⟨extracted, hall, hissuer, -⟩ := hp.exists_extracted
  obtain rfl := forall₂_nil_left_iff.1 hall
  simp at hissuer

end Presented

/-! ### What the verifier does -/

lemma validateProof_eq_ok_iff {tokens : List String}
    (hext : extractPresentation penv presentation (.ok (sessionTranscript, none)) none none
      none = .ok ⟨some holder, none, none, none, tokens⟩)
    (hreq : Requests proofSchema requested pairs) {order : IterationOrder RequestedClaims}
    {provedOrder : IterationOrder (String × List ValidatedProofClaimDTO)}
    {holder' : IdentifierDetails} :
    validateProof penv now leeway order provedOrder proofSchema presentation sessionTranscript =
        .ok (holder', claims) ↔
      holder = holder' ∧ ∃ proved rest, proveCredentials penv.toEnvironment now leeway holder order
          requested tokens = .ok (proved, rest) ∧
        (∀ r ∈ rest, ∀ claim ∈ r.2, claim.required = false) ∧
        claims = (provedOrder.first proved).flatMap Prod.snd := by
  simp only [validateProof, hext, hreq.requested_eq, Except.mapError, ok_iffs, Except.ok.injEq,
    exists_eq_left', some.injEq, Prod.mk.injEq, Prod.exists]
  constructor
  · rintro ⟨-, -, -, -, proved, rest, hrun, -, hrest, rfl, rfl⟩
    exact ⟨rfl, proved, rest, hrun, by simpa using hrest, rfl⟩
  · rintro ⟨rfl, proved, rest, hrun, hrest, rfl⟩
    exact ⟨(), rfl, (), rfl, proved, rest, hrun, (), by simpa using hrest, rfl, rfl⟩

variable {assigned : List (Document × RequestedClaims)}

/-- The claims that an assignment proves are those that its documents have. -/
lemma mem_claims_iff {proved : List (String × List ValidatedProofClaimDTO)}
    (h : Forall₂ (Proves penv.toEnvironment) assigned proved)
    (provedOrder : IterationOrder (String × List ValidatedProofClaimDTO))
    {dto : ValidatedProofClaimDTO} :
    dto ∈ (provedOrder.first proved).flatMap Prod.snd ↔
      ∃ a ∈ assigned, ∃ received, issuedCredential penv.toEnvironment a.1.issuerSigned true =
          .ok received ∧ ∃ claim ∈ a.2.2, ∃ value,
        findRequested received claim.schema.key = some value ∧
        dto = ⟨claim.schema.id, received, (claim.schema.key, value)⟩ := by
  simp only [mem_flatMap, provedOrder.mem_first]
  constructor
  · rintro ⟨e, he, hdto⟩
    obtain ⟨a, ha, -, received, hrcv, hcollected⟩ := h.exists_of_mem_right he
    exact ⟨a, ha, received, hrcv, (mem_collectProvedClaims hcollected).1 hdto⟩
  · rintro ⟨a, ha, received, hrcv, hclm⟩
    obtain ⟨e, he, -, received', hrcv', hcollected⟩ := h.exists_of_mem_left ha
    obtain rfl := ok_unique hrcv hrcv'
    exact ⟨e, he, (mem_collectProvedClaims hcollected).2 hclm⟩

lemma exists_device_key (hp : Presented penv presentation sessionTranscript documents holder)
    {rest : List RequestedClaims}
    (h : Assigns penv.toEnvironment now leeway holder requested documents assigned rest) :
    ∃ jwk, ∀ document ∈ documents, DeviceSigned penv sessionTranscript jwk document := by
  -- the device key of a document that has been read is the holder
  have hkey : ∀ document ∈ documents, ∀ jwk,
      DeviceSigned penv sessionTranscript jwk document → holder = .key jwk := by
    intro document hdoc jwk hsgn
    obtain ⟨received, hread⟩ := h.readable document hdoc
    obtain ⟨_, _, jwk', _, -, hjwk', rfl⟩ := issuedCredential_eq_ok hread.credential_eq
    obtain rfl := ok_unique hsgn.1 hjwk'
    exact (some.inj hread.subject_eq).symm
  obtain ⟨first, hfst⟩ := exists_mem_of_ne_nil documents hp.ne_nil
  obtain ⟨jwk, hsgn⟩ := hp.deviceSigned first hfst
  refine ⟨jwk, fun document hdoc => ?_⟩
  obtain ⟨jwk', hsgn'⟩ := hp.deviceSigned document hdoc
  have heq := (hkey first hfst jwk hsgn).symm.trans (hkey document hdoc jwk' hsgn')
  obtain rfl : jwk = jwk' := by simpa using heq
  exact hsgn'

/-- Two security objects behind one credential have the same type and the same start. -/
lemma mso_eq_of_credential {document document' : Document} {mso mso' : MobileSecurityObject}
    {received : DetailCredential}
    (hmso : tryExtractMobileSecurityObject penv.toEnvironment document.issuerSigned.issuerAuth =
      .ok mso)
    (hmso' : tryExtractMobileSecurityObject penv.toEnvironment document'.issuerSigned.issuerAuth =
      .ok mso') (h : issuedCredential penv.toEnvironment document.issuerSigned true = .ok received)
    (h' : issuedCredential penv.toEnvironment document'.issuerSigned true = .ok received) :
    mso.docType = mso'.docType ∧ mso.validityInfo.validFrom = mso'.validityInfo.validFrom := by
  obtain ⟨m, _, _, _, hm, -, rfl⟩ := issuedCredential_eq_ok h
  obtain ⟨m', _, _, _, hm', -, heq⟩ := issuedCredential_eq_ok h'
  obtain rfl := ok_unique hmso hm
  obtain rfl := ok_unique hmso' hm'
  have hsch := congrArg DetailCredential.credentialSchema heq
  have hfrom := congrArg DetailCredential.validFrom heq
  simp only [detailCredential, some.injEq, CredentialSchema.mk.injEq] at hsch hfrom
  exact ⟨hsch.1, hfrom⟩

section

variable (hp : Presented penv presentation sessionTranscript documents holder)

include hp

lemma soundVerifier_of_assignmentsFit (hreq : Requests proofSchema requested pairs)
    (hfit : AssignmentsFit penv now leeway holder documents requested pairs) :
    SoundVerifier penv now leeway proofSchema presentation sessionTranscript documents := by
  intro order provedOrder holder' claims provedClaims haccept hatt
  obtain ⟨tokens, htoks, hext⟩ := hp.exists_tokens
  obtain ⟨rfl, proved, rest, hrun, hrest, rfl⟩ :=
    (validateProof_eq_ok_iff hext hreq).1 haccept
  obtain ⟨assigned, hasg, hproves⟩ := assigns_of_proveCredentials htoks hrun
  refine ⟨exists_device_key hp hasg, fun claim hclm => ?_⟩
  -- the claim is that of an assigned document
  obtain ⟨dto, hdto, pair, hpair, rfl⟩ :=
    (hreq.attributeClaims_eq_ok_iff.1 hatt).exists_of_mem_right hclm
  obtain ⟨a, ha, received, hrcv, c, hc, value, hval, rfl⟩ :=
    (mem_claims_iff hproves provedOrder).1 hdto
  have hdoc := (hasg.mem a ha).1
  obtain ⟨received', hread⟩ := hasg.readable a.1 hdoc
  obtain rfl := ok_unique hrcv hread.credential_eq
  obtain ⟨mso, cert, jwk, claims, hmso, -, hcred⟩ := issuedCredential_eq_ok hrcv
  have huntil : now - seconds leeway ≤ mso.validityInfo.validUntil :=
    validateExpirationTime_eq_ok_iff.1 hread.not_expired _ (by rw [hcred]; rfl)
  obtain ⟨hfrom, htype⟩ := hfit assigned rest hasg hrest a ha mso received hmso hrcv c hc
    (by rw [hval]; rfl)
  exact ⟨a.1, hdoc, mso, hmso, hrcv, hval, htype pair hpair, hfrom, huntil⟩

lemma assignmentsFit_of_soundVerifier (hreq : Requests proofSchema requested pairs)
    (hsound : SoundVerifier penv now leeway proofSchema presentation sessionTranscript documents) :
    AssignmentsFit penv now leeway holder documents requested pairs := by
  intro assigned rest hasg hrest a ha mso received hmso hrcv c hc hfnd
  obtain ⟨tokens, htoks, hext⟩ := hp.exists_tokens
  -- an order that brings the assignment about
  obtain ⟨order, proved, hrun, hproves⟩ := exists_order_of_assigns htoks hasg
  have haccept := (validateProof_eq_ok_iff hext hreq).2
    ⟨rfl, proved, rest, hrun, hrest, (rfl : _ = (IterationOrder.listed.first proved).flatMap _)⟩
  -- every claim of it is attributed to some schema
  obtain ⟨provedClaims, hall⟩ : ∃ provedClaims, Forall₂ (fun dto p => ∃ pair,
      findClaimSchema pairs dto.claimSchemaId = some pair ∧
        p = ProvedClaim.mk pair.1.schema dto.value dto.credential pair.2)
      ((IterationOrder.listed.first proved).flatMap Prod.snd) provedClaims := by
    refine Forall₂.exists_of_forall fun dto hdto => ?_
    obtain ⟨a, ha, -, -, claim, hclm, -, -, rfl⟩ := (mem_claims_iff hproves .listed).1 hdto
    obtain ⟨pair, hpair⟩ := hreq.findClaimSchema_isSome (hasg.mem a ha).2 hclm
    exact ⟨_, pair, hpair, rfl⟩
  have hprf := (hsound order .listed holder _ provedClaims haccept
    (hreq.attributeClaims_eq_ok_iff.2 hall)).2
  -- in particular the claim at hand
  obtain ⟨value, hval⟩ := isSome_iff_exists.1 hfnd
  have hdto := (mem_claims_iff hproves .listed).2 ⟨a, ha, received, hrcv, c, hc, value, hval, rfl⟩
  obtain ⟨claim, hclm, pair, hpair, rfl⟩ := hall.exists_of_mem_left hdto
  obtain ⟨document, -, mso', hby⟩ := hprf _ hclm
  obtain ⟨htype, hfrom⟩ := mso_eq_of_credential hmso hby.mso_eq hrcv hby.credential_eq
  refine ⟨hfrom ▸ hby.validFrom_le, fun pair' hpair' => ?_⟩
  obtain rfl := mem_unique hpair hpair'
  exact htype.trans hby.docType_eq

end

/-- The verifier is sound for a device response if and only if the types and the starts of
validity of the documents fit in every assignment to the requested schemas. -/
theorem soundVerifier_iff (hp : Presented penv presentation sessionTranscript documents holder)
    (hreq : Requests proofSchema requested pairs) :
    SoundVerifier penv now leeway proofSchema presentation sessionTranscript documents ↔
      AssignmentsFit penv now leeway holder documents requested pairs :=
  ⟨assignmentsFit_of_soundVerifier hp hreq, soundVerifier_of_assignmentsFit hp hreq⟩

section Sample

/-- A document with the element `n/a`, signed by the issuer and by the device. -/
def sampleDocument : Document where
  docType := "mdl"
  issuerSigned := Mdoc.sampleDocument [1]
  deviceSignature := some ⟨⟨none, some algorithmES256⟩, [], none, [1]⟩

variable (validFrom : Timestamp)

def sampleMso : MobileSecurityObject :=
  { sampleDocumentMso with validityInfo := ⟨0, validFrom, 10, none⟩ }

def sampleEnvironment : PresentationEnvironment where
  toEnvironment := .fixed sampleDocument.issuerSigned (sampleMso validFrom)
    ⟨"fingerprint", 10, none, .ok (.ec ⟨none, none, none, "P-256", "x", some "y"⟩)⟩
    fun _ _ _ _ => .ok ()
  decodeDeviceResponse _ := .ok (some [sampleDocument])
  deviceAuthenticationBytes _ _ := [1]

def sampleHolder : IdentifierDetails := .key (.okp ⟨none, none, none, "Ed25519", "AA", none⟩)

def sampleClaim : ProofInputClaimSchema := ⟨⟨"c", ['n', '/', 'a'], "STRING", false, false, true⟩, true⟩

def sampleSchema (schemaId : String) : Schema.CredentialSchema := ⟨"s", "MDOC", schemaId, none⟩

def sampleProofSchema (schemaId : String) : ProofSchema :=
  ⟨some [⟨some [sampleClaim], some (sampleSchema schemaId)⟩]⟩

lemma sample_accepted (schemaId : String) :
    ∃ claims claim, validateProof (sampleEnvironment validFrom) 0 0 .listed .listed
        (sampleProofSchema schemaId) "response" [] = .ok (sampleHolder, claims) ∧
      attributeClaims (sampleProofSchema schemaId) claims = .ok [claim] ∧
      claim.credentialSchema = sampleSchema schemaId :=
  ⟨_, _, rfl, rfl, rfl⟩

lemma sample_sound {validFrom : Timestamp} {schemaId : String}
    (h : SoundVerifier (sampleEnvironment validFrom) 0 0 (sampleProofSchema schemaId) "response" []
      [sampleDocument]) : "mdl" = schemaId ∧ validFrom ≤ 0 := by
  obtain ⟨claims, claim, haccept, hatt, hsch⟩ := sample_accepted validFrom schemaId
  obtain ⟨document, hmem, mso, hby⟩ :=
    (h _ _ _ _ _ haccept hatt).2 claim mem_cons_self
  obtain rfl := mem_singleton.1 hmem
  obtain rfl : sampleMso validFrom = mso := Except.ok.inj hby.mso_eq
  have htype := hby.docType_eq
  rw [hsch] at htype
  exact ⟨htype, by simpa [sampleMso, seconds] using hby.validFrom_le⟩

/-- A document of the type `mdl` proves a claim of a credential of the type `other`, and a
document whose validity begins later proves a claim now. -/
theorem wrong_type_accepted :
    (¬SoundVerifier (sampleEnvironment 0) 0 0 (sampleProofSchema "other") "response" []
      [sampleDocument]) ∧
    ¬SoundVerifier (sampleEnvironment 5) 0 0 (sampleProofSchema "mdl") "response" []
      [sampleDocument] :=
  ⟨fun h => absurd (sample_sound h).1 (by decide), fun h => absurd (sample_sound h).2 (by decide)⟩

/-- The verifier is sound for a document of the requested type whose validity has begun. -/
theorem soundVerifier_sample :
    SoundVerifier (sampleEnvironment 0) 0 0 (sampleProofSchema "mdl") "response" []
      [sampleDocument] := by
  have hpres : Presented (sampleEnvironment 0) "response" [] [sampleDocument] sampleHolder :=
    ⟨rfl, ⟨_, rfl, rfl⟩, fun document hmem token _ => by
      obtain rfl := mem_singleton.1 hmem
      rfl⟩
  refine (soundVerifier_iff hpres ⟨rfl, _, rfl, rfl⟩).2 ?_
  intro assigned rest hasg _ a ha mso received hmso _ claim _ _
  rw [mem_singleton.1 (hasg.mem a ha).1] at hmso
  obtain rfl : sampleMso 0 = mso := Except.ok.inj hmso
  refine ⟨by decide, fun pair hpair => ?_⟩
  have hpair := mem_of_find?_eq_some hpair
  rw [mem_singleton.1 hpair]
  rfl

end Sample

end OneCore.IsoMdl
