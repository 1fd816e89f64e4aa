/-
# The result of a proof

The proved claims of a submission come in one list over all its credentials.  For the result they
are put together again by the credential schema they were requested from, and each group becomes
one proved credential: it has the issuer, the holder and the mobile security object of the
credential that the first claim of the group comes from.

So if several credentials answer for one credential schema then their claims are stored together,
under the issuer and the holder of one of them (`attributed_iff`).
-/
import OneCore.Lib.IterationOrder
import OneCore.Model.Claim
import OneCore.Openid4vp.Checks

namespace OneCore.Openid4vp

open List Presentation Schema IndexMap
open Mdoc (MobileSecurityObject)

variable {Key : Type} (env : ValidatorEnvironment Key)

/-- A credential as the verifier stores it, with the claims that were proved. -/
structure Credential where
  issuanceDate : Option Timestamp
  protocol : String
  profile : Option String
  claims : List Claim
  schema : Schema.CredentialSchema

structure ProvedCredential where
  credential : Credential
  issuerDetails : IdentifierDetails
  holderDetails : IdentifierDetails
  mdocMso : Option MobileSecurityObject

structure ValidatedProofResult where
  provedCredentials : List ProvedCredential
  provedClaims : List Claim

/-! ### Completeness -/

/-- Every claim that is required has been proved for its credential schema. -/
def validateInputCompleteness (proofId : String) (provedClaims : List ValidatedProofClaimDTO)
    (input : ProofInputSchema) : Except OpenID4VCError Unit := do
  let credentialSchema ← okOr input.credentialSchema (.validationError "Missing credential schema")
  let claimSchemas ← okOr input.claimSchemas (.validationError "Missing claim input schemas")
  forM claimSchemas fun claim =>
    ensure (claim.required = true → ∃ proved ∈ provedClaims,
        credentialSchema.id = proved.credentialSchema.id ∧
        claim.schema.id = proved.proofInputClaim.schema.id)
      (.validationError ("Claim `" ++ claim.schema.id ++ "` (key `" ++
        String.ofList claim.schema.key ++
        "`) is required but not found in proof submission for proof `" ++ proofId ++ "`"))

def validateProofCompleteness (proofId : String) (proofSchema : ProofSchema)
    (provedClaims : List ValidatedProofClaimDTO) : Except OpenID4VCError Unit := do
  let inputSchemas ← okOr proofSchema.inputSchemas (.validationError "Missing proof input schemas")
  forM inputSchemas (validateInputCompleteness proofId provedClaims)

/-! ### Proved credentials -/

/-- The claim schemas of the credential schemas of a proof schema, by the id of the latter. -/
def claimSchemasForCredentialSchema (inputSchemas : List ProofInputSchema) :
    Except OpenID4VCError (IndexMap String (List Schema.ClaimSchema)) :=
  inputSchemas.foldlM (fun schemas input => do
    let credentialSchema ← okOr input.credentialSchema (.mappingError "credential_schema is None")
    let claimSchemas ← okOr credentialSchema.claimSchemas (.mappingError "claim schemas is None")
    return schemas.upsert credentialSchema.id fun old => old.getD [] ++ claimSchemas)
    empty

def storageError : ServiceError → OpenID4VCError
  | .mappingError msg => .mappingError msg
  | .missingClaimSchemas => .missingClaimSchemas
  | .validationError msg => .other msg
  | .nested msg => .other msg

def storedClaims (claimSchemas : List Schema.ClaimSchema) (claim : ValidatedProofClaimDTO) :
    Except OpenID4VCError (List Claim) :=
  (valueToModelClaims env.numberToString claimSchemas claim.proofInputClaim.schema
    claim.proofInputClaim.schema.key claim.value).mapError storageError

/-- The credential of a group of claims, which are stored under the credential of the first. -/
def extractedCredentialToModel (proof : Proof) (claimSchemas : List Schema.ClaimSchema)
    (group : List ValidatedProofClaimDTO) (first : ValidatedProofClaimDTO)
    (holder : IdentifierDetails) : Except OpenID4VCError ProvedCredential := do
  let claims ← Except.flatMapM group (storedClaims env claimSchemas)
  return {
    credential := ⟨first.credential.issuanceDate, proof.protocol, proof.profile, claims,
      first.credentialSchema⟩
    issuerDetails := first.credential.issuer
    holderDetails := holder
    mdocMso := first.mdocMso }

def provedCredential (proof : Proof) (claimSchemasFor : IndexMap String (List Schema.ClaimSchema))
    (entry : String × List ValidatedProofClaimDTO) :
    Except OpenID4VCError ProvedCredential := do
  let first ← okOr entry.2.head? (.mappingError "claims are empty")
  let holder ← okOr first.credential.subject
    (.mappingError "Mapping error: `credential subject is missing`")
  let claimSchemas ← okOr (claimSchemasFor.get? entry.1) (.mappingError
    ("Claim schemas are missing for credential schema " ++ entry.1))
  extractedCredentialToModel env proof claimSchemas entry.2 first holder

def claimsPerCredential (provedClaims : List ValidatedProofClaimDTO) :
    IndexMap String (List ValidatedProofClaimDTO) :=
  groupBy (fun claim => claim.credentialSchema.id) provedClaims

/-- The result for the proved claims of a submission.  The groups of claims are in a hash map, so
they are visited in some order. -/
def validateProof (order : IterationOrder (String × List ValidatedProofClaimDTO)) (proof : Proof)
    (provedClaims : List ValidatedProofClaimDTO) :
    Except OpenID4VCError ValidatedProofResult := do
  let proofSchema ← okOr proof.schema (.mappingError "proof schema is None")
  validateProofCompleteness proof.id proofSchema provedClaims
  let inputSchemas ← okOr proofSchema.inputSchemas (.mappingError "input schemas is None")
  let claimSchemasFor ← claimSchemasForCredentialSchema inputSchemas
  let provedCredentials ← (order.first (claimsPerCredential provedClaims).entries).mapM
    (provedCredential env proof claimSchemasFor)
  return ⟨provedCredentials, provedCredentials.flatMap fun proved => proved.credential.claims⟩

def validateSubmission (order : IterationOrder (String × List ValidatedProofClaimDTO))
    (interaction : InteractionContent) (protocolType : VerificationProtocolType)
    (submission : SubmissionRequestData) (proof : Proof) :
    Except OpenID4VCError ValidatedProofResult := do
  let provedClaims ← processProofSubmission env interaction protocolType submission proof
  validateProof env order proof provedClaims

/-! ### Attribution -/

/-- The proved claims that belong to a proved credential. -/
def sources (claims : List ValidatedProofClaimDTO) (proved : ProvedCredential) :
    List ValidatedProofClaimDTO :=
  claims.filter fun claim => claim.credentialSchema.id = proved.credential.schema.id

/-- The claims that are stored with a proved credential are the given ones. -/
def Stores (proved : ProvedCredential) (claims : List ValidatedProofClaimDTO) : Prop :=
  ∃ claimSchemas, Except.flatMapM claims (storedClaims env claimSchemas) =
    .ok proved.credential.claims

/-- The claim comes from a credential of the recorded issuer and holder. -/
structure AttributedTo (proved : ProvedCredential) (claim : ValidatedProofClaimDTO) : Prop where
  issuer_eq : claim.credential.issuer = proved.issuerDetails
  subject_eq : claim.credential.subject = some proved.holderDetails
  mso_eq : claim.mdocMso = proved.mdocMso

def SameCredential (a b : ValidatedProofClaimDTO) : Prop :=
  a.credential = b.credential ∧ a.mdocMso = b.mdocMso

variable {mso : Option MobileSecurityObject}

section Submission

variable (interaction : InteractionContent) (protocolType : VerificationProtocolType)
  (submission : SubmissionRequestData) (proof : Proof)

/-- Each proved credential stores claims of one credential, with the issuer, the holder and the
mobile security object of that credential. -/
def Attributed (result : ValidatedProofResult) : Prop :=
  ∀ claims, processProofSubmission env interaction protocolType submission proof = .ok claims →
    ∀ proved ∈ result.provedCredentials,
      Stores env proved (sources claims proved) ∧
      (∀ claim ∈ sources claims proved, AttributedTo proved claim) ∧
      ∀ a ∈ sources claims proved, ∀ b ∈ sources claims proved, SameCredential a b

/-- Any two credentials that are checked for the same credential schema and have a requested claim
are one and the same. -/
def OneCredentialPerSchema : Prop :=
  ∀ c c', Checks env interaction protocolType submission proof c →
    Checks env interaction protocolType submission proof c' →
    ∀ credential mso schema formatter credential' mso' schema' formatter',
      Reads env c.token c.input credential mso schema formatter →
      Reads env c'.token c'.input credential' mso' schema' formatter' →
      schema.id = schema'.id →
      (∃ claim, Yields c.input credential mso claim) →
      (∃ claim, Yields c'.input credential' mso' claim) → credential = credential' ∧ mso = mso'

variable {env interaction protocolType submission proof}

variable {entry : String × List ValidatedProofClaimDTO} {proved : ProvedCredential}

lemma provedCredential_eq_ok {claimSchemasFor : IndexMap String (List Schema.ClaimSchema)}
    (h : provedCredential env proof claimSchemasFor entry = .ok proved) :
    ∃ first ∈ entry.2, AttributedTo proved first ∧
      first.credentialSchema = proved.credential.schema ∧ Stores env proved entry.2 := by
  simp only [provedCredential, extractedCredentialToModel, ok_iffs] at h
  obtain ⟨first, hfst, holder, hholder, claimSchemas, -, claims, hcls, rfl⟩ := h
  exact ⟨first, mem_of_head? hfst, ⟨rfl, hholder, rfl⟩, rfl, claimSchemas, hcls⟩

lemma mem_claimsPerCredential {claims : List ValidatedProofClaimDTO} :
    entry ∈ (claimsPerCredential claims).entries ↔
      entry.2 = (claims.filter fun claim => claim.credentialSchema.id = entry.1) ∧
        entry.2 ≠ [] := by
  rw [← get?_groupBy_eq_some_iff, get?_eq_some_iff]
  rfl

variable {claim : ValidatedProofClaimDTO}

section Result

variable {order : IterationOrder (String × List ValidatedProofClaimDTO)}
  {claims : List ValidatedProofClaimDTO} {result : ValidatedProofResult}
  (h : validateProof env order proof claims = .ok result)

include h

lemma forall₂_provedCredentials : ∃ claimSchemasFor, Forall₂
    (fun entry proved => provedCredential env proof claimSchemasFor entry = .ok proved)
    (order.first (claimsPerCredential claims).entries) result.provedCredentials := by
  simp only [validateProof, ok_iffs] at h
  obtain ⟨_, -, ⟨⟩, -, _, -, claimSchemasFor, -, proved, hprv, rfl⟩ := h
  exact ⟨claimSchemasFor, mapM_eq_ok.1 hprv⟩

/-- A proved credential stores the claims for its credential schema, and one of them comes from
the recorded credential. -/
lemma mem_provedCredentials (hprv : proved ∈ result.provedCredentials) :
    Stores env proved (sources claims proved) ∧
      ∃ first ∈ sources claims proved, AttributedTo proved first := by
  obtain ⟨claimSchemasFor, hall⟩ := forall₂_provedCredentials h
  obtain ⟨⟨id, group⟩, hent, hgroup⟩ := hall.exists_of_mem_right hprv
  obtain ⟨hflt, -⟩ := mem_claimsPerCredential.1 (order.mem_first.1 hent)
  obtain ⟨first, hfst, hattr, hsch, hstores⟩ := provedCredential_eq_ok hgroup
  have hid : first.credentialSchema.id = id := by
    rw [show group = _ from hflt] at hfst
    exact of_decide_eq_true (mem_filter.1 hfst).2
  have hsour : sources claims proved = group := by
    rw [sources, ← hsch, hid]
    exact hflt.symm
  rw [hsour]
  exact ⟨hstores, first, hfst, hattr⟩

/-- Every proved claim is stored with some proved credential. -/
lemma exists_mem_sources (hclm : claim ∈ claims) :
    ∃ proved ∈ result.provedCredentials,
      proved.credential.schema.id = claim.credentialSchema.id := by
  obtain ⟨claimSchemasFor, hall⟩ := forall₂_provedCredentials h
  have hent : (claim.credentialSchema.id,
      claims.filter fun c => c.credentialSchema.id = claim.credentialSchema.id) ∈
        (claimsPerCredential claims).entries := by
    refine mem_claimsPerCredential.2 ⟨rfl, fun hnil => ?_⟩
    have hmem : claim ∈ claims.filter fun c =>
        c.credentialSchema.id = claim.credentialSchema.id :=
      mem_filter.2 ⟨hclm, decide_eq_true rfl⟩
    simp only [] at hnil
    rw [hnil] at hmem
    cases hmem
  obtain ⟨proved, hprv, hgroup⟩ := hall.exists_of_mem_left (order.mem_first.2 hent)
  obtain ⟨first, hfst, -, hsch, -⟩ := provedCredential_eq_ok hgroup
  refine ⟨proved, hprv, ?_⟩
  rw [← hsch]
  exact of_decide_eq_true (mem_filter.1 hfst).2

end Result

section Collected

variable {claims : List ValidatedProofClaimDTO}
  (hcollected : Collected env interaction (Checks env interaction protocolType submission proof)
    claims)

include hcollected

lemma mem_of_yields {c : CheckedCredential} {credential : DetailCredential}
    {schema : Schema.CredentialSchema} {formatter : CredentialFormatter}
    (hc : Checks env interaction protocolType submission proof c)
    (hreads : Reads env c.token c.input credential mso schema formatter)
    (hyields : Yields c.input credential mso claim) :
    claim ∈ claims ∧ claim.credentialSchema = schema ∧ claim.credential = credential ∧
      claim.mdocMso = mso := by
  obtain ⟨credential', mso', schema', formatter', hacc⟩ := hcollected.accepted c hc
  obtain ⟨rfl, rfl, rfl, rfl⟩ := hreads.unique env hacc.reads
  refine ⟨(hcollected.mem_iff claim).2 ⟨c, _, _, _, _, hc, hacc, hyields⟩, ?_⟩
  obtain ⟨_, schema', -, hsch, _, -, _, -, rfl⟩ := hyields
  exact ⟨mem_unique hsch hreads.schema_eq, rfl, rfl⟩

lemma sameCredential_of_id_eq
    (hone : OneCredentialPerSchema env interaction protocolType submission proof)
    {a b : ValidatedProofClaimDTO} (ha : a ∈ claims) (hb : b ∈ claims)
    (hid : a.credentialSchema.id = b.credentialSchema.id) : SameCredential a b := by
  obtain ⟨c, credential, mso, schema, formatter, hc, hacc, hyields⟩ :=
    (hcollected.mem_iff a).1 ha
  obtain ⟨c', credential', mso', schema', formatter', hc', hacc', hyields'⟩ :=
    (hcollected.mem_iff b).1 hb
  obtain ⟨-, hsch, hcred, hmso⟩ := mem_of_yields hcollected hc hacc.reads hyields
  obtain ⟨-, hsch', hcred', hmso'⟩ :=
    mem_of_yields hcollected hc' hacc'.reads hyields'
  have heq := hone c c' hc hc' _ _ _ _ _ _ _ _ hacc.reads hacc'.reads
    (by rw [← hsch, ← hsch', hid]) ⟨a, hyields⟩ ⟨b, hyields'⟩
  exact ⟨by rw [hcred, hcred', heq.1], by rw [hmso, hmso', heq.2]⟩

end Collected

/-- **Attribution.**  The claims of an accepted submission are stored under the credentials that
they come from if and only if no two credentials answer for one credential schema. -/
theorem attributed_iff {order : IterationOrder (String × List ValidatedProofClaimDTO)}
    {result : ValidatedProofResult}
    (h : validateSubmission env order interaction protocolType submission proof = .ok result) :
    Attributed env interaction protocolType submission proof result ↔
      OneCredentialPerSchema env interaction protocolType submission proof := by
  obtain ⟨claims, hcls, hres⟩ := bind_eq_ok.1 h
  have hcollected := processProofSubmission_collected hcls
  constructor
  · intro hattr c c' hc hc' credential mso schema formatter credential' mso' schema'
      formatter' hreads hreads' hid ⟨claim, hyields⟩ ⟨claim', hyields'⟩
    -- both credentials have claims in the group of the schema
    obtain ⟨hmem, heq⟩ := mem_of_yields hcollected hc hreads hyields
    obtain ⟨hmem', heq'⟩ := mem_of_yields hcollected hc' hreads' hyields'
    obtain ⟨proved, hprv, hsch⟩ := exists_mem_sources hres hmem
    obtain ⟨-, -, hsame⟩ := hattr claims hcls proved hprv
    have hsrc : claim ∈ sources claims proved :=
      mem_filter.2 ⟨hmem, decide_eq_true hsch.symm⟩
    have hsrc' : claim' ∈ sources claims proved := by
      refine mem_filter.2 ⟨hmem', decide_eq_true ?_⟩
      rw [hsch, heq.1, heq'.1, hid]
    obtain ⟨hcred, hmso⟩ := hsame claim hsrc claim' hsrc'
    rw [heq.2.1, heq'.2.1] at hcred
    rw [heq.2.2, heq'.2.2] at hmso
    exact ⟨hcred, hmso⟩
  · intro hone claims' hcls' proved hprv
    obtain rfl := ok_unique hcls hcls'
    obtain ⟨hstores, first, hfst, hattr⟩ := mem_provedCredentials hres hprv
    have hsame : ∀ a ∈ sources claims proved, ∀ b ∈ sources claims proved, SameCredential a b := by
      intro a ha b hb
      obtain ⟨ha, hida⟩ := mem_filter.1 ha
      obtain ⟨hb, hidb⟩ := mem_filter.1 hb
      exact sameCredential_of_id_eq hcollected hone ha hb
        ((of_decide_eq_true hida).trans (of_decide_eq_true hidb).symm)
    refine ⟨hstores, fun claim hclm => ?_, hsame⟩
    obtain ⟨hcred, hmso⟩ := hsame claim hclm first hfst
    exact ⟨by rw [hcred, hattr.issuer_eq], by rw [hcred, hattr.subject_eq],
      by rw [hmso, hattr.mso_eq]⟩

end Submission

/-! ### Two credentials in one presentation -/

section Sample

def acceptingKeys : KeyVerification Unit where
  resolve did := .ok ⟨did, [⟨"1", "", "", .okp ⟨none, none, none, "Ed25519", "", none⟩⟩],
    some ["1"], none, none, none, none, ""⟩
  keyAlgorithmFromType _ := some fun _ => .ok ()
  certificateKey _ := .error ""
  verifySignature _ _ _ := .ok ()

/-- A presentation of the given credentials, each of which has the given issuer. -/
def sampleIssuersEnvironment (credentials : List String) (issuer : String → String) :
    ValidatorEnvironment Unit :=
  .fixed acceptingKeys (fun _ => .ok (sampleVp "1" credentials))
    ⟨.jwt, fun _ token _ => .ok (sampleCredential (.did (issuer token)) (.did "did:key:b")), 0, []⟩

/-- The claims of two credentials from different issuers end up in one proved credential. -/
theorem two_issuers_merged : ∃ result,
    validateSubmission (sampleIssuersEnvironment ["1", "2"] id) .listed
      (sampleInteraction (sampleQuery .jwtVc false true)) .openId4VpFinal1_0
      (sampleSubmission ["presentation"]) (sampleProof "JWT") = .ok result ∧
    ¬Attributed (sampleIssuersEnvironment ["1", "2"] id)
      (sampleInteraction (sampleQuery .jwtVc false true)) .openId4VpFinal1_0
      (sampleSubmission ["presentation"]) (sampleProof "JWT") result := by
  refine ⟨_, rfl, fun h => ?_⟩
  obtain ⟨-, hattr, -⟩ := h _ rfl _ mem_cons_self
  -- the second claim is from the other issuer
  have hissuer := (hattr _ (mem_cons_of_mem _ mem_cons_self)).issuer_eq
  exact absurd hissuer (by decide)

lemma sample_issuers_accepted (issuer : String → String) : ∃ result,
    validateSubmission (sampleIssuersEnvironment ["1", "2"] issuer) .listed
      (sampleInteraction (sampleQuery .jwtVc false true)) .openId4VpFinal1_0
      (sampleSubmission ["presentation"]) (sampleProof "JWT") = .ok result :=
  ⟨_, rfl⟩

lemma sample_mso {credentials : List String} {issuer : String → String} {format token : String}
    (h : extractMso (sampleIssuersEnvironment credentials issuer) format token = .ok mso) :
    mso = none := by
  unfold extractMso at h
  split at h
  · cases h
  · exact (Except.ok.inj h).symm

/-- Two copies of one credential are no harm. -/
theorem attributed_sample : ∃ result,
    validateSubmission (sampleIssuersEnvironment ["1", "2"] fun _ => "did:key:i") .listed
      (sampleInteraction (sampleQuery .jwtVc false true)) .openId4VpFinal1_0
      (sampleSubmission ["presentation"]) (sampleProof "JWT") = .ok result ∧
    Attributed (sampleIssuersEnvironment ["1", "2"] fun _ => "did:key:i")
      (sampleInteraction (sampleQuery .jwtVc false true)) .openId4VpFinal1_0
      (sampleSubmission ["presentation"]) (sampleProof "JWT") result := by
  obtain ⟨result, hres⟩ := sample_issuers_accepted fun _ => "did:key:i"
  refine ⟨result, hres, (attributed_iff hres).2 ?_⟩
  intro c c' _ _ credential mso schema formatter credential' mso' schema' formatter' hreads hreads'
    _ _ _
  obtain rfl := Option.some.inj hreads.formatter_eq
  obtain rfl := Option.some.inj hreads'.formatter_eq
  refine ⟨ok_unique hreads.credential_eq hreads'.credential_eq, ?_⟩
  rw [sample_mso hreads.mso_eq, sample_mso hreads'.mso_eq]

end Sample

end OneCore.Openid4vp
