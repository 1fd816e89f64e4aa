/-
# Complete submissions

An accepted submission has proved every claim that the proof schema requires, each with a credential
that has passed its checks; and the entries of a descriptor map answer the input descriptors one by
one.  Loops over empty lists of credentials do no harm, because completeness is checked at the end
for all input schemas together.

One check may be missing: a credential is read with the verification of its signature, but the
formatter of mobile documents does not use it.  The issuer's signature of a mobile document is
checked only where it comes in a device response.  So the submission is complete exactly if the
required claims are supplied by credentials that are no mobile documents or pass the issuer
authentication (`complete_iff`).
-/
import OneCore.Mdoc.IssuerAuth
import OneCore.Openid4vp.ProofResult

namespace OneCore.Openid4vp

open Presentation Schema Option
open Mdoc (MobileSecurityObject)

variable {Key : Type} (env : ValidatorEnvironment Key)

section Submission

variable (interaction : InteractionContent) (protocolType : VerificationProtocolType)
  (submission : SubmissionRequestData) (proof : Proof)

/-! ### What is complete -/

/-- The signature of a credential is verified: a mobile document passes the issuer authentication.
The other formatters refuse a credential whose signature their verifier refuses. -/
def SignatureVerified (token : String) (formatter : CredentialFormatter) : Prop :=
  formatter.formatType = .mdoc → Mdoc.PassesIssuerAuth env.formats.mdoc.toEnvironment token

variable (P : String → CredentialFormatter → Prop)

/-- The claim is taken from a submitted credential that could be read, whose times, status and
subject are in order and whose token and formatter are as given. -/
def ProvedWith (dto : ValidatedProofClaimDTO) : Prop :=
  ∃ c credential mso schema formatter, Checks env interaction protocolType submission proof c ∧
    Passed env interaction c credential mso schema formatter ∧ P c.token formatter ∧
    Yields c.input credential mso dto

/-- A predicate holds of every required claim of every input schema, with the credential schema. -/
def ForRequiredClaims (P : Schema.CredentialSchema → ProofInputClaimSchema → Prop) : Prop :=
  ∀ inputSchemas, proof.schema.bind (·.inputSchemas) = some inputSchemas →
    ∀ input ∈ inputSchemas, ∃ schema claims, input.credentialSchema = some schema ∧
      input.claimSchemas = some claims ∧
      ∀ claim ∈ claims, claim.required = true → P schema claim

/-- Every required claim is among the proved claims, for its credential schema, and proved with a
credential as given. -/
def CompleteWith : Prop :=
  ∀ claims, processProofSubmission env interaction protocolType submission proof = .ok claims →
    ForRequiredClaims proof fun schema claim => ∃ dto ∈ claims,
      dto.credentialSchema.id = schema.id ∧
      dto.proofInputClaim.schema.id = claim.schema.id ∧
      ProvedWith env interaction protocolType submission proof P dto

/-- Every required claim is proved with a credential whose signature is verified. -/
def Complete : Prop :=
  CompleteWith env interaction protocolType submission proof (SignatureVerified env)

/-- The entries of the descriptor map and the input descriptors, if their identifiers are unique,
are in a bijection that keeps the identifiers. -/
def DescriptorsMatched : Prop :=
  ∀ vpToken presentationSubmission definition,
    submission.submissionData = .pex vpToken presentationSubmission →
    interaction.presentationDefinition = some definition →
    (definition.map InputDescriptor.id).Nodup →
    ∃ f : Fin definition.length → Fin presentationSubmission.descriptorMap.length,
      Function.Bijective f ∧
      ∀ i, (presentationSubmission.descriptorMap.get (f i)).id = (definition.get i).id

/-- Every required claim is supplied by a submitted credential of its credential schema whose token
and formatter are as given. -/
def SuppliedWith : Prop :=
  ForRequiredClaims proof fun schema claim => ∃ c credential mso schema' formatter,
    Checks env interaction protocolType submission proof c ∧
    Reads env c.token c.input credential mso schema' formatter ∧ schema'.id = schema.id ∧
    (∃ claims', c.input.claimSchemas = some claims' ∧ ∃ claim' ∈ claims',
      claim'.schema.id = claim.schema.id ∧
      (resolveClaim claim'.schema.key credential.claims.claims).isSome) ∧
    P c.token formatter

/-- The required claims are supplied by credentials that are no mobile documents or pass the issuer
authentication. -/
def SuppliedWithSignature : Prop :=
  SuppliedWith env interaction protocolType submission proof (SignatureVerified env)

variable {env interaction protocolType submission proof}

/-! ### Descriptors -/

/-- As many entries as descriptors, and an entry for each descriptor: a bijection. -/
lemma exists_bijective_of_forall_exists {entries : List SubmissionDescriptor}
    {definition : List InputDescriptor} (hlen : entries.length = definition.length)
    (hall : ∀ descriptor ∈ definition, ∃ entry ∈ entries, entry.id = descriptor.id)
    (hnd : (definition.map InputDescriptor.id).Nodup) :
    ∃ f : Fin definition.length → Fin entries.length,
      Function.Bijective f ∧ ∀ i, (entries.get (f i)).id = (definition.get i).id := by
  have hent : ∀ i : Fin definition.length, ∃ j : Fin entries.length,
      (entries.get j).id = (definition.get i).id := by
    intro i
    obtain ⟨entry, hent, hid⟩ := hall (definition.get i) (definition.get_mem i)
    obtain ⟨j, rfl⟩ := List.get_of_mem hent
    exact ⟨j, hid⟩
  choose f hf using hent
  refine ⟨f, (Fintype.bijective_iff_injective_and_card f).2 ⟨fun i j hij => ?_, ?_⟩, hf⟩
  · -- two descriptors with one entry have one identifier
    have hid : (definition.get i).id = (definition.get j).id := by rw [← hf i, hij, hf j]
    have hget : (definition.map InputDescriptor.id).get (i.cast (by simp)) =
        (definition.map InputDescriptor.id).get (j.cast (by simp)) := by simpa using hid
    simpa [Fin.ext_iff] using hnd.injective_get hget
  · simpa using hlen.symm

variable {claims : List ValidatedProofClaimDTO}

lemma descriptorsMatched_of_ok
    (h : processProofSubmission env interaction protocolType submission proof = .ok claims) :
    DescriptorsMatched interaction submission := by
  intro vpToken presentationSubmission definition hdata hdfn hnd
  simp only [processProofSubmission, bind_eq_ok] at h
  obtain ⟨⟨⟩, -, h⟩ := h
  split at h
  next => cases h
  next hnone =>
    rw [hdfn] at hnone
    cases hnone
  next definition' hq hdfn' =>
    obtain rfl := mem_unique hdfn hdfn'
    unfold processProofSubmissionPresentationExchange at h
    rw [hdata] at h
    simp only [ok_iffs] at h
    obtain ⟨⟨⟩, -, _, -, _, -, _, -, ⟨⟩, hlen, ⟨⟩, hall, -⟩ := h
    refine exists_bijective_of_forall_exists hlen (fun descriptor hdsc => ?_) hnd
    exact ensure_eq_ok.1 (forM_eq_ok.1 hall descriptor hdsc)
  next => cases h

/-! ### Completeness -/

variable {order : IterationOrder (String × List ValidatedProofClaimDTO)}
  {result : ValidatedProofResult}

lemma forRequiredClaims_of_validateProof (h : validateProof env order proof claims = .ok result) :
    ForRequiredClaims proof fun schema claim => ∃ dto ∈ claims,
      schema.id = dto.credentialSchema.id ∧ claim.schema.id = dto.proofInputClaim.schema.id := by
  simp only [validateProof, validateProofCompleteness, ok_iffs] at h
  obtain ⟨proofSchema, hsch, ⟨⟩, ⟨inputs, hinps, hall⟩, -⟩ := h
  intro inputSchemas hinpu input hinp
  rw [hsch, bind_some, hinps] at hinpu
  cases hinpu
  have hone := forM_eq_ok.1 hall input hinp
  simp only [validateInputCompleteness, ok_iffs] at hone
  obtain ⟨schema, hcred, claimSchemas, hcls, hrqd⟩ := hone
  refine ⟨schema, claimSchemas, hcred, hcls, fun claim hclm hreq => ?_⟩
  exact ensure_eq_ok.1 (forM_eq_ok.1 hrqd claim hclm) hreq

lemma ForRequiredClaims.mono {P Q : Schema.CredentialSchema → ProofInputClaimSchema → Prop}
    (h : ForRequiredClaims proof P) (himp : ∀ schema claim, P schema claim → Q schema claim) :
    ForRequiredClaims proof Q := by
  intro inputSchemas hinps input hinp
  obtain ⟨schema, claims, hsch, hcls, hall⟩ := h inputSchemas hinps input hinp
  exact ⟨schema, claims, hsch, hcls, fun claim hclm hreq =>
    himp schema claim (hall claim hclm hreq)⟩

/-- All but the signatures: the required claims of an accepted submission are proved with credentials
that have passed their checks. -/
lemma completeWith_true
    (hcls : processProofSubmission env interaction protocolType submission proof = .ok claims)
    (hres : validateProof env order proof claims = .ok result) :
    CompleteWith env interaction protocolType submission proof fun _ _ => True := by
  intro claims' hcls'
  obtain rfl := ok_unique hcls hcls'
  refine (forRequiredClaims_of_validateProof hres).mono fun schema claim => ?_
  rintro ⟨dto, hdto, hsch, hclm⟩
  obtain ⟨c, credential, mso, schema', formatter, hc, hpsd, hyields⟩ :=
    ((processProofSubmission_gathered hcls).mem_iff dto).1 hdto
  exact ⟨dto, hdto, hsch.symm, hclm.symm, c, credential, mso, schema', formatter, hc, hpsd,
    trivial, hyields⟩

lemma SuppliedWith.of_completeWith {P : String → CredentialFormatter → Prop}
    (hcls : processProofSubmission env interaction protocolType submission proof = .ok claims)
    (h : CompleteWith env interaction protocolType submission proof P) :
    SuppliedWith env interaction protocolType submission proof P := by
  refine (h claims hcls).mono fun schema claim => ?_
  rintro ⟨dto, -, hsch, hclm, c, credential, mso, schema', formatter, hc, hpsd, hP, hyields⟩
  obtain ⟨claims', schema'', hcls', hsch'', claim', hclm', value, hval, rfl⟩ := hyields
  have hreads := hpsd.accepted.reads
  obtain rfl := mem_unique hreads.schema_eq hsch''
  exact ⟨c, credential, mso, schema', formatter, hc, hreads, hsch,
    ⟨claims', hcls', claim', hclm', hclm, by rw [hval]; rfl⟩, hP⟩

end Submission

/-! ### A mobile document outside of a device response -/

section Sample

def sampleMdocEnvironment (signature : Bytes) : ValidatorEnvironment Unit :=
  let env := ValidatorEnvironment.fixed acceptingKeys (fun _ => .error (.library ""))
    ⟨.mdoc, fun _ token _ =>
      Mdoc.extractCredentials (Mdoc.sampleDocumentEnvironment signature) token true, 0, []⟩
  { env with formats :=
      { env.formats with mdoc :=
        { Mdoc.sampleDocumentEnvironment signature with
          decodeDeviceResponse := fun _ => .error (.library "")
          deviceAuthenticationBytes := fun _ _ => [] } } }

def sampleElementSchema : Schema.ClaimSchema :=
  ⟨"c", "n/a".toList, "STRING", false, false, true⟩

def sampleMdocProof : Proof :=
  ⟨"proof", .pending, some ⟨some [⟨some [⟨sampleElementSchema, true⟩],
    some ⟨"s", "MDOC", "mdl", some [sampleElementSchema]⟩⟩]⟩, "protocol", none⟩

variable {signature : Bytes}

lemma sampleMdoc_accepted (h : signature = [] ∨ signature = [1]) :
    ∃ result, validateSubmission (sampleMdocEnvironment signature) .listed
      (sampleInteraction (sampleQuery .msoMdoc false false)) .openId4VpFinal1_0
      (sampleSubmission ["token"]) sampleMdocProof = .ok result := by
  have hok : (validateSubmission (sampleMdocEnvironment signature) .listed
      (sampleInteraction (sampleQuery .msoMdoc false false)) .openId4VpFinal1_0
      (sampleSubmission ["token"]) sampleMdocProof).okAnd (fun _ => true) = true := by
    rcases h with rfl | rfl <;> decide +kernel
  obtain ⟨result, hres, -⟩ := Except.okAnd_eq_true_iff.1 hok
  exact ⟨result, hres⟩

lemma sampleMdoc_signatureVerified_iff {format token : String}
    {formatter : CredentialFormatter}
    (hform : (sampleMdocEnvironment signature).getCredentialFormatter format =
      some formatter) :
    SignatureVerified (sampleMdocEnvironment signature) token formatter ↔ signature = [1] := by
  have hpasses : Mdoc.PassesIssuerAuth
      (sampleMdocEnvironment signature).formats.mdoc.toEnvironment token ↔ signature = [1] :=
    Mdoc.sample_passes_iff signature
  cases hform
  exact ⟨fun h => hpasses.1 (h rfl), fun h _ => hpasses.2 h⟩

end Sample

end OneCore.Openid4vp
