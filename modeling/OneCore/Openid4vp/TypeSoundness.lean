/-
# The types of presented credentials

A credential says itself of which type it is: an SD-JWT in its claim `vct`, a mobile document in
its document type, and every other credential in its credential schema.  The verifier asks for
claims of a credential of some type.  It finds the claims by their names and never looks at the
type, so the proved claims are of the requested type only as far as the wallet has submitted
credentials of that type (`typeSound_iff`).
-/
import OneCore.Openid4vp.ProofResult
import OneCore.SdJwt.VcFormatter

namespace OneCore.Openid4vp

open Presentation Option

def textOf : CredentialClaim → Option Str
  | .mk _ _ (.string s) => some s
  | _ => none

def signedType (format : FormatType) (credential : DetailCredential) : Option Str :=
  match format with
  | .sdJwtVc => (credential.claims.claims.lookup SdJwtVcFormatter.vctKey).bind textOf
  | _ => credential.credentialSchema.map fun schema => schema.id.toList

variable {credential : DetailCredential} {token : String}

/-! ### The types of proved claims -/

section Submission

variable {Key : Type} (env : ValidatorEnvironment Key) (interaction : InteractionContent)
  (protocolType : VerificationProtocolType) (submission : SubmissionRequestData) (proof : Proof)

def HasType (schema : Schema.CredentialSchema) (credential : DetailCredential) : Prop :=
  ∀ formatter, env.getCredentialFormatter schema.format = some formatter →
    signedType formatter.formatType credential = some schema.schemaId.toList

/-- Every proved claim comes from a credential of the type that it was requested from. -/
def TypeSound : Prop :=
  ∀ claims, processProofSubmission env interaction protocolType submission proof = .ok claims →
    ∀ claim ∈ claims, HasType env claim.credentialSchema claim.credential

/-- Every submitted credential that has a requested claim is of the requested type. -/
def SubmitsRequestedTypes : Prop :=
  ∀ c, Checks env interaction protocolType submission proof c →
    ∀ credential mso schema formatter, Reads env c.token c.input credential mso schema formatter →
      (∃ claims, c.input.claimSchemas = some claims ∧ ∃ claim ∈ claims,
        (resolveClaim claim.schema.key credential.claims.claims).isSome) →
      signedType formatter.formatType credential = some schema.schemaId.toList

variable {env interaction protocolType submission proof}

lemma exists_yields_iff {input : Schema.ProofInputSchema} {mso : Option Mdoc.MobileSecurityObject}
    {schema : Schema.CredentialSchema} {formatter : CredentialFormatter}
    (h : Reads env token input credential mso schema formatter) :
    (∃ dto, Yields input credential mso dto) ↔
      ∃ claims, input.claimSchemas = some claims ∧ ∃ claim ∈ claims,
        (resolveClaim claim.schema.key credential.claims.claims).isSome := by
  constructor
  · rintro ⟨_, claims, _, hcls, -, claim, hclm, value, hval, -⟩
    exact ⟨claims, hcls, claim, hclm, by rw [hval]; rfl⟩
  · rintro ⟨claims, hcls, claim, hclm, hval⟩
    obtain ⟨value, hval⟩ := isSome_iff_exists.1 hval
    exact ⟨_, claims, schema, hcls, h.schema_eq, claim, hclm, value, hval, rfl⟩

/-- **Type soundness.**  The proved claims of an accepted submission are of the requested types if
and only if the wallet has submitted credentials of these types. -/
theorem typeSound_iff {order : IterationOrder (String × List ValidatedProofClaimDTO)}
    {result : ValidatedProofResult}
    (h : validateSubmission env order interaction protocolType submission proof = .ok result) :
    TypeSound env interaction protocolType submission proof ↔
      SubmitsRequestedTypes env interaction protocolType submission proof := by
  obtain ⟨claims, hcls, -⟩ := bind_eq_ok.1 h
  have hcollected := processProofSubmission_collected hcls
  constructor
  · intro hsound c hc credential mso schema formatter hreads hhas
    obtain ⟨claim, hyields⟩ := (exists_yields_iff hreads).2 hhas
    obtain ⟨hmem, rfl, rfl, -⟩ := mem_of_yields hcollected hc hreads hyields
    exact hsound claims hcls claim hmem formatter hreads.formatter_eq
  · intro hsubm claims' hcls' claim hclm formatter hform
    obtain rfl := ok_unique hcls hcls'
    obtain ⟨c, credential, mso, schema, formatter', hc, hacc, hyields⟩ :=
      (hcollected.mem_iff claim).1 hclm
    obtain ⟨-, rfl, rfl, -⟩ := mem_of_yields hcollected hc hacc.reads hyields
    obtain rfl := mem_unique hform hacc.reads.formatter_eq
    exact hsubm c hc _ _ _ _ hacc.reads ((exists_yields_iff hacc.reads).1 ⟨claim, hyields⟩)

end Submission

/-! ### An SD-JWT of another type -/

section Sample

def sampleCnf : PublicJwk := .okp ⟨none, none, none, "Ed25519", "H", none⟩

/-- The formatter of SD-JWTs, for tokens of the given type that have the claim `a`. -/
def sampleVcFormatter (vct : Str) : CredentialFormatter :=
  ⟨.sdJwtVc, SdJwtVcFormatter.extractCredentials
    ⟨fun _ _ => .ok (⟨none, none, none, none, some sampleCnf, [],
        ⟨vct, none, [(['a'], .mk true false (.bool true))]⟩⟩, .did "did:key:i"),
      false, fun _ => false⟩, 0, []⟩

/-- An environment in which the tokens of the formatter come with a key binding token. -/
def sampleVcEnvironment (vct : Str) : ValidatorEnvironment Unit :=
  let base := ValidatorEnvironment.fixed acceptingKeys (fun _ => .error (.library ""))
    (sampleVcFormatter vct)
  { base with
    isSdJwtVc := fun _ => .ok true
    formats := { base.formats with
      decomposeSdJwt := fun _ => .ok ⟨none, some sampleCnf, none, some "binding"⟩
      decomposeKeyBinding := fun _ => .ok ⟨⟨"EdDSA", none, none, none⟩,
        ⟨some 0, none, none, some ["client"], ⟨"nonce", "hash"⟩⟩, [], []⟩
      checkSdJwtVc := fun _ _ => .ok ()
      getHasher := fun _ => .ok fun _ => .ok "hash" } }

lemma sample_vc_accepted (vct : Str) : ∃ result,
    validateSubmission (sampleVcEnvironment vct) .listed
      (sampleInteraction (sampleQuery .sdJwt false true)) .openId4VpFinal1_0
      (sampleSubmission ["token~"]) (sampleProof "SD_JWT_VC") = .ok result :=
  ⟨_, rfl⟩

/-- A token of the type `x` proves a claim of a credential of the type `type`. -/
theorem other_type_accepted :
    (∃ result, validateSubmission (sampleVcEnvironment ['x']) .listed
      (sampleInteraction (sampleQuery .sdJwt false true)) .openId4VpFinal1_0
      (sampleSubmission ["token~"]) (sampleProof "SD_JWT_VC") = .ok result) ∧
    ¬TypeSound (sampleVcEnvironment ['x']) (sampleInteraction (sampleQuery .sdJwt false true))
      .openId4VpFinal1_0 (sampleSubmission ["token~"]) (sampleProof "SD_JWT_VC") := by
  refine ⟨sample_vc_accepted _, fun h => ?_⟩
  have htype := h _ rfl _ List.mem_cons_self _ rfl
  exact absurd htype (by decide)

/-- A token of the requested type is sound. -/
theorem typeSound_sample :
    TypeSound (sampleVcEnvironment "type".toList)
      (sampleInteraction (sampleQuery .sdJwt false true)) .openId4VpFinal1_0
      (sampleSubmission ["token~"]) (sampleProof "SD_JWT_VC") := by
  obtain ⟨result, hres⟩ := sample_vc_accepted "type".toList
  refine (typeSound_iff hres).2 ?_
  intro c hc credential mso schema formatter hreads _
  obtain rfl := some.inj hreads.formatter_eq
  obtain ⟨jwt, issuer, hbld, hvct⟩ :=
    SdJwtVcFormatter.lookup_vct_of_extractCredentials hreads.credential_eq
  obtain ⟨rfl, rfl⟩ := Prod.mk.inj (Except.ok.inj hbld)
  obtain ⟨inputSchemas, hinps, hmem⟩ := hc.input_mem
  cases hinps
  have hsch := hreads.schema_eq
  rw [List.mem_singleton.1 hmem] at hsch
  cases hsch
  show (credential.claims.claims.lookup SdJwtVcFormatter.vctKey).bind textOf = _
  rw [hvct]
  rfl

end Sample

end OneCore.Openid4vp
