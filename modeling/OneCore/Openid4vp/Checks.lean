/-
# What an accepted submission has established

A submission makes the verifier check a number of credentials: `Checks` lists them, each with the
presentation that it is taken from, if any, and the input schema that it is checked for.  If the
submission is accepted then every one of them could be read and is held by its presenter, and
the proved claims are exactly the requested claims of these credentials.

Every property of accepted submissions in this development is derived from that.
-/
import OneCore.Openid4vp.Validator

namespace OneCore.Openid4vp

open Presentation Schema
open Mdoc (ExtractedPresentation MobileSecurityObject)

variable {Key : Type} (env : ValidatorEnvironment Key)

/-! ### One credential -/

/-- A credential to be checked for an input schema, and the presentation it is taken from. -/
structure CheckedCredential where
  presented : Option SubmittedPresentation
  token : String
  input : ProofInputSchema

/-- The credential in a token, as the formatter for the input schema reads it. -/
structure Reads (token : String) (input : ProofInputSchema) (credential : DetailCredential)
    (mso : Option MobileSecurityObject) (schema : Schema.CredentialSchema)
    (formatter : CredentialFormatter) : Prop where
  schema_eq : input.credentialSchema = some schema
  formatter_eq : env.getCredentialFormatter schema.format = some formatter
  credential_eq : formatter.extractCredentials (env.keys.verify .assertionMethod) token
    (some schema) = .ok credential
  mso_eq : extractMso env schema.format token = .ok mso

/-- A proved claim is one that the input schema asks for and the credential has. -/
def Yields (input : ProofInputSchema) (credential : DetailCredential)
    (mso : Option MobileSecurityObject) (dto : ValidatedProofClaimDTO) : Prop :=
  ∃ claims schema, input.claimSchemas = some claims ∧ input.credentialSchema = some schema ∧
    ∃ claim ∈ claims, ∃ value,
      resolveClaim claim.schema.key credential.claims.claims = some value ∧
      dto = ⟨claim, credential, schema, value, mso⟩

variable {input : ProofInputSchema} {token : String}

lemma Reads.unique {c c' : DetailCredential} {m m' : Option MobileSecurityObject}
    {s s' : Schema.CredentialSchema} {f f' : CredentialFormatter}
    (h : Reads env token input c m s f)
    (h' : Reads env token input c' m' s' f') : c = c' ∧ m = m' ∧ s = s' ∧ f = f' := by
  obtain rfl := mem_unique h.schema_eq h'.schema_eq
  obtain rfl := mem_unique h.formatter_eq h'.formatter_eq
  exact ⟨ok_unique h.credential_eq h'.credential_eq, ok_unique h.mso_eq h'.mso_eq, rfl, rfl⟩

variable {credential : DetailCredential} {mso : Option MobileSecurityObject}
  {authorities : Option (List TrustedAuthority)}

lemma validateCredential_eq_ok {holder : Option IdentifierDetails}
    (h : validateCredential env holder token input authorities = .ok (credential, mso)) :
    ∃ schema formatter, Reads env token input credential mso schema formatter ∧
      validateTimes env credential.validFrom credential.validUntil formatter.leeway = .ok () ∧
      (∀ status ∈ credential.status,
        checkRevocationStatus env credential input status = .ok ()) ∧
      ∀ h' ∈ holder, ∃ subject, credential.subject = some subject ∧
        checkMatchingIdentifiers env subject h' formatter.holderDidMethods = .ok () := by
  simp only [validateCredential, ok_iffs, Prod.mk.injEq, Option.map_eq_some_iff] at h
  obtain ⟨_, ⟨schema, hsch, rfl⟩, formatter, hform, _, hcred, ⟨⟩, htimes, ⟨⟩,
    hst, ⟨⟩, hholder, ⟨⟩, -, _, hmso, rfl, rfl⟩ := h
  rw [hsch] at hcred
  refine ⟨schema, formatter, ⟨hsch, hform, hcred, hmso⟩, htimes, forM_eq_ok.1 hst, ?_⟩
  rintro h' ⟨⟩
  simpa [checkHolder, bind_eq_ok] using hholder

lemma mem_validateClaims {proved : List ValidatedProofClaimDTO}
    (h : validateClaims credential input mso = .ok proved) {dto : ValidatedProofClaimDTO} :
    dto ∈ proved ↔ Yields input credential mso dto := by
  simp only [validateClaims, ok_iffs] at h
  obtain ⟨claims, hcls, schema, hsch, h⟩ := h
  rw [Except.mem_of_flatMapM_eq_ok h]
  simp only [Yields, hcls, hsch, Option.some.injEq, exists_and_left, exists_eq_left']
  refine exists_congr fun claim => and_congr_right fun _ => ?_
  cases hrsv : resolveClaim claim.schema.key credential.claims.claims with
  | some value => simp
  | none => by_cases hreq : claim.required = true <;> simp [hreq]

/-! ### All credentials of a submission -/

section Submission

variable (interaction : InteractionContent) (protocolType : VerificationProtocolType)
  (submission : SubmissionRequestData) (proof : Proof)

/-- The presentation for a credential query, with the context that it is checked in. -/
def queryPresentation (query : CredentialQuery) (format : FormatType) (presentation : String) :
    SubmittedPresentation :=
  ⟨format, presentation, presentationContext interaction protocolType
    (query.format = .msoMdoc) submission.mdocGeneratedNonce⟩

inductive QueryChecks (inputSchemas : List ProofInputSchema)
    (vpToken : IndexMap String (List String)) (query : CredentialQuery) :
    CheckedCredential → Prop
  /-- With holder binding, the credentials of the first presentation. -/
  | bound {input : ProofInputSchema} {presentation : String} {others : List String}
      {format : FormatType} {extracted : ExtractedPresentation} {token : String} :
      query.requireCryptographicHolderBinding = true →
      inputForQuery inputSchemas query.id = some input →
      vpToken.get? query.id = some (presentation :: others) →
      presentationFormatType env query presentation = .ok format →
      validatePresentation env (queryPresentation interaction protocolType submission query format
        presentation) interaction.nonce = .ok extracted →
      token ∈ extracted.credentials →
      QueryChecks inputSchemas vpToken query ⟨some (queryPresentation interaction protocolType
        submission query format presentation), token, input⟩
  /-- Without holder binding, the presentations themselves. -/
  | unbound {input : ProofInputSchema} {presentations : List String} {token : String} :
      query.requireCryptographicHolderBinding = false →
      inputForQuery inputSchemas query.id = some input →
      vpToken.get? query.id = some presentations → token ∈ presentations →
      QueryChecks inputSchemas vpToken query ⟨none, token, input⟩

/-- The credential that an entry of the descriptor map refers to. -/
inductive DescriptorChecks (inputSchemas : List ProofInputSchema)
    (definition : List InputDescriptor) (presentations : List String)
    (entry : SubmissionDescriptor) : CheckedCredential → Prop
  | intro {descriptor : InputDescriptor} {submitted : SubmittedPresentation}
      {extracted : ExtractedPresentation} {input : ProofInputSchema} {index : Nat}
      {token : String} :
      findDescriptor definition entry = .ok descriptor →
      descriptorPresentation env interaction protocolType presentations
        submission.mdocGeneratedNonce entry = .ok submitted →
      validatePresentation env submitted interaction.nonce = .ok extracted →
      inputForDescriptor inputSchemas descriptor = .ok input →
      credentialIndex env entry = .ok index → extracted.credentials[index]? = some token →
      DescriptorChecks inputSchemas definition presentations entry ⟨some submitted, token, input⟩

/-- The credentials that the verifier checks for a submission. -/
inductive Checks : CheckedCredential → Prop
  | query {vpToken : IndexMap String (List String)} {queries : List CredentialQuery}
      {inputSchemas : List ProofInputSchema} {query : CredentialQuery} {c : CheckedCredential} :
      submission.submissionData = .dcql vpToken → interaction.dcqlQuery = some queries →
      proof.schema.bind (·.inputSchemas) = some inputSchemas → query ∈ queries →
      QueryChecks env interaction protocolType submission inputSchemas vpToken query c → Checks c
  | descriptor {vpToken : List String} {presentationSubmission : PresentationSubmission}
      {definition : List InputDescriptor} {inputSchemas : List ProofInputSchema}
      {presentations : List String} {entry : SubmissionDescriptor} {c : CheckedCredential} :
      submission.submissionData = .pex vpToken presentationSubmission →
      interaction.presentationDefinition = some definition →
      proof.schema.bind (·.inputSchemas) = some inputSchemas →
      presentationStrings env vpToken = .ok presentations →
      entry ∈ presentationSubmission.descriptorMap →
      DescriptorChecks env interaction protocolType submission inputSchemas definition
        presentations entry c → Checks c

variable {env interaction protocolType submission proof} in
variable {c : CheckedCredential} {checks : CheckedCredential → Prop}
  {holder : Option IdentifierDetails} {presentations : List String}

lemma Checks.input_mem (h : Checks env interaction protocolType submission proof c) :
    ∃ inputSchemas, proof.schema.bind (·.inputSchemas) = some inputSchemas ∧
      c.input ∈ inputSchemas := by
  rcases h with ⟨-, -, hinps, -, hc⟩ | ⟨-, -, hinps, -, -, hc⟩
  · rcases hc with ⟨-, hinp, -, -, -, -⟩ | ⟨-, hinp, -, -⟩
    · exact ⟨_, hinps, List.mem_of_find?_eq_some hinp⟩
    · exact ⟨_, hinps, List.mem_of_find?_eq_some hinp⟩
  · obtain ⟨-, -, -, hinp, -, -⟩ := hc
    simp only [inputForDescriptor, ok_iffs] at hinp
    obtain ⟨_, -, hfind⟩ := hinp
    exact ⟨_, hinps, List.mem_of_find?_eq_some hfind⟩

/-- The presenter of a credential has been found to be its holder. -/
def HolderChecked (c : CheckedCredential) (credential : DetailCredential)
    (formatter : CredentialFormatter) : Prop :=
  ∀ submitted ∈ c.presented, ∃ extracted holder subject,
    validatePresentation env submitted interaction.nonce = .ok extracted ∧
    c.token ∈ extracted.credentials ∧ extracted.issuer = some holder ∧
    credential.subject = some subject ∧
    checkMatchingIdentifiers env subject holder formatter.holderDidMethods = .ok ()

structure AcceptedCredential (c : CheckedCredential) (credential : DetailCredential)
    (mso : Option MobileSecurityObject) (schema : Schema.CredentialSchema)
    (formatter : CredentialFormatter) : Prop where
  reads : Reads env c.token c.input credential mso schema formatter
  holder : HolderChecked env interaction c credential formatter

/-- The credential has passed all of its checks: it is valid now, and no status entry says that it is
revoked or suspended. -/
structure Passed (c : CheckedCredential) (credential : DetailCredential)
    (mso : Option MobileSecurityObject) (schema : Schema.CredentialSchema)
    (formatter : CredentialFormatter) : Prop where
  accepted : AcceptedCredential env interaction c credential mso schema formatter
  times : validateTimes env credential.validFrom credential.validUntil formatter.leeway = .ok ()
  status : ∀ status ∈ credential.status,
    checkRevocationStatus env credential c.input status = .ok ()

/-- The given credentials have passed their checks, and the claims are those they yield. -/
structure Collected (checks : CheckedCredential → Prop) (claims : List ValidatedProofClaimDTO) :
    Prop where
  accepted : ∀ c, checks c → ∃ credential mso schema formatter,
    AcceptedCredential env interaction c credential mso schema formatter
  mem_iff : ∀ dto, dto ∈ claims ↔ ∃ c credential mso schema formatter, checks c ∧
    AcceptedCredential env interaction c credential mso schema formatter ∧
    Yields c.input credential mso dto

/-- The given credentials have passed all of their checks, and the claims are those they yield. -/
structure Gathered (checks : CheckedCredential → Prop) (claims : List ValidatedProofClaimDTO) :
    Prop where
  passed : ∀ c, checks c → ∃ credential mso schema formatter,
    Passed env interaction c credential mso schema formatter
  mem_iff : ∀ dto, dto ∈ claims ↔ ∃ c credential mso schema formatter, checks c ∧
    Passed env interaction c credential mso schema formatter ∧
    Yields c.input credential mso dto

variable {env interaction protocolType submission proof}

variable {claims : List ValidatedProofClaimDTO}

lemma Gathered.collected (h : Gathered env interaction checks claims) :
    Collected env interaction checks claims := by
  constructor
  · intro c hc
    obtain ⟨credential, mso, schema, formatter, hpsd⟩ := h.passed c hc
    exact ⟨credential, mso, schema, formatter, hpsd.accepted⟩
  · intro dto
    rw [h.mem_iff]
    constructor
    · rintro ⟨c, credential, mso, schema, formatter, hc, hpsd, hyields⟩
      exact ⟨c, credential, mso, schema, formatter, hc, hpsd.accepted, hyields⟩
    · rintro ⟨c, credential, mso, schema, formatter, hc, hacc, hyields⟩
      obtain ⟨credential', mso', schema', formatter', hpsd⟩ := h.passed c hc
      obtain ⟨rfl, rfl, rfl, rfl⟩ := hacc.reads.unique env hpsd.accepted.reads
      exact ⟨c, credential, mso, schema, formatter, hc, hpsd, hyields⟩

/-- The rule for a loop that collects claims. -/
lemma Gathered.flatMapM {α : Type} {l : List α}
    {f : α → Except OpenID4VCError (List ValidatedProofClaimDTO)}
    (checks : α → CheckedCredential → Prop) (h : Except.flatMapM l f = .ok claims)
    (hround : ∀ a ∈ l, ∀ claims', f a = .ok claims' → Gathered env interaction (checks a) claims') :
    Gathered env interaction (fun c => ∃ a ∈ l, checks a c) claims := by
  constructor
  · rintro c ⟨a, ha, hc⟩
    obtain ⟨claims', hcls'⟩ := Except.exists_of_flatMapM_eq_ok h ha
    exact (hround a ha claims' hcls').passed c hc
  · intro dto
    rw [Except.mem_of_flatMapM_eq_ok h]
    constructor
    · rintro ⟨a, ha, claims', hcls', hdto⟩
      obtain ⟨c, credential, mso, schema, formatter, hc, hpsd, hyields⟩ :=
        ((hround a ha claims' hcls').mem_iff dto).1 hdto
      exact ⟨c, credential, mso, schema, formatter, ⟨a, ha, hc⟩, hpsd, hyields⟩
    · rintro ⟨c, credential, mso, schema, formatter, ⟨a, ha, hc⟩, hpsd, hyields⟩
      obtain ⟨claims', hcls'⟩ := Except.exists_of_flatMapM_eq_ok h ha
      exact ⟨a, ha, claims', hcls', ((hround a ha claims' hcls').mem_iff dto).2
        ⟨c, credential, mso, schema, formatter, hc, hpsd, hyields⟩⟩

lemma Gathered.congr {checks' : CheckedCredential → Prop}
    (h : Gathered env interaction checks claims)
    (heq : ∀ c, checks c ↔ checks' c) : Gathered env interaction checks' claims := by
  obtain rfl : checks = checks' := funext fun c => propext (heq c)
  exact h

lemma gathered_of_validateCredential
    (hholder : ∀ submitted ∈ c.presented, ∃ extracted h,
      validatePresentation env submitted interaction.nonce = .ok extracted ∧
      c.token ∈ extracted.credentials ∧ extracted.issuer = some h ∧ holder = some h)
    (hcred : validateCredential env holder c.token c.input authorities = .ok (credential, mso))
    (hcls : validateClaims credential c.input mso = .ok claims) :
    Gathered env interaction (· = c) claims := by
  obtain ⟨schema, formatter, hreads, htimes, hst, hmatc⟩ :=
    validateCredential_eq_ok env hcred
  have hpsd : Passed env interaction c credential mso schema formatter := by
    refine ⟨⟨hreads, fun submitted hsub => ?_⟩, htimes, hst⟩
    obtain ⟨extracted, h, hvalid, htok, hissuer, rfl⟩ := hholder submitted hsub
    obtain ⟨subject, hsbj, hchk⟩ := hmatc h rfl
    exact ⟨extracted, h, subject, hvalid, htok, hissuer, hsbj, hchk⟩
  constructor
  · rintro c' rfl
    exact ⟨credential, mso, schema, formatter, hpsd⟩
  · intro dto
    rw [mem_validateClaims hcls]
    constructor
    · intro hyields
      exact ⟨c, credential, mso, schema, formatter, rfl, hpsd, hyields⟩
    · rintro ⟨c', credential', mso', schema', formatter', rfl, hpsd', hyields⟩
      obtain ⟨rfl, rfl, -, -⟩ := hreads.unique env hpsd'.accepted.reads
      exact hyields

variable {query : CredentialQuery}

lemma provedClaims_eq_ok
    (h : provedClaims env query input holder token = .ok claims) :
    ∃ credential mso, validateCredential env holder token input query.trustedAuthorities =
        .ok (credential, mso) ∧ validateClaims credential input mso = .ok claims := by
  simp only [provedClaims, ok_iffs] at h
  obtain ⟨⟨credential, mso⟩, hcred, claims', hcls, ⟨⟩, -, rfl⟩ := h
  exact ⟨credential, mso, hcred, hcls⟩

/-- What the check of a query with holder binding starts from. -/
lemma presentedCredentials_eq_ok_iff {context : ExtractPresentationCtx} {holder : IdentifierDetails}
    {credentials : List String} :
    presentedCredentials env interaction query presentations context = .ok (holder, credentials) ↔
      (query.multiple = false → presentations.length = 1) ∧
      ∃ presentation others format extracted, presentations = presentation :: others ∧
        presentationFormatType env query presentation = .ok format ∧
        validatePresentation env ⟨format, presentation, context⟩ interaction.nonce =
          .ok extracted ∧
        extracted.issuer = some holder ∧ extracted.credentials = credentials := by
  simp only [presentedCredentials, ok_iffs, Prod.mk.injEq, List.head?_eq_some_iff, not_and, ne_eq,
    not_not]
  simp

variable {inputSchemas : List ProofInputSchema}

lemma processQuery_gathered {vpToken : IndexMap String (List String)}
    (h : processQuery env interaction protocolType inputSchemas vpToken
      submission.mdocGeneratedNonce query = .ok claims) :
    Gathered env interaction (QueryChecks env interaction protocolType submission inputSchemas
      vpToken query) claims := by
  simp only [processQuery, ok_iffs] at h
  obtain ⟨input, hinp, presentations, hpress, h⟩ := h
  unfold validateCredentialQuery at h
  cases hbnd : query.requireCryptographicHolderBinding with
  | true =>
    rw [if_pos hbnd] at h
    obtain ⟨⟨holder, credentials⟩, hpres, hloop⟩ := bind_eq_ok.1 h
    obtain ⟨-, presentation, others, format, extracted, rfl, hfmt, hvalid, hissuer, rfl⟩ :=
      presentedCredentials_eq_ok_iff.1 hpres
    refine (Gathered.flatMapM (fun token c => c = ⟨some (queryPresentation interaction
      protocolType submission query format presentation), token, input⟩) hloop ?_).congr ?_
    · intro token htok claims' hcls'
      obtain ⟨credential, mso, hcred, hcls⟩ := provedClaims_eq_ok hcls'
      refine gathered_of_validateCredential ?_ hcred hcls
      rintro submitted ⟨⟩
      exact ⟨extracted, holder, hvalid, htok, hissuer, rfl⟩
    · intro c
      constructor
      · rintro ⟨token, htok, rfl⟩
        exact .bound hbnd hinp hpress hfmt hvalid htok
      · rintro (⟨_, hinp', hpress', hfmt', hvalid', htok⟩ | ⟨hbnd', -⟩)
        · obtain rfl := mem_unique hinp hinp'
          obtain ⟨rfl, rfl⟩ : presentation = _ ∧ others = _ := by
            simpa using hpress.symm.trans hpress'
          obtain rfl := ok_unique hfmt hfmt'
          obtain rfl := ok_unique hvalid hvalid'
          exact ⟨_, htok, rfl⟩
        · simp [hbnd] at hbnd'
  | false =>
    rw [if_neg (by simp [hbnd])] at h
    refine (Gathered.flatMapM (fun token c => c = ⟨none, token, input⟩) h ?_).congr ?_
    · intro token htok claims' hcls'
      obtain ⟨credential, mso, hcred, hcls⟩ := provedClaims_eq_ok hcls'
      exact gathered_of_validateCredential (by simp) hcred hcls
    · intro c
      constructor
      · rintro ⟨token, htok, rfl⟩
        exact .unbound hbnd hinp hpress htok
      · rintro (⟨hbnd', -⟩ | ⟨_, hinp', hpress', htok⟩)
        · simp [hbnd] at hbnd'
        · obtain rfl := mem_unique hinp hinp'
          obtain rfl := mem_unique hpress hpress'
          exact ⟨_, htok, rfl⟩

variable {definition : List InputDescriptor}

lemma processDescriptor_gathered {entry : SubmissionDescriptor}
    (h : processDescriptor env interaction protocolType inputSchemas definition presentations
      submission.mdocGeneratedNonce entry = .ok claims) :
    Gathered env interaction (DescriptorChecks env interaction protocolType submission inputSchemas
      definition presentations entry) claims := by
  simp only [processDescriptor, ok_iffs] at h
  obtain ⟨descriptor, hdsc, submitted, hsub, extracted, hvalid, ⟨⟩, -, input, hinp,
    holder, hissuer, index, hidx, token, htok, ⟨credential, mso⟩, hcred, hcls⟩ := h
  refine (gathered_of_validateCredential (c := ⟨some submitted, token, input⟩) ?_ hcred
    hcls).congr ?_
  · rintro submitted' ⟨⟩
    exact ⟨extracted, holder, hvalid, List.mem_of_getElem? htok, hissuer, rfl⟩
  · intro c
    constructor
    · rintro rfl
      exact .intro hdsc hsub hvalid hinp hidx htok
    · rintro ⟨hdsc', hsub', hvalid', hinp', hidx', htok'⟩
      obtain rfl := ok_unique hdsc hdsc'
      obtain rfl := ok_unique hsub hsub'
      obtain rfl := ok_unique hvalid hvalid'
      obtain rfl := ok_unique hinp hinp'
      obtain rfl := ok_unique hidx hidx'
      obtain rfl := mem_unique htok htok'
      rfl

lemma processProofSubmissionDcqlQuery_gathered {queries : List CredentialQuery}
    (hquer : interaction.dcqlQuery = some queries)
    (hdfn : interaction.presentationDefinition = none)
    (h : processProofSubmissionDcqlQuery env interaction protocolType submission proof queries =
      .ok claims) :
    Gathered env interaction (Checks env interaction protocolType submission proof) claims := by
  unfold processProofSubmissionDcqlQuery at h
  split at h
  next vpToken hdata =>
    simp only [ok_iffs] at h
    obtain ⟨inputSchemas, hinps, ⟨⟩, -, hloop⟩ := h
    refine (Gathered.flatMapM _ hloop fun query _ _ => processQuery_gathered).congr fun c => ?_
    constructor
    · rintro ⟨query, hq, hc⟩
      exact .query hdata hquer hinps hq hc
    · rintro (⟨hdata', hquer', hinps', hq, hc⟩ | ⟨-, hdfn', -⟩)
      · obtain rfl := VpSubmissionData.dcql.inj (hdata.symm.trans hdata')
        obtain rfl := mem_unique hquer hquer'
        obtain rfl := mem_unique hinps hinps'
        exact ⟨_, hq, hc⟩
      · simp [hdfn] at hdfn'
  next => cases h

lemma processProofSubmissionPresentationExchange_gathered (hquer : interaction.dcqlQuery = none)
    (hdfn : interaction.presentationDefinition = some definition)
    (h : processProofSubmissionPresentationExchange env interaction protocolType submission proof
      definition = .ok claims) :
    Gathered env interaction (Checks env interaction protocolType submission proof) claims := by
  unfold processProofSubmissionPresentationExchange at h
  split at h
  next vpToken presentationSubmission hdata =>
    simp only [ok_iffs] at h
    obtain ⟨⟨⟩, -, presentations, hpress, schema, hsch, inputSchemas, hflt, ⟨⟩, -,
      ⟨⟩, -, hloop⟩ := h
    have hinps : proof.schema.bind (·.inputSchemas) = some inputSchemas := by
      rw [hsch]
      exact (Option.filter_eq_some_iff.1 hflt).1
    refine (Gathered.flatMapM _ hloop fun entry _ _ => processDescriptor_gathered).congr
      fun c => ?_
    constructor
    · rintro ⟨entry, hent, hc⟩
      exact .descriptor hdata hdfn hinps hpress hent hc
    · rintro (⟨-, hquer', -⟩ | ⟨hdata', hdfn', hinps', hpress', hent, hc⟩)
      · simp [hquer] at hquer'
      · obtain ⟨rfl, rfl⟩ := VpSubmissionData.pex.inj (hdata.symm.trans hdata')
        obtain rfl := mem_unique hdfn hdfn'
        obtain rfl := mem_unique hinps hinps'
        obtain rfl := ok_unique hpress hpress'
        exact ⟨_, hent, hc⟩
  next => cases h

/-- What an accepted submission has established. -/
theorem processProofSubmission_gathered
    (h : processProofSubmission env interaction protocolType submission proof = .ok claims) :
    Gathered env interaction (Checks env interaction protocolType submission proof) claims := by
  simp only [processProofSubmission, bind_eq_ok] at h
  obtain ⟨⟨⟩, -, h⟩ := h
  split at h
  next => cases h
  next queries hquer hdfn =>
    exact processProofSubmissionDcqlQuery_gathered hquer hdfn h
  next definition hquer hdfn =>
    exact processProofSubmissionPresentationExchange_gathered hquer hdfn h
  next => cases h

/-- The same without the times and the status of the credentials. -/
theorem processProofSubmission_collected
    (h : processProofSubmission env interaction protocolType submission proof = .ok claims) :
    Collected env interaction (Checks env interaction protocolType submission proof) claims :=
  (processProofSubmission_gathered h).collected

end Submission

end OneCore.Openid4vp
