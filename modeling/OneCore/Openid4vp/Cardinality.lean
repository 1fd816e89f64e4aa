/-
# One presentation or several

A credential query asks for one presentation, or with `multiple` for any number of them.  The
rule is implemented four times: by the verifier for queries with and without holder binding, and
by the holder in both versions of the submission.

With holder binding the verifier counts the presentations, but looks into the first one only
(`examined`): the others may be anything.  Without holder binding it looks into all of them and
does not count them.  The holder counts in the second version; in the first version the test is
the wrong way around.
-/
import OneCore.Holder.SubmitProof
import OneCore.Openid4vp.ProofResult

namespace OneCore.Openid4vp

open Presentation Schema Option

variable {Key : Type} (env : ValidatorEnvironment Key)

/-! ### The presentations that are looked into -/

/-- The presentations for a query that the verifier looks into. -/
def examined (query : CredentialQuery) (presentations : List String) : List String :=
  if query.requireCryptographicHolderBinding then presentations.head?.toList else presentations

variable {context : ExtractPresentationCtx} {query : CredentialQuery}
  {interaction : InteractionContent} {ps ps' : List String}

lemma presentedCredentials_congr
    (hhead : ps.head? = ps'.head?) (hcnt : ps.length = 1 ↔ ps'.length = 1) :
    presentedCredentials env interaction query ps context =
      presentedCredentials env interaction query ps' context := by
  have hmul : ¬(query.multiple = false ∧ ps.length ≠ 1) ↔
      ¬(query.multiple = false ∧ ps'.length ≠ 1) := by
    rw [ne_eq, hcnt]
  unfold presentedCredentials
  rw [Except.ensure_congr hmul, hhead]

variable {input : ProofInputSchema}

/-- The outcome for a query depends on these presentations only, apart from the count. -/
theorem validateCredentialQuery_congr
    (hexam : examined query ps = examined query ps') (hcnt : ps.length = 1 ↔ ps'.length = 1) :
    validateCredentialQuery env interaction query input ps context =
      validateCredentialQuery env interaction query input ps' context := by
  unfold validateCredentialQuery
  unfold examined at hexam
  by_cases hbnd : query.requireCryptographicHolderBinding = true
  · rw [if_pos hbnd, if_pos hbnd] at hexam
    have hhead : ps.head? = ps'.head? := by
      rw [← head?_toList (o := ps.head?), hexam, head?_toList]
    rw [if_pos hbnd, if_pos hbnd, presentedCredentials_congr env hhead hcnt]
  · rw [if_neg hbnd, if_neg hbnd] at hexam
    rw [if_neg hbnd, if_neg hbnd, hexam]

section Submission

variable (interaction : InteractionContent) (protocolType : VerificationProtocolType)
  (submission : SubmissionRequestData) (proof : Proof)

def Lists (query : CredentialQuery) (presentations : List String) : Prop :=
  ∃ vpToken queries, submission.submissionData = .dcql vpToken ∧
    interaction.dcqlQuery = some queries ∧ query ∈ queries ∧
    vpToken.get? query.id = some presentations

/-- The credential passes its checks and its claims are among the proved ones. -/
def Contributes (query : CredentialQuery) (input : ProofInputSchema)
    (claims : List ValidatedProofClaimDTO) (holder : Option IdentifierDetails) (token : String) :
    Prop :=
  ∃ credential mso, validateCredential env holder token input query.trustedAuthorities =
      .ok (credential, mso) ∧
    ∀ claim, Yields input credential mso claim → claim ∈ claims

/-- The presentation is verified, and its claims are among the proved ones. -/
inductive Verified (query : CredentialQuery) (input : ProofInputSchema)
    (claims : List ValidatedProofClaimDTO) : String → Prop
  /-- With holder binding: the signature and the nonce of the presentation, and the holder of each
  credential in it. -/
  | bound {presentation : String} {format : FormatType} {extracted : Mdoc.ExtractedPresentation}
      {holder : IdentifierDetails} : query.requireCryptographicHolderBinding = true →
      presentationFormatType env query presentation = .ok format →
      validatePresentation env (queryPresentation interaction protocolType submission query format
        presentation) interaction.nonce = .ok extracted →
      extracted.issuer = some holder →
      (∀ token ∈ extracted.credentials, Contributes env query input claims (some holder) token) →
      Verified query input claims presentation
  /-- Without holder binding: the credential that the presentation is. -/
  | unbound {presentation : String} : query.requireCryptographicHolderBinding = false →
      Contributes env query input claims none presentation →
      Verified query input claims presentation

/-- Every presentation that is listed has been looked into and verified. -/
def EveryPresentationChecked : Prop :=
  ∀ claims, processProofSubmission env interaction protocolType submission proof = .ok claims →
    ∀ query presentations, Lists interaction submission query presentations →
      ∀ presentation ∈ presentations, presentation ∈ examined query presentations ∧
        ∃ inputSchemas input, proof.schema.bind (·.inputSchemas) = some inputSchemas ∧
          inputForQuery inputSchemas query.id = some input ∧
          Verified env interaction protocolType submission query input claims presentation

/-- A query that does not set `multiple` has exactly one presentation. -/
def OnePresentation : Prop :=
  ∀ query presentations, Lists interaction submission query presentations →
    query.multiple = false → presentations.length = 1

variable {env interaction protocolType submission proof}

variable {holder : Option IdentifierDetails} {claims claims' : List ValidatedProofClaimDTO}

lemma Contributes.mono {token : String} (h : Contributes env query input claims holder token)
    (hsub : claims ⊆ claims') : Contributes env query input claims' holder token := by
  obtain ⟨credential, mso, hcred, hcls⟩ := h
  exact ⟨credential, mso, hcred, fun claim hclm => hsub (hcls claim hclm)⟩

lemma Verified.mono {presentation : String}
    (h : Verified env interaction protocolType submission query input claims presentation)
    (hsub : claims ⊆ claims') :
    Verified env interaction protocolType submission query input claims' presentation := by
  cases h with
  | bound hbnd hfmt hvalid hissuer htoks =>
    exact .bound hbnd hfmt hvalid hissuer fun token htok => (htoks token htok).mono hsub
  | unbound hbnd htok => exact .unbound hbnd (htok.mono hsub)

lemma contributes_of_flatMapM {tokens : List String}
    (h : Except.flatMapM tokens (provedClaims env query input holder) = .ok claims) :
    ∀ token ∈ tokens, Contributes env query input claims holder token := by
  intro token htok
  obtain ⟨claims', hcls'⟩ := Except.exists_of_flatMapM_eq_ok h htok
  obtain ⟨credential, mso, hcred, hvdt⟩ := provedClaims_eq_ok hcls'
  refine ⟨credential, mso, hcred, fun claim hyields => ?_⟩
  exact (Except.mem_of_flatMapM_eq_ok h).2
    ⟨token, htok, claims', hcls', (mem_validateClaims hvdt).2 hyields⟩

variable {presentations : List String} {vpToken : IndexMap String (List String)}

lemma processQuery_eq_ok {inputSchemas : List ProofInputSchema}
    (h : processQuery env interaction protocolType inputSchemas vpToken
      submission.mdocGeneratedNonce query = .ok claims)
    (hlst : vpToken.get? query.id = some presentations) :
    ∃ input, inputForQuery inputSchemas query.id = some input ∧
      (∀ presentation ∈ examined query presentations,
        Verified env interaction protocolType submission query input claims presentation) ∧
      (query.requireCryptographicHolderBinding = true → query.multiple = false →
        presentations.length = 1) := by
  simp only [processQuery, ok_iffs] at h
  obtain ⟨input, hinp, presentations', hlst', h⟩ := h
  obtain rfl := mem_unique hlst hlst'
  refine ⟨input, hinp, ?_⟩
  unfold validateCredentialQuery at h
  by_cases hbnd : query.requireCryptographicHolderBinding = true
  · rw [if_pos hbnd] at h
    obtain ⟨⟨holder, credentials⟩, hpres, hloop⟩ := bind_eq_ok.1 h
    obtain ⟨hcnt, presentation, others, format, extracted, rfl, hfmt, hvalid, hissuer, rfl⟩ :=
      presentedCredentials_eq_ok_iff.1 hpres
    refine ⟨fun p hp => ?_, fun _ => hcnt⟩
    -- only the first presentation is examined
    obtain rfl : p = presentation := by simpa [examined, hbnd] using hp
    exact .bound hbnd hfmt hvalid hissuer (contributes_of_flatMapM hloop)
  · rw [if_neg hbnd] at h
    have hunbo : query.requireCryptographicHolderBinding = false := by simpa using hbnd
    refine ⟨fun p hp => ?_, fun hbound => absurd hbound hbnd⟩
    rw [examined, if_neg hbnd] at hp
    exact .unbound hunbo (contributes_of_flatMapM h p hp)

section

variable (h : processProofSubmission env interaction protocolType submission proof = .ok claims)

include h

/-- An accepted submission has passed the check of each query. -/
lemma processQuery_of_processProofSubmission
    {queries : List CredentialQuery} (hdata : submission.submissionData = .dcql vpToken)
    (hquer : interaction.dcqlQuery = some queries) (hq : query ∈ queries) :
    ∃ inputSchemas claims', proof.schema.bind (·.inputSchemas) = some inputSchemas ∧
      processQuery env interaction protocolType inputSchemas vpToken submission.mdocGeneratedNonce
        query = .ok claims' ∧ claims' ⊆ claims := by
  simp only [processProofSubmission, bind_eq_ok, hquer] at h
  obtain ⟨⟨⟩, -, h⟩ := h
  cases hdfn : interaction.presentationDefinition with
  | some definition => simp [hdfn] at h
  | none =>
    simp only [hdfn, processProofSubmissionDcqlQuery, hdata, ok_iffs] at h
    obtain ⟨inputSchemas, hinps, ⟨⟩, -, hloop⟩ := h
    obtain ⟨claims', hcls'⟩ := Except.exists_of_flatMapM_eq_ok hloop hq
    refine ⟨inputSchemas, claims', hinps, hcls', fun claim hclm => ?_⟩
    exact (Except.mem_of_flatMapM_eq_ok hloop).2 ⟨query, hq, claims', hcls', hclm⟩

lemma Lists.accepted (hlists : Lists interaction submission query presentations) :
    (∃ inputSchemas input, proof.schema.bind (·.inputSchemas) = some inputSchemas ∧
      inputForQuery inputSchemas query.id = some input ∧
      ∀ presentation ∈ examined query presentations,
        Verified env interaction protocolType submission query input claims presentation) ∧
    (query.requireCryptographicHolderBinding = true → query.multiple = false →
      presentations.length = 1) := by
  obtain ⟨vpToken, queries, hdata, hquer, hq, hlst⟩ := hlists
  obtain ⟨inputSchemas, claims', hinps, hproc, hsub⟩ :=
    processQuery_of_processProofSubmission h hdata hquer hq
  obtain ⟨input, hinp, hvfd, hcnt⟩ := processQuery_eq_ok hproc hlst
  exact ⟨⟨inputSchemas, input, hinps, hinp, fun p hp => (hvfd p hp).mono hsub⟩, hcnt⟩

end

lemma forall_mem_examined_iff :
    (∀ p ∈ presentations, p ∈ examined query presentations) ↔
      (query.requireCryptographicHolderBinding = true →
        ∀ p ∈ presentations, presentations.head? = some p) := by
  unfold examined
  by_cases hbnd : query.requireCryptographicHolderBinding = true
  · simp [hbnd]
  · simp [hbnd]

section

variable (h : processProofSubmission env interaction protocolType submission proof = .ok claims)

include h

lemma everyPresentationChecked_iff :
    EveryPresentationChecked env interaction protocolType submission proof ↔
      ∀ query presentations, Lists interaction submission query presentations →
        query.requireCryptographicHolderBinding = true →
        ∀ p ∈ presentations, presentations.head? = some p := by
  constructor
  · intro hchec query presentations hlists
    rw [← forall_mem_examined_iff]
    intro p hp
    exact (hchec claims h query presentations hlists p hp).1
  · intro hfst claims' h' query presentations hlists p hp
    obtain rfl := ok_unique h h'
    have hexam := forall_mem_examined_iff.2 (hfst query presentations hlists) p hp
    obtain ⟨⟨inputSchemas, input, hinps, hinp, hvfd⟩, -⟩ := hlists.accepted h
    exact ⟨hexam, inputSchemas, input, hinps, hinp, hvfd p hexam⟩

lemma onePresentation_iff : OnePresentation interaction submission ↔
      ∀ query presentations, Lists interaction submission query presentations →
        query.requireCryptographicHolderBinding = false → query.multiple = false →
        presentations.length = 1 := by
  constructor
  · intro hone query presentations hlists _
    exact hone query presentations hlists
  · intro hunbo query presentations hlists hmul
    cases hbnd : query.requireCryptographicHolderBinding with
    | true => exact (hlists.accepted h).2 hbnd hmul
    | false => exact hunbo query presentations hlists hbnd hmul

end

end Submission

/-! ### An unchecked presentation, two bare credentials and a holder who submits two -/

section Sample

/-- Only the text `presentation` is one; a credential is any text. -/
def sampleCardinalityEnvironment : ValidatorEnvironment Unit :=
  .fixed acceptingKeys
    (fun presentation => if presentation = "presentation" then .ok (sampleVp "1" ["credential"])
      else .error (.library ""))
    ⟨.jwt, fun _ _ _ => .ok (sampleCredential (.did "did:key:i") (.did "did:key:b")), 0, []⟩

lemma sample_listed (hid : query.id = "s") (presentations : List String) :
    Lists (sampleInteraction query) (sampleSubmission presentations) query presentations := by
  refine ⟨_, _, rfl, rfl, List.mem_cons_self, ?_⟩
  rw [hid]
  rfl

lemma sample_lists {format : CredentialFormat} {multiple bound : Bool}
    {presentations presentations' : List String}
    (h : Lists (sampleInteraction (sampleQuery format multiple bound))
      (sampleSubmission presentations) query presentations') : presentations = presentations' := by
  obtain ⟨vpToken, queries, hdata, hquer, hq, hget⟩ := h
  obtain rfl := VpSubmissionData.dcql.inj hdata
  cases hquer
  obtain rfl := List.mem_singleton.1 hq
  exact some.inj hget

def sampleHolder : Holder.Environment where
  getProofByInteractionId _ := .ok (some ⟨"proof", .requested, "protocol", some []⟩)
  getCredential id := .ok (some ⟨id, some [], some "blob", some ⟨"s", "JWT", "type", none⟩,
    .ok (none, "key", none)⟩)
  getProtocol _ := some ⟨[.v1], fun _ _ => .ok [[⟨"s", [], none⟩]], fun _ _ => .error ""⟩
  getBlob _ := .ok (some [])
  fromUtf8 _ := .ok "token"
  parseJson _ := .ok .null
  formatterForBlobAndSchema _ _ := .ok fun _ => .ok "presentation"

def sampleTwoCredentials : Holder.PresentationSubmitRequest :=
  ⟨"interaction", [("s", [⟨"1", []⟩, ⟨"2", []⟩])]⟩

end Sample

end OneCore.Openid4vp
