/-
# Verification of a submission

The verifier takes the presentations of a submission one by one: for each credential query of a
DCQL query, or for each entry of the descriptor map of a presentation submission.  It checks the
presentation, then each credential in it, and collects the requested claims.

The two ways share the checks of a presentation, of a credential and of its claims.
-/
import OneCore.Openid4vp.Model

namespace OneCore.Openid4vp

open Presentation Schema
open Mdoc (ExtractedPresentation MobileSecurityObject)

variable {Key : Type} (env : ValidatorEnvironment Key)

/-! ### Holder identifiers -/

/-- The method of a DID, the text between the first two colons. -/
def didMethod (did : String) : Str := (did.toList.drop 4).takeWhile (· ≠ ':')

/-- The method type of a method name; all but one are matched without regard to case. -/
def DidType.fromMethod (method : Str) : Option DidType :=
  let upper := method.map Char.toUpper
  if method = "webvh".toList then some .webVh
  else if upper = "KEY".toList then some .key
  else if upper = "WEB".toList then some .web
  else if upper = "JWK".toList then some .jwk
  else if upper = "UNIVERSAL_RESOLVER".toList then some .universal
  else if upper = "WEBVH".toList then some .webVh
  else none

def checkDidMethodAllowed (did : String) (allowedDidMethods : List DidType) :
    Except OpenID4VCError Unit := do
  let error := .validationError ("Unsupported holder DID method: " ++ String.ofList (didMethod did))
  let didType ← okOr (DidType.fromMethod (didMethod did)) error
  ensure (didType ∈ allowedDidMethods) error

def resolveDid (did : String) : Except OpenID4VCError DidDocument :=
  (env.keys.resolve did).mapError .validationError

def HasKey (document : DidDocument) (key : PublicJwk) : Prop :=
  ∃ vm ∈ document.verificationMethod, vm.publicKeyJwk = key

instance (document : DidDocument) (key : PublicJwk) : Decidable (HasKey document key) :=
  inferInstanceAs (Decidable (∃ vm ∈ document.verificationMethod, vm.publicKeyJwk = key))

def checkMatchingKeyWithDid (key : PublicJwk) (did : String) : Except OpenID4VCError Unit := do
  let didDocument ← resolveDid env did
  ensure (HasKey didDocument key) (.validationError
    "Presentation signer DID not matching credential holder binding key")

/-- The documents are the same, or the first key of the holder's is among the subject's. -/
def checkMatchingDids (subject holder : String) : Except OpenID4VCError Unit := do
  let claimSubjectDidDocument ← resolveDid env subject
  let holderDidDocument ← resolveDid env holder
  if claimSubjectDidDocument = holderDidDocument then return ()
  else
    let holderKey ← okOr (holderDidDocument.findVerificationMethod none none)
      (.validationError "Presentation signer DID document contains no verification methods")
    ensure (HasKey claimSubjectDidDocument holderKey.publicKeyJwk) (.validationError
      "Presentation signer key not found in claim subject DID document")

def checkMatchingIdentifiers (subject holder : IdentifierDetails)
    (allowedDidMethods : List DidType) : Except OpenID4VCError Unit :=
  if subject = holder then .ok ()
  else
    match subject, holder with
    | .did a, .did b => do
      checkDidMethodAllowed a allowedDidMethods
      checkDidMethodAllowed b allowedDidMethods
      checkMatchingDids env a b
    | .did did, .key jwk => do
      checkDidMethodAllowed did allowedDidMethods
      checkMatchingKeyWithDid env jwk did
    | .key jwk, .did did => do
      checkDidMethodAllowed did allowedDidMethods
      checkMatchingKeyWithDid env jwk did
    | _, _ => .error (.validationError "Mismatching holder identifiers")

def getTrustedAkis (authorities : List TrustedAuthority) : List String :=
  authorities.flatMap fun
    | .authorityKeyId values => values
    | _ => []

def checkIssuerIsTrustedAuthority (issuer : IdentifierDetails)
    (authorities : List TrustedAuthority) : Except OpenID4VCError Unit :=
  let error := .validationError "Issuer is not in Trusted Authorities list"
  match issuer with
  | .certificate details => do
    let issuerAkis ← (env.getAkisForPemChain details.chain).mapError fun e => .validationError
      ("Failed to retrieve Authority Key Identifier for credential issuer: " ++ e)
    ensure (∃ aki ∈ getTrustedAkis authorities, aki ∈ issuerAkis) error
  | _ => .error error

/-! ### Claims -/

/-- A claim that was proved, with the credential that it comes from. -/
structure ValidatedProofClaimDTO where
  proofInputClaim : ProofInputClaimSchema
  credential : DetailCredential
  credentialSchema : Schema.CredentialSchema
  value : CredentialClaim
  mdocMso : Option MobileSecurityObject

/-- A claim inside a claim: under the whole name, or else level by level. -/
def resolveClaimInner (claimName : Str) (claim : CredentialClaim) : Option CredentialClaim :=
  match claim.asObject.bind fun object => object.lookup claimName with
  | some value => some value
  | none =>
    match _h : Path.splitOnce nestedClaimMarker claimName with
    | none => none
    | some (pre, rest) =>
      match claim.asObject.bind fun object => object.lookup pre with
      | none => none
      | some value => resolveClaimInner rest value
termination_by claimName.length
decreasing_by
  obtain ⟨rfl, -⟩ := Path.splitOnce_eq_some_iff.1 _h
  simp only [List.length_append, List.length_cons]
  omega

def resolveClaim (claimName : Str) (claims : List (Str × CredentialClaim)) :
    Option CredentialClaim :=
  match claims.lookup claimName with
  | some value => some value
  | none =>
    match Path.splitOnce nestedClaimMarker claimName with
    | none => none
    | some (pre, rest) => (claims.lookup pre).bind (resolveClaimInner rest)

/-- The requested claims of a credential; one that is required must be there. -/
def validateClaims (received : DetailCredential) (input : ProofInputSchema)
    (mso : Option MobileSecurityObject) : Except OpenID4VCError (List ValidatedProofClaimDTO) := do
  let expected ← okOr input.claimSchemas (.mappingError "Missing claim schemas")
  let credentialSchema ← okOr input.credentialSchema (.mappingError "Missing credential schema")
  Except.flatMapM expected fun claim =>
    match resolveClaim claim.schema.key received.claims.claims with
    | some value => .ok [⟨claim, received, credentialSchema, value, mso⟩]
    | none =>
      if claim.required then .error (.validationError "Required claim not submitted") else .ok []

/-! ### Presentations and credentials -/

def timeError : ServiceError → OpenID4VCError
  | .validationError msg => .validationError msg
  | .mappingError msg => .mappingError msg
  | .missingClaimSchemas => .other "Some of the provided claim schema ids are missing"
  | .nested msg => .other msg

def validateTimes (start stop : Option Timestamp) (leeway : Nat) : Except OpenID4VCError Unit := do
  (validateIssuanceTime env.formats.now start leeway).mapError timeError
  (validateExpirationTime env.formats.now stop leeway).mapError timeError

def presentationError : FormatterError → OpenID4VCError
  | .couldNotExtractPresentation _ => .vpFormatsNotSupported
  | e => .other e.display

def credentialError : FormatterError → OpenID4VCError
  | .couldNotExtractCredentials _ => .vcFormatsNotSupported
  | e => .other e.display

/-- The format type of an OpenID format, which may depend on the token. -/
def mapFromOidcFormatToCoreDetailed (format token : String) : Option FormatType :=
  if format = "jwt_vc_json" ∨ format = "jwt_vp_json" then some .jwt
  else if format = "vc+sd-jwt" ∨ format = "dc+sd-jwt" ∨ format = "vc sd-jwt" then
    match env.isSdJwtVc token with
    | .ok isVc => some (if isVc then .sdJwtVc else .sdJwt)
    | .error _ => none
  else if format = "ldp_vc" then
    (env.getCryptoSuite token).map fun suite =>
      if suite = "bbs-2023" then .jsonLdBbsPlus else .jsonLdClassic
  else if format = "ldp_vp" then some .jsonLdClassic
  else if format = "mso_mdoc" then some .mdoc
  else none

structure SubmittedPresentation where
  format : FormatType
  presentation : String
  context : ExtractPresentationCtx

/-- The check of a presentation: its signature, its time and its nonce. -/
def validatePresentation (submitted : SubmittedPresentation) (nonce : String) :
    Except OpenID4VCError ExtractedPresentation := do
  let extract ← okOr (extractPresentation? env.formats (env.keys.verify .authentication)
    submitted.format) .vcFormatsNotSupported
  let presentation ← (extract submitted.presentation submitted.context).mapError presentationError
  validateTimes env presentation.issuedAt presentation.expiresAt Presentation.leeway
  ensure (presentation.nonce = some nonce) (.validationError "Nonce not matched")
  return presentation

def checkRevocationStatus (credential : DetailCredential) (input : ProofInputSchema)
    (status : CredentialStatus) : Except OpenID4VCError Unit := do
  let check ← okOr (env.getRevocationMethodByStatusType status.type)
    (.missingRevocationProviderForType status.type)
  let state ← (check status credential.issuer credential input).mapError .validationError
  ensure (state = .valid) .credentialIsRevokedOrSuspended

def checkHolder (holder : Option IdentifierDetails) (credential : DetailCredential)
    (allowedDidMethods : List DidType) : Except OpenID4VCError Unit :=
  match holder with
  | none => .ok ()
  | some holder => do
    let subject ← okOr credential.subject (.validationError "Claim Holder DID missing")
    checkMatchingIdentifiers env subject holder allowedDidMethods

def tryExtractingMsoFromToken (token : String) : Except FormatterError MobileSecurityObject := do
  let issuerSigned ← env.formats.mdoc.decodeIssuerSigned token
  Mdoc.tryExtractMobileSecurityObject env.formats.mdoc.toEnvironment issuerSigned.issuerAuth

def extractMso (format token : String) : Except OpenID4VCError (Option MobileSecurityObject) :=
  if format = "MDOC" then
    ((tryExtractingMsoFromToken env token).map some).mapError
      fun e => .validationError e.display
  else .ok none

/-- The check of a credential: its signature, its time, its status, its holder and its issuer. -/
def validateCredential (holder : Option IdentifierDetails) (token : String)
    (input : ProofInputSchema) (trustedAuthorities : Option (List TrustedAuthority)) :
    Except OpenID4VCError (DetailCredential × Option MobileSecurityObject) := do
  let format ← okOr (input.credentialSchema.map (·.format)) .vcFormatsNotSupported
  let formatter ← okOr (env.getCredentialFormatter format) .vcFormatsNotSupported
  let credential ← (formatter.extractCredentials (env.keys.verify .assertionMethod) token
    input.credentialSchema).mapError credentialError
  validateTimes env credential.validFrom credential.validUntil formatter.leeway
  forM credential.status (checkRevocationStatus env credential input)
  checkHolder env holder credential formatter.holderDidMethods
  (match trustedAuthorities with
    | none => .ok ()
    | some authorities => checkIssuerIsTrustedAuthority env credential.issuer authorities)
  let mso ← extractMso env format token
  return (credential, mso)

/-! ### DCQL queries -/

variable (interaction : InteractionContent) (protocolType : VerificationProtocolType)

def extractPresentationCtxFromInteractionContent : ExtractPresentationCtx :=
  ⟨protocolType, some interaction.nonce, none, none, none, none, some interaction.clientId,
    interaction.responseUri, interaction.encryptionKey, none⟩

def presentationContext (isMdoc : Bool) (mdocGeneratedNonce : Option String) :
    ExtractPresentationCtx :=
  if isMdoc then
    { extractPresentationCtxFromInteractionContent interaction protocolType with
      formatNonce := mdocGeneratedNonce }
  else
    ⟨protocolType, some interaction.nonce, none, none, none, none, some interaction.clientId,
      none, none, none⟩

variable (query : CredentialQuery)

def presentationFormatType (presentation : String) : Except OpenID4VCError FormatType :=
  match query.format with
  | .w3cSdJwt => .ok .jwt
  | format => okOr (mapFromOidcFormatToCoreDetailed env format.display presentation)
      .vcFormatsNotSupported

/-- The holder, and the credentials to check, for a query that requires holder binding: those of
the first presentation. -/
def presentedCredentials (presentations : List String) (context : ExtractPresentationCtx) :
    Except OpenID4VCError (IdentifierDetails × List String) := do
  ensure (¬(query.multiple = false ∧ presentations.length ≠ 1)) (.validationError
    ("Expected one presentation for credential query " ++ query.id))
  let presentation ← okOr presentations.head? (.validationError
    ("No presentations for credential query " ++ query.id))
  let format ← presentationFormatType env query presentation
  let extracted ← validatePresentation env ⟨format, presentation, context⟩ interaction.nonce
  let holder ← okOr extracted.issuer (.validationError "Presentation missing holder id")
  return (holder, extracted.credentials)

def provedClaims (input : ProofInputSchema) (holder : Option IdentifierDetails) (token : String) :
    Except OpenID4VCError (List ValidatedProofClaimDTO) := do
  let (credential, mso) ← validateCredential env holder token input query.trustedAuthorities
  let proved ← validateClaims credential input mso
  let satisfied (claimSet : List Str) : Bool :=
    claimSet.all fun claim => proved.any fun p => p.proofInputClaim.schema.key = claim
  ensure (¬query.claimSets.any fun claimSets => claimSets.any satisfied)
    (.validationError "Claim set is not satisfied")
  return proved

def validateCredentialQuery (input : ProofInputSchema)
    (presentations : List String) (context : ExtractPresentationCtx) :
    Except OpenID4VCError (List ValidatedProofClaimDTO) :=
  if query.requireCryptographicHolderBinding then do
    let (holder, credentials) ← presentedCredentials env interaction query presentations context
    Except.flatMapM credentials (provedClaims env query input (some holder))
  else
    -- no holder binding: the presentations are bare credentials
    Except.flatMapM presentations (provedClaims env query input none)

variable (inputSchemas : List ProofInputSchema)

/-- The input schema whose credential schema a query names. -/
def inputForQuery (queryId : String) : Option ProofInputSchema :=
  inputSchemas.find? fun input => input.credentialSchema.any fun schema => schema.id = queryId

def processQuery (vpToken : IndexMap String (List String))
    (mdocGeneratedNonce : Option String) (query : CredentialQuery) :
    Except OpenID4VCError (List ValidatedProofClaimDTO) := do
  let input ← okOr (inputForQuery inputSchemas query.id)
    (.other "Missing proof input schema for credential schema")
  let presentations ← okOr (vpToken.get? query.id) (.validationError
    ("No presentation found for credential query " ++ query.id))
  validateCredentialQuery env interaction query input presentations
    (presentationContext interaction protocolType (query.format = .msoMdoc) mdocGeneratedNonce)

variable (submission : SubmissionRequestData)

def processProofSubmissionDcqlQuery (proof : Proof)
    (queries : List CredentialQuery) : Except OpenID4VCError (List ValidatedProofClaimDTO) :=
  match submission.submissionData with
  | .dcql vpToken => do
    let inputSchemas ← okOr (proof.schema.bind (·.inputSchemas))
      (.mappingError "missing proof input schema")
    ensure (vpToken.entries.length = queries.length) (.validationError
      "Different count of requested and submitted credentials")
    Except.flatMapM queries (processQuery env interaction protocolType inputSchemas vpToken
      submission.mdocGeneratedNonce)
  | _ => .error (.validationError "Missing DCQL VP token")

/-! ### Presentation definitions -/

/-- The index at the end of a token path such as `$[0]`; a path without brackets means the
first position. -/
def vecLastPositionFromTokenPath (path : Str) : Except OpenID4VCError Nat :=
  if '[' ∉ path then .ok 0
  else if ']' ∉ path then .error (.mappingError "Credential path is incorrect")
  else
    let afterOpen := (path.reverse.takeWhile (· ≠ '[')).reverse
    -- the code aborts if the last closing bracket comes first
    if ']' ∉ afterOpen then .error (.other "slice index starts after its end")
    else
      let value := ((afterOpen.reverse.dropWhile (· ≠ ']')).drop 1).reverse
      okOr (env.parseUsize value) (.mappingError "Could not parse vec position")

/-- The presentations of a submission: a single token may hold a JSON array of them. -/
def presentationStrings (vpToken : List String) : Except OpenID4VCError (List String) :=
  match vpToken with
  | [token] =>
    if token.toList.head? = some '[' then (env.parseJsonArray token).mapError .validationError
    else .ok [token]
  | _ => .ok vpToken

/-- The presentation that an entry of the descriptor map refers to. -/
def descriptorPresentation (presentations : List String) (mdocGeneratedNonce : Option String)
    (entry : SubmissionDescriptor) : Except OpenID4VCError SubmittedPresentation := do
  let index ← vecLastPositionFromTokenPath env entry.path
  let presentation ← okOr presentations[index]? (.validationError
    ("Could not find presentation at index: " ++ toString index))
  let format ← okOr (mapFromOidcFormatToCoreDetailed env entry.format presentation)
    .vcFormatsNotSupported
  return ⟨format, presentation, presentationContext interaction protocolType
    (entry.format = "mso_mdoc") mdocGeneratedNonce⟩

def targetSchemaId (descriptor : InputDescriptor) : Except OpenID4VCError String :=
  if "mso_mdoc" ∈ descriptor.format then .ok descriptor.id
  else do
    -- there must be a specific schemaId filter
    let error := .validationError "Cannot find filter for schemaId"
    let field ← okOr (descriptor.fields.find? fun field =>
      (field.filterConst.isSome && decide ("$.credentialSchema.id" ∈ field.path)) ||
        decide ("$.vct" ∈ field.path)) error
    okOr field.filterConst error

def inputForDescriptor (descriptor : InputDescriptor) :
    Except OpenID4VCError ProofInputSchema := do
  let target ← targetSchemaId descriptor
  okOr (inputSchemas.find? fun input =>
      input.credentialSchema.any fun schema => schema.schemaId = target)
    (.other "Missing proof input schema for credential schema")

def credentialIndex (entry : SubmissionDescriptor) : Except OpenID4VCError Nat :=
  match entry.pathNested with
  | some nested => vecLastPositionFromTokenPath env nested.path
  | none => .ok 0

def findDescriptor (definition : List InputDescriptor) (entry : SubmissionDescriptor) :
    Except OpenID4VCError InputDescriptor :=
  okOr (definition.find? fun descriptor => descriptor.id = entry.id)
    (.validationError ("Could not find input descriptor id: " ++ entry.id))

def processDescriptor (definition : List InputDescriptor)
    (presentations : List String) (mdocGeneratedNonce : Option String)
    (entry : SubmissionDescriptor) : Except OpenID4VCError (List ValidatedProofClaimDTO) := do
  let descriptor ← findDescriptor definition entry
  let submitted ← descriptorPresentation env interaction protocolType presentations
    mdocGeneratedNonce entry
  let presentation ← validatePresentation env submitted interaction.nonce
  ensure (∀ nested ∈ entry.pathNested, nested.format ∈ descriptor.format)
    (.validationError ("Could not find entry for format: " ++
      (entry.pathNested.map NestedDescriptor.format).getD ""))
  let input ← inputForDescriptor inputSchemas descriptor
  let holder ← okOr presentation.issuer (.validationError "Presentation missing holder id")
  let index ← credentialIndex env entry
  let token ← okOr presentation.credentials[index]? (.validationError
    ("Credential at index " ++ toString index ++ " not found"))
  let (credential, mso) ← validateCredential env (some holder) token input none
  validateClaims credential input mso

def processProofSubmissionPresentationExchange (proof : Proof) (definition : List InputDescriptor) :
    Except OpenID4VCError (List ValidatedProofClaimDTO) :=
  match submission.submissionData with
  | .pex vpToken presentationSubmission => do
    ensure (presentationSubmission.definitionId = submission.state)
      (.validationError "Invalid submission state")
    let presentations ← presentationStrings env vpToken
    let schema ← okOr proof.schema (.mappingError "missing proof schema")
    let inputSchemas ← okOr (schema.inputSchemas.filter fun inputs => !inputs.isEmpty)
      (.other "Missing proof input schema")
    ensure (presentationSubmission.descriptorMap.length = definition.length)
      (.validationError "different count of requested and submitted credentials")
    forM definition fun descriptor =>
      ensure (∃ entry ∈ presentationSubmission.descriptorMap, entry.id = descriptor.id)
        (.validationError ("No descriptor map entry for input descriptor `" ++ descriptor.id ++
          "`"))
    Except.flatMapM presentationSubmission.descriptorMap (processDescriptor env interaction
      protocolType inputSchemas definition presentations submission.mdocGeneratedNonce)
  | _ => .error (.validationError "Missing presentation submission")

/-! ### Submissions -/

def processProofSubmission (proof : Proof) :
    Except OpenID4VCError (List ValidatedProofClaimDTO) := do
  ensure (proof.state = .pending ∨ proof.state = .requested)
    (.validationError ("Invalid Proof state: " ++ proof.state.display))
  match interaction.dcqlQuery, interaction.presentationDefinition with
  | some _, some _ => .error (.validationError
      "DCQL query and presentation submission are not allowed at the same time")
  | some queries, none =>
    processProofSubmissionDcqlQuery env interaction protocolType submission proof queries
  | none, some definition =>
    processProofSubmissionPresentationExchange env interaction protocolType submission proof
      definition
  | none, none => .error (.validationError "Missing DCQL query and presentation submission")

end OneCore.Openid4vp
