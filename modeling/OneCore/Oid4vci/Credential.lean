/-
# The credential endpoint

`create_credential` issues the credential of a schema for an access token and a proof of the holder.  It
checks the access token against the interaction, then the proof and its nonce, writes the nonce to the
interaction, checks the attestation of the key if the schema asks for one, and issues the credential in a
transaction.  The transaction locks the interaction and is rolled back on an error.

A mobile document may be fetched again when it has been accepted, once the minimum time has passed.
-/
import OneCore.Oid4vci.Token

namespace OneCore.Oid4vci

variable (env : IssuerEnvironment)

/-! ### The request and its proof -/

inductive CredentialIdentifier where
  | credentialConfigurationId (id : String)
  | credentialIdentifier (id : String)

inductive CredentialRequestProofs where
  | jwt (jwts : List String)
  | diVp (proofs : List String)
  | attestation (jwt : String)

structure CredentialRequest where
  credential : CredentialIdentifier
  proofs : Option CredentialRequestProofs

structure CredentialCall where
  schemaId : String
  accessToken : Str
  request : CredentialRequest

def throwIfCredentialRequestInvalid (schema : IssuerSchema) (request : CredentialRequest) :
    Except IssuerServiceError Unit :=
  match request.credential with
  | .credentialConfigurationId id =>
    ensure (schema.schemaId = id) (.openID4VCI .unsupportedCredentialType)
  | .credentialIdentifier _ => .error (.openID4VCI .invalidRequest)

/-- A credential request whose access token has been accepted. -/
structure AuthorizedCredential where
  call : CredentialCall
  schema : IssuerSchema
  interactionId : String

variable (now : Timestamp)

def authorizeCredential (db : Database) (call : CredentialCall) :
    Except IssuerServiceError AuthorizedCredential := do
  let schema ← okOr (db.getCredentialSchema call.schemaId) (.missingCredentialSchema call.schemaId)
  throwIfCredentialRequestInvalid schema call.request
  let interactionId ← (parseAccessToken env call.accessToken).mapError .openID4VCI
  let interaction ← okOr (db.interactions.get? interactionId)
    (.missingInteractionForAccessToken interactionId)
  let data ← interactionDataToDto interaction
  throwIfAccessTokenInvalid env now data call.accessToken
  return ⟨call, schema, interactionId⟩

def nonceContext : String := "issuance-openidvci-final-1.0-nonce"

/-- The id of a nonce that this issuer has signed and that has not expired. -/
def validateNonce (params : NonceParams) (nonce : String) :
    Except IssuerServiceError String := do
  let token ← (env.decomposeNonce nonce).mapError fun _ => .nested "parsing nonce token"
  ensure (token.header.algorithm = "HS256") (.nested "validating algorithm")
  match token.payload.issuedAt, token.payload.expiresAt, token.payload.issuer with
  | some issuedAt, some expiresAt, some issuer => do
    (validateIssuanceTime now (some issuedAt) params.leeway).mapError fun _ =>
      .nested "checking validity"
    (validateExpirationTime now (some expiresAt) params.leeway).mapError fun _ =>
      .nested "checking validity"
    ensure (some issuer = env.baseUrl) (.nested "validating issuer")
    ensure (token.payload.custom.context = nonceContext) (.nested "validating context")
    let id ← okOr token.payload.custom.jwtId (.nested "validating nonce_id")
    let id ← okOr (env.parseUuid id.toList) (.nested "validating nonce_id")
    let expectedSignature ← (env.createHmac params.signingKey token.unverifiedJwt).mapError fun _ =>
      .nested "validating signature"
    ensure (expectedSignature = token.signature) (.nested "verifying signature")
    return id
  | _, _, _ => .error (.nested "validating payload")

/-- A credential request whose proof has been verified. -/
structure ProvedCredential where
  call : CredentialCall
  schema : IssuerSchema
  interactionId : String
  credentialId : String
  /-- The credential as it was when it was read. -/
  credential : IssuerCredential
  proof : VerifiedProof
  nonceId : String
  params : Final1Params

def CredentialRequest.proofJwt (request : CredentialRequest) : Except IssuerServiceError String :=
  match request.proofs with
  | some (.jwt (jwt :: _)) => .ok jwt
  | _ => .error (.openID4VCI .invalidOrMissingProof)

/-- The credential of the schema, and the check of the proof of the holder and its nonce. -/
def proveCredential (db : Database) (authorized : AuthorizedCredential) :
    Except IssuerServiceError ProvedCredential := do
  let credentials := db.getCredentialsByInteractionId authorized.interactionId
  let (id, credential) ← okOr
    (credentials.find? fun e => e.2.schemaId = authorized.call.schemaId)
    (.missingCredentialsForInteraction authorized.interactionId)
  (env.validateIssuanceProtocolType credential.protocol).mapError fun _ =>
    .nested "validating protocol type"
  let jwt ← authorized.call.request.proofJwt
  let proof ← (env.verifyProof jwt).mapError fun _ => .openID4VCI .invalidOrMissingProof
  let nonce ← okOr proof.nonce (.openID4VCI .invalidNonce)
  let params ← (env.protocolParams credential.protocol).mapError fun _ =>
    .nested "getting protocol params"
  let nonceParams ← okOr params.nonce (.nested "getting nonce params")
  let nonceId ← (validateNonce env now nonceParams nonce).mapError fun _ => .openID4VCI .invalidNonce
  return ⟨authorized.call, authorized.schema, authorized.interactionId, id, credential, proof, nonceId,
    params⟩

def useNonce (db : Database) (proved : ProvedCredential) : Except IssuerServiceError Database :=
  (db.markNonceAsUsed proved.interactionId proved.nonceId).mapError fun _ =>
    .openID4VCI .invalidNonce

/-! ### The attestation of the key -/

/-- The keys of an attestation for the given level of security. -/
def validateKeyAttestation (jwt : String) (level : KeyStorageSecurity)
    (leeway : Nat) : Except IssuerServiceError (List PublicJwk) := do
  let attestation ← (env.decomposeKeyAttestation jwt).mapError fun _ => .nested "parsing WUA token"
  validateTimestamps now attestation attestation.payload.custom.invalidBefore leeway
  ensure (level ∈ attestation.payload.custom.keyStorage) (.openID4VCI .invalidRequest)
  let source ← attestationKeySource attestation.header
  (Jwt.verifySignature env.jose attestation source env.authenticationVerifier).mapError fun _ =>
    .nested "validating WUA token"
  return attestation.payload.custom.attestedKeys

/-- Both attestations name the same issuer in the same way. -/
def verifyWuaWiaIssuersMatch (wuaJwt : String)
    (wia : DecomposedToken WalletInstanceAttestationClaims) : Except IssuerServiceError Unit := do
  let wua ← (env.decomposeKeyAttestation wuaJwt).mapError fun _ => .nested "parsing WUA token"
  ensure ((wia.header.jwk, wia.header.x5c) = (wua.header.jwk, wua.header.x5c))
    (.openID4VCI .invalidRequest)

def proofSigningKey (binding : ProofHolderBinding) : Except IssuerServiceError PublicJwk :=
  match binding with
  | .did did keyId => do
    let document ← (env.resolveDid did).mapError fun _ => .openID4VCI .invalidOrMissingProof
    let method ← okOr (document.findVerificationMethod (some keyId) (some .authentication))
      (.openID4VCI .invalidOrMissingProof)
    return method.publicKeyJwk
  | .jwk jwk => .ok jwk

/-- The attestation of the wallet is only looked at for a schema with a level of key security. -/
def checkKeyAttestation (proved : ProvedCredential) : Except IssuerServiceError Unit :=
  match proved.schema.keyStorageSecurity, proved.proof.keyAttestation with
  | some _, none => .error (.openID4VCI .invalidOrMissingProof)
  | some level, some keyAttestation => do
    let attestedKeys ← validateKeyAttestation env now keyAttestation level
      proved.params.keyAttestationLeeway
    let revoked ← (env.isAttestationRevoked keyAttestation).mapError fun _ =>
      .nested "checking wallet unit attestation status"
    ensure (¬revoked) (.openID4VCI .invalidOrMissingProof)
    Except.checkIf proved.schema.requiresWalletInstanceAttestation do
      let stored ← okOr proved.credential.walletInstanceAttestation
        (.openID4VCI .invalidOrMissingProof)
      let wia ← (env.decomposeAttestation stored.attestation).mapError fun _ =>
        .nested "parsing WIA token"
      verifyWuaWiaIssuersMatch env keyAttestation wia
    let key ← proofSigningKey env proved.proof.holderBinding
    ensure (key ∈ attestedKeys) (.openID4VCI .invalidOrMissingProof)
  | none, some _ => .error (.openID4VCI .invalidOrMissingProof)
  | none, none => .ok ()

def checkHolder (proved : ProvedCredential) : Except IssuerServiceError Unit := do
  checkKeyAttestation env now proved
  (env.remoteIdentifier proved.proof.holderBinding).mapError fun _ =>
    .nested "creating remote holder identifier"

/-! ### The transaction -/

def validateCredentialIssuable (db : Database) (credentialId : String)
    (latestState : CredentialState) (format : String) (formatType : FormatType) :
    Except IssuanceProtocolError Unit :=
  match latestState, formatType with
  | .accepted, .mdoc => do
    let createdDate ← okOr (db.latestValidity credentialId)
      (.failed ("Missing verifiable credential for MDOC: " ++ credentialId))
    let minimumRefreshTime ← (env.msoMinimumRefreshTime format).mapError fun _ =>
      .nested "getting format params"
    ensure (¬createdDate + minimumRefreshTime > now) .refreshTooSoon
  | .suspended, .mdoc => .error .suspended
  | .offered, _ => .ok ()
  | _, _ => .error (.invalidRequest "invalid state")

/-- The token of a credential, and the rows that change with it. -/
def issuerIssueCredential (db : Database) (credentialId : String) :
    Except IssuanceProtocolError (String × Database) := do
  let credential ← okOr (db.credentials.get? credentialId) (.failed "Credential not found")
  let schema ← okOr (db.getCredentialSchema credential.schemaId)
    (.failed "credential_schema is None")
  let formatType ← (env.formatType schema.format).mapError fun _ => .nested "getting format config"
  validateCredentialIssuable env now db credentialId credential.state schema.format formatType
  let token ← env.formatCredential credentialId now
  let withValidity (db : Database) : Database :=
    { db with validityCredentials := db.validityCredentials ++ [(credentialId, now)] }
  let accepted : Database :=
    { db with credentials := db.credentials.insert credentialId { credential with state := .accepted } }
  return (token, match formatType, credential.state with
    | .mdoc, .accepted => withValidity db
    | .mdoc, .offered => withValidity accepted
    | _, _ => accepted)

structure CredentialResponse where
  credential : String
  notificationId : String
deriving DecidableEq

/-- The transaction of `create_credential`. -/
def issueTx (random : Randomness) (db : Database) (proved : ProvedCredential) :
    Except IssuerServiceError (CredentialResponse × Database) := do
  let interaction ← okOr (db.interactions.get? proved.interactionId)
    (.missingInteractionForAccessToken proved.interactionId)
  let data ← interactionDataToDto interaction
  let (token, db) ← (issuerIssueCredential env now db proved.credentialId).mapError fun _ =>
    .nested "issuing credential"
  let db ← db.updateInteraction proved.interactionId
    { data with notificationId := some random.notificationId }
  return (⟨token, random.notificationId⟩, db)

/-! ### What a successful step has established -/

section Established

variable {env} {now : Timestamp} {random : Randomness} {db db' : Database}

lemma isAccessTokenValid_iff {data : InteractionData} {token : Str} :
    isAccessTokenValid env now data token = true ↔ data.preAuthorizedCodeUsed = true ∧
      env.hash token = .ok data.accessTokenHash ∧
      ∃ expiresAt, data.accessTokenExpiresAt = some expiresAt ∧ now < expiresAt := by
  simp [isAccessTokenValid, Except.okAnd_eq_true_iff, Option.any_eq_true, and_assoc]

lemma authorizeCredential_eq_ok_iff {call : CredentialCall} {authorized : AuthorizedCredential} :
    authorizeCredential env now db call = .ok authorized ↔
      ∃ schema interactionId interaction data,
        db.getCredentialSchema call.schemaId = some schema ∧
        throwIfCredentialRequestInvalid schema call.request = .ok () ∧
        parseAccessToken env call.accessToken = .ok interactionId ∧
        db.interactions.get? interactionId = some interaction ∧ interaction.data = some data ∧
        isAccessTokenValid env now data call.accessToken = true ∧
        authorized = ⟨call, schema, interactionId⟩ := by
  simp only [authorizeCredential, interactionDataToDto, throwIfAccessTokenInvalid, ok_iffs,
    exists_unit_iff]
  tauto

/-- A nonce is written to an empty column only, and if no interaction has it. -/
lemma markNonceAsUsed_eq_ok_iff {id nonceId : String} :
    db.markNonceAsUsed id nonceId = .ok db' ↔ ∃ i, db.interactions.get? id = some i ∧
      i.nonceId = none ∧ (∀ j k, db.interactions.get? j = some k → k.nonceId ≠ some nonceId) ∧
      db' = { db with interactions :=
        db.interactions.insert id { i with nonceId := some nonceId } } := by
  have hany : (db.interactions.entries.any fun e => e.2.nonceId = some nonceId) = false ↔
      ∀ j k, db.interactions.get? j = some k → k.nonceId ≠ some nonceId := by
    simp [IndexMap.get?_eq_some_iff]
  unfold Database.markNonceAsUsed
  cases hget : db.interactions.get? id with
  | none => simp
  | some i =>
    simp only
    constructor
    · intro h
      split at h
      · cases h
      · next hnon =>
        split at h
        · cases h
        · next hused =>
          refine ⟨i, rfl, by simpa using hnon, hany.1 (by simpa using hused), ?_⟩
          exact (Except.ok.inj h).symm
    · rintro ⟨i', heq, hnon, hfree, rfl⟩
      cases heq
      rw [if_neg (by simp [hnon]), if_neg (by simp [hany.2 hfree])]

lemma state_of_validateCredentialIssuable {id format : String} {state : CredentialState}
    {formatType : FormatType}
    (h : validateCredentialIssuable env now db id state format formatType = .ok ()) :
    state = .offered ∨ state = .accepted ∧ formatType = .mdoc := by
  unfold validateCredentialIssuable at h
  split at h
  · exact .inr ⟨rfl, rfl⟩
  · cases h
  · exact .inl rfl
  · cases h

/-- The issuance of a token changes the credential and the list of its tokens only. -/
lemma issuerIssueCredential_eq_ok {id token : String}
    (h : issuerIssueCredential env now db id = .ok (token, db')) :
    ∃ credential, db.credentials.get? id = some credential ∧
      (credential.state = .offered ∨ credential.state = .accepted) ∧
      db'.schemas = db.schemas ∧ db'.interactions = db.interactions ∧
      ∀ j, db'.credentials.get? j =
        if j = id then some { credential with state := .accepted } else db.credentials.get? j := by
  simp only [issuerIssueCredential, ok_iffs, exists_unit_iff, Prod.mk.injEq] at h
  obtain ⟨credential, hget, schema, -, formatType, -, hissu, _, -, rfl, rfl⟩ := h
  have hinsert : ∀ j, (db.credentials.insert id { credential with state := .accepted }).get? j =
      if j = id then some { credential with state := .accepted } else db.credentials.get? j :=
    fun j => IndexMap.get?_insert _ _ _ _
  rcases state_of_validateCredentialIssuable hissu with hoffe | ⟨hacc, rfl⟩
  · refine ⟨credential, hget, .inl hoffe, ?_⟩
    rw [hoffe]
    split
    · next heq => cases heq
    · exact ⟨rfl, rfl, hinsert⟩
    · exact ⟨rfl, rfl, hinsert⟩
  · refine ⟨credential, hget, .inr hacc, ?_⟩
    rw [hacc]
    refine ⟨rfl, rfl, fun j => ?_⟩
    by_cases hj : j = id
    · rw [if_pos hj, hj, hget, ← hacc]
    · rw [if_neg hj]

/-- What the transaction of an issuance has checked and written. -/
structure Issuance (env : IssuerEnvironment) (db : Database) (proved : ProvedCredential)
    (response : CredentialResponse) (db' : Database) where
  interaction : Interaction
  data : InteractionData
  credential : IssuerCredential
  get_eq : db.interactions.get? proved.interactionId = some interaction
  data_eq : interaction.data = some data
  credential_eq : db.credentials.get? proved.credentialId = some credential
  state_eq : credential.state = .offered ∨ credential.state = .accepted
  schemas_eq : db'.schemas = db.schemas
  interactions_eq : db'.interactions = db.interactions.insert proved.interactionId
    { interaction with data := some { data with notificationId := some response.notificationId } }
  credentials_get : ∀ id, db'.credentials.get? id = if id = proved.credentialId then
    some { credential with state := .accepted } else db.credentials.get? id

lemma nonempty_issuance {proved : ProvedCredential} {response : CredentialResponse}
    (h : issueTx env now random db proved = .ok (response, db')) :
    Nonempty (Issuance env db proved response db') := by
  simp only [issueTx, interactionDataToDto, ok_iffs, Prod.mk.injEq, Prod.exists] at h
  obtain ⟨interaction, hget, data, hdata, token, db₁, hiss, db₂, hupd, rfl, rfl⟩ := h
  obtain ⟨credential, hcred, hst, hsche, hinte, hcreds⟩ :=
    issuerIssueCredential_eq_ok hiss
  obtain ⟨i, hi, rfl⟩ := updateInteraction_eq_ok_iff.1 hupd
  rw [hinte] at hi
  obtain rfl := mem_unique hget hi
  exact ⟨⟨interaction, data, credential, hget, hdata, hcred, hst, hsche,
    by rw [hinte], hcreds⟩⟩

end Established

end OneCore.Oid4vci
