/-
# The token endpoint

`create_token` exchanges a pre-authorized code or a refresh token for an access token.  It works in three
parts.  `readToken` finds the credentials of the interaction and checks the attestation of the wallet, if
the schema named in the URL asks for one.  `createTokenTx` locks the interaction, checks the request
against its data and writes the new tokens, all in one transaction that is rolled back on an error.  After
a failure that a wrong transaction code may have caused, the credentials that were read in the first part
are put into the error state, one after the other.
-/
import OneCore.Oid4vci.Model

namespace OneCore.Oid4vci

open List Option

/-! ### The environment -/

structure NonceParams where
  signingKey : Bytes
  leeway : Nat

structure Final1Params where
  oauthAttestationLeeway : Nat
  keyAttestationLeeway : Nat
  nonce : Option NonceParams

structure WalletInstanceAttestationClaims where
  invalidBefore : Option Timestamp
  proofOfPossessionKey : Option PublicJwk
  walletName : Option String
  walletLink : Option String

structure PopClaims where
  invalidBefore : Option Timestamp

structure NonceClaims where
  context : String
  jwtId : Option String

structure WalletUnitAttestationClaims where
  invalidBefore : Option Timestamp
  keyStorage : List KeyStorageSecurity
  attestedKeys : List PublicJwk

inductive ProofHolderBinding where
  | did (did keyId : String)
  | jwk (jwk : PublicJwk)

structure VerifiedProof where
  holderBinding : ProofHolderBinding
  nonce : Option String
  keyAttestation : Option String

structure IssuerEnvironment where
  jose : JoseEnvironment
  parseUuid : Str → Option String
  displayUuid : String → Str
  /-- The SHA-256 hash of a text. -/
  hash : Str → Except String Bytes
  /-- The parameters of the first configured protocol of this type. -/
  configEntity : Except String Final1Params
  validateIssuanceProtocolType : String → Except String Unit
  protocolParams : String → Except String Final1Params
  preAuthorizationExpiresIn : String → Except String Int
  tokenExpiresIn : String → Except String Int
  refreshTokenExpiresIn : String → Except String Int
  formatType : String → Except String FormatType
  msoMinimumRefreshTime : String → Except String Int
  baseUrl : Option String
  protocolBaseUrl : Option String
  decomposeAttestation : String → Except String (DecomposedToken WalletInstanceAttestationClaims)
  decomposePop : String → Except String (DecomposedToken PopClaims)
  decomposeNonce : String → Except String (DecomposedToken NonceClaims)
  decomposeKeyAttestation : String → Except String (DecomposedToken WalletUnitAttestationClaims)
  /-- Verification with a key that is given as a JWK. -/
  verifyWithJwk : KeyAlgorithmType → PublicJwk → Bytes → Bytes → Except String Unit
  /-- Verification with an assertion key. -/
  assertionVerifier : TokenVerifier
  /-- Verification with an authentication key. -/
  authenticationVerifier : TokenVerifier
  createHmac : Bytes → Bytes → Except String Bytes
  verifyProof : String → Except String VerifiedProof
  resolveDid : String → Except String DidDocument
  /-- Is the attestation of a wallet unit revoked? -/
  isAttestationRevoked : String → Except String Bool
  /-- Find or create the identifier of a holder. -/
  remoteIdentifier : ProofHolderBinding → Except String Unit
  /-- Everything between the check of the state of a credential and its token. -/
  formatCredential : String → Timestamp → Except IssuanceProtocolError String

/-- The texts that a transaction draws at random. -/
structure Randomness where
  accessToken : Str
  refreshToken : Str
  mdocRefreshToken : Str
  notificationId : String

variable (env : IssuerEnvironment)

/-! ### Requests and their checks -/

inductive TokenRequest where
  | preAuthorizedCode (preAuthorizedCode : Str) (txCode : Option String)
  | authorizationCode
  | refreshToken (refreshToken : Str)
deriving DecidableEq

structure TokenResponse where
  accessToken : Str
  tokenType : String
  /-- In seconds since the epoch. -/
  expiresIn : Int
  refreshToken : Option Str
  refreshTokenExpiresIn : Option Int
deriving DecidableEq

/-- A token begins with the id of its interaction. -/
def parseAccessToken (accessToken : Str) : Except OpenID4VCIError String :=
  match accessToken.splitOn '.' with
  | [id, _] => okOr (env.parseUuid id) (.runtimeError "Could not parse UUID")
  | _ => .error .invalidToken

def parseRefreshToken (token : Str) : Except OpenID4VCIError String := parseAccessToken env token

def interactionDataToDto (interaction : Interaction) : Except IssuerServiceError InteractionData :=
  okOr interaction.data (.mappingError "interaction data is missing")

variable (now : Timestamp)

def isAccessTokenValid (data : InteractionData) (accessToken : Str) : Bool :=
  data.preAuthorizedCodeUsed && (env.hash accessToken).okAnd (fun hash => hash = data.accessTokenHash) &&
    data.accessTokenExpiresAt.any fun expiresAt => expiresAt > now

def throwIfAccessTokenInvalid (data : InteractionData) (accessToken : Str) :
    Except IssuerServiceError Unit :=
  ensure (isAccessTokenValid env now data accessToken) (.openID4VCI .invalidToken)

def throwIfTokenRequestInvalid : TokenRequest → Except OpenIDIssuanceError Unit
  | .preAuthorizedCode code _ => ensure (code ≠ []) (.openID4VCI .invalidRequest)
  | .refreshToken token => ensure (token ≠ []) (.openID4VCI .invalidRequest)
  | .authorizationCode => .ok ()

def throwIfTxCodeInvalid (expectedCode : Option String) (request : TokenRequest) :
    Except OpenID4VCIError Unit :=
  match expectedCode, request with
  | some expectedCode, .preAuthorizedCode _ (some requestCode) =>
    ensure (expectedCode = requestCode) .invalidGrant
  | some _, _ => .error .invalidRequest
  | none, .preAuthorizedCode _ (some _) => .error .invalidRequest
  | none, _ => .ok ()

def throwIfInteractionCreatedDate (preAuthorizationExpiresIn : Int)
    (interaction : Interaction) : Except OpenIDIssuanceError Unit :=
  ensure (¬interaction.createdDate + preAuthorizationExpiresIn < now) (.openID4VCI .invalidGrant)

def throwIfInteractionPreAuthorizedCodeUsed (data : InteractionData) :
    Except OpenIDIssuanceError Unit :=
  ensure (¬data.preAuthorizedCodeUsed) (.openID4VCI .invalidGrant)

def throwIfCredentialStateNotEq (credential : IssuerCredential) (state : CredentialState) :
    Except OpenIDIssuanceError Unit :=
  ensure (credential.state = state) (.invalidCredentialState credential.state)

def validateRefreshToken (data : InteractionData) (refreshToken : Str) :
    Except OpenIDIssuanceError Unit := do
  let storedRefreshTokenHash ← okOr data.refreshTokenHash (.openID4VCI .invalidRequest)
  let refreshTokenHash ← (env.hash refreshToken).mapError .validationError
  ensure (storedRefreshTokenHash = refreshTokenHash) (.openID4VCI .invalidToken)
  let expiresAt ← okOr data.refreshTokenExpiresAt (.openID4VCI .invalidRequest)
  ensure (¬now > expiresAt) (.openID4VCI .invalidToken)

/-! ### The new tokens -/

/-- Tokens have the id of the interaction before the random text. -/
def generateNewToken (interactionId : String) (random : Str) : Str :=
  env.displayUuid interactionId ++ '.' :: random

def unixTimestamp (t : Timestamp) : Int := t / seconds 1

def fromUnixTimestamp (n : Int) : Except String Timestamp :=
  if -377705116800 ≤ n ∧ n ≤ 253402300799 then .ok (n * seconds 1)
  else .error "timestamp must be in the range"

def oidcIssuerCreateToken (random : Randomness) (data : InteractionData)
    (credentials : List IssuerCredential) (interactionId : String) (interaction : Interaction)
    (request : TokenRequest)
    (preAuthorizationExpiresIn accessTokenExpiresIn refreshTokenExpiresIn : Int) :
    Except OpenIDIssuanceError TokenResponse := do
  throwIfTokenRequestInvalid request
  (throwIfTxCodeInvalid data.transactionCode request).mapError .openID4VCI
  match request with
  | .preAuthorizedCode _ _ => do
    throwIfInteractionCreatedDate now preAuthorizationExpiresIn interaction
    throwIfInteractionPreAuthorizedCodeUsed data
    forM credentials fun credential => throwIfCredentialStateNotEq credential .pending
    return ⟨generateNewToken env interactionId random.accessToken, "bearer",
      unixTimestamp (now + accessTokenExpiresIn), none, none⟩
  | .refreshToken refreshToken => do
    validateRefreshToken env now data refreshToken
    -- we update both the access token and the refresh token
    return ⟨generateNewToken env interactionId random.accessToken, "bearer",
      unixTimestamp (now + accessTokenExpiresIn),
      some (generateNewToken env interactionId random.refreshToken),
      some (unixTimestamp (now + refreshTokenExpiresIn))⟩
  | .authorizationCode => .error (.openID4VCI .invalidGrant)

def interactionDataOfResponse (response : TokenResponse) : Except OpenID4VCIError InteractionData := do
  let accessTokenHash ← (env.hash response.accessToken).mapError .runtimeError
  let accessTokenExpiresAt ← (fromUnixTimestamp response.expiresIn).mapError .runtimeError
  let refreshTokenHash ← response.refreshToken.mapM fun refreshToken =>
    (env.hash refreshToken).mapError .runtimeError
  let refreshTokenExpiresAt ← response.refreshTokenExpiresIn.mapM fun expiresIn =>
    (fromUnixTimestamp expiresIn).mapError .runtimeError
  return ⟨true, accessTokenHash, some accessTokenExpiresAt, refreshTokenHash, refreshTokenExpiresAt,
    none, none⟩

/-! ### The attestation of the wallet -/

section Attestation

variable {α : Type}

def validateTimestamps (now : Timestamp) (token : DecomposedToken α) (invalidBefore : Option Timestamp)
    (leeway : Nat) : Except IssuerServiceError Unit := do
  (validateIssuanceTime now token.payload.issuedAt leeway).mapError fun _ =>
    .nested "checking validity"
  (validateNotBeforeTime now invalidBefore leeway).mapError fun _ => .nested "checking validity"
  (validateExpirationTime now token.payload.expiresAt leeway).mapError fun _ =>
    .nested "checking validity"

def validatePopAudience (popToken : DecomposedToken α) (expectedAudience : String) :
    Except IssuerServiceError Unit :=
  ensure (expectedAudience ∈ popToken.payload.audience.getD []) (.openID4VCI .invalidRequest)

/-- The proof of possession is signed with the key in the attestation. -/
def verifyPopSignature (popToken : DecomposedToken PopClaims)
    (attestation : DecomposedToken WalletInstanceAttestationClaims) :
    Except IssuerServiceError Unit := do
  let alg ← okOr (env.jose.keyAlgorithmFromJoseAlg popToken.header.algorithm)
    (.openID4VCI .invalidRequest)
  let jwk ← okOr attestation.payload.custom.proofOfPossessionKey (.openID4VCI .invalidRequest)
  (env.verifyWithJwk alg jwk popToken.unverifiedJwt popToken.signature).mapError fun _ =>
    .openID4VCI .invalidRequest

def attestationKeySource (header : JWTHeader) : Except IssuerServiceError PublicKeySource :=
  match header.jwk, header.x5c with
  | some jwk, none => .ok (.jwk jwk)
  | none, some x5c => .ok (.x5c x5c)
  | _, _ => .error (.openID4VCI .invalidRequest)

def verifyWiaSignature (attestation : DecomposedToken WalletInstanceAttestationClaims) :
    Except IssuerServiceError Unit := do
  let publicKeySource ← attestationKeySource attestation.header
  (Jwt.verifySignature env.jose attestation publicKeySource env.assertionVerifier).mapError fun _ =>
    .openID4VCI .invalidRequest

def extractWalletMetadata (attestation : DecomposedToken WalletInstanceAttestationClaims) :
    Except IssuerServiceError (String × String) := do
  let name ← okOr attestation.payload.custom.walletName (.openID4VCI .invalidRequest)
  let link ← okOr attestation.payload.custom.walletLink (.openID4VCI .invalidRequest)
  return (name, link)

/-- An attestation and a proof of possession are checked if the schema asks for them, and refused if
it does not. -/
def validateOauthClientAttestation (now : Timestamp)
    (oauthClientAttestation oauthClientAttestationPop : Option String) (schema : IssuerSchema)
    (protocolId : String) (leeway : Nat) :
    Except IssuerServiceError (Option WalletInstanceAttestation) :=
  if schema.requiresWalletInstanceAttestation then do
    let attestationToken ← okOr oauthClientAttestation (.openID4VCI .invalidRequest)
    let popToken ← okOr oauthClientAttestationPop (.openID4VCI .invalidRequest)
    let attestation ← (env.decomposeAttestation attestationToken).mapError fun _ =>
      .nested "parsing WIA token"
    let pop ← (env.decomposePop popToken).mapError fun _ => .nested "parsing WUA token"
    validateTimestamps now attestation attestation.payload.custom.invalidBefore leeway
    validateTimestamps now pop pop.payload.custom.invalidBefore leeway
    let baseUrl ← okOr env.protocolBaseUrl (.openID4VCI .invalidRequest)
    validatePopAudience pop (baseUrl ++ "/" ++ protocolId ++ "/" ++ schema.id)
    verifyPopSignature env pop attestation
    verifyWiaSignature env attestation
    let (name, link) ← extractWalletMetadata attestation
    return some ⟨name, link, attestationToken⟩
  else if oauthClientAttestation.isSome || oauthClientAttestationPop.isSome then
    .error (.openID4VCI .invalidRequest)
  else .ok none

end Attestation

/-! ### The parts of a token request -/

structure TokenCall where
  schemaId : String
  request : TokenRequest
  attestation : Option String
  attestationPop : Option String

def TokenRequest.interactionId : TokenRequest → Except IssuerServiceError String
  | .preAuthorizedCode code _ =>
    okOr (env.parseUuid code) (.openID4VCI .invalidRequest)
  | .authorizationCode => .error (.openID4VCI .invalidGrant)
  | .refreshToken token => (parseRefreshToken env token).mapError .openID4VCI

/-- A token request after its first part: what it has read. -/
structure PreparedToken where
  call : TokenCall
  schema : IssuerSchema
  interactionId : String
  /-- The credentials as they were when they were read. -/
  credentials : List (String × IssuerCredential)
  attestation : Option WalletInstanceAttestation
  preAuthorizationExpiresIn : Int
  accessTokenExpiresIn : Int
  refreshTokenExpiresIn : Int

/-- The part of `create_token` before the transaction. -/
def readToken (db : Database) (call : TokenCall) :
    Except IssuerServiceError PreparedToken := do
  let params ← env.configEntity.mapError fun _ => .nested "checking config"
  let schema ← okOr (db.getCredentialSchema call.schemaId) (.missingCredentialSchema call.schemaId)
  let interactionId ← call.request.interactionId env
  let credentials := db.getCredentialsByInteractionId interactionId
  let first ← okOr credentials.head? (.missingCredentialsForInteraction interactionId)
  let protocol := first.2.protocol
  (env.validateIssuanceProtocolType protocol).mapError fun _ => .nested "validating protocol type"
  let attestation ← validateOauthClientAttestation env now call.attestation call.attestationPop schema
    protocol params.oauthAttestationLeeway
  let preAuthorizationExpiresIn ← (env.preAuthorizationExpiresIn protocol).mapError fun _ =>
    .nested "getting issuance params"
  let accessTokenExpiresIn ← (env.tokenExpiresIn protocol).mapError fun _ =>
    .nested "getting issuance params"
  let refreshTokenExpiresIn ← (env.refreshTokenExpiresIn protocol).mapError fun _ =>
    .nested "getting issuance params"
  return ⟨call, schema, interactionId, credentials, attestation, preAuthorizationExpiresIn,
    accessTokenExpiresIn, refreshTokenExpiresIn⟩

/-- What the transaction writes to each credential: the attestation if there is one, and the state if
a pre-authorized code was used. -/
def tokenUpdate (attestation : Option WalletInstanceAttestation) (request : TokenRequest)
    (credential : IssuerCredential) : IssuerCredential :=
  { credential with
    walletInstanceAttestation := attestation.or credential.walletInstanceAttestation
    state := match request with
      | .preAuthorizedCode _ _ => .offered
      | _ => credential.state }

/-- Only update the credentials if there is a change. -/
def updateTokenCredentials (prepared : PreparedToken) (db : Database) :
    Except IssuerServiceError Database :=
  match prepared.attestation, prepared.call.request with
  | none, .refreshToken _ | none, .authorizationCode => .ok db
  | attestation, request => prepared.credentials.foldlM (fun db credential =>
      db.updateCredential credential.1 (tokenUpdate attestation request)) db

def addMdocRefreshToken (random : Randomness) (prepared : PreparedToken)
    (formatType : FormatType) (response : TokenResponse) : TokenResponse :=
  if formatType = .mdoc then
    { response with
      refreshToken := some (generateNewToken env prepared.interactionId random.mdocRefreshToken)
      refreshTokenExpiresIn := some (unixTimestamp (now + prepared.refreshTokenExpiresIn)) }
  else response

def createTokenTx (random : Randomness) (db : Database) (prepared : PreparedToken) :
    Except IssuerServiceError (TokenResponse × Database) := do
  let interaction ← okOr (db.interactions.get? prepared.interactionId)
    (.mappingError ("Interaction `" ++ prepared.interactionId ++ "` not found"))
  let data ← interactionDataToDto interaction
  let response ← (oidcIssuerCreateToken env now random data (prepared.credentials.map Prod.snd)
    prepared.interactionId interaction prepared.call.request prepared.preAuthorizationExpiresIn
    prepared.accessTokenExpiresIn prepared.refreshTokenExpiresIn).mapError .ofIssuance
  let db ← updateTokenCredentials prepared db
  let formatType ← (env.formatType prepared.schema.format).mapError fun _ =>
    .nested "getting format config"
  let response := addMdocRefreshToken env now random prepared formatType response
  let data ← (interactionDataOfResponse env response).mapError .openID4VCI
  let db ← db.updateInteraction prepared.interactionId data
  return (response, db)

/-- The credentials that are put into the error state after a failed transaction. -/
def erroredCredentials (prepared : PreparedToken) (e : IssuerServiceError) : List String :=
  match e, prepared.call.request with
  | .openID4VCI .invalidGrant, .preAuthorizedCode _ (some _) => prepared.credentials.map Prod.fst
  | _, _ => []

/-! ### What a granted request has established -/

variable {txCode : Option String}

section Granted

variable {env} {now : Timestamp} {random : Randomness} {db db' : Database}

variable {token : Str} {interaction : Interaction}

lemma throwIfTxCodeInvalid_refreshToken {expectedCode : Option String} :
    throwIfTxCodeInvalid expectedCode (.refreshToken token) = .ok () ↔ expectedCode = none := by
  cases expectedCode with
  | none => exact iff_of_true rfl rfl
  | some code => exact iff_of_false (by simp [throwIfTxCodeInvalid]) (by simp)

variable {data : InteractionData} {id : String} {response : TokenResponse}
  {credentials : List IssuerCredential} {preAuth access refresh : Int}

/-- A pre-authorized code is granted once, in time, with the right transaction code, and as long as the
credentials are pending. -/
lemma oidcIssuerCreateToken_preAuthorizedCode {code : Str} :
    oidcIssuerCreateToken env now random data credentials id interaction
        (.preAuthorizedCode code txCode) preAuth access refresh = .ok response ↔
      code ≠ [] ∧
      throwIfTxCodeInvalid data.transactionCode (.preAuthorizedCode code txCode) = .ok () ∧
      ¬interaction.createdDate + preAuth < now ∧ data.preAuthorizedCodeUsed = false ∧
      (∀ c ∈ credentials, c.state = .pending) ∧
      response = ⟨generateNewToken env id random.accessToken, "bearer",
        unixTimestamp (now + access), none, none⟩ := by
  simp only [oidcIssuerCreateToken, throwIfTokenRequestInvalid, throwIfInteractionCreatedDate,
    throwIfInteractionPreAuthorizedCodeUsed, throwIfCredentialStateNotEq, ok_iffs, forM_eq_ok,
    exists_unit_iff, Bool.not_eq_true, eq_comm (a := response)]

lemma oidcIssuerCreateToken_refreshToken :
    oidcIssuerCreateToken env now random data credentials id interaction (.refreshToken token)
        preAuth access refresh = .ok response ↔
      token ≠ [] ∧ data.transactionCode = none ∧ validateRefreshToken env now data token = .ok () ∧
      response = ⟨generateNewToken env id random.accessToken, "bearer",
        unixTimestamp (now + access), some (generateNewToken env id random.refreshToken),
        some (unixTimestamp (now + refresh))⟩ := by
  simp only [oidcIssuerCreateToken, throwIfTokenRequestInvalid, ok_iffs, exists_unit_iff,
    throwIfTxCodeInvalid_refreshToken, eq_comm (a := response)]

lemma validateRefreshToken_eq_ok_iff :
    validateRefreshToken env now data token = .ok () ↔
      ∃ hash expiresAt, data.refreshTokenHash = some hash ∧ env.hash token = .ok hash ∧
        data.refreshTokenExpiresAt = some expiresAt ∧ now ≤ expiresAt := by
  simp [validateRefreshToken, ok_iffs]

variable {update : IssuerCredential → IssuerCredential}

lemma updateCredential_eq_ok_iff :
    db.updateCredential id update = .ok db' ↔ ∃ c, db.credentials.get? id = some c ∧
      db' = { db with credentials := db.credentials.insert id (update c) } := by
  unfold Database.updateCredential
  cases db.credentials.get? id with
  | none => simp
  | some c => simp [eq_comm]

/-- Two databases that may differ in the credentials only. -/
structure SameBut (db db' : Database) : Prop where
  schemas : db'.schemas = db.schemas
  interactions : db'.interactions = db.interactions
  validityCredentials : db'.validityCredentials = db.validityCredentials

/-- The same update of several rows, which may be made twice. -/
lemma foldlM_updateCredential
    (hidem : ∀ c, update (update c) = update c) {rows : List (String × IssuerCredential)}
    (h : rows.foldlM (fun db row => db.updateCredential row.1 update) db = .ok db') :
    SameBut db db' ∧ ∀ id, db'.credentials.get? id =
      if id ∈ rows.map Prod.fst then (db.credentials.get? id).map update
      else db.credentials.get? id := by
  induction rows generalizing db with
  | nil =>
    obtain rfl := pure_eq_ok.1 h
    exact ⟨⟨rfl, rfl, rfl⟩, fun id => by simp⟩
  | cons row rows ih =>
    rw [foldlM_cons, bind_eq_ok] at h
    obtain ⟨db₁, hfst, hrest⟩ := h
    obtain ⟨c, hc, rfl⟩ := updateCredential_eq_ok_iff.1 hfst
    obtain ⟨hsame, hget⟩ := ih hrest
    refine ⟨⟨hsame.1, hsame.2, hsame.3⟩, fun id => ?_⟩
    rw [hget, IndexMap.get?_insert, map_cons]
    by_cases hid : id = row.1
    · subst hid
      rw [if_pos rfl, if_pos mem_cons_self, hc, map_some, map_some, hidem, ite_self]
    · rw [if_neg hid]
      simp only [mem_cons, hid, false_or]

lemma tokenUpdate_idem (attestation : Option WalletInstanceAttestation) (request : TokenRequest)
    (c : IssuerCredential) :
    tokenUpdate attestation request (tokenUpdate attestation request c) =
      tokenUpdate attestation request c := by
  cases attestation with
  | none => cases request with
    | preAuthorizedCode | authorizationCode | refreshToken => rfl
  | some a => cases request with
    | preAuthorizedCode | authorizationCode | refreshToken => rfl

variable {prepared : PreparedToken}

lemma updateTokenCredentials_eq_ok (h : updateTokenCredentials prepared db = .ok db') :
    SameBut db db' ∧ ∀ id, db'.credentials.get? id =
      if id ∈ prepared.credentials.map Prod.fst then
        (db.credentials.get? id).map (tokenUpdate prepared.attestation prepared.call.request)
      else db.credentials.get? id := by
  have hsame : ∀ request : TokenRequest, (∀ c, tokenUpdate none request c = c) → ∀ id,
      db.credentials.get? id = if id ∈ prepared.credentials.map Prod.fst then
        (db.credentials.get? id).map (tokenUpdate none request) else db.credentials.get? id := by
    intro request hid id
    rw [funext hid, Option.map_id', ite_self]
  unfold updateTokenCredentials at h
  split at h
  · next token hatn hreq =>
    cases h
    rw [hatn, hreq]
    exact ⟨⟨rfl, rfl, rfl⟩, hsame _ fun _ => rfl⟩
  · next hatn hreq =>
    cases h
    rw [hatn, hreq]
    exact ⟨⟨rfl, rfl, rfl⟩, hsame _ fun _ => rfl⟩
  · exact foldlM_updateCredential (tokenUpdate_idem _ _) h

lemma updateInteraction_eq_ok_iff :
    db.updateInteraction id data = .ok db' ↔ ∃ i, db.interactions.get? id = some i ∧
      db' = { db with interactions := db.interactions.insert id { i with data := some data } } := by
  unfold Database.updateInteraction
  cases db.interactions.get? id with
  | none => simp
  | some i => simp [eq_comm]

lemma exists_of_option_mapM {α β : Type} {f : α → Except OpenID4VCIError β} {o : Option α} {b : β}
    (h : o.mapM f = .ok (some b)) : ∃ a, o = some a ∧ f a = .ok b := by
  cases o with
  | none => cases h
  | some a =>
    obtain ⟨b', hb', h⟩ := bind_eq_ok.1 h
    obtain rfl := some.inj (pure_eq_ok.1 h)
    exact ⟨a, rfl, hb'⟩

lemma interactionDataOfResponse_eq_ok (h : interactionDataOfResponse env response = .ok data) :
    data.preAuthorizedCodeUsed = true ∧ data.transactionCode = none ∧
      env.hash response.accessToken = .ok data.accessTokenHash ∧
      ∀ hash, data.refreshTokenHash = some hash →
        ∃ token, response.refreshToken = some token ∧ env.hash token = .ok hash := by
  simp only [interactionDataOfResponse, ok_iffs] at h
  obtain ⟨accessHash, hacc, _, -, refreshHash, hrfr, _, -, rfl⟩ := h
  refine ⟨rfl, rfl, hacc, fun hash hhash => ?_⟩
  obtain rfl : refreshHash = some hash := hhash
  obtain ⟨token, htok, hhash⟩ := exists_of_option_mapM hrfr
  exact ⟨token, htok, mapError_eq_ok.1 hhash⟩

lemma interactionDataOfResponse_expiresAt (h : interactionDataOfResponse env response = .ok data) :
    ∃ time, fromUnixTimestamp response.expiresIn = .ok time ∧
      data.accessTokenExpiresAt = some time := by
  simp only [interactionDataOfResponse, ok_iffs] at h
  obtain ⟨_, -, time, htime, _, -, _, -, rfl⟩ := h
  exact ⟨time, htime, rfl⟩

/-- What the transaction has checked and written, with the interaction as it was before. -/
structure TokenGrant (env : IssuerEnvironment) (now : Timestamp) (random : Randomness)
    (db : Database) (prepared : PreparedToken) (response : TokenResponse) (db' : Database) where
  interaction : Interaction
  data : InteractionData
  newData : InteractionData
  plain : TokenResponse
  formatType : FormatType
  get_eq : db.interactions.get? prepared.interactionId = some interaction
  data_eq : interaction.data = some data
  plain_eq : oidcIssuerCreateToken env now random data (prepared.credentials.map Prod.snd)
    prepared.interactionId interaction prepared.call.request prepared.preAuthorizationExpiresIn
    prepared.accessTokenExpiresIn prepared.refreshTokenExpiresIn = .ok plain
  format_eq : env.formatType prepared.schema.format = .ok formatType
  response_eq : response = addMdocRefreshToken env now random prepared formatType plain
  newData_eq : interactionDataOfResponse env response = .ok newData
  schemas_eq : db'.schemas = db.schemas
  validity_eq : db'.validityCredentials = db.validityCredentials
  interactions_eq : db'.interactions =
    db.interactions.insert prepared.interactionId { interaction with data := some newData }
  credentials_get : ∀ id, db'.credentials.get? id =
    if id ∈ prepared.credentials.map Prod.fst then
      (db.credentials.get? id).map (tokenUpdate prepared.attestation prepared.call.request)
    else db.credentials.get? id

lemma nonempty_tokenGrant (h : createTokenTx env now random db prepared = .ok (response, db')) :
    Nonempty (TokenGrant env now random db prepared response db') := by
  simp only [createTokenTx, interactionDataToDto, ok_iffs, Prod.mk.injEq] at h
  obtain ⟨interaction, hget, data, hdata, plain, hplain, db₁, hcreds, formatType, hfmt,
    newData, hnew, _, hupd, rfl, rfl⟩ := h
  obtain ⟨hsame, hcreds⟩ := updateTokenCredentials_eq_ok hcreds
  obtain ⟨i, hi, rfl⟩ := updateInteraction_eq_ok_iff.1 hupd
  rw [hsame.interactions] at hi
  obtain rfl := mem_unique hget hi
  exact ⟨⟨interaction, data, newData, plain, formatType, hget, hdata, hplain, hfmt, rfl, hnew,
    hsame.schemas, hsame.validityCredentials, by rw [hsame.interactions], hcreds⟩⟩

end Granted

/-! ### What a request has read -/

section Reading

variable {env} {now : Timestamp} {db : Database}

/-- What the first part of a request has found and checked. -/
structure TokenReading (env : IssuerEnvironment) (now : Timestamp) (db : Database) (call : TokenCall)
    (prepared : PreparedToken) : Prop where
  call_eq : prepared.call = call
  schema_eq : db.getCredentialSchema call.schemaId = some prepared.schema
  interactionId_eq : call.request.interactionId env = .ok prepared.interactionId
  credentials_eq : prepared.credentials = db.getCredentialsByInteractionId prepared.interactionId
  credentials_ne : prepared.credentials ≠ []
  attestation_eq : ∃ protocol leeway, validateOauthClientAttestation env now call.attestation
    call.attestationPop prepared.schema protocol leeway = .ok prepared.attestation
  access_eq : ∃ protocol, env.tokenExpiresIn protocol = .ok prepared.accessTokenExpiresIn
  refresh_eq : ∃ protocol, env.refreshTokenExpiresIn protocol = .ok prepared.refreshTokenExpiresIn

variable {prepared : PreparedToken} {call : TokenCall}
  {attestation : DecomposedToken WalletInstanceAttestationClaims}

lemma readToken_eq_ok
    (h : readToken env now db call = .ok prepared) : TokenReading env now db call prepared := by
  simp only [readToken, ok_iffs] at h
  obtain ⟨params, -, schema, hsch, id, hid, first, hfst, _, -, attestation, hatn,
    preAuth, -, access, hacc, refresh, hrfr, rfl⟩ := h
  refine ⟨rfl, hsch, hid, rfl, fun hnil => ?_, ⟨_, _, hatn⟩, ⟨_, hacc⟩, ⟨_, hrfr⟩⟩
  rw [show db.getCredentialsByInteractionId id = [] from hnil] at hfst
  cases hfst

variable {schema : IssuerSchema} {protocol : String} {leeway : Nat}

/-- The schema decides whether there is an attestation. -/
lemma isSome_of_validateOauthClientAttestation {attestation pop : Option String}
    {result : Option WalletInstanceAttestation}
    (h : validateOauthClientAttestation env now attestation pop schema protocol leeway = .ok result) :
    result.isSome = schema.requiresWalletInstanceAttestation := by
  unfold validateOauthClientAttestation at h
  split at h
  · next hrequ =>
    simp only [ok_iffs] at h
    obtain ⟨_, -, _, -, _, -, _, -, _, -, _, -, _, -, _, -, _, -, _, -, _, -, rfl⟩ := h
    rw [hrequ]
    rfl
  · next hrequ =>
    split at h
    · cases h
    · cases h
      simpa using hrequ

lemma exists_of_validateOauthClientAttestation {attestation pop : Option String}
    {result : WalletInstanceAttestation}
    (h : validateOauthClientAttestation env now attestation pop schema protocol leeway =
      .ok (some result)) : ∃ a p, attestation = some a ∧ pop = some p := by
  unfold validateOauthClientAttestation at h
  split at h
  · simp only [ok_iffs] at h
    obtain ⟨a, ha, p, hp, -⟩ := h
    exact ⟨a, p, ha, hp⟩
  · split at h
    · cases h
    · cases h

/-! The code is not looked at before the transaction: nothing in the first part of a request is answered
with `invalid_grant`. -/

lemma verifyWiaSignature_ne_invalidGrant :
    verifyWiaSignature env attestation ≠ .error (.openID4VCI .invalidGrant) := by
  simp only [verifyWiaSignature, attestationKeySource, ne_eq, Except.bind_eq_error_iff,
    Except.mapError_eq_error_iff]
  split
  · simp
  · simp
  · simp

lemma validateOauthClientAttestation_ne_invalidGrant {attestation pop : Option String} :
    validateOauthClientAttestation env now attestation pop schema protocol leeway ≠
      .error (.openID4VCI .invalidGrant) := by
  unfold validateOauthClientAttestation
  split
  · simp [-bind_pure_comp, Except.bind_eq_error_iff, Except.mapError_eq_error_iff,
      Except.okOr_eq_error_iff, Except.ensure_eq_error_iff, Except.pure_eq_error_iff,
      validateTimestamps, verifyPopSignature,
      verifyWiaSignature_ne_invalidGrant, validatePopAudience, extractWalletMetadata]
  · split
    · simp
    · simp

lemma readToken_ne_invalidGrant {code : Str}
    (hreq : call.request = .preAuthorizedCode code txCode) :
    readToken env now db call ≠ .error (.openID4VCI .invalidGrant) := by
  simp [-bind_pure_comp, readToken, hreq, TokenRequest.interactionId,
    validateOauthClientAttestation_ne_invalidGrant, Except.bind_eq_error_iff,
    Except.mapError_eq_error_iff, Except.okOr_eq_error_iff, Except.pure_eq_error_iff]

/-! ### Requests that are granted -/

lemma exists_updateTokenCredentials
    (h : ∀ id ∈ prepared.credentials.map Prod.fst, (db.credentials.get? id).isSome) :
    ∃ db', updateTokenCredentials prepared db = .ok db' := by
  have hfold : ∀ (update : IssuerCredential → IssuerCredential)
      (rows : List (String × IssuerCredential)) (db : Database),
      (∀ id ∈ rows.map Prod.fst, (db.credentials.get? id).isSome) →
      ∃ db', rows.foldlM (fun db row => db.updateCredential row.1 update) db = .ok db' := by
    intro update rows
    induction rows with
    | nil => exact fun db _ => ⟨db, rfl⟩
    | cons row rows ih =>
      intro db hrows
      obtain ⟨c, hc⟩ := isSome_iff_exists.1 (hrows row.1 (by simp))
      have hfst := (@updateCredential_eq_ok_iff db _ row.1 update).2 ⟨c, hc, rfl⟩
      obtain ⟨db', hrest⟩ := ih { db with credentials := db.credentials.insert row.1 (update c) }
        fun id hid => by
          rw [IndexMap.get?_insert]
          split
          · rfl
          · exact hrows id (mem_cons_of_mem _ hid)
      refine ⟨db', ?_⟩
      rw [foldlM_cons, bind_eq_ok]
      exact ⟨_, hfst, hrest⟩
  unfold updateTokenCredentials
  split
  · exact ⟨db, rfl⟩
  · exact ⟨db, rfl⟩
  · exact hfold _ _ _ h

/-- The transaction goes through when the request passes its checks and the rows are there. -/
lemma exists_createTokenTx {random : Randomness} {interaction : Interaction}
    {data newData : InteractionData} {plain : TokenResponse} {formatType : FormatType}
    (hget : db.interactions.get? prepared.interactionId = some interaction)
    (hdata : interaction.data = some data)
    (hplain : oidcIssuerCreateToken env now random data (prepared.credentials.map Prod.snd)
      prepared.interactionId interaction prepared.call.request prepared.preAuthorizationExpiresIn
      prepared.accessTokenExpiresIn prepared.refreshTokenExpiresIn = .ok plain)
    (hrows : ∀ id ∈ prepared.credentials.map Prod.fst, (db.credentials.get? id).isSome)
    (hfmt : env.formatType prepared.schema.format = .ok formatType)
    (hnew : interactionDataOfResponse env (addMdocRefreshToken env now random prepared formatType
      plain) = .ok newData) :
    ∃ db', createTokenTx env now random db prepared =
      .ok (addMdocRefreshToken env now random prepared formatType plain, db') := by
  obtain ⟨db₁, hcreds⟩ := exists_updateTokenCredentials hrows
  obtain ⟨hsame, -⟩ := updateTokenCredentials_eq_ok hcreds
  have hrow : db₁.interactions.get? prepared.interactionId = some interaction := by
    rw [hsame.interactions]
    exact hget
  let row : Interaction := { interaction with data := some newData }
  refine ⟨{ db₁ with interactions := db₁.interactions.insert prepared.interactionId row }, ?_⟩
  simp only [createTokenTx, interactionDataToDto, ok_iffs, Prod.mk.injEq]
  exact ⟨interaction, hget, data, hdata, plain, hplain, db₁, hcreds, formatType, hfmt,
    newData, hnew, _, updateInteraction_eq_ok_iff.2 ⟨interaction, hrow, rfl⟩, rfl, rfl⟩

lemma exists_interactionDataOfResponse {response : TokenResponse}
    (hash : ∀ text, ∃ digest, env.hash text = .ok digest)
    (hacc : ∃ time, fromUnixTimestamp response.expiresIn = .ok time)
    (hrfr : ∀ n ∈ response.refreshTokenExpiresIn, ∃ time, fromUnixTimestamp n = .ok time) :
    ∃ newData, interactionDataOfResponse env response = .ok newData := by
  have hmapM : ∀ {α β : Type} {f : α → Except OpenID4VCIError β} {o : Option α},
      (∀ a ∈ o, ∃ b, f a = .ok b) → ∃ b, o.mapM f = .ok b := by
    intro α β f o hf
    cases o with
    | none => exact ⟨none, rfl⟩
    | some a =>
      obtain ⟨b, hb⟩ := hf a rfl
      exact ⟨some b, bind_eq_ok.2 ⟨b, hb, rfl⟩⟩
  obtain ⟨digest, hdig⟩ := hash response.accessToken
  obtain ⟨time, htime⟩ := hacc
  obtain ⟨refreshHash, hrefr⟩ : ∃ b, response.refreshToken.mapM (fun token =>
      (env.hash token).mapError OpenID4VCIError.runtimeError) = .ok b := by
    refine hmapM fun token _ => ?_
    obtain ⟨b, hb⟩ := hash token
    exact ⟨b, mapError_eq_ok.2 hb⟩
  obtain ⟨refreshTime, hrefre⟩ : ∃ b, response.refreshTokenExpiresIn.mapM (fun n =>
      (fromUnixTimestamp n).mapError OpenID4VCIError.runtimeError) = .ok b := by
    refine hmapM fun n hn => ?_
    obtain ⟨b, hb⟩ := hrfr n hn
    exact ⟨b, mapError_eq_ok.2 hb⟩
  refine ⟨⟨true, digest, some time, refreshHash, refreshTime, none, none⟩, ?_⟩
  simp only [interactionDataOfResponse, ok_iffs]
  exact ⟨digest, hdig, time, htime, refreshHash, hrefr, refreshTime, hrefre, rfl⟩

end Reading

end OneCore.Oid4vci
