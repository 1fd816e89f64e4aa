/-
# The wallet provider

The requests of a wallet to its provider: it registers a wallet unit, activates it with an
attestation of its platform, and asks for attestations of its keys; an operator revokes the unit.

Each request is cut where it leaves the database: what it reads first, with all checks that follow
from it, and what it writes afterwards.  The parts of one request are put together in
`OneCore.WalletProvider.System`.
-/
import OneCore.WalletProvider.AppIntegrity
import OneCore.WalletProvider.StatusList

namespace OneCore.WalletProvider

inductive RevocationType where
  | mdocMsoUpdateSuspension
  | bitstringStatusList
  | tokenStatusList
  | crl
deriving DecidableEq

inductive KeyStorageSecurityLevel where
  | high
  | moderate
  | enhancedBasic
  | basic

structure WalletInstanceAttestation where
  issuedAt : Timestamp
  expiresAt : Timestamp
  issuer : Option String
  subject : String
  proofOfPossessionKey : PublicJwk

structure WalletUnitAttestation where
  issuedAt : Timestamp
  expiresAt : Timestamp
  issuer : Option String
  subject : Option String
  keyStorage : List KeyStorageSecurityLevel
  attestedKeys : List PublicJwk
  status : Option CredentialStatus

structure IssuerKey where
  joseAlg : Option String
  signWia : WalletInstanceAttestation → Except String String
  signWua : WalletUnitAttestation → Except String String

/-- The configuration of the provider and the libraries it calls. -/
structure Environment (Key Der : Type) where
  lib : IntegrityLibrary Key Der
  lists : StatusListEnvironment
  /-- The parameters of a wallet provider that is enabled. -/
  getIfEnabled : String → Except String WalletProviderParams
  revocationType : String → Option RevocationType
  hasRevocationMethod : String → Bool
  keyAlgorithmFromJoseAlg : String → Option KeyAlgorithmType
  /-- The parser of the keys of one algorithm. -/
  parseKeyOf : KeyAlgorithmType → PublicJwk → Except String Key
  /-- The parser of a key of any algorithm. -/
  parseKey : PublicJwk → Except String Key
  publicKeyAsJwk : Key → Except String PublicJwk
  verify : Key → Bytes → Bytes → Except String Unit
  decomposeToken : String → Except String ProofToken
  /-- The key of an identifier that issues attestations. -/
  getKeyInfo : String → Except WalletProviderError IssuerKey
  /-- The status reference is put into an attestation only if its address can be parsed. -/
  isUrl : String → Bool
  /-- Whether the address of a list can be parsed does not depend on the list. -/
  isUrl_list : ∀ baseUrl m n,
    isUrl (revocationListUrl baseUrl m) = isUrl (revocationListUrl baseUrl n)
  /-- The random text of a draw. -/
  generateAlphanumeric : Nat → String

variable {Key Der : Type} (env : Environment Key Der)

/-! ### Configuration and proofs -/

def validateRevocationMethod (params : WalletProviderParams) : Except WalletProviderError Unit :=
  match params.walletUnitAttestation.revocationMethod with
  | none => .ok ()
  | some method => do
    let type ← okOr (env.revocationType method) (.nested "validating revocation")
    ensure (type = .tokenStatusList) (.nested "validating revocation")

def getWalletProviderConfigParams (walletProvider : String) :
    Except WalletProviderError WalletProviderParams := do
  let params ← (env.getIfEnabled walletProvider).mapError .walletProviderDisabled
  validateRevocationMethod env params
  return params

/-- The issuer of the attestations of an organisation that runs the wallet provider. -/
def validateOrgWalletProvider (organisation : Organisation) (walletProvider : String) :
    Except WalletProviderError String := do
  ensure (organisation.deactivatedAt = none) .walletProviderOrganisationDisabled
  let orgProvider ← okOr organisation.walletProvider .walletProviderNotConfigured
  ensure (orgProvider = walletProvider) .walletProviderNotConfigured
  okOr organisation.walletProviderIssuer .walletProviderNotConfigured

def validateAudience (audience : List String) (expected : String) :
    Except WalletProviderError Unit :=
  ensure (expected ∈ audience) (.nested "validating audience")

/-- A service without an address of its own accepts every audience. -/
def expectAudience (baseUrl : Option String) (audience : List String) :
    Except WalletProviderError Unit :=
  match baseUrl with
  | some expected => validateAudience audience expected
  | none => .ok ()

def expectNonce (nonce clientNonce : Option String) : Except WalletProviderError Unit :=
  match nonce with
  | some nonce => ensure (clientNonce = some nonce) (.couldNotVerifyProof "Invalid nonce")
  | none => .ok ()

variable (now : Timestamp)

/-- The times, the audience and the nonce of a proof. -/
def validateProofPayload (proof : ProofToken) (leeway : Nat)
    (baseUrl nonce : Option String) : Except WalletProviderError Unit := do
  (validateIssuanceTime now proof.payload.issuedAt leeway).mapError fun _ =>
    .nested "validating issuance time"
  ensure proof.payload.custom.invalidBefore.isSome (.couldNotVerifyProof "Missing nbf")
  (validateNotBeforeTime now proof.payload.custom.invalidBefore leeway).mapError fun _ =>
    .nested "validating not-before"
  ensure proof.payload.expiresAt.isSome (.couldNotVerifyProof "Missing ext")
  (validateExpirationTime now proof.payload.expiresAt leeway).mapError fun _ =>
    .nested "validating expiration"
  let audience ← okOr proof.payload.audience (.couldNotVerifyProof "Missing aud")
  expectAudience baseUrl audience
  expectNonce nonce proof.payload.custom.nonce

def decompose (token : String) (context : String) : Except WalletProviderError ProofToken :=
  (env.decomposeToken token).mapError fun _ => .nested context

/-- The key of a proof, by the algorithm in its header. -/
def parseJwk (keyAlgorithm : String) (jwk : PublicJwk) : Except WalletProviderError Key := do
  let algorithm ← okOr (env.keyAlgorithmFromJoseAlg keyAlgorithm)
    (.couldNotVerifyProof s!"Missing key algorithm for {keyAlgorithm}")
  (env.parseKeyOf algorithm jwk).mapError .couldNotVerifyProof

def verifyDeviceSigningProof (proof : ProofToken) (publicKey : Key)
    (leeway : Nat) (nonce : Option String) : Except WalletProviderError Unit := do
  (env.verify publicKey proof.unverifiedJwt proof.signature).mapError .couldNotVerifyProof
  validateProofPayload now proof leeway env.lists.baseUrl nonce

/-- What the attested key has signed, and the signature. -/
def attestationMessage (proof : ProofToken) (os : WalletUnitOs) (integrityCheckEnabled : Bool) :
    Except WalletProviderError (Bytes × Bytes) :=
  match integrityCheckEnabled, os with
  | true, .ios => Ios.webauthnSignedJwtToMsgAndSig env.lib proof
  | _, _ => .ok (proof.unverifiedJwt, proof.signature)

def verifyAttestationProof (proof : ProofToken) (publicKey : Key)
    (os : WalletUnitOs) (integrityCheckEnabled : Bool) (leeway : Nat) (nonce : Option String) :
    Except WalletProviderError Unit := do
  let (msg, signature) ← attestationMessage env proof os integrityCheckEnabled
  (env.verify publicKey msg signature).mapError .couldNotVerifyProof
  validateProofPayload now proof leeway env.lists.baseUrl nonce

def verifyPop (pop : String) (leeway : Nat) :
    Except WalletProviderError PublicJwk := do
  let popToken ← decompose env pop "parsing pop token"
  let jwk ← okOr popToken.header.jwk (.couldNotVerifyProof "Missing jwk")
  let key ← parseJwk env popToken.header.algorithm jwk
  (env.verify key popToken.unverifiedJwt popToken.signature).mapError .couldNotVerifyProof
  validateProofPayload now popToken leeway env.lists.baseUrl none
  return jwk

def loadWalletUnit (db : Database) (id : Nat) : Except WalletProviderError LoadedWalletUnit := do
  let unit? ← (db.getWalletUnit id).mapError fun _ => .nested "getting wallet unit"
  okOr unit? (.missingWalletUnit id)

/-! ### Registration -/

structure RegisterWalletUnitRequest where
  walletProvider : String
  os : WalletUnitOs
  publicKey : Option PublicJwk
  proof : Option String

/-- A unit with a nonce waits for its activation; one without is active at once. -/
def walletUnitFromRequest (request : RegisterWalletUnitRequest) (organisationId : String)
    (publicKey : Option PublicJwk) (now : Timestamp) (nonce : Option String) : WalletUnit where
  lastModified := now
  lastIssuance := none
  os := request.os
  status := match nonce with
    | none => .active
    | some _ => .pending
  walletProviderName := request.walletProvider
  authenticationKeyJwk := publicKey
  nonce := nonce
  organisationId := organisationId

def createWalletUnitWithNonce (db : Database)
    (request : RegisterWalletUnitRequest) (organisationId : String) :
    Except WalletProviderError (Nat × Database) := do
  let nonce := env.generateAlphanumeric db.nextId
  let (id, db) := db.freshId
  let db ← (db.createWalletUnit id (walletUnitFromRequest request organisationId none now
    (some nonce))).mapError fun _ => .nested "creating wallet unit"
  return (id, db)

def createWalletUnitWithAuthKey (db : Database)
    (request : RegisterWalletUnitRequest) (organisationId : String) (publicKeyJwk : PublicJwk) :
    Except WalletProviderError (Nat × Database) := do
  let (id, db) := db.freshId
  let db ← (db.createWalletUnit id (walletUnitFromRequest request organisationId
    (some publicKeyJwk) now none)).mapError fun _ => .walletUnitAlreadyExists
  return (id, db)

def getOrganisationForWalletProvider (db : Database) (walletProvider : String) :
    Option (String × Organisation) :=
  db.organisations.entries.find? fun o => decide (o.2.walletProvider = some walletProvider)

def registerWalletUnit (db : Database) (request : RegisterWalletUnitRequest) :
    Except WalletProviderError (Nat × Database) := do
  let params ← getWalletProviderConfigParams env request.walletProvider
  let organisation ← okOr (getOrganisationForWalletProvider db request.walletProvider)
    .walletProviderNotAssociatedWithOrganisation
  let _ ← validateOrgWalletProvider organisation.2 request.walletProvider
  let enabled := params.walletInstanceAttestation.integrityCheck.enabled
  ensure (enabled ∨ request.proof.isSome ∨ request.publicKey.isSome) .appIntegrityCheckNotRequired
  if enabled ∧ request.os ≠ .web then
    ensure (request.publicKey = none ∧ request.proof = none) .appIntegrityCheckRequired
    createWalletUnitWithNonce env now db request organisation.1
  else
    let proof ← decompose env (← okOr request.proof .missingProof) "parsing proof token"
    let publicKeyJwk ← okOr request.publicKey .missingPublicKey
    let publicKey ← parseJwk env proof.header.algorithm publicKeyJwk
    verifyDeviceSigningProof env now proof publicKey params.deviceAuthLeeway none
    createWalletUnitWithAuthKey now db request organisation.1 publicKeyJwk

/-! ### Activation -/

structure WalletUnitActivationRequest where
  attestation : List String
  attestationKeyProof : String
  deviceSigningKeyProof : Option String

def validateAttestation (attestation : List String) (os : WalletUnitOs) (walletUnitNonce : String)
    (params : WalletProviderParams) : Except WalletProviderError Key :=
  match os with
  | .ios => do
    let attestation ← okOr attestation.head? (.appIntegrityValidationError "Missing attestation")
    let bundle ← okOr params.walletInstanceAttestation.integrityCheck.ios
      (.appIntegrityValidationError "Missing iOS app integrity config")
    (Ios.validateAttestationIos env.lib attestation walletUnitNonce bundle).mapError fun e =>
      .appIntegrityValidationError e.display
  | .android => do
    ensure (attestation ≠ []) (.appIntegrityValidationError "Missing attestation")
    let bundle ← okOr params.walletInstanceAttestation.integrityCheck.android
      (.appIntegrityValidationError "Missing Android app integrity config")
    (Android.validateAttestationAndroid env.lib attestation walletUnitNonce bundle).mapError fun e =>
      .appIntegrityValidationError e.display
  | .web => .error
      (.appIntegrityValidationError "Cannot integrity check wallet unit with os 'WEB'")

/-- The key of a device that signs with another key than the attested one. -/
def proveDeviceSigningKey (params : WalletProviderParams)
    (walletUnitNonce : String) (token : String) : Except WalletProviderError PublicJwk := do
  let proof ← decompose env token "parsing device signing key proof token"
  let algorithm ← okOr (env.keyAlgorithmFromJoseAlg proof.header.algorithm)
    (.nested "getting key algorithm")
  let jwk ← okOr proof.header.jwk (.mappingError "Missing JWK in device signing key header")
  let key ← (env.parseKeyOf algorithm jwk).mapError fun _ => .nested "parsing device signing JWK"
  verifyDeviceSigningProof env now proof key params.deviceAuthLeeway (some walletUnitNonce)
  return jwk

/-- The key to be recorded: the one of the device, if it has one, and else the attested one. -/
def authenticationKey (params : WalletProviderParams) (walletUnitNonce : String)
    (attestedPublicKey : Key) (request : WalletUnitActivationRequest) :
    Except WalletProviderError PublicJwk :=
  match request.deviceSigningKeyProof with
  | some token => proveDeviceSigningKey env now params walletUnitNonce token
  | none => (env.publicKeyAsJwk attestedPublicKey).mapError fun _ => .nested "creating JWK"

def proveKeys (params : WalletProviderParams) (os : WalletUnitOs)
    (walletUnitNonce : String) (attestedPublicKey : Key) (request : WalletUnitActivationRequest) :
    Except WalletProviderError PublicJwk := do
  let proof ← decompose env request.attestationKeyProof "parsing attestation key proof token"
  verifyAttestationProof env now proof attestedPublicKey os
    params.walletInstanceAttestation.integrityCheck.enabled params.deviceAuthLeeway
    (some walletUnitNonce)
  authenticationKey env now params walletUnitNonce attestedPublicKey request

def checkPending : WalletUnitStatus → Except WalletProviderError Unit
  | .pending => .ok ()
  | .active | .unattested | .error => .error .invalidWalletUnitState
  | .revoked => .error .walletUnitRevoked

/-- What an activation is going to write: the recorded key, or the error state. -/
inductive PreparedActivation where
  | activate (jwk : PublicJwk)
  | fail (e : WalletProviderError)

/-- The reads and checks of an activation.  An attestation that is late or invalid has a write as
its consequence; all other failures leave the unit as it is. -/
def readActivation (db : Database) (id : Nat)
    (request : WalletUnitActivationRequest) : Except WalletProviderError PreparedActivation := do
  let unit ← loadWalletUnit db id
  checkPending unit.row.status
  let nonce ← okOr unit.row.nonce .missingWalletUnitAttestationNonce
  let params ← getWalletProviderConfigParams env unit.row.walletProviderName
  let _ ← validateOrgWalletProvider unit.organisation unit.row.walletProviderName
  if unit.row.lastModified + seconds params.walletInstanceAttestation.integrityCheck.timeout < now
  then return .fail .invalidWalletUnitAttestationNonce
  else match validateAttestation env request.attestation unit.row.os nonce params with
    | .error err => return .fail err
    | .ok attestedPublicKey =>
      .activate <$> proveKeys env now params unit.row.os nonce attestedPublicKey request

def PreparedActivation.update :
    PreparedActivation → Database.UpdateWalletUnitRequest
  | .activate jwk =>
    { status := some .active, lastIssuance := some now, authenticationKeyJwk := some jwk }
  | .fail _ => { status := some .error }

def writeActivation (db : Database) (id : Nat) (prepared : PreparedActivation) :
    Except WalletProviderError Database :=
  (db.updateWalletUnit now id (prepared.update now)).mapError fun _ => .nested "updating wallet unit"

end OneCore.WalletProvider
