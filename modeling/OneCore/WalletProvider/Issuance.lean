/-
# Attestations and their revocation

A request for attestations names keys by proofs of possession.  While the request is checked, a list
of the unit's attested keys is carried along: a key that is on the list is used again, with the status
entry it had when the list was loaded, and a key that is not is put on the list, still without an
entry.  The entries of the new keys are added later, in the transaction that issues the attestations.

A revocation reads the keys first, then writes the status of the unit, then marks the entries.
-/
import OneCore.WalletProvider.Service

namespace OneCore.WalletProvider

structure IssueWuaRequest where
  proof : String
  securityLevel : KeyStorageSecurityLevel

structure IssueWalletUnitAttestationRequest where
  wia : List String
  wua : List IssueWuaRequest

inductive AttestedKeyInput where
  | newlyCreated (key : WalletUnitAttestedKey)
  | reused (revocation : Option RevocationInfo)

structure KeyAttestationInput where
  holderJwk : PublicJwk
  securityLevel : KeyStorageSecurityLevel
  key : AttestedKeyInput

variable {Key Der : Type} (env : Environment Key Der)

/-! ### The keys of a request -/

def touchKey (jwk : PublicJwk) (expirationDate : Timestamp) :
    List WalletUnitAttestedKey → List WalletUnitAttestedKey
  | [] => []
  | key :: keys =>
    if key.publicKeyJwk = jwk then { key with expirationDate := expirationDate } :: keys
    else key :: touchKey jwk expirationDate keys

/-- The key of a request, with the list of keys and the database after it. -/
def attestKey (walletUnitId : Nat) (expirationDate : Timestamp) (keys : List WalletUnitAttestedKey)
    (db : Database) (jwk : PublicJwk) :
    AttestedKeyInput × List WalletUnitAttestedKey × Database :=
  match keys.find? fun key => decide (key.publicKeyJwk = jwk) with
  | some key => (.reused key.revocation, touchKey jwk expirationDate keys, db)
  | none =>
    let key : WalletUnitAttestedKey := ⟨db.freshId.1, walletUnitId, expirationDate, jwk, none⟩
    (.newlyCreated key, keys ++ [key], db.freshId.2)

def attestKeys (now : Timestamp) (params : WalletProviderParams) (walletUnitId : Nat) :
    List IssueWuaRequest → List WalletUnitAttestedKey → Database →
    Except WalletProviderError (List KeyAttestationInput × List WalletUnitAttestedKey × Database)
  | [], keys, db => .ok ([], keys, db)
  | request :: requests, keys, db => do
    let expirationDate := now + seconds params.walletUnitAttestation.expirationTime
    let jwk ← verifyPop env now request.proof params.deviceAuthLeeway
    let (input, keys, db) := attestKey walletUnitId expirationDate keys db jwk
    let (inputs, keys, db) ← attestKeys now params walletUnitId requests keys db
    return (⟨jwk, request.securityLevel, input⟩ :: inputs, keys, db)

/-! ### Instance attestations -/

variable (now : Timestamp)

def createWia (params : WalletProviderParams) (holderBindingJwk : PublicJwk)
    (issuerKey : IssuerKey) : Except WalletProviderError WalletInstanceAttestation := do
  let _ ← okOr issuerKey.joseAlg (.nested "preparing WIA header")
  return ⟨now, now + seconds params.walletInstanceAttestation.expirationTime, env.lists.baseUrl,
    params.walletClientId, holderBindingJwk⟩

def issueWia (params : WalletProviderParams) (issuerKey : IssuerKey)
    (proof : String) : Except WalletProviderError String := do
  let holderJwk ← verifyPop env now proof params.deviceAuthLeeway
  let attestation ← createWia env now params holderJwk issuerKey
  (issuerKey.signWia attestation).mapError fun _ => .nested "creating WIA token"

/-! ### The read -/

/-- What a request for attestations has found out before its transaction. -/
structure PreparedIssue where
  unit : LoadedWalletUnit
  params : WalletProviderParams
  revocationMethod : Option String
  issuerKey : IssuerKey
  now : Timestamp
  instanceAttestations : List String
  inputs : List KeyAttestationInput
  attestedKeys : List WalletUnitAttestedKey

def getRevocationMethod (params : WalletProviderParams) :
    Except WalletProviderError (Option String) :=
  match params.walletUnitAttestation.revocationMethod with
  | none => .ok none
  | some method => do
    ensure (env.hasRevocationMethod method) (.nested "getting revocation method")
    return some method

def loadAttestedKeys (db : Database) (id : Nat) :
    Except WalletProviderError (List WalletUnitAttestedKey) :=
  (db.getByWalletUnitId id).mapError fun _ => .nested "getting wallet unit"

def readIssue (db : Database) (id : Nat) (bearerToken : String)
    (request : IssueWalletUnitAttestationRequest) :
    Except WalletProviderError (PreparedIssue × Database) := do
  let unit ← loadWalletUnit db id
  let keys ← loadAttestedKeys db id
  ensure (unit.row.status = .active) .walletUnitRevoked
  let params ← getWalletProviderConfigParams env unit.row.walletProviderName
  let issuerIdentifier ← validateOrgWalletProvider unit.organisation unit.row.walletProviderName
  let revocationMethod ← getRevocationMethod env params
  let authenticationJwk ← okOr unit.row.authenticationKeyJwk (.mappingError "Missing public key")
  let key ← (env.parseKey authenticationJwk).mapError fun _ => .nested "parsing wallet unit JWK"
  let bearer ← decompose env bearerToken "parsing bearer token"
  verifyDeviceSigningProof env now bearer key params.deviceAuthLeeway none
  let issuerKey ← env.getKeyInfo issuerIdentifier
  let instanceAttestations ← request.wia.mapM (issueWia env now params issuerKey)
  let (inputs, keys, db) ← attestKeys env now params id request.wua keys db
  return (⟨unit, params, revocationMethod, issuerKey, now, instanceAttestations, inputs, keys⟩, db)

/-! ### The transaction -/

structure IssuedAttestation where
  attestation : WalletUnitAttestation
  token : String

/-- The status reference of a key.  A key that is used again has the reference it had when the keys
were loaded, which may be none. -/
def keyStatus (db : Database) :
    Option String → AttestedKeyInput →
    Except WalletProviderError (Option CredentialStatus × Database)
  | none, _ => .ok (none, db)
  | some method, .newlyCreated key => do
    let (status, db) ← addIssuedAttestation env.lists now db method key
    return (some status, db)
  | some _, .reused none => .ok (none, db)
  | some _, .reused (some info) => do
    let status ← createCredentialStatus env.lists info
    return (some status, db)

def createWua (walletProviderName : String) (params : WalletProviderParams)
    (holderBindingJwk : PublicJwk) (securityLevel : KeyStorageSecurityLevel) (issuerKey : IssuerKey)
    (revocationInfo : Option CredentialStatus) :
    Except WalletProviderError WalletUnitAttestation := do
  let _ ← okOr issuerKey.joseAlg (.nested "preparing WUA header")
  return {
    issuedAt := now
    expiresAt := now + seconds params.walletUnitAttestation.expirationTime
    issuer := params.eudiProviderName.or env.lists.baseUrl
    subject := env.lists.baseUrl.map fun baseUrl => s!"{baseUrl}/{walletProviderName}"
    keyStorage := [securityLevel]
    attestedKeys := [holderBindingJwk]
    status := revocationInfo.filter fun status => env.isUrl status.uri }

def issueKeyAttestation (prepared : PreparedIssue) (db : Database)
    (input : KeyAttestationInput) : Except WalletProviderError (IssuedAttestation × Database) := do
  let (status, db) ← keyStatus env now db prepared.revocationMethod input.key
  let attestation ← createWua env now prepared.unit.row.walletProviderName prepared.params
    input.holderJwk input.securityLevel prepared.issuerKey status
  let token ← (prepared.issuerKey.signWua attestation).mapError fun _ => .nested "creating WUA token"
  return (⟨attestation, token⟩, db)

def issueKeyAttestations (now : Timestamp) (prepared : PreparedIssue) :
    Database → List KeyAttestationInput →
    Except WalletProviderError (List IssuedAttestation × Database)
  | db, [] => .ok ([], db)
  | db, input :: inputs => do
    let (issued, db) ← issueKeyAttestation env now prepared db input
    let (rest, db) ← issueKeyAttestations now prepared db inputs
    return (issued :: rest, db)

structure IssueResponse where
  wia : List String
  wua : List IssuedAttestation

def PreparedIssue.update (prepared : PreparedIssue) : Database.UpdateWalletUnitRequest :=
  { lastIssuance := some prepared.now
    attestedKeys := if prepared.inputs = [] then none else some prepared.attestedKeys }

/-- The transaction; there is none if nothing was asked for. -/
def issueTx (db : Database) (prepared : PreparedIssue) :
    Except WalletProviderError (IssueResponse × Database) :=
  if prepared.instanceAttestations = [] ∧ prepared.inputs = [] then .ok (⟨[], []⟩, db)
  else do
    let db ← (db.updateWalletUnit now prepared.unit.id prepared.update).mapError fun _ =>
      .nested "updating wallet unit"
    let (issued, db) ← issueKeyAttestations env now prepared db prepared.inputs
    return (⟨prepared.instanceAttestations, issued⟩, db)

/-! ### Revocation -/

/-- What a revocation has found out before it writes the status of the unit. -/
structure PreparedRevocation where
  unitId : Nat
  revocationMethod : Option String
  keys : List WalletUnitAttestedKey

def readRevocation (db : Database) (id : Nat) : Except WalletProviderError PreparedRevocation := do
  let unit ← loadWalletUnit db id
  let keys ← loadAttestedKeys db id
  ensure (unit.row.status = .active) .walletUnitMustBeActive
  let params ← getWalletProviderConfigParams env unit.row.walletProviderName
  return ⟨id, params.walletUnitAttestation.revocationMethod, keys⟩

def writeRevocation (db : Database) (prepared : PreparedRevocation) :
    Except WalletProviderError Database :=
  (db.updateWalletUnit now prepared.unitId { status := some .revoked }).mapError fun _ =>
    .nested "updating wallet unit"

/-- The entries that a revocation has to mark, with the method; there may be nothing to do. -/
def PreparedRevocation.entries (prepared : PreparedRevocation) :
    Option (String × List RevocationInfo) :=
  match prepared.revocationMethod with
  | none => none
  | some method =>
    match prepared.keys.filterMap WalletUnitAttestedKey.revocation with
    | [] => none
    | infos => some (method, infos)

def revokeEntries (order : IterationOrder Nat) (db : Database) (method : String)
    (infos : List RevocationInfo) : Except WalletProviderError Database := do
  ensure (env.hasRevocationMethod method) (.nested "getting revocation method")
  updateAttestationEntries env.lists order db infos .revoked

end OneCore.WalletProvider
