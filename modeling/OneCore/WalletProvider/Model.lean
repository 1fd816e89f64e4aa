/-
# Wallet units and their attested keys

A wallet unit is one installation of a wallet.  It is registered with a wallet provider, activated
after its integrity has been checked, and given attestations for its keys until it is revoked.  This
file has the rows that are kept about it, what the provider is configured with, and the accesses to
the database.

The tables are maps from ids to rows.  The ids are drawn from one counter, so that no id is drawn
twice.  A foreign key that points nowhere makes a read fail, as in the source.
-/
import OneCore.Model.ProofSchema
import OneCore.Proto.Jwt

namespace OneCore.WalletProvider

inductive WalletUnitOs where
  | ios
  | android
  | web
deriving DecidableEq

inductive WalletUnitStatus where
  | pending
  | active
  | revoked
  | unattested
  | error
deriving DecidableEq

/-- The errors of the wallet provider; what comes from another component is `nested`, with what was
being done. -/
inductive WalletProviderError where
  | missingWalletUnit (id : Nat)
  | walletProviderDisabled (msg : String)
  | missingProof
  | missingPublicKey
  | couldNotVerifyProof (msg : String)
  | walletUnitRevoked
  | missingWalletUnitAttestationNonce
  | invalidWalletUnitAttestationNonce
  | invalidWalletUnitState
  | appIntegrityValidationError (msg : String)
  | appIntegrityCheckRequired
  | appIntegrityCheckNotRequired
  | walletUnitAlreadyExists
  | walletProviderNotAssociatedWithOrganisation
  | walletProviderNotConfigured
  | walletProviderOrganisationDisabled
  | walletUnitMustBeActive
  | walletUnitMustBePending
  | insufficientSecurityLevel
  | mappingError (msg : String)
  | nested (msg : String)

def WalletProviderError.display : WalletProviderError → String
  | .missingWalletUnit id => s!"Wallet unit `{id}` not found"
  | .walletProviderDisabled msg => s!"Wallet provider not enabled in config: `{msg}`"
  | .missingProof => "Missing proof"
  | .missingPublicKey => "Missing publicKey"
  | .couldNotVerifyProof msg => s!"Could not verify proof: `{msg}`"
  | .walletUnitRevoked => "Wallet unit revoked"
  | .missingWalletUnitAttestationNonce => "Missing wallet unit attestation nonce"
  | .invalidWalletUnitAttestationNonce => "Invalid wallet unit attestation nonce"
  | .invalidWalletUnitState => "Invalid wallet unit state"
  | .appIntegrityValidationError msg => s!"Failed to validate app integrity: {msg}"
  | .appIntegrityCheckRequired => "App integrity check required"
  | .appIntegrityCheckNotRequired => "App integrity check not required"
  | .walletUnitAlreadyExists => "Wallet unit already exists"
  | .walletProviderNotAssociatedWithOrganisation =>
    "Wallet provider not associated with any organisation"
  | .walletProviderNotConfigured => "Invalid wallet provider"
  | .walletProviderOrganisationDisabled => "Wallet provider organisation disabled"
  | .walletUnitMustBeActive => "Wallet unit must be active"
  | .walletUnitMustBePending => "Wallet unit must be pending"
  | .insufficientSecurityLevel => "Insufficient security level"
  | .mappingError msg => s!"Mapping error: {msg}"
  | .nested msg => msg

/-! ### Configuration -/

structure AndroidBundle where
  bundleId : String
  signingCertificateFingerprints : List String
  trustedAttestationCas : List String

structure IOSBundle where
  bundleId : String
  trustedAttestationCas : List String
  enforceProductionBuild : Bool

structure IntegrityCheck where
  android : Option AndroidBundle
  ios : Option IOSBundle
  enabled : Bool
  timeout : Nat

structure WalletInstanceAttestationParams where
  expirationTime : Nat
  integrityCheck : IntegrityCheck

structure WalletUnitAttestationParams where
  expirationTime : Nat
  revocationMethod : Option String

structure WalletProviderParams where
  walletClientId : String
  walletInstanceAttestation : WalletInstanceAttestationParams
  walletUnitAttestation : WalletUnitAttestationParams
  deviceAuthLeeway : Nat
  /-- The provider's name in the wallet information. -/
  eudiProviderName : Option String

/-! ### Proofs -/

/-- What a proof of the wallet says besides the registered claims that every token has. -/
structure NoncePayload where
  invalidBefore : Option Timestamp
  nonce : Option String

abbrev ProofToken := DecomposedToken NoncePayload

/-! ### Rows -/

structure Organisation where
  deactivatedAt : Option Timestamp
  walletProvider : Option String
  walletProviderIssuer : Option String

structure Certificate where
  id : String
  active : Bool

/-- An identifier that issues attestations; only some kinds have certificates. -/
structure IssuerIdentifier where
  certificates : Option (List Certificate)

structure WalletUnit where
  lastModified : Timestamp
  lastIssuance : Option Timestamp
  os : WalletUnitOs
  status : WalletUnitStatus
  walletProviderName : String
  authenticationKeyJwk : Option PublicJwk
  nonce : Option String
  organisationId : String

structure AttestedKeyRow where
  walletUnitId : Nat
  createdDate : Timestamp
  lastModified : Timestamp
  expirationDate : Timestamp
  publicKeyJwk : PublicJwk
  revocationListEntryId : Option Nat

inductive EntryStatus where
  | active
  | revoked
  | suspended
deriving DecidableEq

/-- The entry of a status list; an entry that is found by a serial number has no index. -/
structure RevocationListEntry where
  revocationListId : Nat
  index : Option Nat
  status : EntryStatus

inductive RevocationListPurpose where
  | revocation
  | suspension
  | revocationAndSuspension
deriving DecidableEq

structure RevocationList where
  issuerIdentifierId : String
  issuerCertificateId : Option String
  purpose : RevocationListPurpose
  /-- The revocation method the list belongs to. -/
  type : String
  formattedList : String

structure Database where
  organisations : IndexMap String Organisation
  identifiers : IndexMap String IssuerIdentifier
  walletUnits : IndexMap Nat WalletUnit
  attestedKeys : IndexMap Nat AttestedKeyRow
  revocationLists : IndexMap Nat RevocationList
  entries : IndexMap Nat RevocationListEntry
  /-- The next id. -/
  nextId : Nat

/-- Where the status of a key is kept. -/
structure RevocationInfo where
  revocationListId : Nat
  revocationListIndex : Nat

structure WalletUnitAttestedKey where
  id : Nat
  walletUnitId : Nat
  expirationDate : Timestamp
  publicKeyJwk : PublicJwk
  revocation : Option RevocationInfo

structure LoadedWalletUnit where
  id : Nat
  row : WalletUnit
  organisation : Organisation

inductive DataLayerError where
  | alreadyExists
  | recordNotUpdated
  | missingRequiredRelation (relation : String)

namespace Database

variable (db : Database)

def freshId : Nat × Database := (db.nextId, { db with nextId := db.nextId + 1 })

/-! ### Wallet units -/

def getWalletUnit (id : Nat) : Except DataLayerError (Option LoadedWalletUnit) :=
  match db.walletUnits.get? id with
  | none => .ok none
  | some row => do
    let organisation ← okOr (db.organisations.get? row.organisationId)
      (.missingRequiredRelation "wallet_unit-organisation")
    return some ⟨id, row, organisation⟩

def authenticationKeyTaken (id : Nat) (organisationId : String)
    (jwk : Option PublicJwk) : Prop :=
  jwk.isSome ∧ ∃ other ∈ db.walletUnits.entries, other.1 ≠ id ∧
    other.2.organisationId = organisationId ∧ other.2.authenticationKeyJwk = jwk

instance (db : Database) (id : Nat) (organisationId : String) (jwk : Option PublicJwk) :
    Decidable (db.authenticationKeyTaken id organisationId jwk) :=
  inferInstanceAs (Decidable (_ ∧ _))

def createWalletUnit (id : Nat) (row : WalletUnit) :
    Except DataLayerError Database := do
  ensure (¬db.authenticationKeyTaken id row.organisationId row.authenticationKeyJwk) .alreadyExists
  return { db with walletUnits := db.walletUnits.insert id row }

structure UpdateWalletUnitRequest where
  status : Option WalletUnitStatus := none
  lastIssuance : Option Timestamp := none
  authenticationKeyJwk : Option PublicJwk := none
  attestedKeys : Option (List WalletUnitAttestedKey) := none

def UpdateWalletUnitRequest.apply (request : UpdateWalletUnitRequest) (now : Timestamp)
    (row : WalletUnit) : WalletUnit :=
  { row with
    lastModified := now
    status := request.status.getD row.status
    lastIssuance := request.lastIssuance.or row.lastIssuance
    authenticationKeyJwk := request.authenticationKeyJwk.or row.authenticationKeyJwk }

/-- The row of a key after it was written.  The link to the status list is not among the columns
that are updated. -/
def upsertRow (now : Timestamp) (key : WalletUnitAttestedKey) :
    Option AttestedKeyRow → AttestedKeyRow
  | some row => { row with
      lastModified := now
      expirationDate := key.expirationDate
      publicKeyJwk := key.publicKeyJwk
      walletUnitId := key.walletUnitId }
  | none => ⟨key.walletUnitId, now, now, key.expirationDate, key.publicKeyJwk, none⟩

def upsertAttestedKey (now : Timestamp) (db : Database) (key : WalletUnitAttestedKey) : Database :=
  { db with attestedKeys := db.attestedKeys.upsert key.id (upsertRow now key) }

def updateWalletUnit (now : Timestamp) (id : Nat)
    (request : UpdateWalletUnitRequest) : Except DataLayerError Database := do
  let row ← okOr (db.walletUnits.get? id) .recordNotUpdated
  let row' := request.apply now row
  ensure (¬db.authenticationKeyTaken id row'.organisationId row'.authenticationKeyJwk)
    .alreadyExists
  let db' := { db with walletUnits := db.walletUnits.insert id row' }
  return (request.attestedKeys.getD []).foldl (upsertAttestedKey now) db'

/-! ### Attested keys -/

/-- Where the status of a key is kept, by the row of the key. -/
def getRevocation (row : AttestedKeyRow) : Except DataLayerError (Option RevocationInfo) :=
  match row.revocationListEntryId with
  | none => .ok none
  | some entryId => do
    let entry ← okOr (db.entries.get? entryId)
      (.missingRequiredRelation "wallet_unit_attested_key-revocation_list_entry")
    let index ← okOr entry.index
      (.missingRequiredRelation "wallet_unit_attested_key-revocation_list_entry-index")
    ensure (db.revocationLists.get? entry.revocationListId).isSome
      (.missingRequiredRelation "wallet_unit_attested_key-revocation_list")
    return some ⟨entry.revocationListId, index⟩

def convertModel (key : Nat × AttestedKeyRow) :
    Except DataLayerError WalletUnitAttestedKey := do
  let revocation ← db.getRevocation key.2
  return ⟨key.1, key.2.walletUnitId, key.2.expirationDate, key.2.publicKeyJwk, revocation⟩

def getByWalletUnitId (id : Nat) : Except DataLayerError (List WalletUnitAttestedKey) :=
  (db.attestedKeys.entries.filter fun key => decide (key.2.walletUnitId = id)).mapM db.convertModel

end Database

end OneCore.WalletProvider
