/-
# The issuer of OpenID4VCI 1.0: its data

The issuer keeps one row for each offered issuance, the interaction, and the credentials that belong to
it.  The data of an interaction has the hashes and the expiry of the tokens that were given out last, and
its nonce column has the nonce that was used for an issuance.  No two interactions have the same nonce in
this column; the database has a unique index for it.

Uuids are texts, a blob is kept with the row that refers to it, and tables that no request here reads are
left out.
-/
import OneCore.Model.ProofSchema
import OneCore.Presentation.Formatters
import OneCore.Proto.KeyVerification

namespace OneCore.Oid4vci

export Presentation (FormatType)

/-! ### Errors -/

inductive OpenID4VCIError where
  | invalidGrant
  | invalidRequest
  | invalidToken
  | invalidNonce
  | invalidOrMissingProof
  | unsupportedCredentialType
  | runtimeError (msg : String)
deriving DecidableEq

inductive CredentialState where
  | created
  | pending
  | offered
  | accepted
  | rejected
  | revoked
  | suspended
  | error
  | interactionExpired
deriving DecidableEq

inductive OpenIDIssuanceError where
  | invalidCredentialState (state : CredentialState)
  | validationError (msg : String)
  | openID4VCI (e : OpenID4VCIError)

inductive IssuerServiceError where
  | missingInteractionForAccessToken (interactionId : String)
  | missingCredentialsForInteraction (interactionId : String)
  | missingCredentialSchema (id : String)
  | invalidCredentialState (state : CredentialState)
  | validationError (msg : String)
  | mappingError (msg : String)
  | openID4VCI (e : OpenID4VCIError)
  | nested (msg : String)
deriving DecidableEq

def IssuerServiceError.ofIssuance : OpenIDIssuanceError → IssuerServiceError
  | .invalidCredentialState state => .invalidCredentialState state
  | .validationError msg => .validationError msg
  | .openID4VCI e => .openID4VCI e

inductive IssuanceProtocolError where
  | failed (msg : String)
  | invalidRequest (msg : String)
  | suspended
  | refreshTooSoon
  | nested (msg : String)

/-! ### Rows -/

inductive KeyStorageSecurity where
  | high
  | moderate
  | enhancedBasic
  | basic
deriving DecidableEq

structure IssuerSchema where
  id : String
  /-- The credential configuration id of the schema. -/
  schemaId : String
  format : String
  requiresWalletInstanceAttestation : Bool
  keyStorageSecurity : Option KeyStorageSecurity
deriving DecidableEq

structure InteractionData where
  preAuthorizedCodeUsed : Bool
  accessTokenHash : Bytes
  accessTokenExpiresAt : Option Timestamp
  refreshTokenHash : Option Bytes
  refreshTokenExpiresAt : Option Timestamp
  notificationId : Option String
  transactionCode : Option String
deriving DecidableEq

structure Interaction where
  createdDate : Timestamp
  data : Option InteractionData
  nonceId : Option String
deriving DecidableEq

structure WalletInstanceAttestation where
  name : String
  link : String
  attestation : String
deriving DecidableEq

structure IssuerCredential where
  interactionId : Option String
  schemaId : String
  state : CredentialState
  protocol : String
  walletInstanceAttestation : Option WalletInstanceAttestation
deriving DecidableEq

/-- The tables.  The tokens that were issued for a mobile document are kept with their dates. -/
structure Database where
  schemas : List IssuerSchema
  interactions : IndexMap String Interaction
  credentials : IndexMap String IssuerCredential
  validityCredentials : List (String × Timestamp)
deriving DecidableEq

namespace Database

variable (db : Database)

def getCredentialSchema (id : String) : Option IssuerSchema :=
  db.schemas.find? fun schema => schema.id = id

def getCredentialsByInteractionId (interactionId : String) : List (String × IssuerCredential) :=
  db.credentials.entries.filter fun e => e.2.interactionId = some interactionId

/-- Change a row of a credential; the row has to be there. -/
def updateCredential (id : String) (update : IssuerCredential → IssuerCredential) :
    Except IssuerServiceError Database :=
  match db.credentials.get? id with
  | some c => .ok { db with credentials := db.credentials.insert id (update c) }
  | none => .error (.nested "updating credential")

/-- Write the data column of an interaction; the other columns keep their values. -/
def updateInteraction (id : String) (data : InteractionData) : Except IssuerServiceError Database :=
  match db.interactions.get? id with
  | some i => .ok { db with interactions := db.interactions.insert id { i with data := some data } }
  | none => .error (.nested "updating interaction")

inductive DataLayerError where
  | recordNotUpdated
  | alreadyExists

/-- Write the nonce column of an interaction if it is empty and no other row has the nonce. -/
def markNonceAsUsed (interactionId nonceId : String) : Except DataLayerError Database :=
  match db.interactions.get? interactionId with
  | none => .error .recordNotUpdated
  | some i =>
    if i.nonceId.isSome then .error .recordNotUpdated
    else if db.interactions.entries.any fun e => e.2.nonceId = some nonceId then
      .error .alreadyExists
    else .ok { db with
      interactions := db.interactions.insert interactionId { i with nonceId := some nonceId } }

/-- The date of the last token of a mobile document. -/
def latestValidity (credentialId : String) : Option Timestamp :=
  ((db.validityCredentials.filter fun e => e.1 = credentialId).map Prod.snd).max?

end Database

end OneCore.Oid4vci
