/-
# The status lists of attested keys

An attested key has an entry on a status list, and the row of the key points to the entry.  The entry
is found on the list by its index.  An entry is added within the transaction that writes the key, and
the entries of all keys of a wallet unit are marked when the unit is revoked; then each list that was
touched is signed again.

A transaction is one step, so nobody else takes the index in the meantime and the source's retries
are not needed.
-/
import OneCore.Lib.IterationOrder
import OneCore.WalletProvider.Model

namespace OneCore.WalletProvider

structure StatusListEnvironment where
  /-- The address of this service. -/
  baseUrl : Option String
  /-- The signed list, for the issuer, the certificate and the entries. -/
  formatStatusListCredential : Nat → String → Option String → List (Nat × EntryStatus) →
    Except String String

/-- A reference to an entry, as it is put into an attestation. -/
structure CredentialStatus where
  uri : String
  index : Nat

namespace Database

variable (db : Database)

def getRevocationByIssuerIdentifierId (issuerIdentifierId : String)
    (issuerCertificateId : Option String) (method : String) : Option Nat :=
  (db.revocationLists.entries.find? fun list => decide (
    list.2.issuerIdentifierId = issuerIdentifierId ∧ list.2.purpose = .revocationAndSuspension ∧
    list.2.type = method ∧ list.2.issuerCertificateId = issuerCertificateId)).map Prod.fst

def listEntries (listId : Nat) : List (Nat × EntryStatus) :=
  db.entries.entries.filterMap fun entry =>
    if entry.2.revocationListId = listId then entry.2.index.map fun i => (i, entry.2.status)
    else none

def nextFreeIndex (listId : Nat) : Nat :=
  match ((db.listEntries listId).map Prod.fst).max? with
  | some index => index + 1
  | none => 0

def indexTaken (listId index : Nat) : Prop :=
  ∃ entry ∈ db.entries.entries, entry.2.revocationListId = listId ∧ entry.2.index = some index

instance (listId index : Nat) : Decidable (db.indexTaken listId index) :=
  inferInstanceAs (Decidable (∃ entry ∈ db.entries.entries, _))

/-- A new entry for an attested key; the row of the key points to it. -/
def createEntry (now : Timestamp) (listId keyId index : Nat) :
    Except DataLayerError Database := do
  ensure (¬db.indexTaken listId index) .alreadyExists
  let (entryId, db) := db.freshId
  let row ← okOr (db.attestedKeys.get? keyId) .recordNotUpdated
  let row := { row with lastModified := now, revocationListEntryId := some entryId }
  return { db with
    entries := db.entries.insert entryId ⟨listId, some index, .active⟩
    attestedKeys := db.attestedKeys.insert keyId row }

def markEntry (listId index : Nat) (status : EntryStatus) (entry : RevocationListEntry) :
    RevocationListEntry :=
  if entry.revocationListId = listId ∧ entry.index = some index then { entry with status := status }
  else entry

def updateEntry (listId index : Nat) (status : EntryStatus) : Database :=
  { db with entries := db.entries.retain fun _ entry => some (markEntry listId index status entry) }

def updateFormattedList (listId : Nat) (formattedList : String) :
    Except DataLayerError Database := do
  let list ← okOr (db.revocationLists.get? listId) .recordNotUpdated
  let list := { list with formattedList := formattedList }
  return { db with revocationLists := db.revocationLists.insert listId list }

end Database

variable (env : StatusListEnvironment)

def revocationListUrl (baseUrl : String) (listId : Nat) : String :=
  s!"{baseUrl}/ssi/revocation/v1/list/{listId}"

def createCredentialStatus (info : RevocationInfo) :
    Except WalletProviderError CredentialStatus := do
  let baseUrl ← okOr env.baseUrl (.mappingError "Host URL not specified")
  return ⟨revocationListUrl baseUrl info.revocationListId, info.revocationListIndex⟩

/-- A new list whose first entry is the one of the key. -/
def startNewListForEntity (now : Timestamp) (db : Database) (keyId : Nat)
    (issuerIdentifierId : String) (issuerCertificateId : Option String) (method : String) :
    Except WalletProviderError (Nat × Database) := do
  let (listId, db) := db.freshId
  let formattedList ← (env.formatStatusListCredential listId issuerIdentifierId
    issuerCertificateId []).mapError fun _ => .nested "starting new token status list"
  let list := ⟨issuerIdentifierId, issuerCertificateId, .revocationAndSuspension, method,
    formattedList⟩
  let db := { db with revocationLists := db.revocationLists.insert listId list }
  let db ← (db.createEntry now listId keyId 0).mapError fun _ =>
    .nested "creating revocation list entry"
  return (listId, db)

/-- An entry for a key, on the current list of the issuer or on a new one. -/
def createKeyEntry (now : Timestamp) (db : Database) (keyId : Nat) (issuerIdentifierId : String)
    (issuerCertificateId : Option String) (method : String) :
    Except WalletProviderError (RevocationInfo × Database) :=
  match db.getRevocationByIssuerIdentifierId issuerIdentifierId issuerCertificateId method with
  | some listId => do
    let index := db.nextFreeIndex listId
    let db ← (db.createEntry now listId keyId index).mapError fun _ =>
      .nested "creating revocation list entry"
    return (⟨listId, index⟩, db)
  | none => do
    let (listId, db) ← startNewListForEntity env now db keyId issuerIdentifierId
      issuerCertificateId method
    return (⟨listId, 0⟩, db)

def addIssuedAttestation (now : Timestamp) (db : Database) (method : String)
    (attestation : WalletUnitAttestedKey) :
    Except WalletProviderError (CredentialStatus × Database) := do
  let unit? ← (db.getWalletUnit attestation.walletUnitId).mapError fun _ =>
    .nested "getting wallet unit"
  let unit ← okOr unit? (.nested "Missing wallet unit")
  let issuerId ← okOr unit.organisation.walletProviderIssuer
    (.nested "Missing wallet_provider_issuer")
  let issuer ← okOr (db.identifiers.get? issuerId) (.nested "Missing issuer_identifier")
  let certificate := (issuer.certificates.getD []).find? Certificate.active
  let (info, db) ← createKeyEntry env now db attestation.id issuerId (certificate.map Certificate.id)
    method
  let status ← createCredentialStatus env info
  return (status, db)

/-- The entries of one list are marked, and the list is signed again. -/
def updateListEntries (status : EntryStatus) (infos : List RevocationInfo) (db : Database)
    (listId : Nat) : Except WalletProviderError Database := do
  let list ← okOr (db.revocationLists.get? listId) (.nested "updating revocation list")
  let indexes := (infos.filter fun info => decide (info.revocationListId = listId)).map
    RevocationInfo.revocationListIndex
  let db := indexes.foldl (fun db index => db.updateEntry listId index status) db
  let formattedList ← (env.formatStatusListCredential listId list.issuerIdentifierId
    list.issuerCertificateId (db.listEntries listId)).mapError fun _ => .nested "revoking attestations"
  (db.updateFormattedList listId formattedList).mapError fun _ => .nested "updating revocation list"

/-- The entries of the given keys are marked, one list after the other. -/
def updateAttestationEntries (order : IterationOrder Nat) (db : Database)
    (infos : List RevocationInfo) (status : EntryStatus) : Except WalletProviderError Database :=
  (order.first (infos.map RevocationInfo.revocationListId).dedup).foldlM
    (updateListEntries env status infos) db

end OneCore.WalletProvider
