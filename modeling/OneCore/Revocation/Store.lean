/-
# The tables of the status lists

A list is found by its issuer, by what it is for and by the revocation method that keeps it; what was
published last is kept with it.  An entry belongs to a list, has an index there and a status, and refers to
what was issued.  The database has unique indices for lists and for the indices in a list.

Lists and entries are never deleted, so their ids are their places in the tables.
-/
import OneCore.Identifier.KeySelection
import OneCore.Model.Session
import OneCore.Oid4vci.Model
import OneCore.Revocation.BitstringStatusList
import OneCore.Revocation.TokenStatusList

namespace OneCore.Revocation

open Identifiers (IdentifierType)
open Oid4vci (CredentialState)

/-! ### Rows -/

inductive RevocationListEntityId where
  | credential (id : String)
  | signature (type : String) (serial : Option String)
  | walletUnitAttestedKey (id : String)
deriving DecidableEq

structure ListKey where
  issuerIdentifierId : String
  issuerCertificateId : Option String
  purpose : RevocationListPurpose
  /-- The configuration of the revocation method. -/
  type : String
deriving DecidableEq

structure RevocationList where
  key : ListKey
  formattedList : Str

structure EntryRow where
  revocationListId : Nat
  index : Option Nat
  entity : RevocationListEntityId
  status : RevocationListEntryStatus

structure Credential where
  issuerIdentifierId : String
  issuerIdentifierType : IdentifierType
  issuerCertificateId : Option String
  organisationId : Option String
  revocationMethod : Option String
  allowSuspension : Bool
  state : CredentialState
  suspendEndDate : Option Timestamp
  deletedAt : Option Timestamp

structure Database where
  lists : List RevocationList
  entries : List EntryRow
  credentials : String → Option Credential

inductive DataLayerError where
  | alreadyExists
  | incorrectParameters
  | missingRequiredRelation (relation : String)
  | recordNotUpdated
  | transactionError (message : String)
deriving DecidableEq

/-- How the entries to be updated are selected. -/
inductive UpdateRevocationListEntryId where
  | credential (id : String)
  | id (entryId : Nat)
  | index (revocationListId index : Nat)
deriving DecidableEq

def UpdateRevocationListEntryId.selects (id : UpdateRevocationListEntryId) (entryId : Nat)
    (row : EntryRow) : Bool :=
  match id with
  | .credential credentialId => row.entity = .credential credentialId
  | .id selected => entryId = selected
  | .index listId selected => row.revocationListId = listId ∧ row.index = some selected

/-! ### The repository -/

namespace Database

variable (db : Database)

def getRevocationByIssuerIdentifierId (key : ListKey) : Option Nat :=
  db.lists.findIdx? fun list => list.key = key

def createRevocationList (list : RevocationList) : Except DataLayerError (Nat × Database) :=
  if ∃ list' ∈ db.lists, list'.key = list.key then .error .alreadyExists
  else .ok (db.lists.length, { db with lists := db.lists ++ [list] })

def rowsOf (listId : Nat) : List EntryRow :=
  db.entries.filter fun row => row.revocationListId = listId

def indicesOf (listId : Nat) : List Nat :=
  (db.rowsOf listId).filterMap EntryRow.index

def nextFreeIndex (listId : Nat) : Except DataLayerError Nat :=
  match (db.indicesOf listId).max? with
  | some index => .ok (index + 1)
  | none =>
    if listId < db.lists.length then .ok 0 else .error (.missingRequiredRelation "revocation_list")

def correctParameters : RevocationListEntityId → Option Nat → Bool
  | .signature _ (some _), index => index.isNone
  | _, index => index.isSome

def createEntry (listId : Nat) (entity : RevocationListEntityId)
    (indexOnStatusList : Option Nat) : Except DataLayerError (Nat × Database) := do
  ensure (correctParameters entity indexOnStatusList = true) .incorrectParameters
  ensure (listId < db.lists.length) (.missingRequiredRelation "revocation_list")
  ensure (∀ index ∈ indexOnStatusList, index ∉ db.indicesOf listId) .alreadyExists
  pure (db.entries.length,
    { db with entries := db.entries ++ [⟨listId, indexOnStatusList, entity, .active⟩] })

def updateEntry (id : UpdateRevocationListEntryId)
    (status : RevocationListEntryStatus) : Database :=
  { db with
    entries := db.entries.mapIdx fun entryId row =>
      if id.selects entryId row then { row with status } else row }

def getEntries (listId : Nat) : List RevocationListEntry :=
  (db.rowsOf listId).map fun row => ⟨row.index, row.status⟩

def updateFormattedList (listId : Nat) (formattedList : Str) : Except DataLayerError Database :=
  if listId < db.lists.length then
    .ok { db with lists := db.lists.modify listId fun list => { list with formattedList } }
  else .error .recordNotUpdated

def updateCredential (id : String) (state : CredentialState)
    (suspendEndDate : Option Timestamp) : Except DataLayerError Database :=
  match db.credentials id with
  | none => .error .recordNotUpdated
  | some credential => .ok { db with
      credentials := Function.update db.credentials id (some { credential with state, suspendEndDate }) }

end Database

/-! ### The lists as they are published -/

inductive MethodKind where
  | tokenStatusList
  | bitstringStatusList
deriving DecidableEq

inductive EncodeError where
  | token (e : GenerateError)
  | bitstring (e : GenerateBitstringError)
deriving DecidableEq

/-- The codecs, the configured revocation methods, and the signed credential around a list. -/
structure Environment where
  token : TokenLibrary
  bitstring : BitstringLibrary
  kind : String → Option MethodKind
  formatStatusListCredential : Nat → ListKey → Str → Except String Str
  readStatusListCredential : Str → Except String Str
  read_of_format : ∀ {listId key encodedList formattedList},
    formatStatusListCredential listId key encodedList = .ok formattedList →
      readStatusListCredential formattedList = .ok encodedList

/-- The entries of a list, encoded as the revocation method does it. -/
def Environment.encode (env : Environment) (kind : MethodKind) (purpose : RevocationListPurpose)
    (entries : List RevocationListEntry) : Except (Fault EncodeError) Str :=
  match kind with
  | .tokenStatusList => (generateTokenFromEntries env.token entries).mapError (Fault.map .token)
  | .bitstringStatusList =>
    (generateBitstringFromEntries env.bitstring entries purpose).mapError (Fault.map .bitstring)

/-- Two configured methods, and list credentials that are nothing but the list. -/
def Environment.sample : Environment where
  token := .sample
  bitstring := .sample
  kind
    | "TOKENSTATUSLIST" => some .tokenStatusList
    | "BITSTRINGSTATUSLIST" => some .bitstringStatusList
    | _ => none
  formatStatusListCredential _ _ encodedList := .ok encodedList
  readStatusListCredential := .ok
  read_of_format := by
    rintro _ _ _ _ ⟨⟩
    rfl

end OneCore.Revocation
