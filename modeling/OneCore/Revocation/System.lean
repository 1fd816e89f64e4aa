/-
# Calls on the status lists

Four kinds of calls work on the lists.  One gives an entry to something that is issued: it finds the list
of the issuer or starts it, and takes the next index.  One marks a credential: it finds the list, writes the
status of the entries of the credential, reads all entries of the list and publishes the list that is made
of them.  One changes the state of a credential: it reads the credential and checks the change, marks the
credential, and writes the new state.  The last one only writes the status of an entry, which is how keys
and signatures are marked.

A step is one access to the database, or one transaction.  What is done between two accesses belongs to the
step before.  The database may refuse any access, and a transaction may run into a conflict.
-/
import OneCore.Lib.Interleaving
import OneCore.Revocation.Store

namespace OneCore.Revocation

open Database
open Identifiers (IdentifierType)
open Oid4vci (CredentialState)

inductive RevocationError where
  | mappingError (message : String)
  | missingCredentialIndexOnRevocationList (credentialId identifierId : String)
  | encoding (e : Fault EncodeError)
  | formatting (message : String)
  | dataLayer (e : DataLayerError)
deriving DecidableEq

inductive ValidityError where
  | credentialNotFound (credentialId : String)
  | session (e : SessionError)
  | noRevocationMethod
  | missingRevocationMethod (method : String)
  | suspensionNotSupported (revocationMethod : String)
  | invalidCredentialStateTransition (currentState targetState : CredentialState)
  | revocation (e : RevocationError)
deriving DecidableEq

variable (env : Environment)

/-- The list that is made of the entries, as it is published. -/
def Environment.formatEntries (kind : MethodKind) (key : ListKey) (listId : Nat)
    (entries : List RevocationListEntry) : Except RevocationError Str := do
  let encodedList ← (env.encode kind key.purpose entries).mapError .encoding
  (env.formatStatusListCredential listId key encodedList).mapError .formatting

/-! ### Entries for what is issued -/

structure IssueRequest where
  entity : RevocationListEntityId
  kind : MethodKind
  key : ListKey

/-- What is left to do of a call that creates an entry. -/
inductive IssueCall where
  | find (request : IssueRequest)
  | fetch (request : IssueRequest)
  | add (request : IssueRequest) (listId retryCounter : Nat)

def startNewListForEntity (db : Database) (request : IssueRequest) :
    Except RevocationError (Nat × Database) := do
  let formattedList ← env.formatEntries request.kind request.key db.lists.length []
  let (listId, db) ← (db.createRevocationList ⟨request.key, formattedList⟩).mapError .dataLayer
  let (_, db) ← (db.createEntry listId request.entity (some 0)).mapError .dataLayer
  pure (listId, db)

def addEntityToList (db : Database) (listId : Nat) (entity : RevocationListEntityId) :
    Except DataLayerError (Nat × Database) := do
  let index ← db.nextFreeIndex listId
  let (_, db) ← db.createEntry listId entity (some index)
  pure (index, db)

/-! ### Marks -/

/-- A credential that is to be brought into a state, with the list that is published for it. -/
structure Mark where
  credentialId : String
  kind : MethodKind
  key : ListKey
  newState : RevocationState

def issuerCertificate (credential : Credential) : Except RevocationError (Option String) :=
  if credential.issuerIdentifierType = .certificate then do
    let certificateId ← okOr credential.issuerCertificateId
      (.mappingError "issuer certificate is None")
    pure (some certificateId)
  else .ok none

/-- The list that a token status list method publishes for a credential: one for both purposes. -/
def tokenListKey (type : String) (credential : Credential) : Except RevocationError ListKey := do
  let certificateId ← issuerCertificate credential
  pure ⟨credential.issuerIdentifierId, certificateId, .revocationAndSuspension, type⟩

/-- The list that a bitstring status list method publishes for a credential: that for revocations if the
credential is revoked, and otherwise that for suspensions. -/
def bitstringListKey (type : String) (credential : Credential) (newState : RevocationState) : ListKey :=
  ⟨credential.issuerIdentifierId, credential.issuerCertificateId,
    if newState = .revoked then .revocation else .suspension, type⟩

def prepareMark (type : String) (kind : MethodKind) (credentialId : String) (credential : Credential)
    (newState : RevocationState) : Except RevocationError Mark :=
  match kind with
  | .tokenStatusList => do
    let key ← tokenListKey type credential
    pure ⟨credentialId, kind, key, newState⟩
  | .bitstringStatusList => .ok ⟨credentialId, kind, bitstringListKey type credential newState, newState⟩

/-- What is left to do of a call that marks a credential. -/
inductive MarkCall where
  | find (mark : Mark)
  | update (mark : Mark) (listId : Nat)
  | read (mark : Mark) (listId : Nat)
  | publish (mark : Mark) (listId : Nat) (formattedList : Str)

/-! ### Changes of the state -/

def RevocationState.toCredentialState : RevocationState → CredentialState
  | .valid => .accepted
  | .revoked => .revoked
  | .suspended _ => .suspended

def RevocationState.suspendEndDate : RevocationState → Option Timestamp
  | .suspended suspendEndDate => suspendEndDate
  | _ => none

def verifySuspensionSupport (allowSuspension : Bool) (revocationMethod : String)
    (revocationState : RevocationState) : Except ValidityError Unit :=
  match revocationState with
  | .suspended _ => ensure (allowSuspension = true) (.suspensionNotSupported revocationMethod)
  | _ => .ok ()

def validStates : RevocationState → List CredentialState
  | .revoked => [.accepted, .suspended]
  | .valid => [.suspended]
  | .suspended _ => [.accepted]

def validateStateTransition (currentState : CredentialState) (targetState : RevocationState) :
    Except ValidityError Unit :=
  ensure (currentState ∈ validStates targetState)
    (.invalidCredentialStateTransition currentState targetState.toCredentialState)

structure Change where
  credentialId : String
  revocationState : RevocationState
  session : Option Session

/-- Read the credential, check the change and find out about the list to be published. -/
def checkChange (db : Database) (change : Change) : Except ValidityError Mark := do
  let credential ← okOr (db.credentials change.credentialId)
    (.credentialNotFound change.credentialId)
  ensure (credential.deletedAt = none) (.credentialNotFound change.credentialId)
  (throwIfOrgRelationNotMatchingSession credential.organisationId change.session).mapError .session
  let revocationMethodId ← okOr credential.revocationMethod .noRevocationMethod
  verifySuspensionSupport credential.allowSuspension revocationMethodId change.revocationState
  validateStateTransition credential.state change.revocationState
  let kind ← okOr (env.kind revocationMethodId) (.missingRevocationMethod revocationMethodId)
  (prepareMark revocationMethodId kind change.credentialId credential change.revocationState).mapError
    .revocation

/-- What is left to do of a call that changes the state of a credential. -/
inductive ChangeCall where
  | read (change : Change)
  | marking (change : Change) (call : MarkCall)
  | write (change : Change)

/-! ### Steps -/

inductive Event where
  | started (listId : Nat)
  | found (listId : Nat)
  | conflicted
  | added (listId index : Nat)
  | occupied (listId : Nat)
  | updated (id : UpdateRevocationListEntryId) (status : RevocationListEntryStatus)
  | entriesRead (listId : Nat)
  | published (listId : Nat)
  | validated
  | stateWritten (state : CredentialState)
  | failed (error : ValidityError)
deriving DecidableEq

inductive Answer where
  | works
  | conflict
  | fails
deriving DecidableEq

inductive Call where
  | issue (call : IssueCall)
  | mark (call : MarkCall)
  | change (call : ChangeCall)
  | update (id : UpdateRevocationListEntryId) (status : RevocationListEntryStatus)

def dataLayerFailure (e : DataLayerError) : Event := .failed (.revocation (.dataLayer e))

def refused : DataLayerError := .transactionError "refused"

/-- The transaction in which the list is found or started has failed.  If another call has started the list,
and with bitstring status lists in any case, the list is looked up once more. -/
def IssueCall.afterFailure (request : IssueRequest) (error : RevocationError) : Event × Option IssueCall :=
  if request.kind = .bitstringStatusList ∨ error = .dataLayer .alreadyExists then
    (.conflicted, some (.fetch request))
  else (.failed (.revocation error), none)

def IssueCall.retry (request : IssueRequest) (listId retryCounter : Nat) : Event × Option IssueCall :=
  if retryCounter > 100 then (dataLayerFailure (.transactionError "Too many retries"), none)
  else (.occupied listId, some (.add request listId (retryCounter + 1)))

def issueStep (answer : Answer) (db : Database) :
    IssueCall → Event × Database × Option IssueCall
  | .find request =>
    let failure (error : RevocationError) :=
      ((IssueCall.afterFailure request error).1, db, (IssueCall.afterFailure request error).2)
    match answer with
    | .works =>
      match db.getRevocationByIssuerIdentifierId request.key with
      | some listId => (.found listId, db, some (.add request listId 0))
      | none =>
        match startNewListForEntity env db request with
        | .ok (listId, db') => (.started listId, db', none)
        | .error e => failure e
    | .conflict => failure (.dataLayer .alreadyExists)
    | .fails => failure (.dataLayer refused)
  | .fetch request =>
    if answer = .works then
      match db.getRevocationByIssuerIdentifierId request.key with
      | some listId => (.found listId, db, some (.add request listId 0))
      | none => (.failed (.revocation (.mappingError "No revocation list found")), db, none)
    else (dataLayerFailure refused, db, none)
  | .add request listId retryCounter =>
    let occupied :=
      ((IssueCall.retry request listId retryCounter).1, db, (IssueCall.retry request listId retryCounter).2)
    match answer with
    | .works =>
      match addEntityToList db listId request.entity with
      | .ok (index, db') => (.added listId index, db', none)
      | .error .alreadyExists => occupied
      | .error e => (dataLayerFailure e, db, none)
    | .conflict => occupied
    | .fails => (dataLayerFailure refused, db, none)

def markStep (db : Database) : MarkCall → Event × Database × Option MarkCall
  | .find mark =>
    match db.getRevocationByIssuerIdentifierId mark.key with
    | some listId => (.found listId, db, some (.update mark listId))
    | none => (.failed (.revocation (.missingCredentialIndexOnRevocationList mark.credentialId
        mark.key.issuerIdentifierId)), db, none)
  | .update mark listId =>
    (.updated (.credential mark.credentialId) mark.newState.toEntryStatus,
      db.updateEntry (.credential mark.credentialId) mark.newState.toEntryStatus, some (.read mark listId))
  | .read mark listId =>
    match env.formatEntries mark.kind mark.key listId (db.getEntries listId) with
    | .ok formattedList => (.entriesRead listId, db, some (.publish mark listId formattedList))
    | .error e => (.failed (.revocation e), db, none)
  | .publish _ listId formattedList =>
    match db.updateFormattedList listId formattedList with
    | .ok db' => (.published listId, db', none)
    | .error e => (dataLayerFailure e, db, none)

/-- The change goes on when the mark has been published. -/
def ChangeCall.afterMark (change : Change) : Event → Option MarkCall → Option ChangeCall
  | _, some call => some (.marking change call)
  | .published _, none => some (.write change)
  | _, none => none

def changeStep (db : Database) : ChangeCall → Event × Database × Option ChangeCall
  | .read change =>
    match checkChange env db change with
    | .ok mark => (.validated, db, some (.marking change (.find mark)))
    | .error e => (.failed e, db, none)
  | .marking change call =>
    let (event, db', rest) := markStep env db call
    (event, db', ChangeCall.afterMark change event rest)
  | .write change =>
    match db.updateCredential change.credentialId change.revocationState.toCredentialState
        change.revocationState.suspendEndDate with
    | .ok db' => (.stateWritten change.revocationState.toCredentialState, db', none)
    | .error e => (dataLayerFailure e, db, none)

/-- The step of a call that ends with the first access the database refuses. -/
def unlessRefused {κ : Type} (answer : Answer) (db : Database) (step : Event × Database × Option κ) :
    Event × Database × Option κ :=
  if answer = .works then step else (dataLayerFailure refused, db, none)

def advance (answer : Answer) (db : Database) : Call → Event × Database × Option Call
  | .issue call =>
    let (event, db', rest) := issueStep env answer db call
    (event, db', rest.map .issue)
  | .mark call =>
    let (event, db', rest) := unlessRefused answer db (markStep env db call)
    (event, db', rest.map .mark)
  | .change call =>
    let (event, db', rest) := unlessRefused answer db (changeStep env db call)
    (event, db', rest.map .change)
  | .update id status => unlessRefused answer db (.updated id status, db.updateEntry id status, none)

def Call.IsRequest : Call → Prop
  | .issue (.find request) => env.kind request.key.type = some request.kind
  | .mark (.find m) => env.kind m.key.type = some m.kind ∧ ∃ credential,
      prepareMark m.key.type m.kind m.credentialId credential m.newState = .ok m
  | .change (.read _) => True
  | .update _ _ => True
  | _ => False

abbrev Configuration := Interleaving.Config Nat Database Call

abbrev CallLabel := Interleaving.Label Nat Call (Answer × Event)

abbrev CallTransition := Transition Configuration CallLabel

/-- One step of a call, with the answer of the database. -/
abbrev Next (db : Database) (call : Call) (label : Answer × Event) (db' : Database)
    (rest : Option Call) : Prop :=
  advance env label.1 db call = (label.2, db', rest)

/-- One step of the system: a request arrives, or one of the calls goes on. -/
abbrev Step (env : Environment) : Configuration → CallLabel → Configuration → Prop :=
  Interleaving.Step (Call.IsRequest env) (Next env)

/-! ### What the calls do in a step -/

/-- What a call that creates an entry does in a step. -/
inductive IssueOutcome (env : Environment) (db : Database) :
    IssueCall → Event → Database → Option IssueCall → Prop
  | found {request : IssueRequest} {listId : Nat}
      (hget : db.getRevocationByIssuerIdentifierId request.key = some listId) :
      IssueOutcome env db (.find request) (.found listId) db (some (.add request listId 0))
  | started {request : IssueRequest} {listId : Nat} {db' : Database}
      (hstart : startNewListForEntity env db request = .ok (listId, db')) :
      IssueOutcome env db (.find request) (.started listId) db' none
  | conflicted {request : IssueRequest} :
      IssueOutcome env db (.find request) .conflicted db (some (.fetch request))
  | fetched {request : IssueRequest} {listId : Nat}
      (hget : db.getRevocationByIssuerIdentifierId request.key = some listId) :
      IssueOutcome env db (.fetch request) (.found listId) db (some (.add request listId 0))
  | added {request : IssueRequest} {listId retryCounter index : Nat} {db' : Database}
      (hadd : addEntityToList db listId request.entity = .ok (index, db')) :
      IssueOutcome env db (.add request listId retryCounter) (.added listId index) db' none
  | occupied {request : IssueRequest} {listId retryCounter : Nat} :
      IssueOutcome env db (.add request listId retryCounter) (.occupied listId) db
        (some (.add request listId (retryCounter + 1)))
  | failed {call : IssueCall} {e : ValidityError} : IssueOutcome env db call (.failed e) db none

/-- What a call that marks a credential does in a step. -/
inductive MarkOutcome (env : Environment) (db : Database) :
    MarkCall → Event → Database → Option MarkCall → Prop
  | found {mark : Mark} {listId : Nat} (hget : db.getRevocationByIssuerIdentifierId mark.key = some listId) :
      MarkOutcome env db (.find mark) (.found listId) db (some (.update mark listId))
  | updated {mark : Mark} {listId : Nat} :
      MarkOutcome env db (.update mark listId)
        (.updated (.credential mark.credentialId) mark.newState.toEntryStatus)
        (db.updateEntry (.credential mark.credentialId) mark.newState.toEntryStatus)
        (some (.read mark listId))
  | entriesRead {mark : Mark} {listId : Nat} {formattedList : Str}
      (hformat : env.formatEntries mark.kind mark.key listId (db.getEntries listId) = .ok formattedList) :
      MarkOutcome env db (.read mark listId) (.entriesRead listId) db
        (some (.publish mark listId formattedList))
  | published {mark : Mark} {listId : Nat} {formattedList : Str} {db' : Database}
      (hwrite : db.updateFormattedList listId formattedList = .ok db') :
      MarkOutcome env db (.publish mark listId formattedList) (.published listId) db' none
  | failed {call : MarkCall} {e : ValidityError} : MarkOutcome env db call (.failed e) db none

/-- What a call that changes the state of a credential does in a step. -/
inductive ChangeOutcome (env : Environment) (db : Database) :
    ChangeCall → Event → Database → Option ChangeCall → Prop
  | validated {change : Change} {mark : Mark} (hcheck : checkChange env db change = .ok mark) :
      ChangeOutcome env db (.read change) .validated db (some (.marking change (.find mark)))
  | marking {change : Change} {call rest : MarkCall} {event : Event} {db' : Database}
      (hmark : MarkOutcome env db call event db' (some rest)) :
      ChangeOutcome env db (.marking change call) event db' (some (.marking change rest))
  | marked {change : Change} {call : MarkCall} {listId : Nat} {db' : Database}
      (hmark : MarkOutcome env db call (.published listId) db' none) :
      ChangeOutcome env db (.marking change call) (.published listId) db' (some (.write change))
  | written {change : Change} {db' : Database}
      (hwrite : db.updateCredential change.credentialId change.revocationState.toCredentialState
        change.revocationState.suspendEndDate = .ok db') :
      ChangeOutcome env db (.write change) (.stateWritten change.revocationState.toCredentialState) db' none
  | failed {call : ChangeCall} {e : ValidityError} : ChangeOutcome env db call (.failed e) db none

inductive Outcome (env : Environment) (db : Database) : Call → Event → Database → Option Call → Prop
  | issue {call : IssueCall} {event : Event} {db' : Database} {rest : Option IssueCall}
      (h : IssueOutcome env db call event db' rest) :
      Outcome env db (.issue call) event db' (rest.map .issue)
  | mark {call : MarkCall} {event : Event} {db' : Database} {rest : Option MarkCall}
      (h : MarkOutcome env db call event db' rest) :
      Outcome env db (.mark call) event db' (rest.map .mark)
  | change {call : ChangeCall} {event : Event} {db' : Database} {rest : Option ChangeCall}
      (h : ChangeOutcome env db call event db' rest) :
      Outcome env db (.change call) event db' (rest.map .change)
  | update {id : UpdateRevocationListEntryId} {status : RevocationListEntryStatus} :
      Outcome env db (.update id status) (.updated id status) (db.updateEntry id status) none
  | failed {call : Call} {e : ValidityError} : Outcome env db call (.failed e) db none

section Outcome

variable {env : Environment} {db : Database}

lemma outcome_issueStep (answer : Answer) (call : IssueCall) :
    IssueOutcome env db call (issueStep env answer db call).1 (issueStep env answer db call).2.1
      (issueStep env answer db call).2.2 := by
  have hfail : ∀ request error, IssueOutcome env db (.find request)
      (IssueCall.afterFailure request error).1 db (IssueCall.afterFailure request error).2 := by
    intro request error
    unfold IssueCall.afterFailure
    split
    · exact .conflicted
    · exact .failed
  have hretry : ∀ request listId retryCounter, IssueOutcome env db (.add request listId retryCounter)
      (IssueCall.retry request listId retryCounter).1 db
      (IssueCall.retry request listId retryCounter).2 := by
    intro request listId retryCounter
    unfold IssueCall.retry
    split
    · exact .failed
    · exact .occupied
  cases call with
  | find request =>
    cases answer with
    | works =>
      simp only [issueStep]
      split
      · next hget => exact .found hget
      · split
        · next hstart => exact .started hstart
        · exact hfail request _
    | conflict => exact hfail request _
    | fails => exact hfail request _
  | fetch request =>
    simp only [issueStep]
    split
    · split
      · next hget => exact .fetched hget
      · exact .failed
    · exact .failed
  | add request listId retryCounter =>
    cases answer with
    | works =>
      simp only [issueStep]
      split
      · next hadd => exact .added hadd
      · exact hretry request listId retryCounter
      · exact .failed
    | conflict => exact hretry request listId retryCounter
    | fails => exact .failed

lemma outcome_markStep (call : MarkCall) :
    MarkOutcome env db call (markStep env db call).1 (markStep env db call).2.1
      (markStep env db call).2.2 := by
  cases call with
  | find mark =>
    simp only [markStep]
    split
    · next hget => exact .found hget
    · exact .failed
  | update mark listId => exact .updated
  | read mark listId =>
    simp only [markStep]
    split
    · next hformat => exact .entriesRead hformat
    · exact .failed
  | publish mark listId formattedList =>
    simp only [markStep]
    split
    · next hwrite => exact .published hwrite
    · exact .failed

lemma outcome_changeStep (call : ChangeCall) :
    ChangeOutcome env db call (changeStep env db call).1 (changeStep env db call).2.1
      (changeStep env db call).2.2 := by
  cases call with
  | read change =>
    simp only [changeStep]
    split
    · next hcheck => exact .validated hcheck
    · exact .failed
  | marking change call =>
    have hmark : MarkOutcome env db call _ _ _ := outcome_markStep call
    simp only [changeStep]
    generalize markStep env db call = step at hmark ⊢
    obtain ⟨event, db', rest⟩ := step
    cases rest with
    | some rest => exact .marking hmark
    | none =>
      -- A mark that has ended was published or has failed.
      cases hmark with
      | published hwrite => exact .marked (.published hwrite)
      | failed => exact .failed
  | write change =>
    simp only [changeStep]
    split
    · next hwrite => exact .written hwrite
    · exact .failed

variable {event : Event} {db' : Database}

lemma outcome_of_advance {answer : Answer} {call : Call}
    {rest : Option Call} (h : advance env answer db call = (event, db', rest)) :
    Outcome env db call event db' rest := by
  cases call with
  | issue call =>
    cases h
    exact .issue (outcome_issueStep answer call)
  | mark call =>
    simp only [advance, unlessRefused] at h
    split at h
    · cases h
      exact .mark (outcome_markStep call)
    · cases h
      exact .failed
  | change call =>
    simp only [advance, unlessRefused] at h
    split at h
    · cases h
      exact .change (outcome_changeStep call)
    · cases h
      exact .failed
  | update id status =>
    simp only [advance, unlessRefused] at h
    split at h
    · cases h
      exact .update
    · cases h
      exact .failed

variable {call : MarkCall} {rest : Option MarkCall}

lemma Outcome.of_mark {rest : Option Call} (h : Outcome env db (.mark call) event db' rest) :
    ∃ rest', rest = rest'.map .mark ∧ MarkOutcome env db call event db' rest' := by
  cases h with
  | mark h => exact ⟨_, rfl, h⟩
  | failed => exact ⟨none, rfl, .failed⟩

lemma MarkOutcome.of_published {listId : Nat}
    (h : MarkOutcome env db call (.published listId) db' rest) :
    ∃ mark formattedList, call = .publish mark listId formattedList ∧ rest = none ∧
      db.updateFormattedList listId formattedList = .ok db' := by
  cases h with
  | published hwrite => exact ⟨_, _, rfl, rfl, hwrite⟩

end Outcome

/-! ### What a step writes -/

/-- The events of steps that write nothing. -/
def Event.reads : Event → Bool
  | .started _ | .added _ _ | .updated _ _ | .published _ | .stateWritten _ => false
  | _ => true

/-- What a step writes, by its event. -/
inductive Effect (db : Database) : Event → Database → Prop
  | unchanged {event : Event} (hreads : event.reads = true) : Effect db event db
  | started {key : ListKey} {formattedList : Str} {entity : RevocationListEntityId}
      (hfresh : ∀ list ∈ db.lists, list.key ≠ key) :
      Effect db (.started db.lists.length)
        { db with
          lists := db.lists ++ [⟨key, formattedList⟩]
          entries := db.entries ++ [⟨db.lists.length, some 0, entity, .active⟩] }
  | added {listId index : Nat} {entity : RevocationListEntityId} (hlist : listId < db.lists.length)
      (hindex : db.nextFreeIndex listId = .ok index) :
      Effect db (.added listId index)
        { db with entries := db.entries ++ [⟨listId, some index, entity, .active⟩] }
  | updated {id : UpdateRevocationListEntryId} {status : RevocationListEntryStatus} :
      Effect db (.updated id status) (db.updateEntry id status)
  | published {listId : Nat} {formattedList : Str} (hlist : listId < db.lists.length) :
      Effect db (.published listId)
        { db with lists := db.lists.modify listId fun list => { list with formattedList } }
  | stateWritten {id : String} {credential : Credential} {state : CredentialState}
      {suspendEndDate : Option Timestamp} (hcredential : db.credentials id = some credential) :
      Effect db (.stateWritten state)
        { db with
          credentials := Function.update db.credentials id (some { credential with state, suspendEndDate }) }

section Effect

variable {env : Environment} {db db' : Database} {entity : RevocationListEntityId} {listId : Nat}
  {formattedList : Str}

lemma Database.createEntry_eq_ok_iff {entryId : Nat} {index : Option Nat} :
    db.createEntry listId entity index = .ok (entryId, db') ↔
      correctParameters entity index = true ∧ listId < db.lists.length ∧
        (∀ i ∈ index, i ∉ db.indicesOf listId) ∧ db.entries.length = entryId ∧
        { db with entries := db.entries ++ [⟨listId, index, entity, .active⟩] } = db' := by
  simp only [createEntry, ok_iffs, exists_unit_iff, Prod.mk.injEq]

lemma Database.updateFormattedList_eq_ok_iff :
    db.updateFormattedList listId formattedList = .ok db' ↔ listId < db.lists.length ∧
      { db with lists := db.lists.modify listId fun list => { list with formattedList } } = db' := by
  unfold updateFormattedList
  split
  · next hlist => exact ⟨fun h => ⟨hlist, Except.ok.inj h⟩, fun h => congrArg Except.ok h.2⟩
  · next hlist => exact ⟨nofun, fun h => absurd h.1 hlist⟩

lemma Database.updateCredential_eq_ok_iff {id : String} {state : CredentialState}
    {suspendEndDate : Option Timestamp} :
    db.updateCredential id state suspendEndDate = .ok db' ↔ ∃ credential,
      db.credentials id = some credential ∧
        { db with
          credentials := Function.update db.credentials id
            (some { credential with state, suspendEndDate }) } = db' := by
  unfold updateCredential
  split
  · next hnone =>
    refine ⟨nofun, ?_⟩
    rintro ⟨credential, hsome, -⟩
    exact absurd (hsome.symm.trans hnone) nofun
  · next credential hsome =>
    constructor
    · intro h
      exact ⟨credential, hsome, Except.ok.inj h⟩
    · rintro ⟨credential', hsome', h⟩
      obtain rfl := mem_unique hsome hsome'
      exact congrArg Except.ok h

lemma effect_of_startNewListForEntity {request : IssueRequest}
    (h : startNewListForEntity env db request = .ok (listId, db')) : Effect db (.started listId) db' := by
  simp only [startNewListForEntity, ok_iffs, Prod.mk.injEq] at h
  obtain ⟨formattedList, -, ⟨listId', db₁⟩, hlist, ⟨entryId, db₂⟩, hent, rfl, rfl⟩ := h
  unfold createRevocationList at hlist
  split at hlist
  · cases hlist
  next hfresh =>
  cases hlist
  obtain ⟨-, -, -, -, rfl⟩ := createEntry_eq_ok_iff.1 hent
  refine .started fun list hmem hkey => hfresh ?_
  exact ⟨list, hmem, hkey⟩

lemma effect_of_addEntityToList {index : Nat}
    (h : addEntityToList db listId entity = .ok (index, db')) : Effect db (.added listId index) db' := by
  simp only [addEntityToList, ok_iffs, Prod.mk.injEq] at h
  obtain ⟨index', hindex, ⟨entryId, db₁⟩, hent, rfl, rfl⟩ := h
  obtain ⟨-, hlist, -, -, rfl⟩ := createEntry_eq_ok_iff.1 hent
  exact .added hlist hindex

lemma MarkOutcome.effect {call : MarkCall} {event : Event} {rest : Option MarkCall}
    (h : MarkOutcome env db call event db' rest) : Effect db event db' := by
  cases h with
  | found => exact .unchanged rfl
  | updated => exact .updated
  | entriesRead => exact .unchanged rfl
  | published hwrite =>
    obtain ⟨hlist, rfl⟩ := updateFormattedList_eq_ok_iff.1 hwrite
    exact .published hlist
  | failed => exact .unchanged rfl

lemma Outcome.effect {call : Call} {event : Event} {rest : Option Call}
    (h : Outcome env db call event db' rest) : Effect db event db' := by
  cases h with
  | issue h =>
    cases h with
    | started hstart => exact effect_of_startNewListForEntity hstart
    | added hadd => exact effect_of_addEntityToList hadd
    | _ => exact .unchanged rfl
  | mark h => exact h.effect
  | change h =>
    cases h with
    | validated => exact .unchanged rfl
    | marking hmark => exact hmark.effect
    | marked hmark => exact hmark.effect
    | written hwrite =>
      obtain ⟨credential, hcredential, rfl⟩ := updateCredential_eq_ok_iff.1 hwrite
      exact .stateWritten hcredential
    | failed => exact .unchanged rfl
  | update => exact .updated
  | failed => exact .unchanged rfl

lemma Step.effect {t : CallTransition} (h : Step env t.src t.label t.dst) :
    (∃ i call, t.label = .begins i call ∧ t.dst.shared = t.src.shared) ∨
      ∃ i answer event, t.label = .steps i (answer, event) ∧
        Effect t.src.shared event t.dst.shared := by
  rcases h.cases with ⟨i, call, hlab, -, -, hshared, -⟩ | ⟨i, call, ⟨answer, event⟩, rest, hlab, -, hnext, -⟩
  · exact .inl ⟨i, call, hlab, hshared⟩
  · exact .inr ⟨i, answer, event, hlab, (outcome_of_advance hnext).effect⟩

end Effect

end OneCore.Revocation
