/-
# Failed issuance

If a credential cannot be issued, `issue_tx` writes the state `Error` to it and returns the error.  Both happen
in one transaction, and a transaction that returns an error is rolled back with all that it has written.
-/
import OneCore.Oid4vci.System

namespace OneCore.Oid4vci

/-- What the transaction returns as an error; errors of the protocol are passed on. -/
inductive IssueTxError where
  | service (e : IssuerServiceError)
  | issuing (e : IssuanceProtocolError)

/-- Write a state to a credential. -/
def Database.withState (db : Database) (id : String) (state : CredentialState) : Database :=
  match db.credentials.get? id with
  | some credential => { db with credentials := db.credentials.insert id { credential with state } }
  | none => db

variable (env : IssuerEnvironment) (now : Timestamp) (random : Randomness) (db : Database)
  (interactionId credentialId : String)

def lockInteraction : Except IssuerServiceError InteractionData := do
  let interaction ← okOr (db.interactions.get? interactionId)
    (.missingInteractionForAccessToken interactionId)
  interactionDataToDto interaction

/-- The rows as `issue_tx` leaves them.  The two versions of the service differ in when they write the
holder and the date of the issuance, which are not in the rows here. -/
def issueTxRows : Except IssueTxError CredentialResponse × Database :=
  match lockInteraction db interactionId with
  | .error e => (.error (.service e), db)
  | .ok data =>
    match issuerIssueCredential env now db credentialId with
    | .ok (token, issued) =>
      match issued.updateInteraction interactionId
          { data with notificationId := some random.notificationId } with
      | .ok db' => (.ok ⟨token, random.notificationId⟩, db')
      | .error e => (.error (.service e), issued)
    -- these are passed on, and the credential is not put into the state of an error
    | .error .suspended => (.error (.issuing .suspended), db)
    | .error .refreshTooSoon => (.error (.issuing .refreshTooSoon), db)
    | .error e => (.error (.issuing e), db.withState credentialId .error)

/-- The rows after a transaction has been committed or rolled back. -/
def txWithConfig {ε α : Type} (db : Database) : Except ε α × Database → Except ε α × Database
  | (.ok a, db') => (.ok a, db')
  | (.error e, _) => (.error e, db)

def Database.stateOf (db : Database) (id : String) : Option CredentialState :=
  (db.credentials.get? id).map (·.state)

/-- The credential cannot be issued, and not only for now. -/
def IssuingFails : Prop :=
  (∃ data, lockInteraction db interactionId = .ok data) ∧
    ∃ e, issuerIssueCredential env now db credentialId = .error e ∧ e ≠ .suspended ∧ e ≠ .refreshTooSoon

/-- A failure is seen in the state of an offered credential, and not in that of an accepted one. -/
structure FailureRecorded (result : Except IssueTxError CredentialResponse × Database) : Prop where
  offered : db.stateOf credentialId = some .offered → IssuingFails env now db interactionId credentialId →
    (∃ e, result.1 = .error (.issuing e)) ∧ result.2.stateOf credentialId = some .error
  accepted : db.stateOf credentialId = some .accepted → (∃ e, result.1 = .error e) →
    result.2.stateOf credentialId = some .accepted

variable {env now random db interactionId credentialId}

/-- Nothing of what a transaction has written is left after an error. -/
lemma txWithConfig_snd {ε α : Type} {rows : Except ε α × Database} {e : ε}
    (h : (txWithConfig db rows).1 = .error e) : (txWithConfig db rows).2 = db := by
  obtain ⟨_ | _, db'⟩ := rows
  · rfl
  · cases h

/-- The transaction is the one that the endpoint runs. -/
lemma issueTx_eq_ok_iff {proved : ProvedCredential} {response : CredentialResponse} {db' : Database} :
    issueTx env now random db proved = .ok (response, db') ↔
      txWithConfig db (issueTxRows env now random db proved.interactionId proved.credentialId) =
        (.ok response, db') := by
  simp only [issueTx, issueTxRows, lockInteraction]
  cases okOr (db.interactions.get? proved.interactionId) _ with
  | error => simp [txWithConfig, bind, Except.bind]
  | ok interaction =>
    simp only [Except.ok_bind]
    cases interactionDataToDto interaction with
    | error => simp [txWithConfig, bind, Except.bind]
    | ok data =>
      cases issuerIssueCredential env now db proved.credentialId with
      | error e => cases e <;> simp [txWithConfig, bind, Except.bind, Except.mapError]
      | ok issued =>
        simp only [Except.mapError_ok, Except.ok_bind]
        cases issued.2.updateInteraction proved.interactionId _ with
        | error => simp [txWithConfig, bind, Except.bind]
        | ok db' => simp [txWithConfig]

lemma exists_error_of_issuingFails (h : IssuingFails env now db interactionId credentialId) :
    ∃ e, (txWithConfig db (issueTxRows env now random db interactionId credentialId)).1 = .error e := by
  obtain ⟨⟨data, hdata⟩, e, he, hsusp, hsoon⟩ := h
  rw [issueTxRows, hdata, he]
  cases e with
  | suspended => exact absurd rfl hsusp
  | refreshTooSoon => exact absurd rfl hsoon
  | failed | invalidRequest | nested => exact ⟨_, rfl⟩

/-- A failure is recorded, unless an offered credential cannot be issued. -/
theorem failureRecorded_iff :
    FailureRecorded env now db interactionId credentialId
        (txWithConfig db (issueTxRows env now random db interactionId credentialId)) ↔
      ¬(db.stateOf credentialId = some .offered ∧ IssuingFails env now db interactionId credentialId) := by
  constructor
  · rintro h ⟨hoff, hfails⟩
    obtain ⟨e, he⟩ := exists_error_of_issuingFails hfails
    have herr := (h.offered hoff hfails).2
    rw [txWithConfig_snd he, hoff] at herr
    cases herr
  · intro h
    refine ⟨fun hoff hfails => absurd ⟨hoff, hfails⟩ h, ?_⟩
    rintro hacc ⟨e, he⟩
    rw [txWithConfig_snd he, hacc]

/-- The token cannot be made, and the credential stays offered. -/
theorem failed_issuance_not_recorded :
    let env := { sampleEnvironment with formatCredential := fun _ _ => .error (.failed "") }
    let db := (sampleDatabase none).withState "c" .offered
    let result := txWithConfig db (issueTxRows env 0 ⟨[], [], [], ""⟩ db "1" "c")
    IssuingFails env 0 db "1" "c" ∧ result.1 = .error (.issuing (.failed "")) ∧
      db.stateOf "c" = some .offered ∧ result.2.stateOf "c" = some .offered :=
  ⟨⟨⟨_, rfl⟩, .failed "", rfl, nofun, nofun⟩, rfl, rfl, rfl⟩

end OneCore.Oid4vci
