/-
# Proof schemas

A proof schema lists what a verifier asks for: input schemas, each with the schema of a
credential and the claims wanted from it.  Relations that were not loaded are absent.

The file also has the checks of points in time that every verification protocol shares.
-/
import OneCore.Model.Credential
import OneCore.Lib.Result

namespace OneCore

/-! ### Schemas -/

namespace Schema

structure ClaimSchema where
  id : String
  key : Str
  dataType : String
  array : Bool
  metadata : Bool
  required : Bool
deriving DecidableEq

/-- The stored schema of a credential.  Its `schemaId` is the type that credentials of the
schema carry. -/
structure CredentialSchema where
  id : String
  format : String
  schemaId : String
  claimSchemas : Option (List ClaimSchema)

structure ProofInputClaimSchema where
  schema : ClaimSchema
  required : Bool
deriving DecidableEq

structure ProofInputSchema where
  claimSchemas : Option (List ProofInputClaimSchema)
  credentialSchema : Option CredentialSchema

structure ProofSchema where
  inputSchemas : Option (List ProofInputSchema)

end Schema

inductive ProofState where
  | created
  | pending
  | requested
  | accepted
  | rejected
  | retracted
  | error
  | interactionExpired
deriving DecidableEq

def ProofState.display : ProofState → String
  | .created => "Created"
  | .pending => "Pending"
  | .requested => "Requested"
  | .accepted => "Accepted"
  | .rejected => "Rejected"
  | .retracted => "Retracted"
  | .error => "Error"
  | .interactionExpired => "InteractionExpired"

/-! ### Points in time -/

inductive ServiceError where
  | validationError (msg : String)
  | mappingError (msg : String)
  | missingClaimSchemas
  | nested (msg : String)

/-- A bound that is compared with the current time; an absent bound is met. -/
def validateBound (bound : Option Timestamp) (violated : Timestamp → Prop)
    [DecidablePred violated] (msg : String) : Except ServiceError Unit :=
  match bound with
  | none => .ok ()
  | some t => ensure (¬violated t) (.validationError msg)

def validateIssuanceTime (now : Timestamp) (issuedAt : Option Timestamp) (leeway : Nat) :
    Except ServiceError Unit :=
  validateBound issuedAt (fun t => t > now + seconds leeway) "Issued in future"

def validateNotBeforeTime (now : Timestamp) (notBefore : Option Timestamp) (leeway : Nat) :
    Except ServiceError Unit :=
  validateBound notBefore (fun t => t > now + seconds leeway) "Not before in future"

def validateExpirationTime (now : Timestamp) (expiresAt : Option Timestamp) (leeway : Nat) :
    Except ServiceError Unit :=
  validateBound expiresAt (fun t => t < now - seconds leeway) "Expired"

lemma validateBound_eq_ok_iff {bound : Option Timestamp} {violated : Timestamp → Prop}
    [DecidablePred violated] {msg : String} :
    validateBound bound violated msg = .ok () ↔ ∀ t ∈ bound, ¬violated t := by
  cases bound with
  | none => simp [validateBound]
  | some t => simp [validateBound]

variable {now : Timestamp} {leeway : Nat}

lemma validateIssuanceTime_eq_ok_iff
    {issuedAt : Option Timestamp} : validateIssuanceTime now issuedAt leeway = .ok () ↔
      ∀ t ∈ issuedAt, t ≤ now + seconds leeway := by
  simp [validateIssuanceTime, validateBound_eq_ok_iff]

lemma validateExpirationTime_eq_ok_iff
    {expiresAt : Option Timestamp} : validateExpirationTime now expiresAt leeway = .ok () ↔
      ∀ t ∈ expiresAt, now - seconds leeway ≤ t := by
  simp [validateExpirationTime, validateBound_eq_ok_iff]

end OneCore
