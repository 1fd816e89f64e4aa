/-
# Stored claims

A claim of a credential is a tree; it is stored as a list of claims with their paths, one for
each node of the tree.  Every field of an object needs a claim schema of its own.

What is left out of a stored claim are its identifiers and its dates.
-/
import OneCore.Model.ProofSchema

namespace OneCore

structure Claim where
  path : Str
  value : Option Str
  selectivelyDisclosable : Bool
  schema : Schema.ClaimSchema

section

variable (numberToString : Number → Str) (claimSchemas : List Schema.ClaimSchema)

mutual

/-- The stored claims of a claim under the given path. -/
def valueToModelClaims (claimSchema : Schema.ClaimSchema) (claimPath : Str) :
    CredentialClaim → Except ServiceError (List Claim)
  | .mk sd _ value =>
    match value with
    | .string v => .ok [⟨claimPath, some v, sd, claimSchema⟩]
    | .bool v => .ok [⟨claimPath, some (if v then "true".toList else "false".toList), sd,
        claimSchema⟩]
    | .number v => .ok [⟨claimPath, some (numberToString v), sd, claimSchema⟩]
    | .object fields => do
      return ⟨claimPath, none, sd, claimSchema⟩ ::
        (← fieldsToModelClaims claimSchema claimPath fields)
    | .array values => do
      return ⟨claimPath, none, sd, claimSchema⟩ ::
        (← elementsToModelClaims claimSchema claimPath 0 values)

def fieldsToModelClaims (claimSchema : Schema.ClaimSchema) (claimPath : Str) :
    List (Str × CredentialClaim) → Except ServiceError (List Claim)
  | [] => .ok []
  | (key, value) :: fields => do
    let childSchema ← okOr (claimSchemas.find? fun schema =>
      schema.key = claimSchema.key ++ nestedClaimMarker :: key) .missingClaimSchemas
    let claims ← valueToModelClaims childSchema (claimPath ++ nestedClaimMarker :: key) value
    return claims ++ (← fieldsToModelClaims claimSchema claimPath fields)

/-- The stored claims of the elements of an array, from the given index on. -/
def elementsToModelClaims (claimSchema : Schema.ClaimSchema) (claimPath : Str) (index : Nat) :
    List CredentialClaim → Except ServiceError (List Claim)
  | [] => .ok []
  | value :: values => do
    let claims ← valueToModelClaims claimSchema
      (claimPath ++ nestedClaimMarker :: (toString index).toList) value
    return claims ++ (← elementsToModelClaims claimSchema claimPath (index + 1) values)

end

end

end OneCore
