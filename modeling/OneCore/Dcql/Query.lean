/-
# DCQL queries

The Digital Credentials Query Language, as the `dcql` crate has it, and the query that a verifier
makes of a proof schema.  A query asks for credentials; for each of them it lists claims and, if
some of the claims are optional, the sets of claims that the verifier is content with.

Of a credential query the verifier later reads only a part (`Openid4vp.CredentialQuery`).
-/
import OneCore.Openid4vp.Model

namespace OneCore.Dcql

open Presentation (FormatType)
open Openid4vp (CredentialFormat TrustedAuthority)

/-! ### Queries -/

inductive CredentialMeta where
  | msoMdoc (doctypeValue : String)
  | sdJwtVc (vctValues : List String)
  | w3cVc (typeValues : List (List String))

inductive PathSegment where
  /-- The property of an object with a name. -/
  | propertyName (name : Str)
  /-- The element of an array at an index. -/
  | arrayIndex (index : Nat)
  /-- All elements of an array. -/
  | arrayAll

abbrev ClaimPath := List PathSegment

inductive ClaimValue where
  | string (value : Str)
  | integer (value : Int)
  | boolean (value : Bool)

structure ClaimQuery where
  id : Option Str
  path : ClaimPath
  values : Option (List ClaimValue)
  required : Option Bool
  intentToRetain : Option Bool

structure CredentialQuery where
  id : String
  format : CredentialFormat
  credentialMeta : CredentialMeta
  claims : Option (List ClaimQuery)
  claimSets : Option (List (List Str))
  trustedAuthorities : Option (List TrustedAuthority)
  multiple : Bool
  requireCryptographicHolderBinding : Bool

structure CredentialSet where
  required : Bool
  options : List (List String)

structure DcqlQuery where
  credentials : List CredentialQuery
  credentialSets : Option (List CredentialSet)

/-- What the verification of a submission reads of a credential query. -/
def CredentialQuery.forVerification (query : CredentialQuery) : Openid4vp.CredentialQuery where
  id := query.id
  format := query.format
  claimSets := query.claimSets
  trustedAuthorities := query.trustedAuthorities
  multiple := query.multiple
  requireCryptographicHolderBinding := query.requireCryptographicHolderBinding

/-! ### The query for a proof schema -/

def credentialFormatOf : FormatType → CredentialFormat
  | .jwt => .jwtVc
  | .sdJwt => .w3cSdJwt
  | .sdJwtVc => .sdJwt
  | .jsonLdClassic => .ldpVc
  | .jsonLdBbsPlus => .ldpVc
  | .mdoc => .msoMdoc

structure QueryEnvironment where
  /-- The path to the claims of the user in the credentials of a format, if there is a formatter
  for the format. -/
  userClaimsPath : String → Option (List Str)
  /-- The type of the formatter for a format. -/
  formatToType : String → Except String FormatType
  /-- The name of a credential schema, in Pascal case. -/
  typeName : Schema.CredentialSchema → String

inductive CreateError where
  | failed (msg : String)

variable (env : QueryEnvironment)

def w3cCredentialQueryTypeValues (schema : Schema.CredentialSchema) : List (List String) :=
  let credentialType := env.typeName schema
  [["https://www.w3.org/2018/credentials#VerifiableCredential",
      schema.schemaId ++ "#" ++ credentialType],
    [credentialType]]

def credentialMetaOf (format : CredentialFormat) (schema : Schema.CredentialSchema) :
    CredentialMeta :=
  match format with
  | .msoMdoc => .msoMdoc schema.schemaId
  | .sdJwt => .sdJwtVc [schema.schemaId]
  | .ldpVc => .w3cVc (w3cCredentialQueryTypeValues env schema)
  | .jwtVc => .w3cVc (w3cCredentialQueryTypeValues env schema)
  | .w3cSdJwt => .w3cVc (w3cCredentialQueryTypeValues env schema)

def formatDcqlPath (claimKey : Str) (userClaimPath : List Str) : ClaimPath :=
  (userClaimPath ++ claimKey.splitOn nestedClaimMarker).map .propertyName

/-- The sets of claims that are enough: all claims, or the required ones.  Without optional claims
there are no sets. -/
def buildClaimSets (claimSchemas : List Schema.ProofInputClaimSchema) : Option (List (List Str)) :=
  let required := claimSchemas.filter fun cs => cs.required
  let optional := claimSchemas.filter fun cs => !cs.required
  if optional.isEmpty then none
  else
    let ids (schemas : List Schema.ProofInputClaimSchema) : List Str :=
      schemas.map fun cs => cs.schema.id.toList
    some [ids required ++ ids optional, ids required]

def buildClaimQuery (formatType : FormatType) (userClaimPath : List Str)
    (claimSchema : Schema.ProofInputClaimSchema) : ClaimQuery where
  id := some claimSchema.schema.id.toList
  path := formatDcqlPath claimSchema.schema.key userClaimPath
  values := none
  required := some claimSchema.required
  intentToRetain := if formatType = .mdoc then some true else none

def createCredentialQuery (input : Schema.ProofInputSchema) :
    Except CreateError CredentialQuery := do
  let credentialSchema ← okOr input.credentialSchema (.failed "Credential schema not found")
  let claimSchemas ← okOr input.claimSchemas (.failed "Claim schemas not found")
  let userClaimPath ← okOr (env.userClaimsPath credentialSchema.format)
    (.failed ("No formatter for credential format '" ++ credentialSchema.format ++ "'"))
  let formatType ← (env.formatToType credentialSchema.format).mapError .failed
  let format := credentialFormatOf formatType
  return {
    id := credentialSchema.id
    format := format
    credentialMeta := credentialMetaOf env format credentialSchema
    claims := some (claimSchemas.map (buildClaimQuery formatType userClaimPath))
    claimSets := buildClaimSets claimSchemas
    trustedAuthorities := none
    multiple := false
    requireCryptographicHolderBinding := true }

def createDcqlQuery (proofSchema : Schema.ProofSchema) : Except CreateError DcqlQuery := do
  let inputSchemas ← okOr proofSchema.inputSchemas (.failed "Input schemas not found")
  let credentials ← inputSchemas.mapM (createCredentialQuery env)
  return ⟨credentials, none⟩

end OneCore.Dcql
