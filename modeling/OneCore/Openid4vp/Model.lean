/-
# Submissions over OpenID4VP

What a verifier asked for, what a wallet submits, and what the verification of a submission
needs from its surroundings.  A verifier asks with a DCQL query, which names the credentials it
wants, or with a presentation definition; a wallet answers with presentations for each of them.
-/
import OneCore.Model.ProofSchema
import OneCore.Presentation.Formatters
import OneCore.Proto.KeyVerification

namespace OneCore.Openid4vp

open Presentation Schema

inductive OpenID4VCError where
  | credentialIsRevokedOrSuspended
  | mappingError (msg : String)
  | missingClaimSchemas
  | missingRevocationProviderForType (type : String)
  | other (msg : String)
  | validationError (msg : String)
  | vpFormatsNotSupported
  | vcFormatsNotSupported

/-! ### DCQL queries -/

inductive CredentialFormat where
  | jwtVc
  | ldpVc
  | msoMdoc
  | sdJwt
  | w3cSdJwt
deriving DecidableEq

def CredentialFormat.display : CredentialFormat → String
  | .jwtVc => "jwt_vc_json"
  | .ldpVc => "ldp_vc"
  | .msoMdoc => "mso_mdoc"
  | .sdJwt => "dc+sd-jwt"
  | .w3cSdJwt => "vc+sd-jwt"

inductive TrustedAuthority where
  | etsiTl (values : List String)
  | openidFederation (values : List String)
  | authorityKeyId (values : List String)
  | custom (type : String) (values : List String)

structure CredentialQuery where
  id : String
  format : CredentialFormat
  claimSets : Option (List (List Str))
  trustedAuthorities : Option (List TrustedAuthority)
  multiple : Bool
  requireCryptographicHolderBinding : Bool

/-! ### Presentation definitions -/

structure ConstraintField where
  path : List String
  /-- The constant that the field has to have. -/
  filterConst : Option String

structure InputDescriptor where
  id : String
  format : List String
  fields : List ConstraintField

structure NestedDescriptor where
  format : String
  path : Str

/-- Where the credential for an input descriptor is found in the submission. -/
structure SubmissionDescriptor where
  id : String
  format : String
  path : Str
  pathNested : Option NestedDescriptor

structure PresentationSubmission where
  definitionId : String
  descriptorMap : List SubmissionDescriptor

/-! ### Requests and answers -/

/-- What the verifier remembers of its request. -/
structure InteractionContent where
  nonce : String
  presentationDefinition : Option (List InputDescriptor)
  dcqlQuery : Option (List CredentialQuery)
  clientId : String
  responseUri : Option String
  encryptionKey : Option PublicJwk

/-- The presentations of a submission, by credential query or in a list. -/
inductive VpSubmissionData where
  | dcql (vpToken : IndexMap String (List String))
  | dcqlEudi (vpToken : IndexMap String String)
  | pex (vpToken : List String) (presentationSubmission : PresentationSubmission)
  | encryptedResponse (response : String)

structure SubmissionRequestData where
  submissionData : VpSubmissionData
  state : String
  mdocGeneratedNonce : Option String

/-- The stored proof request, as far as the verification reads it. -/
structure Proof where
  id : String
  state : ProofState
  schema : Option ProofSchema
  protocol : String
  profile : Option String

/-! ### Surroundings -/

inductive DidType where
  | key
  | web
  | jwk
  | universal
  | webVh
deriving DecidableEq

inductive RevocationState where
  | valid
  | revoked
  | suspended
deriving DecidableEq

structure CredentialFormatter where
  formatType : FormatType
  extractCredentials : TokenVerifier → String → Option Schema.CredentialSchema →
    Except FormatterError DetailCredential
  leeway : Nat
  holderDidMethods : List DidType

/-- The formatters, the keys and the status services that a verification uses. -/
structure ValidatorEnvironment (Key : Type) where
  formats : FormatterEnvironment
  keys : KeyVerification Key
  /-- The credential formatter for the format of a credential schema. -/
  getCredentialFormatter : String → Option CredentialFormatter
  /-- An SD-JWT is in the IETF form if it has a `vct`. -/
  isSdJwtVc : String → Except FormatterError Bool
  /-- The cryptographic suite in the proof of a JSON-LD document. -/
  getCryptoSuite : String → Option String
  getRevocationMethodByStatusType : String → Option (CredentialStatus → IdentifierDetails →
    DetailCredential → ProofInputSchema → Except String RevocationState)
  getAkisForPemChain : String → Except String (List String)
  /-- The texts of a JSON array of texts. -/
  parseJsonArray : String → Except String (List String)
  parseUsize : Str → Option Nat
  /-- The decimal text of a number. -/
  numberToString : Number → Str

/-- An environment to run a verification in: a presentation is a JSON web token, a credential is
what the one formatter reads, and nothing else can be decoded. -/
def ValidatorEnvironment.fixed {Key : Type} (keys : KeyVerification Key)
    (decomposeVp : String → Except TokenError (DecomposedToken VP))
    (formatter : CredentialFormatter) : ValidatorEnvironment Key where
  formats :=
    { now := 0
      jose := ⟨fun _ => some .eddsa, .ok, id⟩
      decomposeVp := decomposeVp
      decomposeSdvp := fun _ => .error (.library "")
      decomposeKeyBinding := fun _ => .error (.library "")
      decomposeSdJwt := fun _ => .error (.library "")
      checkSdJwt := fun _ _ => .error (.library "")
      checkSdJwtVc := fun _ _ => .error (.library "")
      getHasher := fun _ => .error ""
      decodeLdPresentation := fun _ => .error (.library "")
      isContextListValid := fun _ => .error (.library "")
      prepareProofHash := fun _ _ => .error (.library "")
      decodeBase58 := fun _ => .error ""
      mdoc :=
        { Mdoc.Environment.fixed ⟨none, ⟨⟨none, none⟩, [], none, []⟩⟩
            ⟨.sha256, IndexMap.empty, ⟨Mdoc.keyTypeOkp, []⟩, "", ⟨0, 0, 0, none⟩, none⟩
            ⟨"", 0, none, .error ""⟩ (fun _ _ _ _ => .error (.library "")) with
          decodeIssuerSigned := fun _ => .error (.library "")
          decodeDeviceResponse := fun _ => .error (.library "")
          deviceAuthenticationBytes := fun _ _ => [] }
      extractPresentationContext := fun _ => .error (.library "") }
  keys := keys
  getCredentialFormatter _ := some formatter
  isSdJwtVc _ := .error (.library "")
  getCryptoSuite _ := none
  getRevocationMethodByStatusType _ := none
  getAkisForPemChain _ := .error ""
  parseJsonArray _ := .error ""
  parseUsize _ := none
  numberToString _ := []

/-! ### A request for one claim -/

section Sample

def sampleQuery (format : CredentialFormat) (multiple bound : Bool) : CredentialQuery :=
  ⟨"s", format, none, none, multiple, bound⟩

def sampleInteraction (query : CredentialQuery) : InteractionContent :=
  ⟨"nonce", none, some [query], "client", none, none⟩

def sampleSubmission (presentations : List String) : SubmissionRequestData :=
  ⟨.dcql ⟨[("s", presentations)], by simp⟩, "state", none⟩

def sampleClaimSchema : Schema.ClaimSchema := ⟨"c", ['a'], "BOOLEAN", false, false, true⟩

def sampleInput (format : String) : ProofInputSchema :=
  ⟨some [⟨sampleClaimSchema, true⟩], some ⟨"s", format, "type", some [sampleClaimSchema]⟩⟩

def sampleProof (format : String) : Proof :=
  ⟨"proof", .pending, some ⟨some [sampleInput format]⟩, "protocol", none⟩

/-- A presentation of the given credentials, signed under the DID `did:key:b` with the key of the
given id. -/
def sampleVp (keyId : String) (credentials : List String) : DecomposedToken VP :=
  ⟨⟨"EdDSA", some keyId, none, none⟩,
    ⟨none, none, some "did:key:b", none, ⟨credentials.map .token, some "nonce"⟩⟩, [], []⟩

def sampleCredential (issuer subject : IdentifierDetails) : DetailCredential :=
  ⟨none, none, none, none, none, none, issuer, some subject,
    ⟨none, [(['a'], .mk false false (.bool true))]⟩, [], none⟩

end Sample

end OneCore.Openid4vp
