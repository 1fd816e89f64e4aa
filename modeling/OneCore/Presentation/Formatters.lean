/-
# Presentation formatters

A presentation carries credentials, and a signature with which the presenter shows to hold a
key.  There are five kinds: a JSON web token, an SD-JWT with a key binding token (in the W3C
form, which may also be wrapped in a JSON web token, and in the IETF form), a linked data
presentation, and a device response with mobile documents.  What each of them hands on is the
list of its credentials and the identifier that it counts as issued by: a DID or a key.

The encodings are functions of an environment; the checks are those of the source.
-/
import OneCore.Lib.Path
import OneCore.Mdoc.Presentation
import OneCore.Proto.Jwt

namespace OneCore.Presentation

/-! ### Contexts and environments -/

inductive FormatType where
  | jwt
  | sdJwt
  | sdJwtVc
  | jsonLdClassic
  | jsonLdBbsPlus
  | mdoc
deriving DecidableEq

inductive VerificationProtocolType where
  | openId4VpDraft20
  | openId4VpDraft20Swiyu
  | openId4VpDraft25
  | openId4VpFinal1_0
  | isoMdl
  | openId4VpProximityDraft00

/-- What the verifier knows about the presentation that it asked for. -/
structure ExtractPresentationCtx where
  verificationProtocolType : VerificationProtocolType
  nonce : Option String
  formatNonce : Option String
  issuanceDate : Option Timestamp
  expirationDate : Option Timestamp
  mdocSessionTranscript : Option Bytes
  clientId : Option String
  responseUri : Option String
  verifierKey : Option PublicJwk
  trustedCerts : Option (List (String × String))

/-- A credential inside a JSON web token: in an envelope or as it is. -/
inductive VerifiableCredential where
  | enveloped (id : String)
  | token (token : String)

structure VP where
  verifiableCredential : List VerifiableCredential
  nonce : Option String

structure Sdvp where
  verifiableCredential : List String
  nonce : Option String

structure KeyBindingPayload where
  nonce : String
  sdHash : String

/-- What an SD-JWT says about its holder, and its key binding token. -/
structure SdJwtToken where
  subject : Option String
  proofOfPossessionKey : Option PublicJwk
  sdAlg : Option String
  keyBindingToken : Option String

structure VcdmProof where
  verificationMethod : String
  cryptosuite : String
  proofValue : Option Str
  created : Option Timestamp
  nonce : Option String

structure LdPresentation where
  holder : String
  proof : Option VcdmProof
  verifiableCredential : List String

/-- The encodings and everything else that the formatters need. -/
structure FormatterEnvironment where
  now : Timestamp
  jose : JoseEnvironment
  decomposeVp : String → Except TokenError (DecomposedToken VP)
  decomposeSdvp : String → Except TokenError (DecomposedToken Sdvp)
  decomposeKeyBinding : String → Except TokenError (DecomposedToken KeyBindingPayload)
  /-- An SD-JWT taken apart. -/
  decomposeSdJwt : String → Except FormatterError SdJwtToken
  /-- The checks of the issuer's signature, of the disclosures and of the content of an SD-JWT
  in the W3C form. -/
  checkSdJwt : TokenVerifier → String → Except FormatterError Unit
  /-- The same for an SD-JWT in the IETF form. -/
  checkSdJwtVc : TokenVerifier → String → Except FormatterError Unit
  getHasher : String → Except String (Str → Except String String)
  decodeLdPresentation : String → Except FormatterError LdPresentation
  isContextListValid : LdPresentation → Except FormatterError Unit
  /-- The hash that a proof signs, of a presentation without its proof. -/
  prepareProofHash : LdPresentation → VcdmProof → Except FormatterError Bytes
  decodeBase58 : Str → Except String Bytes
  mdoc : Mdoc.PresentationEnvironment
  /-- The session transcript and the nonce of a device response. -/
  extractPresentationContext : ExtractPresentationCtx →
    Except FormatterError (Bytes × Option String)

open Mdoc (ExtractedPresentation)

def leeway : Nat := 60

variable (env : FormatterEnvironment) (verification : TokenVerifier)

/-! ### JSON web tokens -/

namespace JwtVp

def credentialToken : VerifiableCredential → Except FormatterError String
  | .enveloped id => do
    let (_, token) ← okOr (Path.splitOnce ',' id.toList)
      (.couldNotExtractPresentation "Enveloped VP id missing delimiter")
    return String.ofList token
  | .token token => .ok token

/-- The issuer of a presentation: a DID or a key, and not both. -/
def issuer (payloadIssuer : Option String) (jwk : Option PublicJwk) :
    Except FormatterError IdentifierDetails :=
  match payloadIssuer, jwk with
  | none, some jwk => .ok (.key jwk)
  | some issuer, none =>
    ((env.jose.parseDid issuer).map .did).mapError fun _ => .nested "parsing issuer DID"
  | none, none => .error (.couldNotVerify "Missing issuer")
  | some _, some _ => .error (.couldNotVerify "Both jwk and issuer defined")

def extractPresentation (presentation : String) : Except FormatterError ExtractedPresentation := do
  let (header, payload) ← (Jwt.buildFromToken env.jose env.decomposeVp verification
    presentation).mapError fun _ => .nested "validating presentation token"
  let credentials ← payload.custom.verifiableCredential.mapM credentialToken
  let issuer ← issuer env payload.issuer header.jwk
  return ⟨some issuer, payload.custom.nonce, payload.issuedAt, payload.expiresAt, credentials⟩

end JwtVp

/-! ### SD-JWTs with a key binding token -/

namespace SdJwt

/-- The context that a key binding token has to repeat. -/
structure HolderBindingCtx where
  nonce : String
  audience : String

def holderBindingCtx (context : ExtractPresentationCtx) : Option HolderBindingCtx :=
  match context.nonce, context.clientId with
  | some nonce, some clientId => some ⟨nonce, clientId⟩
  | _, _ => none

/-- The token up to and with its last `~`. -/
def hashedPart (token : Str) : Option Str :=
  match token.reverse.dropWhile (· ≠ '~') with
  | [] => none
  | rest => some rest.reverse

/-- The claims of a key binding token, against the token that it binds and the context. -/
def validateKeyBinding (token : String) (hasher : Str → Except String String)
    (payload : JWTPayload KeyBindingPayload) (ctx : HolderBindingCtx) :
    Except FormatterError Unit := do
  let hashed ← okOr (hashedPart token.toList)
    (.couldNotExtractCredentials "Invalid credential format")
  let expectedHash ← (hasher hashed).mapError .library
  ensure (payload.custom.sdHash = expectedHash) (.couldNotExtractCredentials
    ("Invalid key binding token sd_hash: expected '" ++ expectedHash ++ "', got '" ++
      payload.custom.sdHash ++ "'"))
  let iat ← okOr payload.issuedAt
    (.couldNotExtractCredentials "Missing iat claim in key binding token")
  ensure (¬iat - seconds leeway > env.now) (.couldNotExtractCredentials
    "Invalid iat claim in key binding token, token is issued in the future")
  let audience ← okOr payload.audience
    (.couldNotExtractCredentials "Missing aud claim in key binding token")
  ensure (ctx.audience ∈ audience) (.couldNotExtractCredentials
    ("Invalid key binding token aud: expected '" ++ ctx.audience ++ "' to be listed"))
  ensure (payload.custom.nonce = ctx.nonce) (.couldNotExtractCredentials
    ("Invalid key binding token nonce: expected '" ++ ctx.nonce ++ "', got '" ++
      payload.custom.nonce ++ "'"))

/-- The key binding token has to be signed with the key that the credential names.  Without a
context nothing is checked. -/
def verifyHolderBinding (cnf : PublicJwk) (token : String) (keyBindingToken : Option String)
    (hasher : Str → Except String String) (context : Option HolderBindingCtx) :
    Except FormatterError (JWTPayload KeyBindingPayload) := do
  let keyBindingToken ← okOr keyBindingToken
    (.couldNotExtractCredentials "Missing key binding token")
  let decomposed ← (env.decomposeKeyBinding keyBindingToken).mapError
    fun _ => .nested "parsing SD-JWT key binding token"
  match context with
  | none => return decomposed.payload
  | some ctx => do
    (Jwt.verifySignature env.jose decomposed (.jwk cnf) verification).mapError
      fun _ => .nested "verifying SD-JWT key binding token"
    validateKeyBinding env token hasher decomposed.payload ctx
    return decomposed.payload

def subject (token : SdJwtToken) : Except FormatterError (Option IdentifierDetails) :=
  match token.subject, token.proofOfPossessionKey with
  | _, some holderKey => .ok (some (.key holderKey))
  | none, none => .ok none
  | some sub, none =>
    if "did:".toList.isPrefixOf sub.toList then
      ((env.jose.parseDid sub).map fun did => some (.did did)).mapError
        fun _ => .nested "parsing subject DID"
    else .error (.couldNotExtractCredentials
      ("Could not determine public key for subject: `" ++ sub ++ "`"))

/-- The key that a credential is bound to, and its key binding token once it is verified. -/
def keyBinding (token : String) (parts : SdJwtToken) (context : ExtractPresentationCtx)
    (missing : String) : Except FormatterError (PublicJwk × JWTPayload KeyBindingPayload) := do
  let cnf ← okOr parts.proofOfPossessionKey (.couldNotExtractPresentation missing)
  let hasher ← (env.getHasher (parts.sdAlg.getD "sha-256")).mapError .library
  let payload ← verifyHolderBinding env verification cnf token parts.keyBindingToken hasher
    (holderBindingCtx context)
  return (cnf, payload)

def boundPresentation (token : String) (issuer : Option IdentifierDetails)
    (payload : JWTPayload KeyBindingPayload) : ExtractedPresentation :=
  ⟨issuer, some payload.custom.nonce, payload.issuedAt, payload.expiresAt, [token]⟩

def extractPresentationVc (token : String) (context : ExtractPresentationCtx) :
    Except FormatterError ExtractedPresentation := do
  let parts ← env.decomposeSdJwt token
  env.checkSdJwtVc verification token
  let (cnf, payload) ← keyBinding env verification token parts context
    "Missing proof of key possession"
  return boundPresentation token (some (.key cnf)) payload

def wrappedPresentation (payload : JWTPayload Sdvp) :
    Except FormatterError ExtractedPresentation := do
  let did ← (Jwt.issuerDid env.jose payload.issuer).mapError fun _ => .nested "parsing issuer DID"
  return ⟨did.map .did, payload.custom.nonce, payload.issuedAt, payload.expiresAt,
    payload.custom.verifiableCredential⟩

/-- A presentation that is an SD-JWT in the W3C form. -/
def extractPresentationCredential (token : String) (context : ExtractPresentationCtx) :
    Except FormatterError ExtractedPresentation := do
  let parts ← env.decomposeSdJwt token
  env.checkSdJwt verification token
  let subject ← subject env parts
  let (_, payload) ← keyBinding env verification token parts context
    "Missing proof of key possesion"
  return boundPresentation token subject payload

/-- An SD-JWT in the W3C form: wrapped in a JSON web token, or else as it is. -/
def extractPresentation (token : String) (context : ExtractPresentationCtx) :
    Except FormatterError ExtractedPresentation :=
  match Jwt.buildFromToken env.jose env.decomposeSdvp verification token with
  | .ok (_, payload) => wrappedPresentation env payload
  | .error _ => extractPresentationCredential env verification token context

end SdJwt

/-! ### Linked data presentations -/

namespace LdpVp

def algorithm (cryptosuite : String) : Except FormatterError KeyAlgorithmType :=
  if cryptosuite = "eddsa-rdfc-2022" ∨ cryptosuite = "eddsa-2022" then .ok .eddsa
  else if cryptosuite = "ecdsa-rdfc-2019" ∨ cryptosuite = "ecdsa-xi-2023" then .ok .ecdsa
  else .error (.couldNotVerify ("Unsupported cryptosuite: " ++ cryptosuite))

/-- What a proof signs, with its signature: the proof value is base58 in multibase form. -/
def proofSignedMessage (proofHash : Bytes) (proofValue : Str) (issuerDid keyId : String)
    (cryptosuite : String) : Except FormatterError SignedMessage := do
  ensure (proofValue.head? = some 'z') (.couldNotVerify
    ("Only base58 multibase encoding is supported for suite " ++ cryptosuite))
  let signature ← (env.decodeBase58 proofValue.tail).mapError .library
  let algorithm ← algorithm cryptosuite
  return ⟨.did issuerDid (some keyId), algorithm, proofHash, signature⟩

def presentationSignedMessage (presentation : LdPresentation) :
    Except FormatterError SignedMessage := do
  let proof ← okOr presentation.proof (.couldNotVerify "Missing proof")
  let proofValue ← okOr proof.proofValue (.couldNotVerify "Missing proof_value")
  let proofHash ← env.prepareProofHash { presentation with proof := none }
    { proof with proofValue := none }
  let issuerDid ← (env.jose.parseDid presentation.holder).mapError .library
  proofSignedMessage env proofHash proofValue issuerDid proof.verificationMethod proof.cryptosuite

def verifyPresentationSignature (presentation : LdPresentation) : Except FormatterError Unit := do
  let signed ← presentationSignedMessage env presentation
  (signed.check verification).mapError fun _ => .nested "verifying"

def extractPresentation (presentation : String) : Except FormatterError ExtractedPresentation := do
  let presentation ← env.decodeLdPresentation presentation
  verifyPresentationSignature env verification presentation
  env.isContextListValid presentation
  let issuer ← (env.jose.parseDid presentation.holder).mapError .library
  return ⟨some (.did issuer), presentation.proof.bind VcdmProof.nonce,
    presentation.proof.bind VcdmProof.created, none, presentation.verifiableCredential⟩

end LdpVp

/-! ### Device responses -/

/-- The environment of the mobile documents, with the verifier at hand. -/
def mdocEnvironment : Mdoc.PresentationEnvironment :=
  { env.mdoc with verifier := verification }

/-! ### All formatters -/

def extractPresentation? (format : FormatType) : Option (String → ExtractPresentationCtx →
    Except FormatterError ExtractedPresentation) :=
  match format with
  | .jwt => some fun presentation _ => JwtVp.extractPresentation env verification presentation
  | .sdJwt => some (SdJwt.extractPresentation env verification)
  | .sdJwtVc => some (SdJwt.extractPresentationVc env verification)
  | .jsonLdClassic => some fun presentation _ =>
      LdpVp.extractPresentation env verification presentation
  | .jsonLdBbsPlus => none
  | .mdoc => some fun presentation context =>
      Mdoc.extractPresentation (mdocEnvironment env verification) presentation
        (env.extractPresentationContext context) context.trustedCerts context.issuanceDate
        context.expirationDate

end OneCore.Presentation
