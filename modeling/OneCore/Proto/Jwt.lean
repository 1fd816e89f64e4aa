/-
# JSON web tokens

A token comes apart into a header, a payload, a signature and the text that was signed.  How a
token is taken apart depends on its payload and is left to the caller; this file has what is
done with the parts: the issuer is turned into a DID, the source of the public key is worked
out, and the signature is checked.
-/
import OneCore.Lib.Result
import OneCore.Model.Verification

namespace OneCore

structure JWTHeader where
  algorithm : String
  keyId : Option String
  jwk : Option PublicJwk
  x5c : Option (List String)

/-- The registered claims of a token and the rest of its payload. -/
structure JWTPayload (α : Type) where
  issuedAt : Option Timestamp
  expiresAt : Option Timestamp
  issuer : Option String
  audience : Option (List String)
  custom : α

structure DecomposedToken (α : Type) where
  header : JWTHeader
  payload : JWTPayload α
  signature : Bytes
  unverifiedJwt : Bytes

/-- What the tokens need from their surroundings. -/
structure JoseEnvironment where
  keyAlgorithmFromJoseAlg : String → Option KeyAlgorithmType
  parseDid : String → Except String String
  urlEncode : String → String

namespace Jwt

variable {α : Type} (jose : JoseEnvironment)

/-- An issuer that is not a DID is taken as the address of issuer metadata. -/
def normalizeIssuer (issuer : String) : String :=
  if "did:".toList.isPrefixOf issuer.toList then issuer
  else "did:sd_jwt_vc_issuer_metadata:" ++ jose.urlEncode issuer

/-- The token names its key in exactly one way. -/
def publicKeySource (issuerDid : Option String) (header : JWTHeader) :
    Except TokenError PublicKeySource :=
  match issuerDid, header.x5c, header.jwk with
  | some did, none, none => .ok (.did did header.keyId)
  | none, some x5c, none => .ok (.x5c x5c)
  | none, none, some jwk => .ok (.jwk jwk)
  | none, none, none => .error (.validationFailed "Missing public key information for JWT")
  | _, _, _ => .error (.validationFailed "Mixed specification of public key info")

def issuerDid (issuer : Option String) : Except TokenError (Option String) :=
  match issuer with
  | none => .ok none
  | some issuer => ((jose.parseDid issuer).map some).mapError .validationFailed

/-- What is signed in a token that was taken apart, for a known source of the key. -/
def signedMessage (token : DecomposedToken α) (source : PublicKeySource) :
    Except TokenError SignedMessage := do
  let algorithm ← okOr (jose.keyAlgorithmFromJoseAlg token.header.algorithm)
    (.missingJOSEAlgorithm token.header.algorithm)
  return ⟨source, algorithm, token.unverifiedJwt, token.signature⟩

variable {source : PublicKeySource} {token : DecomposedToken α} {signed : SignedMessage}
  {header : JWTHeader}

def verifySignature (token : DecomposedToken α) (source : PublicKeySource)
    (verification : TokenVerifier) : Except TokenError Unit := do
  let signed ← signedMessage jose token source
  signed.check verification

def issuerOf (token : DecomposedToken α) : Option String :=
  token.payload.issuer.map (normalizeIssuer jose)

/-- What is signed in a token that names its key itself. -/
def selfSignedMessage (token : DecomposedToken α) : Except TokenError SignedMessage := do
  let algorithm ← okOr (jose.keyAlgorithmFromJoseAlg token.header.algorithm)
    (.missingJOSEAlgorithm token.header.algorithm)
  let did ← issuerDid jose (issuerOf jose token)
  let source ← publicKeySource did token.header
  return ⟨source, algorithm, token.unverifiedJwt, token.signature⟩

/-- A token whose signature has been checked, with the issuer as a DID; no particular issuer is
expected. -/
def buildFromToken (decompose : String → Except TokenError (DecomposedToken α))
    (verification : TokenVerifier) (token : String) :
    Except TokenError (JWTHeader × JWTPayload α) := do
  let decomposed ← decompose token
  let signed ← selfSignedMessage jose decomposed
  signed.check verification
  return (decomposed.header, { decomposed.payload with issuer := issuerOf jose decomposed })

lemma buildFromToken_eq_ok_iff {decompose : String → Except TokenError (DecomposedToken α)}
    {verification : TokenVerifier} {token : String} {jwt : JWTHeader × JWTPayload α} :
    buildFromToken jose decompose verification token = .ok jwt ↔
      ∃ decomposed signed, decompose token = .ok decomposed ∧
        selfSignedMessage jose decomposed = .ok signed ∧ signed.check verification = .ok () ∧
        jwt = (decomposed.header,
          { decomposed.payload with issuer := issuerOf jose decomposed }) := by
  simp only [buildFromToken, ok_iffs]
  tauto

lemma source_of_issuer (h : selfSignedMessage jose token = .ok signed) :
    ∃ did, issuerDid jose (issuerOf jose token) = .ok did ∧
      publicKeySource did token.header = .ok signed.source := by
  simp only [selfSignedMessage, ok_iffs] at h
  obtain ⟨_, -, did, hdid, source, hsrc, rfl⟩ := h
  exact ⟨did, hdid, hsrc⟩

lemma publicKeySource_some {did : String}
    (h : publicKeySource (some did) header = .ok source) : source = .did did header.keyId := by
  unfold publicKeySource at h
  cases hx : header.x5c with
  | some x5c => simp [hx] at h
  | none =>
    cases hj : header.jwk with
    | some jwk => simp [hx, hj] at h
    | none => simpa [hx, hj, eq_comm] using h

lemma publicKeySource_none_jwk {jwk : PublicJwk} (hjwk : header.jwk = some jwk)
    (h : publicKeySource none header = .ok source) : source = .jwk jwk := by
  unfold publicKeySource at h
  cases hx : header.x5c with
  | some x5c => simp [hx, hjwk] at h
  | none => simpa [hx, hjwk, eq_comm] using h

end Jwt

end OneCore
