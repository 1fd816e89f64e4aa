/-
# Signatures and certificates

The cryptography is outside this development.  A routine that checks a signature does so
through a `TokenVerifier`, and one that reads a certificate chain does so through a
`CertificateValidator`; the results are about every verifier and every validator.

What a signature is worth is said by `Unforgeable`: with a predicate for what the owner of a key
has signed, a verifier is unforgeable when it accepts nothing else.
-/
import OneCore.Model.Credential

namespace OneCore

abbrev Bytes := List UInt8

/-- Where the public key of a signature is to be taken from. -/
inductive PublicKeySource where
  | did (did : String) (keyId : Option String)
  | x5c (chain : List String)
  | jwk (jwk : PublicJwk)

inductive TokenError where
  | missingJOSEAlgorithm (msg : String)
  | validationFailed (msg : String)
  | library (msg : String)
  | nested (msg : String)

/-- A check of a signature: the key source, the algorithm, the signed bytes, the signature. -/
abbrev TokenVerifier :=
  PublicKeySource → KeyAlgorithmType → Bytes → Bytes → Except TokenError Unit

/-- A message with a signature, and where the key of the signature is to be taken from. -/
structure SignedMessage where
  source : PublicKeySource
  algorithm : KeyAlgorithmType
  message : Bytes
  signature : Bytes

def SignedMessage.check (m : SignedMessage) (verification : TokenVerifier) :
    Except TokenError Unit :=
  verification m.source m.algorithm m.message m.signature

/-- What the owner of a key has signed, in a setting where signatures cannot be forged: the
verifier accepts a signature under a given key only for bytes the owner of that key signed. -/
def Unforgeable (verify : TokenVerifier) (Signed : PublicJwk → Bytes → Prop) : Prop :=
  ∀ jwk alg token signature, verify (.jwk jwk) alg token signature = .ok () → Signed jwk token

/-! ### Certificate chains -/

inductive CrlMode where
  | x509
  | androidAttestation
  | validityOnly
  | x509BelowAnchor

/-- A key usage that the leaf certificate has to declare. -/
inductive EnforceKeyUsage where
  | digitalSignature
  | keyCertSign
  | crlSign

/-- What is checked when a certificate chain is parsed. -/
structure CertificateValidationOptions where
  requireRootTermination : Bool
  integrityCheck : Bool
  validityCheck : Option CrlMode
  requiredLeafCertKeyUsage : List EnforceKeyUsage
  verifyOnlyKeys : Bool

namespace CertificateValidationOptions

def noValidation : CertificateValidationOptions :=
  ⟨false, false, none, [], false⟩

variable (usage : Option (List EnforceKeyUsage))

/-- Signatures, critical extensions, validity periods and leaf key usage, without revocation. -/
def signatureAndValidity : CertificateValidationOptions :=
  ⟨false, true, some .validityOnly, usage.getD [], false⟩

/-- Only signature and revocation checks are performed. -/
def signatureAndRevocation : CertificateValidationOptions :=
  ⟨false, true, some .x509, usage.getD [], false⟩

/-- As `signatureAndRevocation`, for a chain that ends in its trust anchor. -/
def signatureAndRevocationBelowAnchor : CertificateValidationOptions :=
  { signatureAndRevocation usage with validityCheck := some .x509BelowAnchor }

/-- Also accept a leaf key that can only verify. -/
def withVerifyOnlyKeys (o : CertificateValidationOptions) : CertificateValidationOptions :=
  { o with verifyOnlyKeys := true }

end CertificateValidationOptions

structure ParsedCertificate where
  fingerprint : String
  notAfter : Timestamp
  subjectCommonName : Option String
  /-- The public key of the leaf, where it has a JWK form. -/
  publicKeyAsJwk : Except String PublicJwk

structure CertificateValidator where
  parsePemChain : String → CertificateValidationOptions → Except String ParsedCertificate
  /-- The chain has to reach one of the given trust anchors. -/
  validateChainAgainstTrustAnchors : String → List (String × String) →
    CertificateValidationOptions → Except String ParsedCertificate

end OneCore
