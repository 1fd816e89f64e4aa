/-
# The integrity of a wallet application

The platform of a device attests a key that the wallet application has made.  On Android the
attestation is a certificate chain, and an extension of its leaf describes the key and the application.
On iOS it is a record with a certificate chain and authenticator data; the leaf has a hash of the
authenticator data and the nonce.

The certificates, the ASN.1 and CBOR decoders and the hash come from libraries and are parameters.
What this file has is what the service makes of them, down to the position of each byte.
-/
import OneCore.WalletProvider.Model

namespace OneCore.WalletProvider

/-- The leaf certificate of a chain that was validated. -/
structure AttestationCertificate (Key : Type) where
  /-- The extensions, each with its identifier and its value in hexadecimal digits. -/
  extensions : List (String × String)
  subjectCommonName : Option String
  publicKey : Key

structure ChainOptions where
  validation : CertificateValidationOptions
  leafOnlyExtensions : List String

structure DerLibrary (Der : Type) where
  parseDer : Bytes → Except String (Bytes × Der)
  asSequence : Der → Except String (List Der)
  asSet : Der → Except String (List Der)
  asSlice : Der → Except String Bytes
  asU32 : Der → Except String Nat
  tag : Der → Nat
  /-- The texts of the errors that the service itself raises. -/
  invalidLength : String
  berValueError : String

/-- An iOS attestation: its certificate chain and the authenticator data. -/
structure IosAttestation where
  x5c : List Bytes
  authData : Bytes

structure WebAuthnSignature where
  signature : Bytes
  authenticatorData : Bytes

/-- What the checks of an attestation take from libraries. -/
structure IntegrityLibrary (Key Der : Type) where
  der : DerLibrary Der
  x5cIntoPemChain : List String → Except String String
  derChainIntoPemChain : List Bytes → String
  /-- The leaf of a chain that reaches the given CA. -/
  validateChainAgainstCaChain : String → String → ChainOptions →
    Except String (AttestationCertificate Key)
  hexDecode : String → Except String Bytes
  fromUtf8Lossy : Bytes → String
  sha256 : Bytes → Except String Bytes
  decodeCborBase64 : String → Except WalletProviderError IosAttestation
  decodeWebAuthnSignature : Bytes → Except String WebAuthnSignature
  ecdsaSigFromDer : Bytes → Except String Bytes

def utf8 (s : String) : Bytes := s.toUTF8.data.toList

lemma utf8_injective : Function.Injective utf8 := fun _ _ h =>
  String.toByteArray_inj.1 (ByteArray.ext (Array.toList_inj.1 h))

variable {Key Der : Type}

/-- The leaf, validated against the first CA that accepts the chain, or the errors of all CAs. -/
def validateAgainstCas (validate : String → Except String (AttestationCertificate Key))
    (errs : List String) : List String → Except WalletProviderError (AttestationCertificate Key)
  | [] => .error (.appIntegrityValidationError
      ("failed to validate attestation against CA certs: [" ++ ", ".intercalate errs ++ "]"))
  | ca :: cas =>
    match validate ca with
    | .ok cert => .ok cert
    | .error err => validateAgainstCas validate (errs ++ [err]) cas

lemma exists_ca_of_validateAgainstCas
    {validate : String → Except String (AttestationCertificate Key)} {errs cas : List String}
    {cert : AttestationCertificate Key} (h : validateAgainstCas validate errs cas = .ok cert) :
    ∃ ca ∈ cas, validate ca = .ok cert := by
  induction cas generalizing errs with
  | nil => cases h
  | cons ca cas ih =>
    simp only [validateAgainstCas] at h
    split at h
    · next hok =>
      cases h
      exact ⟨ca, List.mem_cons_self, hok⟩
    · obtain ⟨ca', hca', hvdt⟩ := ih h
      exact ⟨ca', List.mem_cons_of_mem _ hca', hvdt⟩

/-! ### Android -/

namespace Android

def attestationExtensionOid : String := "1.3.6.1.4.1.11129.2.1.17"

def tagAttestationApplicationId : Nat := 709

inductive SecurityLevel where
  | software
  | trustedEnvironment
  | strongBox
deriving DecidableEq

/-- What the extension says about the key and the application. -/
structure ParsedAttestationExtension where
  attestationChallenge : String
  packageName : String
  signatureDigests : List String
  keymasterSecurityLevel : SecurityLevel

def upperHexDigit (n : Nat) : Char := if n < 10 then Char.ofNat (48 + n) else Char.ofNat (55 + n)

def upperHex (bytes : Bytes) : String :=
  String.ofList (bytes.flatMap fun b => [upperHexDigit (b.toNat / 16), upperHexDigit (b.toNat % 16)])

section Der

variable (der : DerLibrary Der)

def securityLevel (value : Nat) : Except String SecurityLevel :=
  match value with
  | 0 => .ok .software
  | 1 => .ok .trustedEnvironment
  | 2 => .ok .strongBox
  | _ => .error der.berValueError

def element (l : List Der) (i : Nat) : Except String Der := okOr l[i]? der.invalidLength

def applicationId (softwareEnforced : List Der) : Except String (List Der) := do
  let tagged ← okOr
    (softwareEnforced.find? fun elem => decide (der.tag elem = tagAttestationApplicationId))
    der.berValueError
  let rawAppId ← der.asSlice tagged
  let (_, appIdOctetString) ← der.parseDer rawAppId
  let content ← der.asSlice appIdOctetString
  let (_, parsedAppId) ← der.parseDer content
  let appIdSeq ← der.asSequence parsedAppId
  ensure (appIdSeq.length = 2) der.invalidLength
  return appIdSeq

def packageName (fromUtf8Lossy : Bytes → String) (appIdSeq : List Der) : Except String String := do
  let infos ← der.asSet (← element der appIdSeq 0)
  ensure (infos.length = 1) der.invalidLength
  let info ← der.asSequence (← element der infos 0)
  ensure (info.length = 2) der.invalidLength
  let name ← der.asSlice (← element der info 0)
  return fromUtf8Lossy name

def signatureDigests (appIdSeq : List Der) : Except String (List String) := do
  let digests ← der.asSet (← element der appIdSeq 1)
  digests.mapM fun o => (der.asSlice o).map upperHex

def parseAttestationExtension (fromUtf8Lossy : Bytes → String) (extensionData : Bytes) :
    Except String ParsedAttestationExtension := do
  let (_, parsedExt) ← der.parseDer extensionData
  let keyDescription ← der.asSequence parsedExt
  ensure (keyDescription.length = 8) der.invalidLength
  let level ← der.asU32 (← element der keyDescription 3)
  let keymasterSecurityLevel ← securityLevel der level
  let challenge ← der.asSlice (← element der keyDescription 4)
  let softwareEnforced ← der.asSequence (← element der keyDescription 6)
  let appIdSeq ← applicationId der softwareEnforced
  let name ← packageName der fromUtf8Lossy appIdSeq
  let digests ← signatureDigests der appIdSeq
  return ⟨fromUtf8Lossy challenge, name, digests, keymasterSecurityLevel⟩

end Der

def debugTexts (l : List String) : String :=
  "[" ++ ", ".intercalate (l.map fun s => "\"" ++ s ++ "\"") ++ "]"

def validateSigningCertificateFingerprints (bundle : AndroidBundle) (signatures : List String) :
    Except WalletProviderError Unit :=
  ensure (∀ signature ∈ signatures, signature ∈ bundle.signingCertificateFingerprints)
    (.appIntegrityValidationError
      ("Invalid signing certificate fingerprints: " ++ debugTexts signatures))

def chainOptions : ChainOptions :=
  ⟨⟨true, true, some .androidAttestation, [], false⟩, [attestationExtensionOid]⟩

variable (lib : IntegrityLibrary Key Der)

def checkCaCerts (attestation : String) (cas : List String) :
    Except WalletProviderError (AttestationCertificate Key) :=
  validateAgainstCas (fun ca => lib.validateChainAgainstCaChain attestation ca chainOptions) [] cas

def readExtension (cert : AttestationCertificate Key) :
    Except WalletProviderError ParsedAttestationExtension := do
  let ext ← okOr (cert.extensions.find? fun ext => decide (ext.1 = attestationExtensionOid))
    (.appIntegrityValidationError
      s!"Failed to find mandatory cred cert extension {attestationExtensionOid}")
  let extensionData ← (lib.hexDecode ext.2).mapError fun err =>
    .appIntegrityValidationError s!"Failed to decode extension value: {err}"
  (parseAttestationExtension lib.der lib.fromUtf8Lossy extensionData).mapError fun err =>
    .appIntegrityValidationError s!"Failed to decode extension value: {err}"

def validateAttestationAndroid (attestation : List String) (serverNonce : String)
    (bundle : AndroidBundle) : Except WalletProviderError Key := do
  let chain ← (lib.x5cIntoPemChain attestation).mapError fun _ => .nested "parsing x5c"
  let cert ← checkCaCerts lib chain bundle.trustedAttestationCas
  let parsed ← readExtension lib cert
  ensure (parsed.keymasterSecurityLevel = .strongBox) .insufficientSecurityLevel
  validateSigningCertificateFingerprints bundle parsed.signatureDigests
  ensure (serverNonce = parsed.attestationChallenge) (.appIntegrityValidationError "Nonce mismatch")
  ensure (parsed.packageName = bundle.bundleId) (.appIntegrityValidationError
    ("Bundle id mismatch: expected " ++ bundle.bundleId ++ " got " ++ parsed.packageName))
  return cert.publicKey

/-- What is known of an Android attestation that was accepted. -/
structure Accepted (attestation : List String) (serverNonce : String) (bundle : AndroidBundle)
    (key : Key) where
  chain : String
  ca : String
  cert : AttestationCertificate Key
  parsed : ParsedAttestationExtension
  chain_eq : lib.x5cIntoPemChain attestation = .ok chain
  checked : checkCaCerts lib chain bundle.trustedAttestationCas = .ok cert
  mem_cas : ca ∈ bundle.trustedAttestationCas
  validated : lib.validateChainAgainstCaChain chain ca chainOptions = .ok cert
  parsed_eq : readExtension lib cert = .ok parsed
  strongBox : parsed.keymasterSecurityLevel = .strongBox
  fingerprints : ∀ digest ∈ parsed.signatureDigests, digest ∈ bundle.signingCertificateFingerprints
  challenge : parsed.attestationChallenge = serverNonce
  package : parsed.packageName = bundle.bundleId
  key_eq : key = cert.publicKey

lemma nonempty_accepted {attestation : List String} {serverNonce : String} {bundle : AndroidBundle}
    {key : Key} (h : validateAttestationAndroid lib attestation serverNonce bundle = .ok key) :
    Nonempty (Accepted lib attestation serverNonce bundle key) := by
  simp only [validateAttestationAndroid, validateSigningCertificateFingerprints, ok_iffs,
    exists_unit_iff] at h
  obtain ⟨chain, hchain, cert, hcert, parsed, hparsed, hlevel, hprints, hnon, hpack, rfl⟩ := h
  obtain ⟨ca, hca, hvali⟩ := exists_ca_of_validateAgainstCas hcert
  exact ⟨⟨chain, ca, cert, parsed, hchain, hcert, hca, hvali, hparsed, hlevel, hprints, hnon.symm,
    hpack, rfl⟩⟩

end Android

/-! ### iOS -/

namespace Ios

def credCertExtensionOid : String := "1.2.840.113635.100.8.2"

def appattestDevelop : Bytes := utf8 "appattestdevelop"

def appattestProduction : Bytes := utf8 "appattest" ++ List.replicate 7 0

def slice (bytes : Bytes) (start stop : Nat) : Option Bytes :=
  if start ≤ stop ∧ stop ≤ bytes.length then some ((bytes.take stop).drop start) else none

/-- A number from its bytes, the most significant one first. -/
def fromBeBytes (bytes : Bytes) : Nat := bytes.foldl (fun n b => n * 256 + b.toNat) 0

def chainOptions : ChainOptions := ⟨⟨true, true, some .x509, [], false⟩, []⟩

variable (lib : IntegrityLibrary Key Der)

def validateAgainstCaCerts (caCerts : List String) (attestation : IosAttestation) :
    Except WalletProviderError (AttestationCertificate Key) :=
  validateAgainstCas (fun ca => lib.validateChainAgainstCaChain
    (lib.derChainIntoPemChain attestation.x5c) ca chainOptions) [] caCerts

def hash (bytes : Bytes) : Except WalletProviderError Bytes :=
  (lib.sha256 bytes).mapError fun err => .appIntegrityValidationError s!"Failed to hash: {err}"

/-- The nonce in the certificate: the last 32 bytes of the extension. -/
def certNonce (cert : AttestationCertificate Key) : Except WalletProviderError Bytes := do
  let ext ← okOr (cert.extensions.find? fun ext => decide (ext.1 = credCertExtensionOid))
    (.appIntegrityValidationError
      s!"Failed to find mandatory cred cert extension {credCertExtensionOid}")
  let extData ← (lib.hexDecode ext.2).mapError fun err =>
    .appIntegrityValidationError s!"Failed to decode cred cert extension value: {err}"
  ensure (32 ≤ extData.length) (.appIntegrityValidationError
    ("Unexpected payload of cred cert extension: " ++ ext.2))
  return extData.drop (extData.length - 32)

variable (authData : Bytes)

def validateNonce (serverNonce : String)
    (attestationCert : AttestationCertificate Key) : Except WalletProviderError Unit := do
  let clientDataHash ← hash lib (utf8 serverNonce)
  let nonce ← hash lib (authData ++ clientDataHash)
  let certNonce ← certNonce lib attestationCert
  ensure (certNonce = nonce) (.appIntegrityValidationError "Nonce mismatch")

/-- The first 32 bytes of the authenticator data are the hash of the application id. -/
def validateRpId (bundle : IOSBundle) : Except WalletProviderError Unit := do
  let rpId ← okOr (slice authData 0 32) (.appIntegrityValidationError "Failed to extract RP_ID")
  let appIdHash ← hash lib (utf8 bundle.bundleId)
  ensure (rpId = appIdHash) (.appIntegrityValidationError "App id mismatch")

/-- The key has not been used yet. -/
def validateCounter : Except WalletProviderError Unit := do
  let bytes ← okOr (slice authData 33 37)
    (.appIntegrityValidationError "Failed to extract signature counter")
  let counter := fromBeBytes bytes
  ensure (counter = 0) (.appIntegrityValidationError
    s!"Invalid signature counter: must be 0 but was {counter}")

def validateAaguid (bundle : IOSBundle) : Except WalletProviderError Unit := do
  let aaguid ← okOr (slice authData 37 53) (.appIntegrityValidationError "Failed to extract AAGUID")
  ensure (aaguid = appattestProduction ∨
    bundle.enforceProductionBuild = false ∧ aaguid = appattestDevelop)
    (.appIntegrityValidationError "Invalid AAGUID")

/-- The id of the key is the name in the certificate. -/
def validateCredentialId (attestationCert : AttestationCertificate Key) :
    Except WalletProviderError Unit := do
  let lengthBytes ← okOr (slice authData 53 55)
    (.appIntegrityValidationError "Failed to extract credential id length")
  let credentialIdLen := fromBeBytes lengthBytes
  let missing := 55 + credentialIdLen - authData.length
  ensure (55 + credentialIdLen ≤ authData.length) (.appIntegrityValidationError
    s!"Invalid credential id length: credential id does not fit in auth data by {missing} bytes")
  let credentialId ← okOr (slice authData 55 (55 + credentialIdLen))
    (.appIntegrityValidationError "Failed to extract credential id")
  let cn ← okOr attestationCert.subjectCommonName
    (.appIntegrityValidationError "Missing common name in attestation certificate")
  let decoded ← (lib.hexDecode cn).mapError fun err =>
    .appIntegrityValidationError s!"Failed to decode common name: {err}"
  ensure (credentialId = decoded) (.appIntegrityValidationError "Credential id mismatch")

def validateAttestationIos (attestation : String) (serverNonce : String) (bundle : IOSBundle) :
    Except WalletProviderError Key := do
  let attestation ← lib.decodeCborBase64 attestation
  let length := attestation.authData.length
  ensure (55 ≤ length) (.appIntegrityValidationError
    s!"Invalid auth data length: must be at least 55 bytes but was only {length} bytes")
  let attestationCert ← validateAgainstCaCerts lib bundle.trustedAttestationCas attestation
  validateNonce lib attestation.authData serverNonce attestationCert
  validateRpId lib attestation.authData bundle
  validateCounter attestation.authData
  validateAaguid attestation.authData bundle
  validateCredentialId lib attestation.authData attestationCert
  return attestationCert.publicKey

/-- What the signature of a proof is about: on iOS the key signs a hash of the authenticator data
and of the proof. -/
def webauthnSignedJwtToMsgAndSig (proof : ProofToken) :
    Except WalletProviderError (Bytes × Bytes) := do
  let webauthnSig ← (lib.decodeWebAuthnSignature proof.signature).mapError fun err =>
    .appIntegrityValidationError s!"Failed to deserialize webauthn signature: {err}"
  let jwtHash ← (lib.sha256 proof.unverifiedJwt).mapError fun e =>
    .couldNotVerifyProof s!"failed to hash token payload: {e}"
  let msg ← (lib.sha256 (webauthnSig.authenticatorData ++ jwtHash)).mapError fun e =>
    .couldNotVerifyProof s!"failed to hash message: {e}"
  let sig ← (lib.ecdsaSigFromDer webauthnSig.signature).mapError fun e =>
    .couldNotVerifyProof s!"failed parse signature: {e}"
  return (msg, sig)

/-- What is known of an iOS attestation that was accepted. -/
structure Accepted (encoded : String) (serverNonce : String) (bundle : IOSBundle) (key : Key) where
  attestation : IosAttestation
  ca : String
  cert : AttestationCertificate Key
  nonceHash : Bytes
  certHash : Bytes
  appIdHash : Bytes
  decoded : lib.decodeCborBase64 encoded = .ok attestation
  mem_cas : ca ∈ bundle.trustedAttestationCas
  validated : lib.validateChainAgainstCaChain (lib.derChainIntoPemChain attestation.x5c) ca
    chainOptions = .ok cert
  nonceHash_eq : lib.sha256 (utf8 serverNonce) = .ok nonceHash
  certHash_eq : lib.sha256 (attestation.authData ++ nonceHash) = .ok certHash
  certNonce_eq : certNonce lib cert = .ok certHash
  appIdHash_eq : lib.sha256 (utf8 bundle.bundleId) = .ok appIdHash
  rpId_eq : slice attestation.authData 0 32 = some appIdHash
  key_eq : key = cert.publicKey

lemma nonempty_accepted {encoded serverNonce : String} {bundle : IOSBundle} {key : Key}
    (h : validateAttestationIos lib encoded serverNonce bundle = .ok key) :
    Nonempty (Accepted lib encoded serverNonce bundle key) := by
  simp only [validateAttestationIos, validateNonce, validateRpId, hash, ok_iffs,
    exists_unit_iff] at h
  obtain ⟨attestation, hdeco, -, cert, hcert, ⟨nonceHash, hnon, certHash, hhash, certNonce,
    hcertN, rfl⟩, ⟨rpId, hrpId, appIdHash, happId, rfl⟩, -, -, -, rfl⟩ := h
  obtain ⟨ca, hca, hvali⟩ := exists_ca_of_validateAgainstCas hcert
  exact ⟨⟨attestation, ca, cert, nonceHash, certNonce, rpId, hdeco, hca, hvali, hnon,
    hhash, hcertN, happId, hrpId, rfl⟩⟩

end Ios

end OneCore.WalletProvider
