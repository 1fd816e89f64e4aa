/-
# Presentations of mobile documents

A device response holds documents, each with the issuer-signed data and a signature of the
device.  The presentation formatter checks, document by document, the issuer's certificate, the
issuer's signature, the digests and the type, and the device's signature, and hands the
issuer-signed data on as tokens.

The issuer's signature is checked here and nowhere else: `tryVerifyIssuerAuth` is what the
routines of `Formatter` do without.
-/
import OneCore.Mdoc.Formatter

namespace OneCore.Mdoc

variable (env : Environment)

/-! ### The issuer's signature -/

/-- The anchors that a chain has to reach, if any are given. -/
def trustAnchors (trustedCerts : Option (List (String × String))) :
    Option (List (String × String)) :=
  trustedCerts.filter fun certs => !certs.isEmpty

/-- The certificate chain of the issuer; it is validated here unless it has to reach a trust
anchor. -/
def extractIssuerCertificate (issuerAuth : CoseSign1)
    (trustedCerts : Option (List (String × String))) : Except FormatterError CertificateDetails :=
  extractCertificateFromX5chainHeader env issuerAuth (trustAnchors trustedCerts).isNone

/-- The leaf certificate of a chain: validated against the trust anchors, or else for its
signatures, its validity and the usage of the leaf key. -/
def issuerLeaf (pemChain : String) (trustedCerts : Option (List (String × String))) :
    Except FormatterError ParsedCertificate :=
  match trustAnchors trustedCerts with
  | some certs =>
    (env.certificateValidator.validateChainAgainstTrustAnchors pemChain certs
      (.signatureAndRevocationBelowAnchor (some [.digitalSignature]))).mapError
        fun e => .couldNotVerify ("Issuer certificate chain is not trusted: " ++ e)
  | none =>
    (env.certificateValidator.parsePemChain pemChain
      (.signatureAndValidity (some [.digitalSignature]))).mapError
        fun e => .couldNotVerify ("Issuer certificate chain is not valid: " ++ e)

/-- The bytes that the issuer signs: the protected header and the payload. -/
def issuerSignedBytes (coseSign1 : CoseSign1) : Bytes :=
  env.sigStructureData coseSign1.protectedHeader [] (coseSign1.payload.getD [])

def tryVerifyIssuerAuth (coseSign1 : CoseSign1) (pemChain : String)
    (trustedCerts : Option (List (String × String))) : Except FormatterError Unit := do
  let leaf ← issuerLeaf env pemChain trustedCerts
  let algorithm ← okOr (extractAlgorithmFromHeader coseSign1)
    (.couldNotVerify "IssuerAuth is missing algorithm information")
  let jwk ← leaf.publicKeyAsJwk.mapError
    fun e => .couldNotVerify ("Failed to read the DS public key: " ++ e)
  (env.verifier (.jwk jwk) algorithm (issuerSignedBytes env coseSign1)
    coseSign1.signature).mapError fun _ => .nested "verifying"

variable {trustedCerts : Option (List (String × String))}

lemma tryVerifyIssuerAuth_eq_ok_iff {cose : CoseSign1} {pemChain : String} :
    tryVerifyIssuerAuth env cose pemChain trustedCerts = .ok () ↔
      ∃ leaf alg jwk, issuerLeaf env pemChain trustedCerts = .ok leaf ∧
        extractAlgorithmFromHeader cose = some alg ∧ leaf.publicKeyAsJwk = .ok jwk ∧
        env.verifier (.jwk jwk) alg (issuerSignedBytes env cose) cose.signature = .ok () := by
  simp [tryVerifyIssuerAuth, ok_iffs]

/-- The type and the digests of a presented document. -/
def verifyIssuerSignedData (issuerSigned : IssuerSigned) (presentedDocType : String) :
    Except FormatterError Unit := do
  let mso ← tryExtractMobileSecurityObject env issuerSigned.issuerAuth
  ensure (mso.docType = presentedDocType) (.couldNotVerify ("MSO docType `" ++
    mso.docType ++ "` does not match the presented docType `" ++ presentedDocType ++ "`"))
  match issuerSigned.nameSpaces with
  | some namespaces => verifyDigests env mso namespaces
  | none => .ok ()

/-! ### Device responses -/

structure Document where
  docType : String
  issuerSigned : IssuerSigned
  deviceSignature : Option CoseSign1

/-- What reading a device response needs besides the environment of the formatter. -/
structure PresentationEnvironment extends Environment where
  /-- Decoding of a device response; it may come without documents. -/
  decodeDeviceResponse : String → Except FormatterError (Option (List Document))
  /-- The bytes that the device signs, from the session transcript and the type. -/
  deviceAuthenticationBytes : Bytes → String → Bytes

structure ExtractedPresentation where
  issuer : Option IdentifierDetails
  nonce : Option String
  issuedAt : Option Timestamp
  expiresAt : Option Timestamp
  credentials : List String

variable (penv : PresentationEnvironment)

def deviceSignedMessage (sessionTranscript : Bytes) (docType : String) (signature : CoseSign1)
    (holderKey : PublicJwk) : Except FormatterError SignedMessage := do
  let algorithm ← okOr (extractAlgorithmFromHeader signature)
    (.nested "Missing or invalid signature algorithm")
  return ⟨.jwk holderKey, algorithm, penv.sigStructureData signature.protectedHeader []
    (penv.deviceAuthenticationBytes sessionTranscript docType), signature.signature⟩

variable {sessionTranscript : Bytes}

def tryVerifyDeviceSigned (sessionTranscript : Bytes) (docType : String) (signature : CoseSign1)
    (holderKey : PublicJwk) : Except FormatterError Unit := do
  let signed ← deviceSignedMessage penv sessionTranscript docType signature holderKey
  (signed.check penv.verifier).mapError fun _ => .nested "verifying DeviceSigned"

/-- The checks of one document; the result is its device key and its token. -/
def extractDocument (sessionTranscript : Bytes) (trustedCerts : Option (List (String × String)))
    (document : Document) : Except FormatterError (PublicJwk × String) := do
  let issuerSigned := document.issuerSigned
  let certDetails ← extractIssuerCertificate penv.toEnvironment issuerSigned.issuerAuth trustedCerts
  tryVerifyIssuerAuth penv.toEnvironment issuerSigned.issuerAuth certDetails.chain trustedCerts
  verifyIssuerSignedData penv.toEnvironment issuerSigned document.docType
  let holderJwk ← tryExtractHolderPublicKey penv.toEnvironment issuerSigned.issuerAuth
  let signature ← okOr document.deviceSignature
    (.couldNotExtractPresentation "Missing device signature")
  tryVerifyDeviceSigned penv sessionTranscript document.docType signature holderJwk
  let token ← penv.encodeIssuerSigned issuerSigned
  return (holderJwk, token)

/-- What the checks of a document have established: the issuer's signature, the device key and
the device's signature. -/
lemma extractDocument_eq_ok {document : Document} {jwk : PublicJwk} {token : String}
    (h : extractDocument penv sessionTranscript trustedCerts document = .ok (jwk, token)) :
    (∃ certDetails, extractIssuerCertificate penv.toEnvironment document.issuerSigned.issuerAuth
        trustedCerts = .ok certDetails ∧
      tryVerifyIssuerAuth penv.toEnvironment document.issuerSigned.issuerAuth certDetails.chain
        trustedCerts = .ok ()) ∧
    tryExtractHolderPublicKey penv.toEnvironment document.issuerSigned.issuerAuth = .ok jwk ∧
    (∃ signature, document.deviceSignature = some signature ∧
      tryVerifyDeviceSigned penv sessionTranscript document.docType signature jwk = .ok ()) ∧
    penv.encodeIssuerSigned document.issuerSigned = .ok token := by
  simp only [extractDocument, ok_iffs, Prod.mk.injEq] at h
  obtain ⟨cert, hcert, ⟨⟩, hauth, ⟨⟩, -, jwk', hjwk, signature, hsig, ⟨⟩, hdevice, token',
    htok, rfl, rfl⟩ := h
  exact ⟨⟨cert, hcert, hauth⟩, hjwk, ⟨signature, hsig, hdevice⟩, htok⟩

/-- The presentation in a device response.  The session transcript and the nonce come from the
context of the verification; the presentation counts as issued by the last device key. -/
def extractPresentation (presentation : String) (context : Except FormatterError
    (Bytes × Option String)) (trustedCerts : Option (List (String × String)))
    (issuedAt expiresAt : Option Timestamp) :
    Except FormatterError ExtractedPresentation := do
  let response ← penv.decodeDeviceResponse presentation
  let documents ← okOr response (.couldNotExtractPresentation "Missing docs")
  let (sessionTranscript, nonce) ← context
  let extracted ← documents.mapM (extractDocument penv sessionTranscript trustedCerts)
  return ⟨(extracted.getLast?.map Prod.fst).map .key, nonce, issuedAt, expiresAt,
    extracted.map Prod.snd⟩

lemma extractPresentation_eq_ok_iff {presentation : String}
    {context : Except FormatterError (Bytes × Option String)}
    {issuedAt expiresAt : Option Timestamp} {p : ExtractedPresentation} :
    extractPresentation penv presentation context trustedCerts issuedAt expiresAt = .ok p ↔
      ∃ documents sessionTranscript nonce extracted,
        penv.decodeDeviceResponse presentation = .ok (some documents) ∧
        context = .ok (sessionTranscript, nonce) ∧
        List.Forall₂ (fun document e => extractDocument penv sessionTranscript trustedCerts
          document = .ok e) documents extracted ∧
        p = ⟨(extracted.getLast?.map Prod.fst).map .key, nonce, issuedAt, expiresAt,
          extracted.map Prod.snd⟩ := by
  simp only [extractPresentation, ok_iffs, mapM_eq_ok]
  constructor
  · rintro ⟨_, hdec, documents, rfl, ⟨transcript, nonce⟩, hctx, extracted, hall, rfl⟩
    exact ⟨documents, transcript, nonce, extracted, hdec, hctx, hall, rfl⟩
  · tauto

end OneCore.Mdoc
