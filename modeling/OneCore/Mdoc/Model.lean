/-
# Mobile documents

The data of an ISO/IEC 18013-5 mobile document as it stands in memory after decoding: the
issuer-signed items by namespace, the COSE signature of the issuer, and the mobile security
object (MSO) that is its payload.  An embedded CBOR value keeps the bytes it was decoded from,
and only those bytes are hashed and written out again.

The codecs, the hash functions, the certificate validator and the signature verifier belong to
the environment of the formatter.
-/
import OneCore.Lib.Result
import OneCore.Model.Verification

namespace OneCore.Mdoc

/-! ### CBOR and COSE -/

inductive CborValue where
  | integer (n : Int)
  | bytes (b : Bytes)
  | float (bits : UInt64)
  | text (s : Str)
  | bool (b : Bool)
  | null
  | tag (tag : Nat) (value : CborValue)
  | array (values : List CborValue)
  | map (entries : List (CborValue × CborValue))
deriving Inhabited

namespace CborValue

def asInteger : CborValue → Option Int
  | integer n => some n
  | _ => none

def asBytes : CborValue → Option Bytes
  | bytes b => some b
  | _ => none

def asText : CborValue → Option Str
  | text s => some s
  | _ => none

end CborValue

/-- A CBOR value of type `T` inside a byte string, with the bytes it was decoded from. -/
structure EmbeddedCbor (T : Type) where
  inner : T
  originalBytes : Bytes

/-- The label of a COSE header parameter or key parameter. -/
inductive Label where
  | int (n : Int)
  | text (s : String)
deriving DecidableEq

/-- A value of an IANA registry, by its number, or a text in its place. -/
inductive RegisteredLabel where
  | assigned (n : Int)
  | privateUse (n : Int)
  | text (s : String)
deriving DecidableEq

/-- The protected header: its bytes on the wire and the algorithm in it. -/
structure ProtectedHeader where
  originalData : Option Bytes
  alg : Option RegisteredLabel

structure CoseSign1 where
  protectedHeader : ProtectedHeader
  /-- The unprotected header parameters that have no field of their own. -/
  unprotectedRest : List (Label × CborValue)
  payload : Option Bytes
  signature : Bytes

structure CoseKey where
  kty : RegisteredLabel
  params : List (Label × CborValue)

-- The numbers of the IANA registries: a header parameter, the algorithms, the key types, the
-- curves and the parameters of a key.
def x5ChainLabel : Label := .int 33
def algorithmES256 : RegisteredLabel := .assigned (-7)
def algorithmEdDSA : RegisteredLabel := .assigned (-8)
def keyTypeOkp : RegisteredLabel := .assigned 1
def keyTypeEc2 : RegisteredLabel := .assigned 2
def curveP256 : Int := 1
def curveEd25519 : Int := 6
def keyParamCrv : Label := .int (-1)
def keyParamX : Label := .int (-2)
def keyParamY : Label := .int (-3)

/-! ### Issuer-signed data -/

structure IssuerSignedItem where
  digestId : Nat
  random : Bytes
  elementIdentifier : Str
  elementValue : CborValue

abbrev Namespaces := IndexMap Str (List (EmbeddedCbor IssuerSignedItem))

structure IssuerSigned where
  nameSpaces : Option Namespaces
  issuerAuth : CoseSign1

inductive DigestAlgorithm where
  | sha256
  | sha384
  | sha512
deriving DecidableEq

/-- The digests of each namespace, by the digest id of the item. -/
abbrev ValueDigests := IndexMap Str (IndexMap Nat Bytes)

structure ValidityInfo where
  signed : Timestamp
  validFrom : Timestamp
  validUntil : Timestamp
  expectedUpdate : Option Timestamp

structure MsoStatusList where
  idx : Nat
  uri : Str

/-- The status mechanisms of a document; only the names of the other ones are used. -/
structure MsoStatus where
  statusList : Option MsoStatusList
  other : List String

/-- What the issuer signs: the digests of the items, the device key, the type, the validity. -/
structure MobileSecurityObject where
  digestAlgorithm : DigestAlgorithm
  valueDigests : ValueDigests
  deviceKey : CoseKey
  docType : String
  validityInfo : ValidityInfo
  status : Option MsoStatus

/-! ### The environment -/

/-- The value and the data type that a data type provider finds in a CBOR value. -/
structure ExtractedClaim where
  dataType : String
  value : Str

structure Environment where
  /-- Decoding of a token, `decode_cbor_base64`. -/
  decodeIssuerSigned : String → Except FormatterError IssuerSigned
  /-- Encoding of a token, `encode_cbor_base64`. -/
  encodeIssuerSigned : IssuerSigned → Except FormatterError String
  /-- Decoding of the payload of the issuer's signature. -/
  decodeMso : Bytes → Except FormatterError (EmbeddedCbor MobileSecurityObject)
  digest : DigestAlgorithm → Bytes → Bytes
  base64UrlNoPadding : Bytes → Except FormatterError String
  base64 : Bytes → Except FormatterError Str
  fromUtf8Lossy : Bytes → Str
  /-- Does the text parse as an RFC 3339 date and time? -/
  isDateTime : Str → Bool
  /-- Does the text parse as a full date? -/
  isFullDate : Str → Bool
  /-- The debug text of a CBOR value, for error messages. -/
  debug : CborValue → String
  /-- The debug text of a key type, for error messages. -/
  debugKeyType : RegisteredLabel → String
  /-- The PEM form of a chain of DER certificates. -/
  encodePemChain : List Bytes → String
  certificateValidator : CertificateValidator
  /-- The bytes that a COSE signature signs: the protected header, the external data and the
  payload. -/
  sigStructureData : ProtectedHeader → Bytes → Bytes → Bytes
  verifier : TokenVerifier
  /-- The data type provider's reading of a CBOR value. -/
  extractCborClaim : CborValue → Except String ExtractedClaim
  /-- The key algorithm provider's check of a key. -/
  parseJwk : PublicJwk → Except String Unit

variable (env : Environment)

/-! ### The issuer's certificate and the mobile security object -/

/-- The certificates of the `x5chain` header of the issuer's signature, parsed and, if
`verify`, checked for their signatures, their validity and the usage of the leaf key. -/
def extractCertificateFromX5chainHeader (coseSign1 : CoseSign1) (verify : Bool) :
    Except FormatterError CertificateDetails := do
  let (_, x5c) ← okOr (coseSign1.unprotectedRest.find? fun p => p.1 = x5ChainLabel)
    (.couldNotExtractCredentials "Missing x5chain header")
  let pemChainBytes ← match x5c with
    | .bytes singleCert => .ok [singleCert]
    | .array manyCerts => .ok (manyCerts.filterMap CborValue.asBytes)
    | val => .error (.couldNotExtractCredentials
        ("Unexpected value in x5chain header: " ++ env.debug val))
  let chain := env.encodePemChain pemChainBytes
  let validationContext :=
    if verify then .signatureAndValidity (some [.digitalSignature]) else .noValidation
  let parsed ← (env.certificateValidator.parsePemChain chain validationContext).mapError .nested
  return ⟨chain, parsed.fingerprint, parsed.notAfter, parsed.subjectCommonName⟩

def extractAlgorithmFromHeader (coseSign1 : CoseSign1) : Option KeyAlgorithmType :=
  if coseSign1.protectedHeader.alg = some algorithmES256 then some .ecdsa
  else if coseSign1.protectedHeader.alg = some algorithmEdDSA then some .eddsa
  else none

def tryExtractMobileSecurityObject (coseSign1 : CoseSign1) :
    Except FormatterError MobileSecurityObject := do
  let payload ← okOr coseSign1.payload
    (.couldNotExtractCredentials "IssuerAuth doesn't contain payload")
  let mso ← env.decodeMso payload
  return mso.inner

def Label.debug : Label → String
  | .int n => "Int(" ++ toString n ++ ")"
  | .text s => "Text(" ++ s ++ ")"

def CoseKey.getParamValue (key : CoseKey) (label : Label) : Except FormatterError CborValue :=
  okOr ((key.params.find? fun p => p.1 = label).map Prod.snd)
    (.couldNotExtractCredentials ("Missing CoseKey param: " ++ label.debug))

/-- A coordinate of a COSE key in the encoding of a JWK. -/
def CoseKey.coordinate (key : CoseKey) (label : Label) (invalid : String) :
    Except FormatterError String := do
  let value ← key.getParamValue label
  let bytes ← okOr value.asBytes (.jsonMapping invalid)
  env.base64UrlNoPadding bytes

def CoseKey.checkCurve (key : CoseKey) (curve : Int) (kind : String) :
    Except FormatterError Unit := do
  let value ← key.getParamValue keyParamCrv
  let crv ← okOr value.asInteger (.jsonMapping ("Invalid " ++ kind ++ " CRV"))
  ensure (crv = curve)
    (.couldNotExtractCredentials ("Unsupported " ++ kind ++ " CRV: Integer(" ++ toString crv ++ ")"))

/-- The device key of a mobile security object as a JWK without metadata. -/
def CoseKey.toJwk (key : CoseKey) : Except FormatterError PublicJwk :=
  if key.kty = keyTypeEc2 then do
    key.checkCurve curveP256 "EC2"
    let x ← key.coordinate env keyParamX "Invalid X"
    let y ← key.coordinate env keyParamY "Invalid Y"
    return .ec ⟨none, none, none, "P-256", x, some y⟩
  else if key.kty = keyTypeOkp then do
    key.checkCurve curveEd25519 "OKP"
    let x ← key.coordinate env keyParamX "Invalid X"
    return .okp ⟨none, none, none, "Ed25519", x, none⟩
  else
    .error (.couldNotExtractCredentials ("CoseKey contains invalid kty `" ++
      env.debugKeyType key.kty ++ "`, only EC2 and OKP keys are supported"))

def tryExtractHolderPublicKey (issuerAuth : CoseSign1) : Except FormatterError PublicJwk := do
  let payload ← okOr issuerAuth.payload
    (.couldNotExtractCredentials "Issuer auth missing mso object")
  let mso ← env.decodeMso payload
  mso.inner.deviceKey.toJwk env

variable {cose : CoseSign1} {mso : MobileSecurityObject}

lemma tryExtractMobileSecurityObject_eq_ok_iff :
    tryExtractMobileSecurityObject env cose = .ok mso ↔
      ∃ payload, cose.payload = some payload ∧
        ∃ m, env.decodeMso payload = .ok m ∧ m.inner = mso := by
  simp only [tryExtractMobileSecurityObject, ok_iffs]

lemma tryExtractHolderPublicKey_eq_ok_iff {jwk : PublicJwk} :
    tryExtractHolderPublicKey env cose = .ok jwk ↔
      ∃ mso, tryExtractMobileSecurityObject env cose = .ok mso ∧
        mso.deviceKey.toJwk env = .ok jwk := by
  simp only [tryExtractHolderPublicKey, tryExtractMobileSecurityObject_eq_ok_iff, ok_iffs]
  constructor
  · rintro ⟨payload, hpay, m, hm, hjwk⟩
    exact ⟨m.inner, ⟨payload, hpay, m, hm, rfl⟩, hjwk⟩
  · rintro ⟨_, ⟨payload, hpay, m, hm, rfl⟩, hjwk⟩
    exact ⟨payload, hpay, m, hm, hjwk⟩

/-! ### Digests -/

/-- Every item has to hash to the digest that the mobile security object lists for it. -/
def verifyDigests (mso : MobileSecurityObject) (namespaces : Namespaces) :
    Except FormatterError Unit :=
  forM namespaces.entries fun (ns, signedItems) => do
    let digestIds ← okOr (mso.valueDigests.get? ns)
      (.couldNotVerify ("Missing digests for namespace " ++ String.ofList ns))
    forM signedItems fun item => do
      let expectedDigest ← okOr (digestIds.get? item.inner.digestId)
        (.couldNotExtractCredentials "Missing digest_ids")
      ensure (env.digest mso.digestAlgorithm item.originalBytes = expectedDigest)
        (.couldNotExtractCredentials "Invalid digest")

/-- The digest of the bytes of an item is listed for its namespace and its digest id. -/
def Listed (mso : MobileSecurityObject) (ns : Str) (item : EmbeddedCbor IssuerSignedItem) : Prop :=
  ∃ digestIds, mso.valueDigests.get? ns = some digestIds ∧
    digestIds.get? item.inner.digestId = some (env.digest mso.digestAlgorithm item.originalBytes)

lemma verifyDigests_eq_ok_iff {namespaces : Namespaces} :
    verifyDigests env mso namespaces = .ok () ↔
      ∀ ns items, (ns, items) ∈ namespaces.entries →
        (mso.valueDigests.get? ns).isSome ∧ ∀ item ∈ items, Listed env mso ns item := by
  rw [verifyDigests, forM_eq_ok, Prod.forall]
  refine forall₃_congr fun ns items _ => ?_
  simp only [ok_iffs, forM_eq_ok, Listed]
  constructor
  · rintro ⟨ids, hids, h⟩
    refine ⟨by rw [hids]; rfl, fun item hitem => ⟨ids, hids, ?_⟩⟩
    obtain ⟨d, hd, hdig⟩ := h item hitem
    rw [hdig, hd]
  · rintro ⟨hsome, h⟩
    obtain ⟨ids, hids⟩ := Option.isSome_iff_exists.1 hsome
    refine ⟨ids, hids, fun item hitem => ?_⟩
    obtain ⟨ids', hids', hd⟩ := h item hitem
    obtain rfl : ids = ids' := mem_unique hids hids'
    exact ⟨_, hd, rfl⟩

/-! ### A small environment -/

/-- An environment to run the formatter in: every token decodes to one document, every payload
to one mobile security object, a digest is the bytes themselves, and a certificate chain and a
signature are accepted as given. -/
def Environment.fixed (issuerSigned : IssuerSigned) (mso : MobileSecurityObject)
    (leaf : ParsedCertificate) (verifier : TokenVerifier) : Environment where
  decodeIssuerSigned _ := .ok issuerSigned
  encodeIssuerSigned _ := .ok "token"
  decodeMso payload := .ok ⟨mso, payload⟩
  digest _ bytes := bytes
  base64UrlNoPadding _ := .ok "AA"
  base64 _ := .ok ['A', 'A']
  fromUtf8Lossy _ := []
  isDateTime _ := true
  isFullDate _ := true
  debug _ := ""
  debugKeyType _ := ""
  encodePemChain _ := "chain"
  certificateValidator := ⟨fun _ _ => .ok leaf, fun _ _ _ => .ok leaf⟩
  sigStructureData _ _ payload := payload
  verifier := verifier
  extractCborClaim _ := .ok ⟨"STRING", []⟩
  parseJwk _ := .ok ()

end OneCore.Mdoc
