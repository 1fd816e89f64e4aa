/-
# Writing a mobile document

`formatCredential` issues a mobile document.  It nests the flat claims, turns every element of every
namespace into a CBOR value with the data types of its claims, and gives each element an issuer-signed
item with a running digest id.  The digests of the items go into the mobile security object, together with
the key of the holder, and the issuer signs it.
-/
import OneCore.Mdoc.Formatter
import OneCore.Model.Datatype
import OneCore.Model.PublishedClaim

namespace OneCore.Mdoc

/-! ### The issuer -/

structure HolderKey where
  keyType : String
  publicKey : Bytes

inductive IdentifierType where
  | key
  | did
  | certificate
  | certificateAuthority

structure HolderIdentifier where
  type : IdentifierType
  key : Option HolderKey
  did : Option String

structure CredentialData where
  /-- The id of the first credential schema. -/
  credentialSchema : Option String
  claims : List PublishedClaim
  holderIdentifier : Option HolderIdentifier
  holderKeyId : Option String
  /-- The PEM chain of the issuer's certificate. -/
  issuerCertificate : Option String

structure IssuerEnvironment extends Environment where
  datatypeConfig : DatatypeConfig
  displayFloat : UInt64 → Str
  utf8 : Str → Bytes
  decodeBase64 : Str → Except FormatterError Bytes
  decodeBase64Url : String → Except FormatterError Bytes
  /-- The random bytes of the item with the given digest id. -/
  randomBytes : Nat → Bytes
  /-- The tagged bytes of an item, `EmbeddedCbor::new`. -/
  embedItem : IssuerSignedItem → Except FormatterError Bytes
  embedMso : MobileSecurityObject → Except FormatterError Bytes
  keyAlgorithmType : HolderKey → Option KeyAlgorithmType
  /-- The key of an algorithm, if it has a provider, as a JWK. -/
  publicKeyAsJwk : KeyAlgorithmType → Option (Bytes → Except String PublicJwk)
  displayKeyAlgorithm : KeyAlgorithmType → String
  /-- The verification methods of a DID: their ids and keys. -/
  resolveDid : String → Except String (List (String × PublicJwk))
  debugJwk : PublicJwk → String
  /-- The DER certificates of a PEM chain, in base64. -/
  pemChainIntoX5c : String → Except String (List Str)
  now : Timestamp
  msoExpiresIn : Int
  msoExpectedUpdateIn : Int
  /-- The algorithm of the issuer's key, or its type. -/
  keyAlgorithm : Except String KeyAlgorithmType
  sign : Bytes → Except String Bytes

variable (env : IssuerEnvironment)

/-! ### The values of the claims -/

def bigPosTag : Nat := 2

def bigNegTag : Nat := 3

/-- The last bytes of a number before the given ones, from the highest one on. -/
def bigEndianFrom : Nat → Nat → Bytes → Bytes
  | 0, _, bytes => bytes
  | k + 1, n, bytes =>
    if n = 0 then bytes else bigEndianFrom k (n / 256) (UInt8.ofNat (n % 256) :: bytes)

/-- The bytes of a number of 128 bits, without leading zeros. -/
def bigEndian (n : Nat) : Bytes := bigEndianFrom 16 n []

/-- A number is a CBOR integer if it has 64 bits, and a tagged byte string otherwise. -/
def cborInteger (n : Int) : CborValue :=
  if -2 ^ 64 ≤ n ∧ n < 2 ^ 64 then .integer n
  else if n < 0 then .tag bigNegTag (.bytes (bigEndian (-1 - n).toNat))
  else .tag bigPosTag (.bytes (bigEndian n.toNat))

def mapToCiboriumValue (claim : PublishedClaim) : Except FormatterError CborValue := do
  let dataType ← okOr claim.datatype (.couldNotFormat "Missing data type")
  let fields ← okOr (env.datatypeConfig dataType) (.nested "getting datatype config")
  let valueAsString := claim.value.toText env.displayFloat
  match fields with
  | .string _ => .ok (.text valueAsString)
  | .number _ _ => do
    let value ← (Decimal.parseSigned (2 ^ 127) valueAsString).mapError
      fun e => .couldNotFormat e.display
    return cborInteger value
  | .date _ _ _ _ =>
    if env.isFullDate valueAsString then .ok (.tag fullDateTag (.text valueAsString))
    else if env.isDateTime valueAsString then .ok (.tag tdateTag (.text valueAsString))
    else .error (.couldNotFormat ("Invalid mdoc date format. Expected tdate or full-date got: " ++
      String.ofList valueAsString))
  | .boolean =>
    if valueAsString = "true".toList then .ok (.bool true)
    else if valueAsString = "false".toList then .ok (.bool false)
    else .error (.couldNotFormat ("Invalid boolean value: " ++ String.ofList valueAsString))
  | .picture _ _ encodeAsMdlPortrait => do
    let (mimeType, content) ← okOr (Path.splitOnce ',' valueAsString)
      (.couldNotFormat "Missing base64 data")
    if encodeAsMdlPortrait then do
      let decoded ← env.decodeBase64 content
      return .bytes decoded
    else .ok (.array [.text mimeType, .bytes (env.utf8 content)])
  | fields => .error (.couldNotFormat ("Invalid datatype: " ++ fields.display))

section Values

variable (claims : List PublishedClaim)

mutual

/-- The CBOR value of what is at a path of the nested claims. -/
def buildCiboriumValue (thisPath : Str) : JsonValue → Except FormatterError CborValue
  | .object object => do return .map (← buildCiboriumFields thisPath object)
  | .array array => do return .array (← buildCiboriumItems thisPath 0 array)
  | .null => .ok .null
  | _ => do
    let claim ← okOr (claims.find? fun c => c.key = thisPath)
      (.couldNotFormat ("Missing claim: " ++ String.ofList thisPath))
    mapToCiboriumValue env claim

def buildCiboriumFields (thisPath : Str) :
    List (Str × JsonValue) → Except FormatterError (List (CborValue × CborValue))
  | [] => .ok []
  | (key, value) :: fields => do
    let item ← buildCiboriumValue (subPath thisPath key) value
    let items ← buildCiboriumFields thisPath fields
    return (.text key, item) :: items

def buildCiboriumItems (thisPath : Str) :
    Nat → List JsonValue → Except FormatterError (List CborValue)
  | _, [] => .ok []
  | i, value :: values => do
    let item ← buildCiboriumValue (subPath thisPath (toString i).toList) value
    let items ← buildCiboriumItems thisPath (i + 1) values
    return item :: items

end

/-! ### The namespaces -/

def signedItem (namespaceKey : Str) (digestId : Nat) (itemKey : Str) (itemValue : JsonValue) :
    Except FormatterError (EmbeddedCbor IssuerSignedItem) := do
  let elementValue ← buildCiboriumValue env claims (subPath namespaceKey itemKey) itemValue
  let item : IssuerSignedItem := ⟨digestId, env.randomBytes digestId, itemKey, elementValue⟩
  let bytes ← env.embedItem item
  return ⟨item, bytes⟩

/-- The items of one namespace, with running digest ids. -/
def signedItems (namespaceKey : Str) :
    Nat → List (Str × JsonValue) → Except FormatterError (List (EmbeddedCbor IssuerSignedItem))
  | _, [] => .ok []
  | digestId, (itemKey, itemValue) :: items => do
    let item ← signedItem env claims namespaceKey digestId itemKey itemValue
    let rest ← signedItems namespaceKey (digestId + 1) items
    return item :: rest

def asObject : JsonValue → Option (List (Str × JsonValue))
  | .object fields => some fields
  | _ => none

/-- Add the items of the namespaces, with running digest ids. -/
def addNamespaces (digestId : Nat) (namespaces : Namespaces) :
    List (Str × JsonValue) → Except FormatterError Namespaces
  | [] => .ok namespaces
  | (namespaceKey, namespaceValue) :: rest => do
    let namespaceObject ← okOr (asObject namespaceValue)
      (.jsonMapping "Expected an object")
    let items ← signedItems env claims namespaceKey digestId namespaceObject
    addNamespaces (digestId + namespaceObject.length)
      (namespaces.upsert namespaceKey fun old => old.getD [] ++ items) rest

def tryBuildNamespaces (nested : List (Str × JsonValue)) : Except FormatterError Namespaces :=
  addNamespaces env claims 0 .empty nested

end Values

def tryBuildValueDigests (namespaces : Namespaces) (digestAlg : DigestAlgorithm) : ValueDigests :=
  namespaces.entries.foldl (fun valueDigests e =>
    valueDigests.upsert e.1 fun old =>
      e.2.foldl (fun digestIds signedItem =>
        digestIds.insert signedItem.inner.digestId (env.digest digestAlg signedItem.originalBytes))
        (old.getD .empty)) .empty

/-! ### The mobile security object and its signature -/

/-- The first verification method of the DID, or the one with the given key id. -/
def tryExtractDid (holderDid : String) (holderKeyId : Option String) :
    Except FormatterError PublicJwk := do
  let verificationMethods ← (env.resolveDid holderDid).mapError .nested
  match verificationMethods.find? fun m => ∀ keyId ∈ holderKeyId, keyId = m.1 with
  | some m => .ok m.2
  | none => .error (.couldNotVerify ("Verification method not found: did:" ++ holderDid ++
      ", keyId:" ++ reprStr holderKeyId))

variable (data : CredentialData)

def holderJwk : Except FormatterError PublicJwk := do
  let holderIdentifier ← okOr data.holderIdentifier (.couldNotFormat "Missing holder identifier")
  match holderIdentifier.type with
  | .key => do
    let key ← okOr holderIdentifier.key (.couldNotFormat "Missing holder key")
    let keyAlg ← okOr (env.keyAlgorithmType key)
      (.couldNotFormat ("Invalid key algorithm " ++ key.keyType))
    let publicKeyAsJwk ← okOr (env.publicKeyAsJwk keyAlg)
      (.couldNotFormat ("Missing key algorithm " ++ env.displayKeyAlgorithm keyAlg))
    (publicKeyAsJwk key.publicKey).mapError .nested
  | .did => do
    let did ← okOr holderIdentifier.did (.couldNotFormat "Missing holder did")
    tryExtractDid env did data.holderKeyId
  | _ => .error (.couldNotFormat "Invalid holder identifier")

def tryBuildCoseKey (key : PublicJwk) : Except FormatterError CoseKey :=
  let notAvailable : FormatterError :=
    .couldNotFormat ("Key not available for mdoc " ++ env.debugJwk key)
  match key with
  | .ec ⟨_, _, _, crv, x, some y⟩ =>
    if crv = "P-256" then do
      let x ← env.decodeBase64Url x
      let y ← env.decodeBase64Url y
      return ⟨keyTypeEc2,
        [(keyParamCrv, .integer curveP256), (keyParamX, .bytes x), (keyParamY, .bytes y)]⟩
    else .error notAvailable
  | .okp ⟨_, _, _, crv, x, _⟩ =>
    if crv = "Ed25519" then do
      let x ← env.decodeBase64Url x
      return ⟨keyTypeOkp, [(keyParamCrv, .integer curveEd25519), (keyParamX, .bytes x)]⟩
    else .error notAvailable
  | _ => .error notAvailable

def algorithmMismatch (algorithm : String) : FormatterError :=
  .couldNotFormat ("Failed mapping algorithm `" ++ algorithm ++
    "` to name compatible with allowed COSE Algorithms")

def tryBuildAlgorithmHeader (algorithm : KeyAlgorithmType) :
    Except FormatterError ProtectedHeader :=
  match algorithm with
  | .ecdsa => .ok ⟨none, some algorithmES256⟩
  | .eddsa => .ok ⟨none, some algorithmEdDSA⟩
  | algorithm => .error (algorithmMismatch (env.displayKeyAlgorithm algorithm))

/-- The value of the `x5chain` header: the certificate if there is one, or all of them. -/
def x5chainValue (chain : List Bytes) : CborValue :=
  match chain with
  | [cert] => .bytes cert
  | chain => .array (chain.map .bytes)

def buildX5chainHeader (x5c : List Str) : Except FormatterError (List (Label × CborValue)) := do
  let chain ← x5c.mapM env.decodeBase64
  return [(x5ChainLabel, x5chainValue chain)]

def issuerX5c : Except FormatterError (List Str) := do
  let certificate ← okOr data.issuerCertificate (.couldNotFormat "Missing issuer certificate")
  (env.pemChainIntoX5c certificate).mapError .nested

def issuerMso (docType : String) (namespaces : Namespaces) (deviceKey : CoseKey) :
    MobileSecurityObject where
  digestAlgorithm := .sha256
  valueDigests := tryBuildValueDigests env namespaces .sha256
  deviceKey := deviceKey
  docType := docType
  validityInfo := ⟨env.now, env.now, env.now + env.msoExpiresIn,
    some (env.now + env.msoExpectedUpdateIn)⟩
  status := none

def issuerSigned : Except FormatterError IssuerSigned := do
  let credentialSchema ← okOr data.credentialSchema
    (.couldNotFormat "MDOC credential missing credential schema")
  let claims ← nestClaims data.claims
  let namespaces ← tryBuildNamespaces env data.claims claims
  let holderKey ← holderJwk env data
  let coseKey ← tryBuildCoseKey env holderKey
  let mso ← env.embedMso (issuerMso env credentialSchema namespaces coseKey)
  let keyAlgorithm ← env.keyAlgorithm.mapError algorithmMismatch
  let algorithmHeader ← tryBuildAlgorithmHeader env keyAlgorithm
  let x5c ← issuerX5c env data
  let x5chainHeader ← buildX5chainHeader env x5c
  let signature ← (env.sign (env.sigStructureData algorithmHeader [] mso)).mapError .nested
  return ⟨some namespaces, ⟨algorithmHeader, x5chainHeader, some mso, signature⟩⟩

def formatCredential : Except FormatterError String := do
  let signed ← issuerSigned env data
  env.encodeIssuerSigned signed

/-! ### A small issuer -/

/-- Text as bytes, three for each character. -/
def threeBytes (s : Str) : Bytes :=
  s.flatMap fun c => [UInt8.ofNat (c.toNat / 65536), UInt8.ofNat (c.toNat / 256 % 256),
    UInt8.ofNat (c.toNat % 256)]

def ofThreeBytes : Bytes → Str
  | a :: b :: c :: rest =>
    Char.ofNat (a.toNat * 65536 + b.toNat * 256 + c.toNat) :: ofThreeBytes rest
  | _ => []

lemma ofThreeBytes_threeBytes (s : Str) : ofThreeBytes (threeBytes s) = s := by
  induction s with
  | nil => rfl
  | cons c s ih =>
    have hlt : c.toNat < 1114112 := by
      rcases c.valid with h | h
      · show c.val.toNat < _
        omega
      · exact h.2
    have hc : c.toNat / 65536 % 256 * 65536 + c.toNat / 256 % 256 % 256 * 256 +
        c.toNat % 256 % 256 = c.toNat := by omega
    have hcons : threeBytes (c :: s) = UInt8.ofNat (c.toNat / 65536) ::
        UInt8.ofNat (c.toNat / 256 % 256) :: UInt8.ofNat (c.toNat % 256) :: threeBytes s := rfl
    rw [hcons, ofThreeBytes, ih]
    simp only [UInt8.toNat_ofNat', hc, Char.ofNat_toNat]

/-- An issuer to run the formatter with.  Text stands for its bytes in all encodings, a digest is the
bytes themselves, dates are recognised by their length, and every certificate chain is accepted.  A
token is decoded to the given document, and a payload to the given object. -/
def IssuerEnvironment.sample (document : IssuerSigned) (mso : MobileSecurityObject)
    (datatypeConfig : DatatypeConfig) : IssuerEnvironment where
  decodeIssuerSigned _ := .ok document
  encodeIssuerSigned _ := .ok "token"
  decodeMso payload := .ok ⟨mso, payload⟩
  digest _ bytes := bytes
  base64UrlNoPadding _ := .ok "AA"
  base64 bytes := .ok (ofThreeBytes bytes)
  fromUtf8Lossy := ofThreeBytes
  isDateTime s := s.length = 20
  isFullDate s := s.length = 10
  debug _ := ""
  debugKeyType _ := ""
  encodePemChain _ := "chain"
  certificateValidator := ⟨fun _ _ => .ok ⟨"", 0, none, .error ""⟩, fun _ _ _ => .error ""⟩
  sigStructureData _ _ payload := payload
  verifier _ _ _ _ := .ok ()
  extractCborClaim _ := .error ""
  parseJwk _ := .ok ()
  datatypeConfig := datatypeConfig
  displayFloat _ := []
  utf8 := threeBytes
  decodeBase64 s := .ok (threeBytes s)
  decodeBase64Url _ := .ok []
  randomBytes _ := []
  embedItem item := .ok [UInt8.ofNat item.digestId]
  embedMso _ := .ok []
  keyAlgorithmType _ := some .eddsa
  publicKeyAsJwk _ := some fun _ => .ok (.okp ⟨none, none, none, "Ed25519", "AA", none⟩)
  displayKeyAlgorithm _ := ""
  resolveDid _ := .error ""
  debugJwk _ := ""
  pemChainIntoX5c _ := .ok [[]]
  now := 0
  msoExpiresIn := 0
  msoExpectedUpdateIn := 0
  keyAlgorithm := .ok .eddsa
  sign bytes := .ok bytes

end OneCore.Mdoc
