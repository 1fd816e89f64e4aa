/-
# Enveloped signatures

How a signed document is taken apart and its signature verified (`proto/xades/mod.rs`).

`decomposeDocument` cuts the first signature out of the document; what is left is deserialised as
the content, and the signature from its own text.  `verifySignature` works on the deserialised
signature and on the document as a whole, in which it looks the signed parts up again.  Everything
that an accepted signature has established is in `Accepted`.

The hash functions, the certificates and the public keys are functions of an `Environment`.
-/
import OneCore.Xades.C14n
import OneCore.Xades.Xmldsig
import OneCore.Model.Verification

namespace OneCore.Xades

open OrderedTree Option Document

/-! ### Algorithms -/

inductive DigestAlgorithm where
  | sha256
  | sha384
  | sha512

/-- The signature algorithms that are verified with the key of the certificate directly. -/
inductive SpkiSignatureAlgorithm where
  | rsaPkcs1Sha256
  | rsaPkcs1Sha384
  | rsaPkcs1Sha512
  | rsaPssSha256
  | rsaPssSha384
  | rsaPssSha512
  | ecdsaP384Sha384

inductive SignatureSuite where
  | es256
  | edDSA
  | rsaSha256

def SpkiSignatureAlgorithm.fromXmldsigUri (uri : Str) : Option SpkiSignatureAlgorithm :=
  if uri = "http://www.w3.org/2001/04/xmldsig-more#rsa-sha256".toList then some .rsaPkcs1Sha256
  else if uri = "http://www.w3.org/2001/04/xmldsig-more#rsa-sha384".toList then
    some .rsaPkcs1Sha384
  else if uri = "http://www.w3.org/2001/04/xmldsig-more#rsa-sha512".toList then
    some .rsaPkcs1Sha512
  else if uri = "http://www.w3.org/2007/05/xmldsig-more#sha256-rsa-MGF1".toList then
    some .rsaPssSha256
  else if uri = "http://www.w3.org/2007/05/xmldsig-more#sha384-rsa-MGF1".toList then
    some .rsaPssSha384
  else if uri = "http://www.w3.org/2007/05/xmldsig-more#sha512-rsa-MGF1".toList then
    some .rsaPssSha512
  else if uri = "http://www.w3.org/2001/04/xmldsig-more#ecdsa-sha384".toList then
    some .ecdsaP384Sha384
  else none

def SignatureSuite.tryFromSigUri (uri : Str) : Option SignatureSuite :=
  if uri = "http://www.w3.org/2001/04/xmldsig-more#ecdsa-sha256".toList then some .es256
  else if uri = "http://www.w3.org/2021/04/xmldsig-more#eddsa-ed25519".toList then some .edDSA
  else if uri = "http://www.w3.org/2001/04/xmldsig-more#rsa-sha256".toList then some .rsaSha256
  else none

/-! ### Errors and environment -/

inductive Error where
  | missingEnvelopedSignature
  | unsupportedSuite (msg : Str)
  | invalidTransformsInReference (msg : Str)
  | incorrectDigest (msg : Str)
  | signingCertificateNotFound (digest : Str)
  | invalidSignature (msg : Str)
  | roXMLParsing (e : ParseError)
  | base64Encoding (msg : Str)
  | c14n (e : C14nError)
  | hasherError (msg : Str)
  | serdeDe (e : DeError)
  /-- An error of this module or of another, with what was being done. -/
  | nested (context : Str) (source : Error)
  | library (msg : Str)

/-- What the verification of a signature relies on; `Key` is the type of public keys. -/
structure Environment (Key : Type) where
  quickXml : QuickXml
  /-- A digest, in base 64. -/
  hashBase64 : DigestAlgorithm → Bytes → Except Str Str
  /-- Decode base 64, where white space is ignored. -/
  decodeBase64 : Str → Except Str Bytes
  derChainIntoPemChain : List Bytes → Str
  /-- The public key of the leaf of a chain that passed the checks. -/
  parsePemChain : Str → CertificateValidationOptions → Except Str Key
  /-- The public key in the leaf certificate of a chain. -/
  leafSubjectPki : Str → Except Str Key
  spkiVerify : SpkiSignatureAlgorithm → Key → Bytes → Bytes → Except Str Unit
  verify : Key → Bytes → Bytes → Except Str Unit

def utf8 (s : Str) : Bytes := s.flatMap String.utf8EncodeChar

/-! ### Taking a document apart -/

/-- A signature, and the document that it was found in. -/
structure EnvelopedSignature where
  signature : Signature
  unverifiedDocument : Markup

/-- A signed document: its signature and its content, of which nothing is verified yet. -/
structure SignedXml (T : Type) where
  envelope : EnvelopedSignature
  content : T

def deserializeSignature (q : QuickXml) (xml : Markup) (pos : Position) :
    Except DeError Signature :=
  match treeAt xml.nodes pos with
  | some (.node tag children) => readSignature q tag children
  | _ => .error (.invalid [])

/-- Take the first signature out of a document. -/
def decomposeDocument {T : Type} (q : QuickXml) (deserialize : Markup → Except DeError T)
    (xml : Markup) : Except Error (SignedXml T) := do
  let doc ← (parse xml).mapError .roXMLParsing
  let signatureNode ← okOr (findSignature doc none)
    (.nested "decomposing signed document".toList .missingEnvelopedSignature)
  let contentXml := xml.cut signatureNode
  let signature ← (deserializeSignature q xml signatureNode).mapError .serdeDe
  let content ← (deserialize contentXml).mapError .serdeDe
  return ⟨⟨signature, xml⟩, content⟩

/-! ### References -/

/-- The canonicalisation of an algorithm identifier. -/
def c14nModeFromUri (uri : Str) : Except Error C14nMode :=
  if uri = excC14nUri then .ok .exclusive
  else if uri = incC14nUri then .ok .inclusive
  else .error (.unsupportedSuite ("unsupported canonicalization algorithm: ".toList ++ uri))

def resolveHasher (digestUri : Str) : Except Error DigestAlgorithm :=
  if digestUri = sha256DigestUri then .ok .sha256
  else if digestUri = sha384DigestUri then .ok .sha384
  else if digestUri = sha512DigestUri then .ok .sha512
  else .error (.unsupportedSuite ("unsupported digest algorithm URI: ".toList ++ digestUri))

/-- How signatures are left out of what is digested. -/
inductive SignatureExclusion where
  /-- The signatures with the identifier of the one that is verified. -/
  | byId
  /-- All signatures. -/
  | all

def trim (s : Str) : Str :=
  ((s.dropWhile isWhiteSpace).reverse.dropWhile isWhiteSpace).reverse

def firstSubtract (ops : List XPathFilter2Op) : Option Str :=
  ops.findSome? fun op =>
    match op with
    | .subtract xpath => some xpath
    | _ => none

/-- What a chain of transforms leaves out, and how the rest is canonicalised. -/
def interpretRefTransforms (transforms : List Transform) (signedInfoC14n : Str) :
    Except Error (Option SignatureExclusion × C14nMode) :=
  match transforms with
  | [] => do
    let mode ← c14nModeFromUri signedInfoC14n
    return (none, mode)
  | [.excC14n] => .ok (none, .exclusive)
  | [.inclC14n] => .ok (none, .inclusive)
  | [.envelopedSignature, .excC14n] => .ok (some .byId, .exclusive)
  | [.envelopedSignature, .inclC14n] => .ok (some .byId, .inclusive)
  | [.xpathFilter2 ops, .excC14n] => do
    let subtract ← okOr (firstSubtract ops)
      (.invalidTransformsInReference "XPath Filter 2.0 has no subtract operation".toList)
    let xpath := trim subtract
    if "Signature".toList <:+ xpath ∧ "descendant".toList <:+: xpath then
      return (some .all, .exclusive)
    else
      .error (.invalidTransformsInReference
        ("unsupported XPath Filter 2.0 expression: ".toList ++ xpath))
  | _ => .error (.invalidTransformsInReference "unsupported transform chain".toList)

/-- The elements that are left out of what is digested. -/
def skipOf (exclusion : Option SignatureExclusion) (signatureId : Option Str) :
    Option SkipElement :=
  exclusion.map fun e =>
    ⟨xmldsigNs, signatureName,
      match e with
      | .byId => signatureId
      | .all => none⟩

def canonicalizeUri (xml : Markup) (uri : Str) (mode : C14nMode) (skip : Option SkipElement) :
    Except Error Str :=
  match uri with
  | [] => (canonicalize xml mode skip).mapError .c14n
  | c :: id =>
    if c = '#' then (canonicalizeById xml mode id skip).mapError .c14n
    else .error (.invalidSignature ("unsupported Reference URI: ".toList ++ uri))

def digestedText (xml : Markup) (reference : Reference) (signatureId : Option Str)
    (signedInfoC14n : Str) : Except Error Str := do
  let (exclusion, mode) ← interpretRefTransforms (reference.transforms.getD []) signedInfoC14n
  canonicalizeUri xml reference.uri mode (skipOf exclusion signatureId)

section Verification

variable {Key : Type} (env : Environment Key)

def verifyReferenceDigest (xml : Markup) (reference : Reference) (signatureId : Option Str)
    (signedInfoC14n : Str) : Except Error Unit := do
  let canonical ← digestedText xml reference signatureId signedInfoC14n
  let hasher ← (resolveHasher reference.digestMethod).mapError
    (.nested "resolving reference digest algorithm".toList)
  let digest ← (env.hashBase64 hasher (utf8 canonical)).mapError .hasherError
  ensure (digest = reference.digestValue)
    (.incorrectDigest (if reference.uri = [] then "document reference".toList
      else "reference ".toList ++ reference.uri))

/-! ### Certificates and signatures -/

/-- The certificates of the key information, if the signed properties name the first of them. -/
def findSigningCertificateChain (sig : Signature) : Except Error (List Str) := do
  let certRef ← okOr
    sig.qualifyingProperties.signedProperties.signedSignatureProperties.certs.head?
    (.invalidSignature "SigningCertificateV2 contains no Cert elements".toList)
  let certHasher ← resolveHasher certRef.certDigest.digestMethod
  let expectedDigest := certRef.certDigest.digestValue
  match sig.x509Data with
  | [x509Certificates] =>
    let leaf ← okOr x509Certificates.head?
      (.invalidSignature "ds:X509Data entry contains no certificates".toList)
    let der ← (env.decodeBase64 leaf).mapError .base64Encoding
    let digest ← (env.hashBase64 certHasher der).mapError .hasherError
    ensure (digest = expectedDigest) (.signingCertificateNotFound expectedDigest)
    return x509Certificates
  | data => .error (.invalidSignature ("ds:X509Data expected to contain 1 entry, found ".toList ++
      (toString data.length).toList))

def wrappedCertsIntoPemChain (certs : List Str) : Except Error Str := do
  let ders ← certs.mapM fun cert => (env.decodeBase64 cert).mapError .base64Encoding
  return env.derChainIntoPemChain ders

structure VerifiedReference where
  uri : Str
  type : Option Str
  transforms : List Transform

/-- What the caller learns of a verified signature. -/
structure XAdESVerified where
  signerChainPem : Str
  signingTime : Timestamp
  canonicalizationMethod : Str
  references : List VerifiedReference

def VerifiedReference.of (reference : Reference) : VerifiedReference :=
  ⟨reference.uri, reference.type, reference.transforms.getD []⟩

def signerChainOptions : CertificateValidationOptions :=
  (CertificateValidationOptions.signatureAndValidity none).withVerifyOnlyKeys

def verifyMessage (spkiAlgorithm : Option SpkiSignatureAlgorithm) (pemChain : Str) (parsed : Key)
    (message signature : Bytes) : Except Error Unit :=
  match spkiAlgorithm with
  | some algorithm => do
    let subjectPki ← (env.leafSubjectPki pemChain).mapError fun msg =>
      .nested "parsing signer certificate".toList (.library msg)
    (env.spkiVerify algorithm subjectPki message signature).mapError .invalidSignature
  | none => (env.verify parsed message signature).mapError fun msg =>
      .nested "verifying document signature".toList (.library msg)

def verifySignature (signed : EnvelopedSignature) : Except Error XAdESVerified := do
  let sig := signed.signature
  let signedInfo := sig.signedInfo
  let expectedTarget := sig.id.map ('#' :: ·)
  ensure (expectedTarget = some sig.qualifyingProperties.target)
    (.invalidSignature ("QualifyingProperties Target mismatch: expected ".toList ++
      expectedTarget.getD "<missing ds:Signature Id>".toList ++ ", got ".toList ++
      sig.qualifyingProperties.target))
  let spkiAlgorithm := SpkiSignatureAlgorithm.fromXmldsigUri signedInfo.signatureMethod
  ensure (spkiAlgorithm ≠ none ∨ SignatureSuite.tryFromSigUri signedInfo.signatureMethod ≠ none)
    (.unsupportedSuite ("unknown SignatureMethod algorithm: ".toList ++ signedInfo.signatureMethod))
  let signedInfoC14n := signedInfo.canonicalizationMethod
  forM signedInfo.references fun reference =>
    verifyReferenceDigest env signed.unverifiedDocument reference sig.id signedInfoC14n
  let signingChain ← (findSigningCertificateChain env sig).mapError
    (.nested "matching signing certificate".toList)
  let pemChain ← (wrappedCertsIntoPemChain env signingChain).mapError
    (.nested "parsing signer X509Data".toList)
  let parsed ← (env.parsePemChain pemChain signerChainOptions).mapError fun msg =>
    .nested "validating signer certificate chain".toList (.library msg)
  let mode ← c14nModeFromUri signedInfoC14n
  let siCanonical ← (canonicalizeSignatureSubtree signed.unverifiedDocument mode sig.id xmldsigNs
    "SignedInfo".toList).mapError fun e => .nested "canonicalizing SignedInfo".toList (.c14n e)
  let sigValueBytes ← (env.decodeBase64 sig.signatureValue).mapError fun msg =>
    .nested "decoding signature value".toList (.base64Encoding msg)
  verifyMessage env spkiAlgorithm pemChain parsed (utf8 siCanonical) sigValueBytes
  return {
    signerChainPem := pemChain
    signingTime :=
      sig.qualifyingProperties.signedProperties.signedSignatureProperties.signingTime
    canonicalizationMethod := signedInfoC14n
    references := signedInfo.references.map .of }

end Verification

/-! ### What an accepted document has established -/

/-- The element that a document's signature is checked against: the first signed information in
the first signature with the identifier. -/
def verifiedPosition (doc : Document) (signatureId : Option Str) : Option Position := do
  let sig ← findSignature doc signatureId
  findBelow doc sig ⟨some xmldsigNs, "SignedInfo".toList⟩

/-- The element that a field of the signature at a position is read from. -/
def readPosition (xml : Markup) (signatureNode : Position) (names : List Str) :
    Option Position := do
  let t ← treeAt xml.nodes signatureNode
  let below ← fieldPath names t.children
  return signatureNode ++ below

variable {Key : Type}

/-- A public key of the leaf certificate of a chain. -/
def IsSignerKey (env : Environment Key) (pemChain : Str) (key : Key) : Prop :=
  env.parsePemChain pemChain signerChainOptions = .ok key ∨ env.leafSubjectPki pemChain = .ok key

/-- A setting where signatures cannot be forged: under a key nothing is accepted but what its
owner signed. -/
def Environment.Unforgeable (env : Environment Key)
    (Signed : Key → Bytes → Prop) : Prop :=
  (∀ algorithm key message signature,
      env.spkiVerify algorithm key message signature = .ok () → Signed key message) ∧
    ∀ key message signature, env.verify key message signature = .ok () → Signed key message

/-- What is known of a document that was taken apart and whose signature was verified: the
document as it is read, the place of the signature, and its deserialised form. -/
structure Accepted {Key : Type} (env : Environment Key) (xml : Markup) (doc : Document)
    (signatureNode : Position) (sig : Signature) (verified : XAdESVerified) : Prop where
  parsed : parse xml = .ok doc
  isFirst : findSignature doc none = some signatureNode
  deserialized : ∃ tag children, treeAt xml.nodes signatureNode = some (.node tag children) ∧
    SignatureSource env.quickXml tag children sig
  hasId : ∃ id, sig.id = some id
  digests : ∀ reference ∈ sig.signedInfo.references,
    verifyReferenceDigest env xml reference sig.id sig.signedInfo.canonicalizationMethod = .ok ()
  signed : ∃ mode target algorithm parsed value,
    c14nModeFromUri sig.signedInfo.canonicalizationMethod = .ok mode ∧
      verifiedPosition doc sig.id = some target ∧
      env.parsePemChain verified.signerChainPem signerChainOptions = .ok parsed ∧
      verifyMessage env algorithm verified.signerChainPem parsed
        (utf8 (canonicalizeSubtree doc target mode none)) value = .ok ()
  references : verified.references = sig.signedInfo.references.map .of
  signingTime : verified.signingTime =
    sig.qualifyingProperties.signedProperties.signedSignatureProperties.signingTime

section Accepted

variable {T : Type} {env : Environment Key} {deserialize : Markup → Except DeError T}
  {xml : Markup} {doc : Document} {signatureNode : Position} {sig : Signature}
  {signed : SignedXml T} {verified : XAdESVerified}

lemma canonicalizeSignatureSubtree_eq_ok {mode : C14nMode} {id : Option Str} {canonical : Str}
    (hdoc : parse xml = .ok doc)
    (h : canonicalizeSignatureSubtree xml mode id xmldsigNs "SignedInfo".toList = .ok canonical) :
    ∃ target, verifiedPosition doc id = some target ∧
      canonical = canonicalizeSubtree doc target mode none := by
  simp only [canonicalizeSignatureSubtree, ok_iffs] at h
  obtain ⟨doc', hdoc', pos, hpos, target, htarget, rfl⟩ := h
  obtain rfl := ok_unique hdoc hdoc'
  refine ⟨target, ?_, rfl⟩
  simp only [verifiedPosition, hpos, bind_eq_bind, bind_some, htarget]

/-- Everything that the decomposition and the verification of a document establish. -/
theorem accepted_of_verify (env : Environment Key)
    (hsgn : decomposeDocument env.quickXml deserialize xml = .ok signed)
    (hvfd : verifySignature env signed.envelope = .ok verified) :
    ∃ doc signatureNode,
      Accepted env xml doc signatureNode signed.envelope.signature verified ∧
        deserialize (xml.cut signatureNode) = .ok signed.content := by
  simp only [decomposeDocument, ok_iffs] at hsgn
  obtain ⟨doc, hdoc, node, hnode, signature, hsrc, content, hcont, rfl⟩ := hsgn
  simp only [verifySignature, ok_iffs] at hvfd
  obtain ⟨_, htarget, _, -, _, hdigs, chain, -, pem, -, parsed, hparsed, mode, hmode, canonical,
    hcan, value, -, _, hmsg, rfl⟩ := hvfd
  obtain ⟨target, hpos, rfl⟩ := canonicalizeSignatureSubtree_eq_ok hdoc hcan
  refine ⟨doc, node, ⟨hdoc, hnode, ?_, ?_, forM_eq_ok.1 hdigs,
    ⟨mode, target, _, parsed, value, hmode, hpos, hparsed, hmsg⟩, rfl, rfl⟩, hcont⟩
  · unfold deserializeSignature at hsrc
    split at hsrc
    · next tag children htree =>
      exact ⟨tag, children, htree, signatureSource_of_readSignature _ hsrc⟩
    · cases hsrc
  obtain ⟨id, hid, -⟩ := map_eq_some_iff.1 htarget
  exact ⟨id, hid⟩

end Accepted

lemma Environment.Unforgeable.exists_signed {env : Environment Key}
    {Signed : Key → Bytes → Prop} (h : env.Unforgeable Signed)
    {algorithm : Option SpkiSignatureAlgorithm} {pemChain : Str} {parsed : Key}
    {message value : Bytes} (hparsed : env.parsePemChain pemChain signerChainOptions = .ok parsed)
    (hmsg : verifyMessage env algorithm pemChain parsed message value = .ok ()) :
    ∃ key, IsSignerKey env pemChain key ∧ Signed key message := by
  cases algorithm with
  | none =>
    simp only [verifyMessage, mapError_eq_ok] at hmsg
    exact ⟨parsed, .inl hparsed, h.2 _ _ _ hmsg⟩
  | some algorithm =>
    simp only [verifyMessage, ok_iffs] at hmsg
    obtain ⟨key, hkey, hvfy⟩ := hmsg
    exact ⟨key, .inr hkey, h.1 _ _ _ _ hvfy⟩

/-! ### Sample documents -/

/-- An element with the tags of a given prefix and name. -/
def elem (pfx name : String) (namespaces : List Namespace) (attributes : List (String × Str))
    (children : List MarkupNode) : MarkupNode :=
  .node {
    pfx := pfx.toList
    name := name.toList
    namespaces := namespaces
    attributes := attributes.map fun a => ⟨[], a.1.toList, a.2⟩
    startTag := "<".toList ++ qualifiedName pfx.toList name.toList ++
      namespaces.flatMap (fun ns => (⟨ns.name.getD [], ns.uri⟩ : NsDecl).render) ++
      attributes.flatMap (fun a => " ".toList ++ a.1.toList ++ "=\"".toList ++ a.2 ++
        "\"".toList) ++ ">".toList
    endTag := "</".toList ++ qualifiedName pfx.toList name.toList ++ ">".toList } children

def plainText (s : Str) : MarkupNode :=
  .leaf (.text (s.map fun c =>
    if c = '<' then .reference "&lt;".toList c
    else if c = '>' then .reference "&gt;".toList c
    else if c = '&' then .reference "&amp;".toList c
    else .raw c))

def sampleReference (attributes : List (String × Str)) (transforms : List Str) (digest : Str) :
    MarkupNode :=
  elem "ds" "Reference" [] attributes
    [elem "ds" "Transforms" []  []
        (transforms.map fun uri => elem "ds" "Transform" [] [("Algorithm", uri)] []),
      elem "ds" "DigestMethod" [] [("Algorithm", sha256DigestUri)] [],
      elem "ds" "DigestValue" [] [] [plainText digest]]

/-- A reference to the whole document without its signature. -/
def sampleDocumentReference (digest : Str) : MarkupNode :=
  sampleReference [("URI", [])] [envelopedSignatureUri, excC14nUri] digest

def sampleSignedInfo (references : List MarkupNode) : MarkupNode :=
  elem "ds" "SignedInfo" [] []
    ([elem "ds" "CanonicalizationMethod" [] [("Algorithm", excC14nUri)] [],
      elem "ds" "SignatureMethod" []
        [("Algorithm", "http://www.w3.org/2001/04/xmldsig-more#ecdsa-sha256".toList)] []] ++
      references)

def sampleSignedProperties (id time : Str) : MarkupNode :=
  elem "" "SignedProperties" [] [("Id", id)]
    [elem "" "SignedSignatureProperties" [] []
        [elem "" "SigningTime" [] [] [plainText time],
          elem "" "SigningCertificateV2" [] []
            [elem "" "Cert" [] []
              [elem "" "CertDigest" [] []
                [elem "ds" "DigestMethod" [] [("Algorithm", sha256DigestUri)] [],
                  elem "ds" "DigestValue" [] [] [plainText "cert".toList]]]]],
      elem "" "SignedDataObjectProperties" [] []
        [elem "" "DataObjectFormat" [] [("ObjectReference", "#r".toList)]
          [elem "" "MimeType" [] [] [plainText "text/xml".toList]]]]

/-- A signature with the identifier `s`, with the given children before its signature value. -/
def sampleSignature (infos : List MarkupNode) (properties : MarkupNode) : MarkupNode :=
  elem "ds" "Signature" [] [("Id", "s".toList)]
    (infos ++
      [elem "ds" "SignatureValue" [] [] [plainText "value".toList],
        elem "ds" "KeyInfo" [] []
          [elem "ds" "X509Data" [] []
            [elem "ds" "X509Certificate" [] [] [plainText "cert".toList]]],
        elem "ds" "Object" [] []
          [elem "" "QualifyingProperties" [] [("Target", "#s".toList)] [properties]]])

def sampleDocument (children : List MarkupNode) : Markup :=
  ⟨[], [elem "" "r" [⟨some "ds".toList, xmldsigNs⟩] [] children]⟩

/-- The character data of an element, and every date read as the same one. -/
def sampleQuickXml : QuickXml where
  text children := .ok (children.flatMap fun t => (charData? t).elim [] (textValue false))
  offsetDateTime _ := .ok 0

/-- An environment in which a digest is the digested text itself, so that no two texts have the
same digest, and in which the only key signed one message and nothing else. -/
def sampleEnvironment (message : Str) : Environment Unit where
  quickXml := sampleQuickXml
  hashBase64 _ bytes := .ok (bytes.map fun b => Char.ofNat b.toNat)
  decodeBase64 s := .ok (utf8 s)
  derChainIntoPemChain _ := []
  parsePemChain _ _ := .ok ()
  leafSubjectPki _ := .ok ()
  spkiVerify _ _ _ _ := .error []
  verify _ m _ := if m = utf8 message then .ok () else .error []

/-- What the signer of a document with the identifier `s` signed. -/
def sampleMessage (xml : Markup) : Str :=
  match canonicalizeSignatureSubtree xml .exclusive (some "s".toList) xmldsigNs
    "SignedInfo".toList with
  | .ok canonical => canonical
  | .error _ => []

def accepts (message : Str) (xml : Markup) : Bool :=
  Except.okAnd (decomposeDocument sampleQuickXml (fun _ => .ok ()) xml) fun signed =>
    Except.okAnd (verifySignature (sampleEnvironment message) signed.envelope) fun _ => true

lemma exists_of_accepts {message : Str} {xml : Markup} (h : accepts message xml = true) :
    ∃ (signed : SignedXml Unit) (verified : XAdESVerified),
      decomposeDocument sampleQuickXml (fun _ => .ok ()) xml = .ok signed ∧
        verifySignature (sampleEnvironment message) signed.envelope = .ok verified := by
  obtain ⟨signed, hsgn, h⟩ := Except.okAnd_eq_true_iff.1 h
  obtain ⟨verified, hvfd, -⟩ := Except.okAnd_eq_true_iff.1 h
  exact ⟨signed, verified, hsgn, hvfd⟩

lemma sampleEnvironment_unforgeable (message : Str) :
    (sampleEnvironment message).Unforgeable fun _ m => m = utf8 message := by
  refine ⟨fun _ _ _ _ h => (by cases h), fun key m value h => ?_⟩
  by_contra hm
  simp [sampleEnvironment, hm] at h

end OneCore.Xades
