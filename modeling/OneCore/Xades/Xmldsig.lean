/-
# Signature elements

The types of a `ds:Signature` with its XAdES properties, and how they are deserialised from the
text of the element (`quick_xml`).  The deserialiser looks at local names only: neither a prefix
nor a namespace makes a difference to it.  A field is read from the direct child with its name;
children with other names are ignored, and a second child with the name is an error.

`fieldPath` is the place from which a field of a field is read.
-/
import OneCore.Xades.Document

namespace OneCore.Xades

open List OrderedTree

inductive DeError where
  | missingField (name : Str)
  | duplicateField (name : Str)
  | custom (msg : Str)
  | invalid (msg : Str)

/-- What the deserialiser makes of the character data in an element, and of a date. -/
structure QuickXml where
  text : List MarkupNode → Except DeError Str
  offsetDateTime : Str → Except DeError Timestamp

/-! ### Fields -/

variable (name : Str)

def named : MarkupNode → Bool
  | .node tag _ => tag.name = name
  | .leaf _ => false

variable (ts : List MarkupNode)

def fieldIndex : Option Nat :=
  ts.findIdx? (named name)

def asElement : MarkupNode → Option (Tag × List MarkupNode)
  | .node tag ts => some (tag, ts)
  | .leaf _ => none

def optionalField : Except DeError (Option (Tag × List MarkupNode)) :=
  match (ts.filter (named name)).filterMap asElement with
  | [] => .ok none
  | [child] => .ok (some child)
  | _ => .error (.duplicateField name)

def field : Except DeError (Tag × List MarkupNode) := do
  let child ← optionalField name ts
  okOr child (.missingField name)

/-- The children that a list is read from: they follow each other and are written with the same
prefix. -/
def optionalFields : Except DeError (List (Tag × List MarkupNode)) :=
  match (ts.filterMap asElement).dropWhile fun child => child.1.name ≠ name with
  | [] => .ok []
  | first :: rest => do
    let same := fun child : Tag × List MarkupNode =>
      child.1.pfx = first.1.pfx ∧ child.1.name = first.1.name
    ensure ((rest.dropWhile same).all fun child => child.1.name ≠ name) (.duplicateField name)
    return first :: rest.takeWhile same

/-- The children that a list with at least one member is read from. -/
def fields : Except DeError (List (Tag × List MarkupNode)) := do
  let children ← optionalFields name ts
  ensure (children ≠ []) (.missingField name)
  return children

def optionalAttribute (tag : Tag) : Except DeError (Option Str) :=
  match tag.attributes.filter fun a => a.name = name with
  | [] => .ok none
  | [a] => .ok (some a.value)
  | _ => .error (.duplicateField ('@' :: name))

def requiredAttribute (tag : Tag) : Except DeError Str := do
  let value ← optionalAttribute name tag
  okOr value (.missingField ('@' :: name))

/-- The place of a field of a field, by the names on the way to it. -/
def fieldPath : List Str → List MarkupNode → Option Position
  | [], _ => some []
  | name :: names, ts => do
    let i ← fieldIndex name ts
    let child ← ts[i]?
    let pos ← fieldPath names child.children
    return i :: pos

variable {tag : Tag} {name : Str} {children : List MarkupNode} {ts : List MarkupNode}

lemma fieldIndex_of_field (h : field name ts = .ok (tag, children)) :
    ∃ i, fieldIndex name ts = some i ∧ ts[i]? = some (.node tag children) ∧ tag.name = name := by
  simp only [field, optionalField, ok_iffs] at h
  obtain ⟨child, hflt, rfl⟩ := h
  induction ts with
  | nil => simp at hflt
  | cons t ts ih =>
    by_cases ht : named name t
    · cases t with
      | leaf token => simp [named] at ht
      | node tag' children' =>
        have hname : tag'.name = name := by simpa [named] using ht
        simp only [filter_cons_of_pos ht, filterMap_cons, asElement] at hflt
        split at hflt
        · next heq => cases heq
        · next heq =>
          obtain ⟨rfl, -⟩ := cons.inj heq
          obtain ⟨rfl, rfl⟩ := Prod.mk.inj (Option.some.inj (Except.ok.inj hflt))
          exact ⟨0, by simp [fieldIndex, findIdx?_cons, ht], rfl, hname⟩
        · cases hflt
    · rw [filter_cons_of_neg ht] at hflt
      obtain ⟨i, hi, hget, hname⟩ := ih hflt
      refine ⟨i + 1, ?_, hget, hname⟩
      rw [fieldIndex] at hi ⊢
      simp [findIdx?_cons, ht, hi]

lemma exists_fieldPath_cons (h : field name ts = .ok (tag, children))
    (names : List Str) {pos : Position} (hpos : fieldPath names children = some pos) :
    ∃ i, ts[i]? = some (.node tag children) ∧ fieldPath (name :: names) ts = some (i :: pos) := by
  obtain ⟨i, hi, hget, -⟩ := fieldIndex_of_field h
  refine ⟨i, hget, ?_⟩
  simp [fieldPath, hi, hget, OrderedTree.children, hpos]

/-! ### The types -/

def envelopedSignatureUri : Str := "http://www.w3.org/2000/09/xmldsig#enveloped-signature".toList
def excC14nUri : Str := "http://www.w3.org/2001/10/xml-exc-c14n#".toList
def incC14nUri : Str := "http://www.w3.org/TR/2001/REC-xml-c14n-20010315".toList
def xpathFilter2Uri : Str := "http://www.w3.org/2002/06/xmldsig-filter2".toList
def sha256DigestUri : Str := "http://www.w3.org/2001/04/xmlenc#sha256".toList
def sha384DigestUri : Str := "http://www.w3.org/2001/04/xmldsig-more#sha384".toList
def sha512DigestUri : Str := "http://www.w3.org/2001/04/xmlenc#sha512".toList
def signedPropertiesType : Str := "http://uri.etsi.org/01903#SignedProperties".toList

/-- A set operation of XPath Filter 2.0. -/
inductive XPathFilter2Op where
  | subtract (xpath : Str)
  | union (xpath : Str)
  | intersect (xpath : Str)
deriving DecidableEq

inductive Transform where
  | envelopedSignature
  | excC14n
  | inclC14n
  | xpathFilter2 (ops : List XPathFilter2Op)
deriving DecidableEq

structure Reference where
  uri : Str
  type : Option Str
  transforms : Option (List Transform)
  digestMethod : Str
  digestValue : Str
deriving DecidableEq

structure SignedInfo where
  canonicalizationMethod : Str
  signatureMethod : Str
  references : List Reference

structure CertDigest where
  digestMethod : Str
  digestValue : Str

structure Cert where
  certDigest : CertDigest
  issuerSerialV2 : Option Str

structure SignedSignatureProperties where
  signingTime : Timestamp
  /-- The certificates of `SigningCertificateV2`. -/
  certs : List Cert

structure DataObjectFormat where
  objectReference : Str
  mimeType : Str

structure SignedProperties where
  id : Str
  signedSignatureProperties : SignedSignatureProperties
  /-- The format in `SignedDataObjectProperties`. -/
  dataObjectFormat : DataObjectFormat

structure QualifyingProperties where
  target : Str
  signedProperties : SignedProperties

structure Signature where
  id : Option Str
  signedInfo : SignedInfo
  signatureValue : Str
  /-- The certificates of every `X509Data` of the key information. -/
  x509Data : List (List Str)
  /-- The properties in the `Object`. -/
  qualifyingProperties : QualifyingProperties

/-! ### Deserialisation -/

variable (q : QuickXml)

def readAlgorithm (name : String) (ts : List MarkupNode) : Except DeError Str := do
  let (tag, _) ← field name.toList ts
  requiredAttribute "Algorithm".toList tag

def readText (name : String) (ts : List MarkupNode) : Except DeError Str := do
  let (_, children) ← field name.toList ts
  q.text children

variable (child : Tag × List MarkupNode)

def readXPathFilterRaw : Except DeError (Str × Str) := do
  let filter ← requiredAttribute "Filter".toList child.1
  let xpath ← q.text child.2
  return (filter, xpath)

def xpathFilter2Op (raw : Str × Str) : Except DeError XPathFilter2Op :=
  if raw.1 = "subtract".toList then .ok (.subtract raw.2)
  else if raw.1 = "union".toList then .ok (.union raw.2)
  else if raw.1 = "intersect".toList then .ok (.intersect raw.2)
  else .error (.custom ("unsupported XPath Filter 2.0 operation: ".toList ++ raw.1))

def readTransform : Except DeError Transform := do
  let algorithm ← requiredAttribute "Algorithm".toList child.1
  let filters ← optionalFields "XPath".toList child.2
  let filters ← filters.mapM (readXPathFilterRaw q)
  if algorithm = envelopedSignatureUri then return .envelopedSignature
  else if algorithm = excC14nUri then return .excC14n
  else if algorithm = incC14nUri then return .inclC14n
  else if algorithm = xpathFilter2Uri then
    let ops ← filters.mapM xpathFilter2Op
    return .xpathFilter2 ops
  else .error (.custom ("unsupported transform algorithm: ".toList ++ algorithm))

def readTransforms : Option (Tag × List MarkupNode) → Except DeError (Option (List Transform))
  | none => .ok none
  | some (_, children) => do
    let transforms ← fields "Transform".toList children
    let transforms ← transforms.mapM (readTransform q)
    return some transforms

def readReference : Except DeError Reference := do
  let uri ← requiredAttribute "URI".toList child.1
  let type ← optionalAttribute "Type".toList child.1
  let transforms ← optionalField "Transforms".toList child.2
  let transforms ← readTransforms q transforms
  let digestMethod ← readAlgorithm "DigestMethod" child.2
  let digestValue ← readText q "DigestValue" child.2
  return { uri, type, transforms, digestMethod, digestValue }

def readSignedInfo : Except DeError SignedInfo := do
  let canonicalizationMethod ← readAlgorithm "CanonicalizationMethod" child.2
  let signatureMethod ← readAlgorithm "SignatureMethod" child.2
  let references ← fields "Reference".toList child.2
  let references ← references.mapM (readReference q)
  return { canonicalizationMethod, signatureMethod, references }

def readX509Data : Except DeError (List Str) := do
  let certificates ← fields "X509Certificate".toList child.2
  certificates.mapM fun certificate => q.text certificate.2

def readCert : Except DeError Cert := do
  let (_, digest) ← field "CertDigest".toList child.2
  let digestMethod ← readAlgorithm "DigestMethod" digest
  let digestValue ← readText q "DigestValue" digest
  let serial ← optionalField "IssuerSerialV2".toList child.2
  match serial with
  | none => return ⟨⟨digestMethod, digestValue⟩, none⟩
  | some (_, serial) =>
    let serial ← q.text serial
    return ⟨⟨digestMethod, digestValue⟩, some serial⟩

def readSignedProperties : Except DeError SignedProperties := do
  let id ← requiredAttribute idAttribute child.1
  let (_, properties) ← field "SignedSignatureProperties".toList child.2
  let signingTime ← readText q "SigningTime" properties
  let signingTime ← q.offsetDateTime signingTime
  let (_, certificates) ← field "SigningCertificateV2".toList properties
  let certs ← fields "Cert".toList certificates
  let certs ← certs.mapM (readCert q)
  let (_, dataObjects) ← field "SignedDataObjectProperties".toList child.2
  let (format, mime) ← field "DataObjectFormat".toList dataObjects
  let objectReference ← requiredAttribute "ObjectReference".toList format
  let mimeType ← readText q "MimeType" mime
  return ⟨id, ⟨signingTime, certs⟩, ⟨objectReference, mimeType⟩⟩

/-- The way from a signature to its signed information. -/
def signedInfoPath : List Str := ["SignedInfo".toList]

def signedPropertiesPath : List Str :=
  ["Object".toList, "QualifyingProperties".toList, "SignedProperties".toList]

def readSignature (tag : Tag) (children : List MarkupNode) : Except DeError Signature := do
  let id ← optionalAttribute idAttribute tag
  let signedInfo ← field "SignedInfo".toList children
  let signedInfo ← readSignedInfo q signedInfo
  let signatureValue ← readText q "SignatureValue" children
  let (_, keyInfo) ← field "KeyInfo".toList children
  let x509Data ← fields "X509Data".toList keyInfo
  let x509Data ← x509Data.mapM (readX509Data q)
  let (_, object) ← field "Object".toList children
  let (properties, signed) ← field "QualifyingProperties".toList object
  let target ← requiredAttribute "Target".toList properties
  let signedProperties ← field "SignedProperties".toList signed
  let signedProperties ← readSignedProperties q signedProperties
  return ⟨id, signedInfo, signatureValue, x509Data, ⟨target, signedProperties⟩⟩

/-! ### What was read, and where -/

/-- The identifier, the signed information and the signed properties of a deserialised signature,
each with the child it was read from. -/
structure SignatureSource (q : QuickXml) (tag : Tag) (children : List MarkupNode)
    (signature : Signature) : Prop where
  id : optionalAttribute idAttribute tag = .ok signature.id
  signedInfo : ∃ i siTag siChildren, fieldPath signedInfoPath children = some [i] ∧
    children[i]? = some (.node siTag siChildren) ∧ siTag.name = "SignedInfo".toList ∧
    readSignedInfo q (siTag, siChildren) = .ok signature.signedInfo
  signedProperties : ∃ pos spTag spChildren, fieldPath signedPropertiesPath children = some pos ∧
    treeAt children pos = some (.node spTag spChildren) ∧
    readSignedProperties q (spTag, spChildren) = .ok signature.qualifyingProperties.signedProperties

/-- A success of the deserialiser, taken apart. -/
lemma signatureSource_of_readSignature {signature : Signature}
    (h : readSignature q tag children = .ok signature) :
    SignatureSource q tag children signature := by
  simp only [readSignature, ok_iffs] at h
  obtain ⟨id, hid, ⟨siTag, siChildren⟩, hsi, signedInfo, hsign, value, -, ⟨_, keyInfo⟩, -,
    data, -, x509Data, -, ⟨_, object⟩, hobj, ⟨_, signed⟩, hprop, target, -,
    ⟨spTag, spChildren⟩, hsp, signedProperties, hread, rfl⟩ := h
  refine ⟨hid, ?_, ?_⟩
  · obtain ⟨i, hget, hpath⟩ := exists_fieldPath_cons hsi [] rfl
    obtain ⟨-, -, -, hname⟩ := fieldIndex_of_field hsi
    exact ⟨i, siTag, siChildren, hpath, hget, hname, hsign⟩
  · obtain ⟨i₃, hget₃, hpath₃⟩ := exists_fieldPath_cons hsp [] rfl
    obtain ⟨i₂, hget₂, hpath₂⟩ := exists_fieldPath_cons hprop _ hpath₃
    obtain ⟨i₁, hget₁, hpath₁⟩ := exists_fieldPath_cons hobj _ hpath₂
    refine ⟨[i₁, i₂, i₃], spTag, spChildren, hpath₁, ?_, hread⟩
    simp [treeAt, hget₁, subtree?, hget₂, hget₃]

/-- Two readings of the identifier of an element: what is found without a namespace is what is
deserialised. -/
lemma optionalAttribute_of_attribute {namespaces : List Namespace} {e : Element}
    (h : tag.attributes.mapM (resolveAttribute namespaces) = .ok e.attributes) {value : Str}
    {read : Option Str} (hval : e.attribute name = some value)
    (hread : optionalAttribute name tag = .ok read) : read = some value := by
  obtain ⟨a, ha, hname, rfl⟩ := exists_rawAttribute h hval
  have hmem : a ∈ tag.attributes.filter fun a => a.name = name := by simp [ha, hname]
  unfold optionalAttribute at hread
  split at hread
  · next hnil =>
    rw [hnil] at hmem
    cases hmem
  · next b hone =>
    rw [hone] at hmem
    obtain rfl := mem_singleton.1 hmem
    exact (Except.ok.inj hread).symm
  · cases hread

end OneCore.Xades
