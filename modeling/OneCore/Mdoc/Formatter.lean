/-
# Reading a mobile document

Two routines read the token of a mobile document.  `extractCredentials` turns it into a
`DetailCredential`; `parseCredential` turns it into the flat list of claims that the wallet
stores.  Both parse the issuer's certificate chain, decode the mobile security object, compare
the digests of the items with it and convert the items.

This file has the model of both and, for each, the lemma that says what a successful call has
established: where every returned claim comes from, and which checks it has passed.
-/
import OneCore.Mdoc.Model

namespace OneCore.Mdoc

open List

variable (env : Environment)

/-! ### The values of the items -/

def tdateTag : Nat := 0

def fullDateTag : Nat := 1004

/-- The kinds of CBOR values that an array may mix. -/
def isSameType : CborValue → CborValue → Bool
  | .array _, .array _ => true
  | .map _, .map _ => true
  | .text _, .text _ => true
  | .bool _, .bool _ => true
  | .bytes _, .bytes _ => true
  | .integer _, .integer _ => true
  | .integer _, .float _ => true
  | .float _, .integer _ => true
  | .float _, .float _ => true
  | .tag a _, .tag b _ => a = b
  | _, _ => false

def handleBytes (bytes : Bytes) : Except FormatterError JsonValue := do
  let value ← env.base64 bytes
  return .string ("data:image/jpeg;base64,".toList ++ value)

/-- An array of two that mixes its types is a picture: its media type and its bytes. -/
def handlePicture (array : List CborValue) : Except FormatterError JsonValue :=
  match array with
  | [dataType, bytes] => do
    let dataTypeValue ← okOr dataType.asText
      (.couldNotExtractCredentials "Expected String value for key")
    let bytes ← okOr bytes.asBytes (.couldNotExtractCredentials "Not a byte array")
    return .string (dataTypeValue ++ ',' :: env.fromUtf8Lossy bytes)
  | _ => .error (.couldNotExtractCredentials "Unhandled array")

/-- A tagged text, checked to be a date of the kind that the tag says. -/
def handleDate (value : CborValue) (isDate : Str → Bool) (kind : String) :
    Except FormatterError JsonValue := do
  let date ← okOr value.asText
    (.couldNotExtractCredentials ("Expected tdate value. Got: " ++ env.debug value))
  ensure (isDate date)
    (.couldNotExtractCredentials ("Invalid " ++ kind ++ " `" ++ String.ofList date ++ "`"))
  return .string date

mutual

def buildJsonValue : CborValue → Except FormatterError JsonValue
  | .text text => .ok (.string text)
  | .bool b => .ok (.string (if b then "true".toList else "false".toList))
  | .integer n => .ok (.string (toString n).toList)
  | .tag tag value =>
    if tag = tdateTag then handleDate env value env.isDateTime "tdate"
    else if tag = fullDateTag then handleDate env value env.isFullDate "full-date"
    else .error (.couldNotExtractCredentials ("Unexpected CBOR tag: " ++ toString tag))
  | .bytes bytes => handleBytes env bytes
  | .array values =>
    match values with
    | [] => .ok (.array [])
    | first :: rest =>
      -- collect the items of a homogeneous array
      if (first :: rest).all fun item => isSameType item first then do
        return .array (← buildJsonValues (first :: rest))
      else handlePicture env (first :: rest)
  | .map entries => do return .object (← buildJsonFields entries [])
  | .null => .ok .null
  | .float bits => .error (.couldNotExtractCredentials
      ("Unexpected element value. Got: " ++ env.debug (.float bits)))

def buildJsonValues : List CborValue → Except FormatterError (List JsonValue)
  | [] => .ok []
  | v :: vs => do return (← buildJsonValue v) :: (← buildJsonValues vs)

def buildJsonFields : List (CborValue × CborValue) → List (Str × JsonValue) →
    Except FormatterError (List (Str × JsonValue))
  | [], content => .ok content
  | (key, value) :: entries, content => do
    let key ← okOr key.asText (.couldNotExtractCredentials "Expected a text")
    let value ← buildJsonValue value
    buildJsonFields entries (mapInsert key value content)

end

def itemClaim (item : EmbeddedCbor IssuerSignedItem) : Except FormatterError CredentialClaim := do
  let val ← buildJsonValue env item.inner.elementValue
  let value ← CredentialClaimValue.tryFrom val
  return .mk true false value

def namespaceClaims (items : List (EmbeddedCbor IssuerSignedItem)) :
    Except FormatterError (List (Str × CredentialClaim)) :=
  items.foldlM (fun content item => do
    let claim ← itemClaim env item
    return mapInsert item.inner.elementIdentifier claim content) []

def extractClaims (namespaces : Namespaces) :
    Except FormatterError (List (Str × CredentialClaim)) :=
  namespaces.entries.foldlM (fun result e => do
    let content ← namespaceClaims env e.2
    return mapInsert e.1 (.mk true false (.object content)) result) []

/-! ### The credential of a token -/

def credentialStatusFromMsoStatus : Option MsoStatus → List CredentialStatus
  | none => []
  | some msoStatus =>
    match msoStatus.statusList with
    | some statusList =>
      [tokenStatusListEntry statusList.uri statusList.idx]
    | none => msoStatus.other.map fun mechanism => ⟨none, mechanism, none, []⟩

def doctypeKey : Str := "doctype".toList

def detailCredential (mso : MobileSecurityObject) (issuerCert : CertificateDetails)
    (holderJwk : PublicJwk) (claims : List (Str × CredentialClaim)) : DetailCredential where
  id := none
  issuanceDate := some mso.validityInfo.signed
  validFrom := some mso.validityInfo.validFrom
  validUntil := some mso.validityInfo.validUntil
  updateAt := mso.validityInfo.expectedUpdate
  invalidBefore := none
  issuer := .certificate issuerCert
  subject := some (.key holderJwk)
  claims := ⟨none, mapInsert doctypeKey (.mk false true (.string mso.docType.toList)) claims⟩
  status := credentialStatusFromMsoStatus mso.status
  credentialSchema := some ⟨mso.docType, "mdoc"⟩

/-- The credential of a decoded document; with `verify`, the certificate chain and the digests
are checked. -/
def issuedCredential (issuerSigned : IssuerSigned) (verify : Bool) :
    Except FormatterError DetailCredential := do
  let issuerCert ← extractCertificateFromX5chainHeader env issuerSigned.issuerAuth verify
  let mso ← tryExtractMobileSecurityObject env issuerSigned.issuerAuth
  let namespaces ← okOr issuerSigned.nameSpaces
    (.couldNotExtractCredentials "IssuerSigned object is missing namespaces")
  let holderJwk ← tryExtractHolderPublicKey env issuerSigned.issuerAuth
  Except.checkIf verify (verifyDigests env mso namespaces)
  let claims ← extractClaims env namespaces
  return detailCredential mso issuerCert holderJwk claims

def extractCredentials (token : String) (verify : Bool) :
    Except FormatterError DetailCredential := do
  let issuerSigned ← env.decodeIssuerSigned token
  issuedCredential env issuerSigned verify

/-! ### The stored credential of a token -/

structure ClaimSchema where
  key : Str
  dataType : String
  array : Bool
  metadata : Bool
  required : Bool

structure Claim where
  value : Option Str
  path : Str
  selectivelyDisclosable : Bool
  schema : Option ClaimSchema

def subPath (path key : Str) : Str := path ++ nestedClaimMarker :: key

mutual

/-- The claims of a data element and of everything inside it. -/
def parseClaim (claimPath claimSchemaPath : Str) : CborValue → Except FormatterError (List Claim)
  | .array values =>
    -- specific case of encoding picture claim as array
    match env.extractCborClaim (.array values) with
    | .ok extracted => .ok [⟨some extracted.value, claimPath, false,
        some ⟨claimSchemaPath, extracted.dataType, false, false, false⟩⟩]
    | .error _ =>
      match values with
      | [] => .ok []
      | first :: rest =>
        if (first :: rest).all fun item => isSameType item first then do
          let subclaims ← parseClaimItems claimPath claimSchemaPath 0 (first :: rest)
          -- the data type of the elements is that of the first one
          match (subclaims.find? fun claim => claim.path = subPath claimPath ['0']).bind
              Claim.schema with
          | none => return []
          | some schema => return ⟨none, claimPath, false,
              some ⟨claimSchemaPath, schema.dataType, true, false, false⟩⟩ :: subclaims
        else .error (.couldNotExtractCredentials
          ("Non-homogenous array at: " ++ String.ofList claimPath))
  | .map entries => do
    let result ← parseClaimFields claimPath claimSchemaPath entries
    return result ++ [⟨none, claimPath, false,
      some ⟨claimSchemaPath, "OBJECT", false, false, false⟩⟩]
  | simpleValue => do
    let extracted ← (env.extractCborClaim simpleValue).mapError .nested
    return [⟨some extracted.value, claimPath, false,
      some ⟨claimSchemaPath, extracted.dataType, false, false, false⟩⟩]

def parseClaimItems (claimPath claimSchemaPath : Str) :
    Nat → List CborValue → Except FormatterError (List Claim)
  | _, [] => .ok []
  | index, value :: values => do
    let claims ← parseClaim (subPath claimPath (toString index).toList) claimSchemaPath value
    let rest ← parseClaimItems claimPath claimSchemaPath (index + 1) values
    return claims ++ rest

def parseClaimFields (claimPath claimSchemaPath : Str) :
    List (CborValue × CborValue) → Except FormatterError (List Claim)
  | [] => .ok []
  | (key, value) :: entries => do
    let key ← okOr key.asText (.jsonMapping "Expected a text map key")
    let claims ← parseClaim (subPath claimPath key) (subPath claimSchemaPath key) value
    let rest ← parseClaimFields claimPath claimSchemaPath entries
    return claims ++ rest

end

/-- Mark the first claim with the given path as selectively disclosable. -/
def markDisclosable (path : Str) : List Claim → List Claim
  | [] => []
  | claim :: claims =>
    if claim.path = path then { claim with selectivelyDisclosable := true } :: claims
    else claim :: markDisclosable path claims

/-- The claims of one item.  Only the root of the element is selectively disclosable. -/
def parseItem (ns : Str) (item : EmbeddedCbor IssuerSignedItem) :
    Except FormatterError (List Claim) := do
  let path := subPath ns item.inner.elementIdentifier
  let claims ← parseClaim env path path item.inner.elementValue
  return markDisclosable path claims

def namespaceClaim (ns : Str) : Claim :=
  ⟨none, ns, true, some ⟨ns, "OBJECT", false, false, false⟩⟩

/-- Claims with the same schema key share the schema that came first. -/
def shareSchemas : List (Str × ClaimSchema) → List Claim → List Claim
  | _, [] => []
  | known, claim :: claims =>
    match claim.schema with
    | none => claim :: shareSchemas known claims
    | some schema =>
      match known.lookup schema.key with
      | some matching => { claim with schema := some matching } :: shareSchemas known claims
      | none => claim :: shareSchemas ((schema.key, schema) :: known) claims

def parseClaims (namespaces : Namespaces) : Except FormatterError (List Claim) := do
  let result ← Except.flatMapM namespaces.entries fun (ns, items) => do
    let claims ← Except.flatMapM items (parseItem env ns)
    return claims ++ [namespaceClaim ns]
  return shareSchemas [] result

def doctypeClaim (docType : String) : Claim :=
  ⟨some docType.toList, doctypeKey, false, some ⟨doctypeKey, "STRING", false, true, false⟩⟩

/-- The schemas of the claims, one for each key. -/
def uniqueSchemas (claims : List Claim) : List ClaimSchema :=
  claims.foldl (fun schemas claim =>
    match claim.schema with
    | some schema => if schemas.any fun s => s.key = schema.key then schemas
        else schemas ++ [schema]
    | none => schemas) []

structure StoredCredential where
  issuanceDate : Option Timestamp
  issuer : IdentifierDetails
  holder : IdentifierDetails
  schemaId : String
  claimSchemas : List ClaimSchema
  claims : List Claim

def storedCredential (mso : MobileSecurityObject) (issuerCert : CertificateDetails)
    (holderJwk : PublicJwk) (claims : List Claim) : StoredCredential where
  issuanceDate := some mso.validityInfo.signed
  issuer := .certificate issuerCert
  holder := .key holderJwk
  schemaId := mso.docType
  claimSchemas := uniqueSchemas claims
  claims := claims

def parseCredential (credential : String) : Except FormatterError StoredCredential := do
  let issuerSigned ← env.decodeIssuerSigned credential
  let issuerCertificate ← extractCertificateFromX5chainHeader env issuerSigned.issuerAuth true
  let mso ← tryExtractMobileSecurityObject env issuerSigned.issuerAuth
  let namespaces ← okOr issuerSigned.nameSpaces
    (.couldNotExtractCredentials "IssuerSigned object is missing namespaces")
  verifyDigests env mso namespaces
  let claims ← parseClaims env namespaces
  let holderJwk ← tryExtractHolderPublicKey env issuerSigned.issuerAuth
  -- the holder's identifier is prepared from the parsed key
  (env.parseJwk holderJwk).mapError .nested
  return storedCredential mso issuerCertificate holderJwk (claims ++ [doctypeClaim mso.docType])

/-! ### Where the claims come from -/

section Origin

variable {env} {namespaces : Namespaces} {items : List (EmbeddedCbor IssuerSignedItem)}

lemma exists_of_mem_inserted {α β ν : Type} {l : List α} {f : α → Except FormatterError β}
    {key : α → Str} {g : β → ν} {result : List (Str × ν)}
    (h : l.foldlM (fun result a => do
      let b ← f a
      return mapInsert (key a) (g b) result) [] = .ok result) {e : Str × ν} (he : e ∈ result) :
    ∃ a ∈ l, ∃ b, f a = .ok b ∧ e = (key a, g b) := by
  refine Except.foldlM_invariant (P := fun result => ∀ e ∈ result,
    ∃ a ∈ l, ∃ b, f a = .ok b ∧ e = (key a, g b)) h (by simp) ?_ e he
  intro result a result' ha hresult hround e he
  obtain ⟨b, hb, hround⟩ := bind_eq_ok.1 hround
  obtain rfl := pure_eq_ok.1 hround
  rcases mem_mapInsert he with rfl | he
  · exact ⟨a, ha, b, hb, rfl⟩
  · exact hresult e he

variable {claim : Claim} {claims : List Claim}

lemma mem_markDisclosable {path : Str} (h : claim ∈ markDisclosable path claims) :
    ∃ c ∈ claims, c.path = claim.path ∧ c.value = claim.value := by
  induction claims with
  | nil => exact absurd h not_mem_nil
  | cons c claims ih =>
    unfold markDisclosable at h
    split at h
    · rcases mem_cons.1 h with rfl | h
      · exact ⟨c, mem_cons_self, rfl, rfl⟩
      · exact ⟨claim, mem_cons_of_mem _ h, rfl, rfl⟩
    · rcases mem_cons.1 h with rfl | h
      · exact ⟨claim, mem_cons_self, rfl, rfl⟩
      · obtain ⟨c', hc', heq⟩ := ih h
        exact ⟨c', mem_cons_of_mem _ hc', heq⟩

/-- Sharing the schemas changes neither the paths nor the values of the claims. -/
lemma mem_shareSchemas {known : List (Str × ClaimSchema)} (h : claim ∈ shareSchemas known claims) :
    ∃ c ∈ claims, c.path = claim.path ∧ c.value = claim.value := by
  induction claims generalizing known with
  | nil => exact absurd h not_mem_nil
  | cons c claims ih =>
    have htail : ∀ {known}, claim ∈ shareSchemas known claims →
        ∃ c' ∈ c :: claims, c'.path = claim.path ∧ c'.value = claim.value := fun h' => by
      obtain ⟨c', hc', heq⟩ := ih h'
      exact ⟨c', mem_cons_of_mem _ hc', heq⟩
    unfold shareSchemas at h
    split at h
    · rcases mem_cons.1 h with rfl | h
      · exact ⟨claim, mem_cons_self, rfl, rfl⟩
      · exact htail h
    · split at h
      · rcases mem_cons.1 h with rfl | h
        · exact ⟨c, mem_cons_self, rfl, rfl⟩
        · exact htail h
      · rcases mem_cons.1 h with rfl | h
        · exact ⟨claim, mem_cons_self, rfl, rfl⟩
        · exact htail h

/-- The claim has the path and the value of a claim inside the item. -/
def IsPartOf (env : Environment) (ns : Str) (item : EmbeddedCbor IssuerSignedItem)
    (claim : Claim) : Prop :=
  ∃ parts, parseClaim env (subPath ns item.inner.elementIdentifier)
      (subPath ns item.inner.elementIdentifier) item.inner.elementValue = .ok parts ∧
    ∃ part ∈ parts, part.path = claim.path ∧ part.value = claim.value

/-- Every parsed claim stands for a namespace, without a value, or is part of an item. -/
lemma mem_parseClaims (h : parseClaims env namespaces = .ok claims) (hmem : claim ∈ claims) :
    ∃ ns items, (ns, items) ∈ namespaces.entries ∧
      (claim.path = ns ∧ claim.value = none ∨ ∃ item ∈ items, IsPartOf env ns item claim) := by
  obtain ⟨result, hres, h⟩ := bind_eq_ok.1 h
  obtain rfl := pure_eq_ok.1 h
  obtain ⟨c, hc, hpath, hval⟩ := mem_shareSchemas hmem
  obtain ⟨⟨ns, items⟩, hent, part, hpart, hc⟩ := (Except.mem_of_flatMapM_eq_ok hres).1 hc
  refine ⟨ns, items, hent, ?_⟩
  obtain ⟨itemClaims, hitems, hpart⟩ := bind_eq_ok.1 hpart
  obtain rfl := pure_eq_ok.1 hpart
  rcases mem_append.1 hc with hc | hc
  · -- the claim comes from an item
    right
    obtain ⟨item, hitem, parsed, hparsed, hc⟩ := (Except.mem_of_flatMapM_eq_ok hitems).1 hc
    obtain ⟨parts, hparts, hparsed⟩ := bind_eq_ok.1 hparsed
    obtain rfl := pure_eq_ok.1 hparsed
    obtain ⟨c', hc', hpath', hval'⟩ := mem_markDisclosable hc
    exact ⟨item, hitem, parts, hparts, c', hc', hpath'.trans hpath, hval'.trans hval⟩
  · -- the claim stands for the namespace
    left
    obtain rfl := mem_singleton.1 hc
    exact ⟨hpath.symm, hval.symm⟩

end Origin

/-! ### What a successful call has established -/

section Inversion

variable {env} {token : String}

/-- The parts of a token that both routines read: the document, the certificate of its issuer,
its mobile security object, its items and its device key. -/
structure Reading (env : Environment) (token : String) (verify : Bool) where
  issuerSigned : IssuerSigned
  issuerCert : CertificateDetails
  mso : MobileSecurityObject
  namespaces : Namespaces
  holderJwk : PublicJwk
  decode_eq : env.decodeIssuerSigned token = .ok issuerSigned
  cert_eq : extractCertificateFromX5chainHeader env issuerSigned.issuerAuth verify =
    .ok issuerCert
  mso_eq : tryExtractMobileSecurityObject env issuerSigned.issuerAuth = .ok mso
  namespaces_eq : issuerSigned.nameSpaces = some namespaces
  holder_eq : tryExtractHolderPublicKey env issuerSigned.issuerAuth = .ok holderJwk

variable {verify : Bool}

lemma Reading.eq (r r' : Reading env token verify) : r = r' := by
  obtain ⟨s, c, m, n, k, hs, hc, hm, hn, hk⟩ := r
  obtain ⟨s', c', m', n', k', hs', hc', hm', hn', hk'⟩ := r'
  obtain rfl : s = s' := ok_unique hs hs'
  obtain rfl : c = c' := ok_unique hc hc'
  obtain rfl : m = m' := ok_unique hm hm'
  obtain rfl : n = n' := mem_unique hn hn'
  obtain rfl : k = k' := ok_unique hk hk'
  rfl

variable {credential : DetailCredential}

/-- The credential of a document is made of its mobile security object, its device key and the
claims of its items. -/
lemma issuedCredential_eq_ok {issuerSigned : IssuerSigned}
    (h : issuedCredential env issuerSigned verify = .ok credential) :
    ∃ mso issuerCert holderJwk claims,
      tryExtractMobileSecurityObject env issuerSigned.issuerAuth = .ok mso ∧
      tryExtractHolderPublicKey env issuerSigned.issuerAuth = .ok holderJwk ∧
      credential = detailCredential mso issuerCert holderJwk claims := by
  simp only [issuedCredential, ok_iffs] at h
  tauto

lemma extractCredentials_eq_ok_iff :
    extractCredentials env token verify = .ok credential ↔
      ∃ r : Reading env token verify, ∃ claims,
        (verify = true → verifyDigests env r.mso r.namespaces = .ok ()) ∧
        extractClaims env r.namespaces = .ok claims ∧
        credential = detailCredential r.mso r.issuerCert r.holderJwk claims := by
  simp only [extractCredentials, issuedCredential, ok_iffs, Except.checkIf_eq_ok]
  constructor
  · rintro ⟨s, hs, c, hc, m, hm, n, hn, k, hk, ⟨⟩, hv, claims, hcls, rfl⟩
    exact ⟨⟨s, c, m, n, k, hs, hc, hm, hn, hk⟩, claims, hv, hcls, rfl⟩
  · rintro ⟨⟨s, c, m, n, k, hs, hc, hm, hn, hk⟩, claims, hv, hcls, rfl⟩
    exact ⟨s, hs, c, hc, m, hm, n, hn, k, hk, (), hv, claims, hcls, rfl⟩

lemma parseCredential_eq_ok_iff {credential : StoredCredential} :
    parseCredential env token = .ok credential ↔
      ∃ r : Reading env token true, ∃ claims,
        verifyDigests env r.mso r.namespaces = .ok () ∧
        parseClaims env r.namespaces = .ok claims ∧ env.parseJwk r.holderJwk = .ok () ∧
        credential = storedCredential r.mso r.issuerCert r.holderJwk
          (claims ++ [doctypeClaim r.mso.docType]) := by
  simp only [parseCredential, ok_iffs]
  constructor
  · rintro ⟨s, hs, c, hc, m, hm, n, hn, ⟨⟩, hv, claims, hcls, k, hk, ⟨⟩, hp, rfl⟩
    exact ⟨⟨s, c, m, n, k, hs, hc, hm, hn, hk⟩, claims, hv, hcls, hp, rfl⟩
  · rintro ⟨⟨s, c, m, n, k, hs, hc, hm, hn, hk⟩, claims, hv, hcls, hp, rfl⟩
    exact ⟨s, hs, c, hc, m, hm, n, hn, (), hv, claims, hcls, k, hk, (), hp, rfl⟩

end Inversion

end OneCore.Mdoc
