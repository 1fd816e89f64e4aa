/-
# Resolution of DIDs

A DID is resolved by the first configured method that has its name, and the document is kept in a cache under
the DID.  The documents of did:key and did:jwk are made from the DID itself, and did:webvh compares the id of the
document with the DID.  The documents of did:web and of the universal resolver, and those in the cache, are taken
as they are served: nothing compares their id with the DID.
-/
import OneCore.Did.WebVh

namespace OneCore

def PublicJwk.use : PublicJwk → Option JwkUse
  | .ec key | .okp key => key.use
  | .rsa key => key.use
  | .oct key => key.use
  | .akp key => key.use

namespace DidResolver

open WebVh

/-! ### The methods -/

inductive DidMethod where
  | key
  | jwk
  | web (resolveToInsecureHttp : Option Bool)
  | webvh (params : Params) (resolveToInsecureHttp : Bool)
  | universal (resolverUrl : String) (supportedMethodNames : List String)

def DidMethod.methodNames : DidMethod → List String
  | .key => ["key"]
  | .jwk => ["jwk"]
  | .web _ => ["web"]
  | .webvh _ _ => ["webvh"]
  | .universal _ supportedMethodNames => supportedMethodNames

inductive ResolveError where
  | didMethod (error : DidMethodError)
  | didValue (message : String)
  | missingProvider (method : String)
  | json (message : String)
  | nested (context : String)

def resolutionError (message : String) : ResolveError := .didMethod (.resolutionError message)

structure RemoteEntity where
  value : Bytes
  lastModified : Timestamp
  expirationDate : Option Timestamp

/-- What the resolution rests on: keys and texts, the answers of servers, and those of the cache. -/
structure Environment (Key : Type) extends WebVh.Environment Key where
  /-- The name of the method of a DID. -/
  didMethod : String → Except String String
  /-- The multibase of a did:key with the public key in it. -/
  decodeDid : String → Except ResolveError (String × PublicJwk)
  /-- The public key in a did:jwk. -/
  extractJwk : String → Except ResolveError PublicJwk
  /-- The URL with more segments in its path. -/
  extendSegments : Url → List Str → Option Url
  displayUrl : Url → String
  /-- The body of a response with a successful status. -/
  httpGet : String → Except String Bytes
  lines : Bytes → List Str
  parseResolutionResponse : Bytes → Except String DidDocument
  parseDocument : Bytes → Except String DidDocument
  serializeDocument : DidDocument → Except String Bytes
  lossless : ∀ {document bytes}, serializeDocument document = .ok bytes → parseDocument bytes = .ok document
  cached : String → Except String (Option RemoteEntity)
  /-- Writing an entry into the cache; that the entry is gone is not an error. -/
  insert : Except String Unit
  refreshAfter : Int

def stripPrefix (start did : String) : Option Str :=
  if start.toList <+: did.toList then some (did.toList.drop start.length) else none

def jwkContext : String :=
  "[\"https://www.w3.org/ns/did/v1\",\"https://w3id.org/security/suites/jws-2020/v1\"]"

def jwkVerificationMethod (id did : String) (jwk : PublicJwk) : DidVerificationMethod :=
  ⟨id, "JsonWebKey2020", did, jwk⟩

def keyDocument (multibase did : String) (jwk : PublicJwk) : DidDocument :=
  let id := did ++ "#" ++ multibase
  ⟨did, [jwkVerificationMethod id did jwk], some [id], some [id], some [id], some [id], some [id], jwkContext⟩

def jwkDocument (did : String) (jwk : PublicJwk) : DidDocument :=
  let urls := some [did ++ "#0"]
  let methods := [jwkVerificationMethod (did ++ "#0") did jwk]
  match jwk.use with
  | some .signature => ⟨did, methods, urls, urls, none, urls, urls, jwkContext⟩
  | some .encryption => ⟨did, methods, none, none, urls, none, none, jwkContext⟩
  | _ => ⟨did, methods, urls, urls, urls, urls, urls, jwkContext⟩

def universalUrl (resolverUrl did : String) : String := resolverUrl ++ "/1.0/identifiers/" ++ did

section Resolve

variable {Key : Type} (env : Environment Key)

namespace Environment

def didValueToUrl (did : String) (resolveToHttp : Option Bool) : Except ResolveError Url := do
  let coreValue ← okOr (stripPrefix "did:web:" did) (resolutionError "Incorrect did value")
  let pathParts := coreValue.splitOn ':'
  let host ← okOr pathParts.head? (resolutionError "Missing host part in a did value")
  let scheme := if resolveToHttp = some true then "http://" else "https://"
  let url ← (env.parseUrl (scheme.toList ++ replaceAll "%3A".toList [':'] host)).mapError resolutionError
  let remainingParts := if pathParts.tail.isEmpty then [".well-known".toList] else pathParts.tail
  okOr (env.extendSegments url (remainingParts ++ ["did.json".toList])) (resolutionError "Error")

def fetchDocument (url : String) (parse : Bytes → Except String DidDocument) (failure : String) :
    Except ResolveError DidDocument := do
  let body ← (env.httpGet url).mapError fun e => resolutionError ("Could not fetch did document: " ++ e)
  (parse body).mapError fun e => resolutionError (failure ++ e)

def resolveBy (did : String) : DidMethod → Except ResolveError DidDocument
  | .key => do
    let (multibase, jwk) ← env.decodeDid did
    pure (keyDocument multibase did jwk)
  | .jwk => do
    let jwk ← env.extractJwk did
    pure (jwkDocument did jwk)
  | .web resolveToInsecureHttp => do
    let url ← env.didValueToUrl did resolveToInsecureHttp
    env.fetchDocument (env.displayUrl url) env.parseDocument "Could not fetch did document: "
  | .webvh params resolveToInsecureHttp =>
    (env.resolveDid params resolveToInsecureHttp
      (fun url => (env.httpGet (env.displayUrl url)).map env.lines) did).mapError .didMethod
  | .universal resolverUrl _ =>
    env.fetchDocument (universalUrl resolverUrl did) env.parseResolutionResponse
      "Could not deserialize response: "

/-! ### The provider and its cache -/

variable (methods : List DidMethod) (did : String)

def didMethodFromValue : Except ResolveError DidMethod := do
  let name ← (env.didMethod did).mapError .didValue
  okOr (methods.find? fun method => name ∈ method.methodNames) (.missingProvider name)

def doResolve : Except ResolveError Bytes := do
  let method ← env.didMethodFromValue methods did
  let document ← env.resolveBy did method
  (env.serializeDocument document).mapError .json

end Environment

inductive ContextRequiresUpdate where
  | mustBeUpdated
  | canBeUpdated
  | isRecent

def contextRequiresUpdate (now lastModified expirationDate : Timestamp) (refreshAfter : Int) :
    ContextRequiresUpdate :=
  if expirationDate < now then .mustBeUpdated
  else if now - lastModified ≤ refreshAfter then .isRecent
  else .canBeUpdated

namespace Environment

variable (methods : List DidMethod) (did : String)

/-- The content of an entry that can expire, after an update where it requires one. -/
def updatedValue (cachedEntry : RemoteEntity) : ContextRequiresUpdate → Except ResolveError Bytes
  | .isRecent => .ok cachedEntry.value
  | .canBeUpdated => .ok ((env.doResolve methods did).toOption.getD cachedEntry.value)
  | .mustBeUpdated => env.doResolve methods did

def resolveWithCaching (cachedEntry : RemoteEntity) : Except ResolveError Bytes :=
  match cachedEntry.expirationDate with
  | none => .ok cachedEntry.value
  | some expirationDate => do
    let value ← env.updatedValue methods did cachedEntry
      (contextRequiresUpdate env.now cachedEntry.lastModified expirationDate env.refreshAfter)
    env.insert.mapError fun _ => .nested "inserting cache item"
    pure value

def get : Except ResolveError Bytes := do
  let cachedEntry ← (env.cached did).mapError fun _ => .nested "getting cache key"
  match cachedEntry with
  | some cachedEntry => env.resolveWithCaching methods did cachedEntry
  | none => env.doResolve methods did

def resolveDocument : Except ResolveError DidDocument := do
  let content ← env.get methods did
  (env.parseDocument content).mapError .json

/-! ### Whose document it is -/

/-- The document is that of the DID, and the keys that it gives for a role are its own. -/
def Genuine (document : DidDocument) : Prop :=
  document.id = did ∧ ∀ keyRole keyId method, document.signingMethod keyRole keyId = .ok method →
    method ∈ document.verificationMethod

/-- The entry of the cache is returned: it does not expire, it is recent, or its update fails. -/
def TakenFromCache (entity : RemoteEntity) : Prop :=
  env.cached did = .ok (some entity) ∧ ∀ expirationDate ∈ entity.expirationDate,
    let update := contextRequiresUpdate env.now entity.lastModified expirationDate env.refreshAfter
    update = .isRecent ∨ update = .canBeUpdated ∧ ∃ e, env.doResolve methods did = .error e

def Asked (method : DidMethod) : Prop :=
  env.didMethodFromValue methods did = .ok method ∧ ∀ entity, ¬env.TakenFromCache methods did entity

def Answers (url : String) (parse : Bytes → Except String DidDocument) (document : DidDocument) : Prop :=
  ∃ body, env.httpGet url = .ok body ∧ parse body = .ok document

/-- The document of the entry that is taken from the cache, and the one that the server of did:web or the
universal resolver answers with when it is asked, have the DID as their id. -/
structure AnswersNameDid : Prop where
  cached : ∀ entity document, env.TakenFromCache methods did entity →
    env.parseDocument entity.value = .ok document → document.id = did
  web : ∀ insecure url document, env.Asked methods did (.web insecure) →
    env.didValueToUrl did insecure = .ok url →
    env.Answers (env.displayUrl url) env.parseDocument document → document.id = did
  universal : ∀ resolverUrl names document, env.Asked methods did (.universal resolverUrl names) →
    env.Answers (universalUrl resolverUrl did) env.parseResolutionResponse document → document.id = did

variable {env methods did} {document : DidDocument} {method : DidMethod} {content : Bytes}

lemma fetchDocument_eq_ok {url : String} {parse : Bytes → Except String DidDocument} {failure : String} :
    env.fetchDocument url parse failure = .ok document ↔ env.Answers url parse document := by
  simp [fetchDocument, ok_iffs, Answers]

/-- The methods that do not take the document from a server as it is. -/
lemma id_of_resolveBy (h : env.resolveBy did method = .ok document)
    (hweb : ∀ insecure, method ≠ .web insecure) (huniv : ∀ url names, method ≠ .universal url names) :
    document.id = did := by
  cases method with
  | key =>
    simp only [resolveBy, ok_iffs] at h
    obtain ⟨_, -, rfl⟩ := h
    rfl
  | jwk =>
    simp only [resolveBy, ok_iffs] at h
    obtain ⟨jwk, -, rfl⟩ := h
    rw [jwkDocument]
    split <;> rfl
  | web insecure => exact absurd rfl (hweb insecure)
  | webvh params insecure =>
    obtain ⟨_, _, -, hlog⟩ := exists_of_resolveDid (mapError_eq_ok.1 h)
    obtain ⟨-, _, _, -, -, -, hid⟩ := exists_of_resolveLog hlog
    exact hid
  | universal url names => exact absurd rfl (huniv url names)

lemma resolveWithCaching_cases {entity : RemoteEntity} (hcached : env.cached did = .ok (some entity))
    (h : env.resolveWithCaching methods did entity = .ok content) :
    env.TakenFromCache methods did entity ∧ content = entity.value ∨
      (¬env.TakenFromCache methods did entity) ∧ env.doResolve methods did = .ok content := by
  unfold resolveWithCaching at h
  split at h
  · next hnone => exact .inl ⟨⟨hcached, by simp [hnone]⟩, (Except.ok.inj h).symm⟩
  · next expirationDate hexpi =>
    simp only [ok_iffs, exists_unit_iff] at h
    obtain ⟨_, hval, -, rfl⟩ := h
    simp only [TakenFromCache, hcached, hexpi, true_and, Option.mem_some_iff, forall_eq']
    generalize contextRequiresUpdate _ _ _ _ = update at hval ⊢
    cases hrsv : env.doResolve methods did <;> cases update <;>
      simp_all [updatedValue, Except.toOption]

lemma resolveDocument_cases (h : env.resolveDocument methods did = .ok document) :
    (∃ entity, env.TakenFromCache methods did entity ∧ env.parseDocument entity.value = .ok document) ∨
      ∃ method, env.Asked methods did method ∧ env.resolveBy did method = .ok document := by
  simp only [resolveDocument, get, ok_iffs] at h
  obtain ⟨content, ⟨cachedEntry, hcached, hcont⟩, hpar⟩ := h
  have hasked : (∀ entity, ¬env.TakenFromCache methods did entity) →
      env.doResolve methods did = .ok content →
      ∃ method, env.Asked methods did method ∧ env.resolveBy did method = .ok document := by
    intro hnot hrsv
    simp only [doResolve, ok_iffs] at hrsv
    obtain ⟨method, hmth, document', hdoc, hcont⟩ := hrsv
    obtain rfl := ok_unique hpar (env.lossless hcont)
    exact ⟨method, ⟨hmth, hnot⟩, hdoc⟩
  cases cachedEntry with
  | none =>
    refine .inr (hasked (fun entity htaken => ?_) hcont)
    cases ok_unique hcached htaken.1
  | some entity =>
    rcases resolveWithCaching_cases hcached hcont with ⟨htaken, rfl⟩ | ⟨hnot, hrsv⟩
    · exact .inl ⟨entity, htaken, hpar⟩
    · refine .inr (hasked (fun entity' htaken => hnot ?_) hrsv)
      obtain rfl := Option.some.inj (ok_unique hcached htaken.1)
      exact htaken

/-- A document that is returned is that of the DID exactly if the answers of the cache and of the servers that
are used name the DID. -/
theorem genuine_iff (h : env.resolveDocument methods did = .ok document) :
    Genuine did document ↔ env.AnswersNameDid methods did := by
  have hkeys : ∀ keyRole keyId method, document.signingMethod keyRole keyId = .ok method →
      method ∈ document.verificationMethod := fun _ _ _ => DidDocument.mem_of_signingMethod
  constructor
  · rintro ⟨hid, -⟩
    -- The document of a source that is used is the one that is returned.
    have hsame : ∀ method document', env.Asked methods did method →
        env.resolveBy did method = .ok document' → document'.id = did := by
      intro method document' hmth hdoc'
      rcases resolveDocument_cases h with ⟨entity, htaken, -⟩ | ⟨method', hmth', hdoc⟩
      · exact absurd htaken (hmth.2 entity)
      · obtain rfl := ok_unique hmth.1 hmth'.1
        rwa [ok_unique hdoc' hdoc]
    refine ⟨fun entity document' htaken hdoc' => ?_, fun insecure url document' hasked hurl hanswer => ?_,
      fun url names document' hasked hanswer => hsame _ _ hasked (fetchDocument_eq_ok.2 hanswer)⟩
    · rcases resolveDocument_cases h with ⟨entity', htaken', hdoc⟩ | ⟨method, hmth, -⟩
      · obtain rfl := Option.some.inj (ok_unique htaken.1 htaken'.1)
        rwa [ok_unique hdoc' hdoc]
      · exact absurd htaken (hmth.2 entity)
    · exact hsame _ _ hasked (bind_eq_ok.2 ⟨url, hurl, fetchDocument_eq_ok.2 hanswer⟩)
  · intro hans
    refine ⟨?_, hkeys⟩
    rcases resolveDocument_cases h with ⟨entity, htaken, hdoc⟩ | ⟨method, hmth, hdoc⟩
    · exact hans.cached entity document htaken hdoc
    · cases method with
      | web insecure =>
        obtain ⟨url, hurl, hfetch⟩ := bind_eq_ok.1 hdoc
        exact hans.web insecure url document hmth hurl (fetchDocument_eq_ok.1 hfetch)
      | universal url names =>
        exact hans.universal url names document hmth (fetchDocument_eq_ok.1 hdoc)
      | key | jwk | webvh => exact id_of_resolveBy hdoc (by simp) (by simp)

end Environment

end Resolve

/-- Every server answers with the document of one did:key. -/
def Environment.sample : Environment Unit :=
  { WebVh.Environment.sample "" with
    didMethod := fun did => .ok (if did = "did:key:k" then "key" else "web")
    decodeDid := fun _ => .error (.nested "")
    extractJwk := fun _ => .error (.nested "")
    extendSegments := fun url _ => some url
    displayUrl := fun _ => ""
    httpGet := fun _ => .ok []
    lines := fun _ => []
    parseResolutionResponse := fun _ => .ok sampleKeyDocument
    parseDocument := fun _ => .ok sampleKeyDocument
    serializeDocument := fun document => if document = sampleKeyDocument then .ok [] else .error ""
    lossless := by grind
    cached := fun _ => .ok none
    insert := .ok ()
    refreshAfter := 0 }

/-- The document of another DID is returned. -/
theorem foreign_document_returned :
    Environment.sample.resolveDocument [.web none, .universal "" ["key"]] "did:web:a" =
        .ok sampleKeyDocument ∧
      ¬Environment.Genuine "did:web:a" sampleKeyDocument := by
  refine ⟨rfl, fun hgenu => ?_⟩
  have hid := hgenu.1
  revert hid
  decide

theorem own_document_returned : Environment.Genuine "did:key:k" sampleKeyDocument := by
  have hrsv : Environment.sample.resolveDocument [.web none, .universal "" ["key"]] "did:key:k" =
    .ok sampleKeyDocument := rfl
  refine (Environment.genuine_iff hrsv).2 ⟨?_, ?_, ?_⟩
  · rintro _ _ - ⟨⟩
    rfl
  · rintro _ _ _ - ⟨⟩
  · rintro _ _ _ - ⟨_, -, ⟨⟩⟩
    rfl

end DidResolver

end OneCore
