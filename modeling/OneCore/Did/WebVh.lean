/-
# did:webvh

A DID of this method contains the hash of the first entry of its log, the SCID.  The log is fetched from the
address in the DID, one entry a line; it is checked entry by entry, and the document of the last entry is
the result if its id is the DID.

The check compares the hash of the first entry with the SCID that this entry names in its own parameters.
Nothing compares this SCID with the one in the DID: what the DID says is tied to the log only by the id of
the last document, and this id the log is free to choose.
-/
import OneCore.Lib.Path
import OneCore.Proto.KeyVerification

namespace OneCore.WebVh

/-! ### The log -/

inductive DidMethodVersion where
  | v3

structure DidLogParameters where
  method : Option DidMethodVersion
  prerotation : Option Bool
  portable : Option Bool
  updateKeys : Option (List Str)
  nextKeyHashes : List Str
  scid : Option Str
  deactivated : Option Bool

/-- An integrity proof; the type, the purpose, the context, the nonce and the domain are kept as text. -/
structure VcdmProof where
  cryptosuite : String
  verificationMethod : String
  created : Option Timestamp
  challenge : Option Str
  proofValue : Option Str
  rest : String

/-- An entry of the log as it is deserialised: the document, and the JSON value it was read from. -/
structure DidLogEntry where
  versionId : Str
  versionTime : Timestamp
  parameters : DidLogParameters
  document : DidDocument
  source : JsonValue
  proof : List VcdmProof

inductive DidMethodError where
  | resolutionError (message : String)
  | deactivated

structure Params where
  maxDidLogEntryCheck : Option Nat
  leeway : Int

structure Url where
  scheme : Str
  authority : Str
  path : Str

/-- What the resolution rests on: texts, hashes and keys. -/
structure Environment (Key : Type) where
  now : Timestamp
  parseUrl : Str → Except String Url
  parseEntry : Str → Except String DidLogEntry
  parseJson : Str → Except String JsonValue
  /-- The canonical form of a value. -/
  canonicalText : JsonValue → Str
  sha256 : Str → Except String Bytes
  /-- The multihash of a hash, in base58. -/
  multihashB58Encode : Bytes → Except String Str
  b58Decode : Str → Except String Bytes
  /-- The text of a value, as it appears in messages. -/
  display : JsonValue → String
  displayTime : Timestamp → String
  proofToValue : VcdmProof → Except String JsonValue
  didOfDidUrl : String → Except String String
  resolve : String → Except String DidDocument
  parseJwk : PublicJwk → Except String Key
  publicKeyAsMultibase : Key → Except String Str
  verify : Key → Bytes → Bytes → Except String Unit

variable {Key : Type} (env : Environment Key)

def failed (text : String) (cause : String) : DidMethodError :=
  .resolutionError (text ++ cause)

def Environment.canonicalizedHash (data : JsonValue) : Except DidMethodError Bytes :=
  (env.sha256 (env.canonicalText data)).mapError (failed "Failed to hash canonicalized JSON: ")

/-! ### Replacing text -/

/-- Replace the matches of a pattern that is not empty, from the left to the right.  The first `skip` letters
belong to a match that was replaced already. -/
def replaceFrom (pattern replacement : Str) : Nat → Str → Str
  | _, [] => []
  | skip + 1, _ :: text => replaceFrom pattern replacement skip text
  | 0, c :: text =>
    if pattern <+: c :: text then
      replacement ++ replaceFrom pattern replacement (pattern.length - 1) text
    else c :: replaceFrom pattern replacement 0 text

def replaceAll (pattern replacement text : Str) : Str :=
  if pattern = [] then replacement ++ text.flatMap fun c => c :: replacement
  else replaceFrom pattern replacement 0 text

/-! ### The checks of the log -/

def scidPlaceholder : Str := "\x7bSCID\x7d".toList

/-- What is hashed of an entry: the version id is replaced, the proof is removed. -/
def hashedEntry (versionId : Str) : JsonValue → Except DidMethodError JsonValue
  | .array [_, versionTime, parameters, state, _] =>
    .ok (.array [.string versionId, versionTime, parameters, state])
  | .array _ => .error (.resolutionError "Log entry must be a JSON array with 5 elements")
  | _ => .error (.resolutionError "Log entry must be a JSON array")

def Environment.entryHash (hashed : JsonValue) : Except DidMethodError Str := do
  let hash ← env.canonicalizedHash hashed
  (env.multihashB58Encode hash).mapError (failed "Failed to create multihash: ")

/-- The value that the SCID of a log is the hash of. -/
def Environment.scidInput (scid firstLineRaw : Str) :
    Except DidMethodError JsonValue := do
  let replaced := replaceAll scid scidPlaceholder firstLineRaw
  let jsonValue ← (env.parseJson replaced).mapError (failed "Failed to parse SCID hash input as JSON: ")
  hashedEntry scidPlaceholder jsonValue

def Environment.verifyScid (scid firstLineRaw : Str) :
    Except DidMethodError Unit := do
  let hashed ← env.scidInput scid firstLineRaw
  let derivedScid ← env.entryHash hashed
  ensure (scid = derivedScid) (.resolutionError ("Invalid SCID: expected " ++ String.ofList scid ++
    ", got " ++ String.ofList derivedScid))

def Environment.currentVersionId : JsonValue → Except DidMethodError Str
  | .array (.string versionId :: _) => .ok versionId
  | .array (value :: _) => .error (.resolutionError
      ("Expected versionId of type string but got '" ++ env.display value ++ "'."))
  | _ => .error (.resolutionError "Log entry must be a JSON array with 5 elements")

def Environment.verifyVersionId (scidOrPrevVersionId : Str) (expectedIndex : Nat)
    (lineRaw : Str) : Except DidMethodError Unit := do
  let jsonValue ← (env.parseJson lineRaw).mapError (failed "Failed to parse SCID hash input as JSON: ")
  let hashed ← hashedEntry scidOrPrevVersionId jsonValue
  let currentVersionId ← env.currentVersionId jsonValue
  let (index, expectedEntryHash) ← okOr (Path.splitOnce '-' currentVersionId)
    (.resolutionError ("Invalid version_id '" ++ String.ofList currentVersionId ++ "'."))
  ensure (index = (toString expectedIndex).toList) (.resolutionError ("Unexpected versionId '" ++
    String.ofList currentVersionId ++ "', expected index " ++ toString expectedIndex ++ ", got " ++
    String.ofList index ++ "."))
  let entryHash ← env.entryHash hashed
  ensure (entryHash = expectedEntryHash) (.resolutionError ("Entry hash mismatch, expected " ++
    String.ofList expectedEntryHash ++ ", got " ++ String.ofList entryHash ++ "."))

def Environment.verifyVerificationMethod (params : DidLogParameters)
    (proof : VcdmProof) : Except DidMethodError Key := do
  let did ← (env.didOfDidUrl proof.verificationMethod).mapError
    (failed "failed to parse verification method used for integrity proof: ")
  let doc ← (env.resolve did).mapError
    (failed "failed to resolve verification method used for integrity proof: ")
  let method ← okOr
    (doc.findVerificationMethod (some proof.verificationMethod) (some .authentication))
    (.resolutionError ("Failed to find verification method " ++ proof.verificationMethod ++
      " in did document"))
  let handle ← (env.parseJwk method.publicKeyJwk).mapError (failed "Failed to parse public key: ")
  let multibase ← (env.publicKeyAsMultibase handle).mapError
    (failed "failed to encode public key as multibase ")
  let updateKeys ← okOr params.updateKeys
    (.resolutionError "Proof verification failed: missing update_keys")
  ensure (multibase ∈ updateKeys) (.resolutionError
    ("Proof verification failed: verification method " ++ proof.verificationMethod ++
      " is not allowed update_key"))
  pure handle

/-- The proof was not made before the entry. -/
def madeBefore (proof : VcdmProof) (entry : DidLogEntry) : Bool :=
  match proof.created with
  | some created => created < entry.versionTime
  | none => false

def Environment.verifyProof (params : DidLogParameters) (entry : DidLogEntry) :
    Except DidMethodError Unit := do
  let versionId := String.ofList entry.versionId
  let proof ← okOr (entry.proof.find? fun proof => proof.cryptosuite = "eddsa-jcs-2022")
    (.resolutionError ("Found no integrity proof for log entry " ++ versionId ++
      " with cryptosuite 'eddsa-jcs-2022'."))
  let challenge ← okOr proof.challenge
    (.resolutionError ("Missing proof challenge for log entry " ++ versionId))
  ensure (madeBefore proof entry = false)
    (.resolutionError "Invalid proof: created time is before entry time.")
  ensure (challenge = entry.versionId) (.resolutionError ("Proof challenge mismatch, expected " ++
    versionId ++ ", got " ++ String.ofList challenge ++ "."))
  let keyHandle ← env.verifyVerificationMethod params proof
  let signatureEncoded ← okOr proof.proofValue
    (.resolutionError ("Missing proof_value for log entry " ++ versionId))
  let proofValue ← (env.proofToValue { proof with proofValue := none }).mapError
    (failed "Failed to serialize proof: ")
  let message ← env.canonicalizedHash proofValue
  let docHash ← env.canonicalizedHash entry.source
  let signature ← (env.b58Decode (signatureEncoded.drop 1)).mapError
    (failed "Failed to decode proof_value: ")
  (env.verify keyHandle (message ++ docHash) signature).mapError
    (failed ("Failed to verify integrity proof for log entry " ++ versionId ++ ": "))

def verifyVersion (params : DidLogParameters) (mandatory : Bool) : Except DidMethodError Unit :=
  match params.method with
  | some .v3 => .ok ()
  | none => if mandatory then .error (.resolutionError "Missing method parameter") else .ok ()

def checkParameters (index : Nat) (parameters : DidLogParameters) : Except DidMethodError Unit := do
  ensure (parameters.deactivated.getD false = false) .deactivated
  ensure (¬(index > 0 ∧ parameters.portable.getD false = true))
    (.resolutionError "portable flag can only be set to true in first entry")
  verifyVersion parameters (index = 0)

/-- An update key was announced by its hash. -/
def Environment.checkUpdateKey (nextKeyHashes : List Str) (key : Str) :
    Except DidMethodError Unit := do
  let keyHash ← (env.sha256 key).mapError (failed "Failed to hash update key: ")
  let keyMultihash ← (env.multihashB58Encode keyHash).mapError .resolutionError
  ensure (keyMultihash ∈ nextKeyHashes) (.resolutionError
    ("Update key " ++ String.ofList key ++ " not found in nextKeyHashes"))

def Environment.checkPrerotation (index : Nat)
    (activeParameters entryParameters : DidLogParameters) : Except DidMethodError Unit :=
  let prerotation := activeParameters.prerotation.getD false
  let entryPrerotation := entryParameters.prerotation.getD false
  Except.checkIf (0 < index && prerotation) do
    ensure (entryPrerotation = true) (.resolutionError
      "prerotation set to true cannot be cannot be changed by subsequent entries")
    let updateKeys ← okOr entryParameters.updateKeys
      (.resolutionError ("Entry " ++ toString (index + 1) ++ " is missing update keys"))
    forM updateKeys (env.checkUpdateKey activeParameters.nextKeyHashes)

structure LogState where
  index : Nat
  activeParameters : DidLogParameters
  scidOrVersionId : Str
  lastEntryTime : Option Timestamp

/-- The parameters that are in force after an entry. -/
def applyParameters (active parameters : DidLogParameters) : DidLogParameters :=
  { active with
    updateKeys := parameters.updateKeys.or active.updateKeys
    nextKeyHashes :=
      if parameters.nextKeyHashes.isEmpty then active.nextKeyHashes else parameters.nextKeyHashes
    prerotation := if active.prerotation = some true then active.prerotation else parameters.prerotation }

/-- The body of the loop over the entries. -/
def Environment.verifyEntry (params : Params) (state : LogState)
    (logEntry : DidLogEntry × Str) : Except DidMethodError LogState := do
  let (entry, rawLine) := logEntry
  let name := "Invalid log entry " ++ String.ofList entry.versionId ++ ": version time " ++
    env.displayTime entry.versionTime
  env.verifyVersionId state.scidOrVersionId (state.index + 1) rawLine
  env.verifyProof state.activeParameters entry
  ensure (entry.versionTime ≤ env.now + params.leeway)
    (.resolutionError (name ++ " is in the future"))
  ensure (∀ prevTime ∈ state.lastEntryTime, prevTime ≤ entry.versionTime)
    (.resolutionError (name ++ " is before version time of the previous entry"))
  checkParameters state.index entry.parameters
  env.checkPrerotation state.index state.activeParameters entry.parameters
  pure ⟨state.index + 1, applyParameters state.activeParameters entry.parameters, entry.versionId,
    some entry.versionTime⟩

def Environment.verifyDidLog (params : Params) (log : List (DidLogEntry × Str)) :
    Except DidMethodError Unit := do
  ensure (∀ limit ∈ params.maxDidLogEntryCheck, log.length ≤ limit) (.resolutionError
    ("Failed to verify did log: log has " ++ toString log.length ++
      " entries which is more than the max allowed length (" ++
      toString (params.maxDidLogEntryCheck.getD 0) ++ ")"))
  let (firstEntry, firstLineRaw) ← okOr log.head? (.resolutionError "Did log is empty")
  let scid ← okOr firstEntry.parameters.scid (.resolutionError "missing SCID")
  env.verifyScid scid firstLineRaw
  let _ ← log.foldlM (env.verifyEntry params) ⟨0, firstEntry.parameters, scid, none⟩
  pure ()

/-! ### Resolution -/

structure TransformedDid where
  scid : Str
  url : Url

def stripMethod (did : Str) : Except DidMethodError Str :=
  if "did:webvh:".toList <+: did then .ok (did.drop "did:webvh:".toList.length)
  else .error (.resolutionError "Invalid did value. Expected `did:webvh:` prefix")

/-- The segments of a DID, of which there is at least one. -/
def segments (didSuffix : Str) : List Str := didSuffix.splitOn ':'

/-- Replace the first match of an encoded colon. -/
def decodePort : Str → Str
  | '%' :: '3' :: 'A' :: rest => ':' :: rest
  | [] => []
  | c :: rest => c :: decodePort rest

def Environment.transformDidToHttps (did : Str) :
    Except DidMethodError TransformedDid := do
  let didSuffix ← stripMethod did
  let parts := segments didSuffix
  let scid ← okOr parts.head? (.resolutionError "Invalid did:webvh. missing `scid`")
  let domain ← okOr parts.tail.head? (.resolutionError "Invalid did:webvh. missing domain segment")
  let url ← (env.parseUrl ("https://".toList ++ decodePort domain)).mapError
    (failed "Invalid did:webh domain part: ")
  let path := ['/'].intercalate (parts.drop 2)
  pure ⟨scid, { url with
    path := if path.isEmpty then ".well-known/did.jsonl".toList else path ++ "/did.jsonl".toList }⟩

def Environment.parseLog (lines : List Str) : Except DidMethodError (List (DidLogEntry × Str)) :=
  lines.mapM fun line => do
    let entry ← (env.parseEntry line).mapError (failed "Invalid did log entry: ")
    pure (entry, line)

def Environment.resolveLog (params : Params) (did : String) (lines : List Str) :
    Except DidMethodError DidDocument := do
  let entries ← env.parseLog lines
  env.verifyDidLog params entries
  let (entry, _) ← okOr entries.getLast? (.resolutionError "Did log contains no entries")
  ensure (entry.document.id = did) (.resolutionError ("Did log for did '" ++ entry.document.id ++
    "' does not match the resolved did value '" ++ did ++ "'!"))
  pure entry.document

/-- Resolve a DID with the log that is served at its address, if any. -/
def Environment.resolveDid (params : Params) (useHttp : Bool)
    (served : Url → Except String (List Str)) (did : String) : Except DidMethodError DidDocument := do
  let transformed ← env.transformDidToHttps did.toList
  let url := if useHttp then { transformed.url with scheme := "http".toList } else transformed.url
  let lines ← (served url).mapError (failed "Failed resolving did:webvh: ")
  env.resolveLog params did lines

/-! ### What a resolution tells -/

section Resolution

variable {env} {params : Params} {useHttp : Bool} {did : String} {lines : List Str}
  {doc : DidDocument}

lemma parseLog_eq_ok_iff {entries : List (DidLogEntry × Str)} :
    env.parseLog lines = .ok entries ↔
      List.Forall₂ (fun line e => env.parseEntry line = .ok e.1 ∧ e.2 = line) lines entries := by
  have hent : ∀ (line : Str) (e : DidLogEntry × Str), (do
        let entry ← (env.parseEntry line).mapError (failed "Invalid did log entry: ")
        pure (entry, line) : Except DidMethodError (DidLogEntry × Str)) = .ok e ↔
      env.parseEntry line = .ok e.1 ∧ e.2 = line := by
    intro line e
    simp only [ok_iffs, Prod.ext_iff]
    constructor
    · rintro ⟨entry, hpar, rfl, rfl⟩
      exact ⟨hpar, rfl⟩
    · rintro ⟨hpar, rfl⟩
      exact ⟨_, hpar, rfl, rfl⟩
  simp only [Environment.parseLog, mapM_eq_ok, hent]

lemma verifyScid_eq_ok_iff {scid line : Str} :
    env.verifyScid scid line = .ok () ↔
      ∃ hashed, env.scidInput scid line = .ok hashed ∧ env.entryHash hashed = .ok scid := by
  simp [Environment.verifyScid, ok_iffs]

/-- The log of a DID that is resolved has a first entry with a SCID that is verified, and in its last entry
the document that is returned. -/
lemma exists_of_resolveLog (h : env.resolveLog params did lines = .ok doc) :
    (∃ line entry scid, lines.head? = some line ∧ env.parseEntry line = .ok entry ∧
      entry.parameters.scid = some scid ∧ env.verifyScid scid line = .ok ()) ∧
    ∃ line entry, lines.getLast? = some line ∧ env.parseEntry line = .ok entry ∧
      entry.document = doc ∧ doc.id = did := by
  simp only [Environment.resolveLog, Environment.verifyDidLog, ok_iffs, exists_unit_iff] at h
  obtain ⟨entries, hpar, ⟨-, ⟨first, firstLine⟩, hfst, scid, hscid, hvfy, -⟩, ⟨last, lastLine⟩,
    hlast, hid, rfl⟩ := h
  have hall := parseLog_eq_ok_iff.1 hpar
  obtain ⟨_, hline, hent, rfl⟩ := hall.exists_head? hfst
  obtain ⟨_, hline', hent', rfl⟩ := hall.exists_getLast? hlast
  exact ⟨⟨_, first, scid, hline, hent, hscid, hvfy⟩, _, last, hline', hent', rfl, hid⟩

lemma exists_of_resolveDid {served : Url → Except String (List Str)}
    (h : env.resolveDid params useHttp served did = .ok doc) :
    ∃ url lines, served url = .ok lines ∧ env.resolveLog params did lines = .ok doc := by
  simp only [Environment.resolveDid, ok_iffs] at h
  obtain ⟨transformed, -, lines, hserved, hrsv⟩ := h
  exact ⟨_, lines, hserved, hrsv⟩

end Resolution

/-! ### Self-certification -/

def didScid (did : Str) : Option Str :=
  (stripMethod did).toOption.bind fun didSuffix => (segments didSuffix).head?

namespace Environment

def firstEntry (log : List Str) : Option (DidLogEntry × Str) :=
  log.head?.bind fun line => (env.parseEntry line).toOption.map fun entry => (entry, line)

/-- The SCID is named by the first entry, and it is the hash of this entry. -/
def Certified (log : List Str) (scid : Str) : Prop :=
  ∃ entry line hashed, env.firstEntry log = some (entry, line) ∧ entry.parameters.scid = some scid ∧
    env.scidInput scid line = .ok hashed ∧ env.entryHash hashed = .ok scid

/-- The SCID of the DID is the one that was verified for the log. -/
def SelfCertifying (did : String) (log : List Str) : Prop :=
  ∃ scid, didScid did.toList = some scid ∧ env.Certified log scid

/-- What the SCID of a log is the hash of, in canonical form. -/
def firstEntryText (log : List Str) : Option Str :=
  (env.firstEntry log).bind fun (entry, line) => entry.parameters.scid.bind fun scid =>
    (env.scidInput scid line).toOption.map env.canonicalText

/-- The first entries of the logs do not differ in what the SCID is the hash of. -/
def SameFirstEntry (log log' : List Str) : Prop :=
  ∃ text, env.firstEntryText log = some text ∧ env.firstEntryText log' = some text

/-- The id of the document in the last entry has the SCID that the first entry names. -/
def NamesOwnScid (log : List Str) : Prop :=
  ∃ entry line last lastEntry scid, env.firstEntry log = some (entry, line) ∧
    log.getLast? = some last ∧ env.parseEntry last = .ok lastEntry ∧
    entry.parameters.scid = some scid ∧ didScid lastEntry.document.id.toList = some scid

/-- Different texts have different hashes, and different hashes are written differently. -/
structure HashInjective : Prop where
  sha256 : ∀ {a b hash}, env.sha256 a = .ok hash → env.sha256 b = .ok hash → a = b
  multihashB58Encode : ∀ {a b text}, env.multihashB58Encode a = .ok text →
    env.multihashB58Encode b = .ok text → a = b

end Environment

section SelfCertification

variable {env} {params : Params} {useHttp : Bool} {did : String} {log log' : List Str}
  {doc doc' : DidDocument}

lemma canonicalText_eq_of_entryHash (hinj : env.HashInjective) {v w : JsonValue} {hash : Str}
    (hv : env.entryHash v = .ok hash) (hw : env.entryHash w = .ok hash) :
    env.canonicalText v = env.canonicalText w := by
  simp only [Environment.entryHash, Environment.canonicalizedHash, ok_iffs] at hv hw
  obtain ⟨bytes, hbytes, henc⟩ := hv
  obtain ⟨bytes', hbytes', henc'⟩ := hw
  obtain rfl := hinj.multihashB58Encode henc henc'
  exact hinj.sha256 hbytes hbytes'

/-- A log that is accepted for a DID certifies the DID exactly if it names its own SCID in its last
document. -/
lemma selfCertifying_iff (h : env.resolveDid params useHttp (fun _ => .ok log) did = .ok doc) :
    env.SelfCertifying did log ↔ env.NamesOwnScid log := by
  obtain ⟨_, _, ⟨⟩, hlog⟩ := exists_of_resolveDid h
  obtain ⟨⟨line, entry, scid, hline, hent, hscid, hvfy⟩, last, lastEntry, hlast, hlastE, rfl, rfl⟩ :=
    exists_of_resolveLog hlog
  have hfst : env.firstEntry log = some (entry, line) := by
    simp [Environment.firstEntry, hline, hent, Except.toOption]
  constructor
  · rintro ⟨scid', hdid, entry', line', hashed, hfst', hscid', -, -⟩
    exact ⟨entry', line', last, lastEntry, scid', hfst', hlast, hlastE, hscid', hdid⟩
  · rintro ⟨entry', line', last', lastEntry', scid', hfst', hlast', hlastE', hscid', hdid⟩
    obtain ⟨rfl, rfl⟩ := Prod.mk.inj (mem_unique hfst hfst')
    obtain rfl := mem_unique hlast hlast'
    obtain rfl := ok_unique hlastE hlastE'
    obtain rfl := mem_unique hscid hscid'
    obtain ⟨hashed, hinp, hhash⟩ := verifyScid_eq_ok_iff.1 hvfy
    exact ⟨scid, hdid, entry, line, hashed, hfst, hscid, hinp, hhash⟩

lemma sameFirstEntry_of_selfCertifying (hinj : env.HashInjective)
    (h : env.SelfCertifying did log) (h' : env.SelfCertifying did log') : env.SameFirstEntry log log' := by
  obtain ⟨scid, hdid, entry, line, hashed, hfst, hscid, hinp, hhash⟩ := h
  obtain ⟨scid', hdid', entry', line', hashed', hfst', hscid', hinp', hhash'⟩ := h'
  obtain rfl := mem_unique hdid hdid'
  have htext := canonicalText_eq_of_entryHash hinj hhash hhash'
  refine ⟨env.canonicalText hashed, ?_, ?_⟩
  · simp [Environment.firstEntryText, hfst, hscid, hinp, Except.toOption]
  · simp [Environment.firstEntryText, hfst', hscid', hinp', Except.toOption, htext]

/-- If two logs are accepted for one DID, the SCID of the DID is the one that was verified for both of them,
and their first entries are the same, exactly if each of the logs names the SCID of its first entry in the id
of its last document. -/
theorem resolveDid_selfCertifying_iff (hinjective : env.HashInjective)
    (h : env.resolveDid params useHttp (fun _ => .ok log) did = .ok doc)
    (h' : env.resolveDid params useHttp (fun _ => .ok log') did = .ok doc') :
    (env.SelfCertifying did log ∧ env.SelfCertifying did log' ∧ env.SameFirstEntry log log') ↔
      env.NamesOwnScid log ∧ env.NamesOwnScid log' := by
  rw [← selfCertifying_iff h, ← selfCertifying_iff h']
  constructor
  · rintro ⟨hlog, hlog', -⟩
    exact ⟨hlog, hlog'⟩
  · rintro ⟨hlog, hlog'⟩
    exact ⟨hlog, hlog', sameFirstEntry_of_selfCertifying hinjective hlog hlog'⟩

end SelfCertification

/-! ### Logs of other DIDs -/

def sampleEntry (scid versionId : Str) (id : String) : DidLogEntry where
  versionId := versionId
  versionTime := 0
  parameters := ⟨some .v3, none, none, some ["k".toList], [], some scid, none⟩
  document := ⟨id, [], none, none, none, none, none, ""⟩
  source := .null
  proof := [⟨"eddsa-jcs-2022", "did:key:k#k", none, some versionId, some "z".toList, ""⟩]

def sampleKeyDocument : DidDocument :=
  ⟨"did:key:k", [⟨"did:key:k#k", "Multikey", "did:key:k", .okp ⟨none, none, none, "Ed25519", "", none⟩⟩],
    some ["did:key:k#k"], none, none, none, none, ""⟩

/-- Texts of two entries, which are their own hashes. -/
def Environment.sample (id : String) : Environment Unit where
  now := 0
  parseUrl authority := .ok ⟨"https".toList, authority, []⟩
  parseEntry line :=
    if line = "first".toList then .ok (sampleEntry ['x'] "1-x".toList id)
    else if line = "other".toList then .ok (sampleEntry ['y'] "1-y".toList id)
    else .error "no entry"
  parseJson line :=
    if line = "first".toList then .ok (.array [.string "1-x".toList, .string ['x'], .null, .null, .null])
    else if line = "other".toList then
      .ok (.array [.string "1-y".toList, .string ['y'], .null, .null, .null])
    else .error "no value"
  canonicalText
    | .array (_ :: .string text :: _) => text
    | _ => []
  sha256 text :=
    if text.all fun c => c.toNat < 256 then .ok (text.map fun c => UInt8.ofNat c.toNat) else .error "no hash"
  multihashB58Encode bytes := .ok (bytes.map fun byte => Char.ofNat byte.toNat)
  b58Decode _ := .ok []
  display _ := ""
  displayTime _ := ""
  proofToValue _ := .ok .null
  didOfDidUrl _ := .ok "did:key:k"
  resolve _ := .ok sampleKeyDocument
  parseJwk _ := .ok ()
  publicKeyAsMultibase _ := .ok "k".toList
  verify _ _ _ := .ok ()

def Params.sample : Params := ⟨none, 0⟩

/-- Two logs with different first entries are accepted for a DID with a SCID that is that of neither. -/
theorem foreign_logs_accepted :
    (Environment.sample "did:webvh:a:example.com").resolveDid .sample false
        (fun _ => .ok ["first".toList]) "did:webvh:a:example.com" =
      .ok ⟨"did:webvh:a:example.com", [], none, none, none, none, none, ""⟩ ∧
    (Environment.sample "did:webvh:a:example.com").resolveDid .sample false
        (fun _ => .ok ["other".toList]) "did:webvh:a:example.com" =
      .ok ⟨"did:webvh:a:example.com", [], none, none, none, none, none, ""⟩ ∧
    ¬(Environment.sample "did:webvh:a:example.com").SelfCertifying "did:webvh:a:example.com"
      ["first".toList] ∧
    ¬(Environment.sample "did:webvh:a:example.com").SameFirstEntry ["first".toList] ["other".toList] := by
  refine ⟨by rfl, by rfl, ?_, ?_⟩
  · rintro ⟨scid, hdid, entry, line, hashed, hfst, hscid, -⟩
    have hsegm : didScid "did:webvh:a:example.com".toList = some ['a'] := by decide
    obtain rfl := mem_unique hsegm hdid
    cases hfst
    cases hscid
  · rintro ⟨text, htext, htext'⟩
    cases htext
    cases htext'

lemma hashInjective_sample (id : String) : (Environment.sample id).HashInjective where
  sha256 {a b hash} ha hb := by
    -- Letters below 256 are told apart by their bytes.
    have hletter : ∀ c d : Char, c.toNat < 256 → d.toNat < 256 →
        UInt8.ofNat c.toNat = UInt8.ofNat d.toNat → c = d := by
      intro c d hc hd h
      have hnat : c.toNat = d.toNat := by
        have := congrArg UInt8.toNat h
        rwa [UInt8.toNat_ofNat_of_lt' hc, UInt8.toNat_ofNat_of_lt' hd] at this
      rw [← Char.ofNat_toNat c, hnat, Char.ofNat_toNat]
    simp only [Environment.sample, List.all_eq_true, decide_eq_true_eq] at ha hb
    split at ha
    · next hall =>
      split at hb
      · next hall' =>
        have hmap := Except.ok.inj (ha.trans hb.symm)
        clear ha hb
        induction a generalizing b with
        | nil => exact (List.map_eq_nil_iff.1 hmap.symm).symm
        | cons c a ih =>
          obtain ⟨d, b', rfl, hd, hb'⟩ := List.map_eq_cons_iff.1 hmap.symm
          rw [List.forall_mem_cons] at hall hall'
          rw [hletter c d hall.1 hall'.1 hd.symm, ih hall.2 hall'.2 hb'.symm]
      · cases hb
    · cases ha
  multihashB58Encode {a b text} ha hb := by
    have hbyte : ∀ n m : Fin 256, Char.ofNat n.val = Char.ofNat m.val → n = m := by
      have hval : ∀ n : Fin 256, (Char.ofNat n.val).toNat = n.val := by decide +kernel
      intro n m h
      exact Fin.ext ((hval n).symm.trans ((congrArg Char.toNat h).trans (hval m)))
    have hmap := Except.ok.inj (ha.trans hb.symm)
    refine List.map_injective_iff.2 (fun n m h => ?_) hmap
    have hfin := hbyte ⟨n.toNat, n.toNat_lt⟩ ⟨m.toNat, m.toNat_lt⟩ h
    exact UInt8.toNat.inj (congrArg Fin.val hfin)

/-- A log that names its own SCID certifies the DID with this SCID. -/
theorem own_log_certified :
    (Environment.sample "did:webvh:x:example.com").SelfCertifying "did:webvh:x:example.com"
      ["first".toList] := by
  have hacc : (Environment.sample "did:webvh:x:example.com").resolveDid .sample false
      (fun _ => .ok ["first".toList]) "did:webvh:x:example.com" =
        .ok ⟨"did:webvh:x:example.com", [], none, none, none, none, none, ""⟩ := by rfl
  have hnames : (Environment.sample "did:webvh:x:example.com").NamesOwnScid ["first".toList] :=
    ⟨_, _, _, _, ['x'], rfl, rfl, rfl, rfl, by decide⟩
  exact ((resolveDid_selfCertifying_iff (hashInjective_sample _) hacc hacc).2 ⟨hnames, hnames⟩).1

end OneCore.WebVh
