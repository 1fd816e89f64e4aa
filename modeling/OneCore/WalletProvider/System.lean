/-
# The wallet provider under concurrent requests

Any number of requests run at the same time on one database.  A request is cut at its accesses to the
database: it reads, and what it writes later rests on what it has read.  A transaction is one step.

Each step has its own time and the configuration it finds; both are part of the label of the step, so
the configuration may change in the course of a run.
-/
import OneCore.Lib.Interleaving
import OneCore.WalletProvider.Issuance

namespace OneCore.WalletProvider

open IndexMap

/-! ### Calls and their steps -/

inductive Call where
  | register (request : RegisterWalletUnitRequest)
  | activate (id : Nat) (request : WalletUnitActivationRequest)
  /-- An activation, before its write. -/
  | activating (id : Nat) (request : WalletUnitActivationRequest) (prepared : PreparedActivation)
  | issue (id : Nat) (bearerToken : String) (request : IssueWalletUnitAttestationRequest)
  /-- A request for attestations, before its transaction. -/
  | issuing (request : IssueWalletUnitAttestationRequest) (prepared : PreparedIssue)
  | revoke (id : Nat)
  /-- A revocation, before it writes the status of the unit. -/
  | revoking (prepared : PreparedRevocation)
  /-- A revocation, before it marks the entries and returns. -/
  | marking (prepared : PreparedRevocation)

inductive Call.IsRequest : Call → Prop
  | register (request : RegisterWalletUnitRequest) : IsRequest (.register request)
  | activate (id : Nat) (request : WalletUnitActivationRequest) : IsRequest (.activate id request)
  | issue (id : Nat) (bearerToken : String) (request : IssueWalletUnitAttestationRequest) :
      IsRequest (.issue id bearerToken request)
  | revoke (id : Nat) : IsRequest (.revoke id)

inductive Event where
  | registered (id : Nat) (request : RegisterWalletUnitRequest)
  | activationRead (id : Nat) (request : WalletUnitActivationRequest)
      (prepared : PreparedActivation)
  | activationWritten (id : Nat) (request : WalletUnitActivationRequest)
      (prepared : PreparedActivation)
  | issueRead (request : IssueWalletUnitAttestationRequest) (prepared : PreparedIssue)
  | issued (request : IssueWalletUnitAttestationRequest) (prepared : PreparedIssue)
      (response : IssueResponse)
  | revocationRead (prepared : PreparedRevocation)
  | revocationWritten (prepared : PreparedRevocation)
  /-- The revocation has returned without an error. -/
  | revoked (prepared : PreparedRevocation)
  | refused (e : WalletProviderError)

/-- The time of a step, the configuration, and the order in which a hash map is visited. -/
structure Input (Key Der : Type) where
  env : Environment Key Der
  now : Timestamp
  order : IterationOrder Nat

variable {Key Der : Type}

def markEntries (input : Input Key Der) (db : Database) (prepared : PreparedRevocation) :
    Except WalletProviderError Database :=
  match prepared.entries with
  | none => .ok db
  | some (method, infos) => revokeEntries input.env input.order db method infos

/-- The next step of a call: what it does, the database after it, and what is left. -/
def advance (input : Input Key Der) (db : Database) : Call → Event × Database × Option Call
  | .register request =>
    match registerWalletUnit input.env input.now db request with
    | .ok (id, db') => (.registered id request, db', none)
    | .error e => (.refused e, db, none)
  | .activate id request =>
    match readActivation input.env input.now db id request with
    | .ok prepared =>
      (.activationRead id request prepared, db, some (.activating id request prepared))
    | .error e => (.refused e, db, none)
  | .activating id request prepared =>
    match writeActivation input.now db id prepared with
    | .ok db' => (.activationWritten id request prepared, db', none)
    | .error e => (.refused e, db, none)
  | .issue id bearerToken request =>
    match readIssue input.env input.now db id bearerToken request with
    | .ok (prepared, db') => (.issueRead request prepared, db', some (.issuing request prepared))
    | .error e => (.refused e, db, none)
  | .issuing request prepared =>
    match issueTx input.env input.now db prepared with
    | .ok (response, db') => (.issued request prepared response, db', none)
    | .error e => (.refused e, db, none)
  | .revoke id =>
    match readRevocation input.env db id with
    | .ok prepared => (.revocationRead prepared, db, some (.revoking prepared))
    | .error e => (.refused e, db, none)
  | .revoking prepared =>
    match writeRevocation input.now db prepared with
    | .ok db' => (.revocationWritten prepared, db', some (.marking prepared))
    | .error e => (.refused e, db, none)
  | .marking prepared =>
    match markEntries input db prepared with
    | .ok db' => (.revoked prepared, db', none)
    | .error e => (.refused e, db, none)

/-- The steps of the running calls, labelled with their input and what they have done. -/
def Next (db : Database) (call : Call) (label : Input Key Der × Event) (db' : Database)
    (rest : Option Call) : Prop :=
  advance label.1 db call = (label.2, db', rest)

abbrev ProviderConfig (ι : Type) := Interleaving.Config ι Database Call

abbrev ProviderLabel (ι Key Der : Type) := Interleaving.Label ι Call (Input Key Der × Event)

abbrev ProviderTransition (ι Key Der : Type) :=
  Transition (ProviderConfig ι) (ProviderLabel ι Key Der)

/-- One step of the provider: a request arrives or one of the running calls goes on. -/
def ProviderStep {ι : Type} [DecidableEq ι] :
    ProviderConfig ι → ProviderLabel ι Key Der → ProviderConfig ι → Prop :=
  Interleaving.Step Call.IsRequest Next

/-- The run begins when no request has arrived. -/
def ProviderConfig.start (ι : Type) (db : Database) : ProviderConfig ι := ⟨db, fun _ => .idle⟩

/-! ### What a step can do -/

/-- The outcomes of a step, one for each kind of event. -/
inductive Outcome (input : Input Key Der) (db : Database) :
    Call → Event → Database → Option Call → Prop
  | registered {request : RegisterWalletUnitRequest} {id : Nat} {db' : Database}
      (h : registerWalletUnit input.env input.now db request = .ok (id, db')) :
      Outcome input db (.register request) (.registered id request) db' none
  | activationRead {id : Nat} {request : WalletUnitActivationRequest}
      {prepared : PreparedActivation}
      (h : readActivation input.env input.now db id request = .ok prepared) :
      Outcome input db (.activate id request) (.activationRead id request prepared) db
        (some (.activating id request prepared))
  | activationWritten {id : Nat} {request : WalletUnitActivationRequest}
      {prepared : PreparedActivation} {db' : Database}
      (h : writeActivation input.now db id prepared = .ok db') :
      Outcome input db (.activating id request prepared) (.activationWritten id request prepared)
        db' none
  | issueRead {id : Nat} {bearerToken : String} {request : IssueWalletUnitAttestationRequest}
      {prepared : PreparedIssue} {db' : Database}
      (h : readIssue input.env input.now db id bearerToken request = .ok (prepared, db')) :
      Outcome input db (.issue id bearerToken request) (.issueRead request prepared) db'
        (some (.issuing request prepared))
  | issued {request : IssueWalletUnitAttestationRequest} {prepared : PreparedIssue}
      {response : IssueResponse} {db' : Database}
      (h : issueTx input.env input.now db prepared = .ok (response, db')) :
      Outcome input db (.issuing request prepared) (.issued request prepared response) db' none
  | revocationRead {id : Nat} {prepared : PreparedRevocation}
      (h : readRevocation input.env db id = .ok prepared) :
      Outcome input db (.revoke id) (.revocationRead prepared) db (some (.revoking prepared))
  | revocationWritten {prepared : PreparedRevocation} {db' : Database}
      (h : writeRevocation input.now db prepared = .ok db') :
      Outcome input db (.revoking prepared) (.revocationWritten prepared) db'
        (some (.marking prepared))
  | revoked {prepared : PreparedRevocation} {db' : Database}
      (h : markEntries input db prepared = .ok db') :
      Outcome input db (.marking prepared) (.revoked prepared) db' none
  | refused {call : Call} {e : WalletProviderError} :
      Outcome input db call (.refused e) db none

variable {db db' : Database} {call : Call} {event : Event} {input : Input Key Der}
  {rest : Option Call}

lemma Next.outcome (h : Next db call (input, event) db' rest) :
    Outcome input db call event db' rest := by
  unfold Next advance at h
  split at h
  · split at h
    · next hok => cases h; exact .registered hok
    · cases h; exact .refused
  · split at h
    · next hok => cases h; exact .activationRead hok
    · cases h; exact .refused
  · split at h
    · next hok => cases h; exact .activationWritten hok
    · cases h; exact .refused
  · split at h
    · next hok => cases h; exact .issueRead hok
    · cases h; exact .refused
  · split at h
    · next hok => cases h; exact .issued hok
    · cases h; exact .refused
  · split at h
    · next hok => cases h; exact .revocationRead hok
    · cases h; exact .refused
  · split at h
    · next hok => cases h; exact .revocationWritten hok
    · cases h; exact .refused
  · split at h
    · next hok => cases h; exact .revoked hok
    · cases h; exact .refused

/-! ### A small provider -/

/-- The ASN.1 values of the examples. -/
inductive SampleDer where
  | sequence (elements : List SampleDer)
  | set (elements : List SampleDer)
  | bytes (content : Bytes)
  | number (n : Nat)
  | tagged (content : Bytes)

/-- The description of the application: the package, and the digests of its signing certificates. -/
def sampleApplication (digests : List Bytes) : SampleDer :=
  .sequence [.set [.sequence [.bytes (utf8 "app"), .number 1]], .set (digests.map .bytes)]

/-- The description of a key in secure hardware, made for the nonce `"a"`. -/
def sampleKeyDescription : SampleDer :=
  .sequence [.number 3, .number 2, .number 3, .number 2, .bytes (utf8 "a"), .bytes [],
    .sequence [.tagged [2]], .sequence []]

def sampleDer (digests : List Bytes) : DerLibrary SampleDer where
  parseDer data :=
    if data = [1] then .ok ([], sampleKeyDescription)
    else if data = [2] then .ok ([], .bytes [3])
    else if data = [3] then .ok ([], sampleApplication digests)
    else .error "not a value"
  asSequence
    | .sequence elements => .ok elements
    | _ => .error "not a sequence"
  asSet
    | .set elements => .ok elements
    | _ => .error "not a set"
  asSlice
    | .bytes content | .tagged content => .ok content
    | _ => .error "not bytes"
  asU32
    | .number n => .ok n
    | _ => .error "not a number"
  tag
    | .tagged _ => 709
    | _ => 0
  invalidLength := "invalid length"
  berValueError := "invalid value"

def sampleKey (name : String) : PublicJwk := .okp ⟨none, none, none, "Ed25519", name, none⟩

/-- The provider of the examples.  A key is its JWK, every signature is accepted, a token is the name
of the key it is signed with, and every chain reaches the CA. -/
def sampleEnvironment (digests : List Bytes) (revocationMethod : Option String) :
    Environment PublicJwk SampleDer where
  lib := {
    der := sampleDer digests
    x5cIntoPemChain := fun _ => .ok "chain"
    derChainIntoPemChain := fun _ => "chain"
    validateChainAgainstCaChain := fun _ _ _ =>
      .ok ⟨[(Android.attestationExtensionOid, "01")], none, sampleKey "attested"⟩
    hexDecode := fun _ => .ok [1]
    fromUtf8Lossy := fun bytes => String.ofList (bytes.map fun b => Char.ofNat b.toNat)
    sha256 := fun _ => .error "no hash"
    decodeCborBase64 := fun _ => .error .missingProof
    decodeWebAuthnSignature := fun _ => .error "no signature"
    ecdsaSigFromDer := fun _ => .error "no signature" }
  lists := ⟨some "https://provider", fun _ _ _ _ => .ok "list"⟩
  getIfEnabled _ := .ok {
    walletClientId := "wallet"
    walletInstanceAttestation := ⟨60, ⟨some ⟨"app", ["0A"], ["ca"]⟩, none, true, 300⟩⟩
    walletUnitAttestation := ⟨60, revocationMethod⟩
    deviceAuthLeeway := 60
    eudiProviderName := none }
  revocationType _ := some .tokenStatusList
  hasRevocationMethod _ := true
  keyAlgorithmFromJoseAlg _ := some .eddsa
  parseKeyOf _ jwk := .ok jwk
  parseKey jwk := .ok jwk
  publicKeyAsJwk key := .ok key
  verify _ _ _ := .ok ()
  decomposeToken name := .ok {
    header := ⟨"EdDSA", none, some (sampleKey name), none⟩
    payload := ⟨none, some 0, none, some ["https://provider"], ⟨some 0, some "a"⟩⟩
    signature := []
    unverifiedJwt := [] }
  getKeyInfo _ := .ok ⟨some "EdDSA", fun _ => .ok "instance attestation", fun _ => .ok "attestation"⟩
  isUrl _ := true
  isUrl_list _ _ _ := rfl
  generateAlphanumeric n := String.ofList (List.replicate n 'a')

def sampleDatabase : Database where
  organisations := empty.insert "organisation" ⟨none, some "provider", some "issuer"⟩
  identifiers := empty.insert "issuer" ⟨none⟩
  walletUnits := empty
  attestedKeys := empty
  revocationLists := empty
  entries := empty
  nextId := 1

def sampleInput (digests : List Bytes) (revocationMethod : Option String) :
    Input PublicJwk SampleDer :=
  ⟨sampleEnvironment digests revocationMethod, 0, .listed⟩

end OneCore.WalletProvider
