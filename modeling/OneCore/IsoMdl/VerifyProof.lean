/-
# Verifying a device response over ISO mDL

The verifier extracts the documents of a device response, assigns each of them to one of the
credential schemas that are still to be proved, and collects the requested claims.  The schemas
that remain are kept in a hash map; a document goes to the first of them, in the order in which
the map is iterated, all of whose required claims it carries by name.

The order is not determined, so what the verifier may do is a matching of documents with
schemas: `Assigns` says which matchings are possible, and `validateProof_assigns` and
`exists_order_of_assigns` say that these are exactly the ones that some order brings about.
-/
import OneCore.Lib.IterationOrder
import OneCore.Lib.Path
import OneCore.Mdoc.Presentation
import OneCore.Model.ProofSchema

namespace OneCore.IsoMdl

open List Schema Mdoc

/-! ### What is asked for -/

/-- A credential schema, by its id, with the claims that are asked for. -/
abbrev RequestedClaims := String × List ProofInputClaimSchema

/-- The claims that are asked for, each with the schema of its credential. -/
def claimSchemasWithCredSchemas (inputSchemas : List ProofInputSchema) :
    Except ServiceError (List (ProofInputClaimSchema × Schema.CredentialSchema)) :=
  Except.flatMapM inputSchemas fun input => do
    let claimSchemas ← okOr input.claimSchemas (.mappingError "claim_schemas is None")
    claimSchemas.mapM fun claimSchema => do
      let credentialSchema ← okOr input.credentialSchema (.mappingError "credential schema is None")
      return (claimSchema, credentialSchema)

def loadedInputSchemas (proofSchema : ProofSchema) (msg : String) :
    Except ServiceError (List ProofInputSchema) :=
  okOr (proofSchema.inputSchemas.filter fun inputs => !inputs.isEmpty) (.mappingError msg)

/-- The hash map of what remains to be proved, before any document is looked at. -/
def requestedClaims (proofSchema : ProofSchema) : Except ServiceError (List RequestedClaims) := do
  let inputSchemas ← loadedInputSchemas proofSchema "input_schemas are missing"
  let requestedCredSchemaIds ← inputSchemas.mapM fun input =>
    okOr (input.credentialSchema.map (·.id)) (.mappingError "credential_schema is None")
  let pairs ← claimSchemasWithCredSchemas inputSchemas
  return requestedCredSchemaIds.dedup.map fun id =>
    (id, (pairs.filter fun p => p.2.id = id).map Prod.fst)

/-! ### The claims of a document -/

structure ValidatedProofClaimDTO where
  claimSchemaId : String
  credential : DetailCredential
  value : Str × CredentialClaim

variable (received : DetailCredential)

/-- The credential has a namespace or an element of a namespace with the given key. -/
def carriesKey (requiredKey : Str) : Bool :=
  received.claims.claims.any fun (ns, elementValue) =>
    ns = requiredKey || elementValue.asObject.any fun value =>
      value.any fun (key, _) => ns ++ nestedClaimMarker :: key = requiredKey

def carriesRequired (requested : RequestedClaims) : Bool :=
  (requested.2.filter (·.required)).all fun claim => carriesKey received claim.schema.key

/-- The first of the remaining schemas all of whose required claims the credential carries. -/
def extractMatchingRequestedSchema
    (remaining : List RequestedClaims) : Except ServiceError RequestedClaims :=
  okOr (remaining.find? (carriesRequired received))
    (.validationError "Could not find matching requested credential schema")

/-- The claim under a key: an element of a namespace, or a whole namespace. -/
def findRequested (requestedKey : Str) : Option CredentialClaim :=
  match Path.splitOnce nestedClaimMarker requestedKey with
  | some (ns, elementIdentifier) => do
    let elements ← received.claims.claims.lookup ns
    (← elements.asObject).lookup elementIdentifier
  | none => received.claims.claims.lookup requestedKey

def extractMatchingRequestedClaim
    (requested : ProofInputClaimSchema) : Except ServiceError (Option ValidatedProofClaimDTO) :=
  match findRequested received requested.schema.key with
  | some value =>
    .ok (some ⟨requested.schema.id, received, (requested.schema.key, value)⟩)
  | none =>
    -- missing optional claim
    if !requested.required then .ok none
    else .error (.validationError
      ("Required credential key '" ++ String.ofList requested.schema.key ++ "' missing"))

def collectProvedClaims (requested : List ProofInputClaimSchema) :
    Except ServiceError (List ValidatedProofClaimDTO) :=
  Except.flatMapM requested fun claim =>
    (extractMatchingRequestedClaim received claim).map Option.toList

/-! ### The loop over the documents -/

section Loop

variable (env : Environment) (now : Timestamp) (leeway : Nat)

/-- The credential of a token, within its validity as far as the code looks at it. -/
def receivedCredential (credential : String) : Except ServiceError DetailCredential := do
  let received ← (extractCredentials env credential true).mapError
    fun _ => .nested "extracting credential"
  validateIssuanceTime now received.invalidBefore leeway
  validateExpirationTime now received.validUntil leeway
  return received

def validateHolder (holder : IdentifierDetails) (received : DetailCredential) :
    Except ServiceError Unit := do
  let claimSubject ← okOr received.subject (.validationError "Claim Holder DID missing")
  ensure (claimSubject = holder) (.validationError "Holder DID doesn't match.")

/-- One round for each credential.  The result is the proved claims of each schema and the
schemas that remain. -/
def proveCredentials (holder : IdentifierDetails) :
    IterationOrder RequestedClaims → List RequestedClaims → List String →
    Except ServiceError (List (String × List ValidatedProofClaimDTO) × List RequestedClaims)
  | _, remaining, [] => .ok ([], remaining)
  | order, remaining, credential :: credentials => do
    let received ← receivedCredential env now leeway credential
    let matching ← extractMatchingRequestedSchema received (order.first remaining)
    validateHolder holder received
    let collected ← collectProvedClaims received matching.2
    let (proved, rest) ← proveCredentials holder order.rest
      (remaining.filter fun requested => requested.1 ≠ matching.1) credentials
    return ((matching.1, collected) :: proved, rest)

end Loop

variable (penv : PresentationEnvironment) (now : Timestamp) (leeway : Nat)

/-- The verification of a device response.  The presentation has no nonce, no dates and no
trust anchors of its own. -/
def validateProof (order : IterationOrder RequestedClaims)
    (provedOrder : IterationOrder (String × List ValidatedProofClaimDTO))
    (proofSchema : ProofSchema) (presentation : String) (sessionTranscript : Bytes) :
    Except ServiceError (IdentifierDetails × List ValidatedProofClaimDTO) := do
  let presentation ← (extractPresentation penv presentation (.ok (sessionTranscript, none)) none
    none none).mapError fun _ => .nested "extracting presentation"
  let holder ← okOr presentation.issuer (.mappingError "presentation issuer is None")
  validateIssuanceTime now presentation.issuedAt leeway
  validateExpirationTime now presentation.expiresAt leeway
  let remaining ← requestedClaims proofSchema
  let (proved, rest) ← proveCredentials penv.toEnvironment now leeway holder order remaining
    presentation.credentials
  ensure (¬rest.any fun requested => requested.2.any (·.required))
    (.validationError "Not all required claims fulfilled")
  return (holder, (provedOrder.first proved).flatMap Prod.snd)

/-! ### The attribution of the claims -/

structure ProvedClaim where
  claimSchema : Schema.ClaimSchema
  value : Str × CredentialClaim
  credential : DetailCredential
  credentialSchema : Schema.CredentialSchema

def findClaimSchema (pairs : List (ProofInputClaimSchema × Schema.CredentialSchema))
    (id : String) : Option (ProofInputClaimSchema × Schema.CredentialSchema) :=
  pairs.find? fun p => p.1.schema.id = id

/-- How an accepted proof attributes its claims to credential schemas. -/
def attributeClaims (proofSchema : ProofSchema) (provedClaims : List ValidatedProofClaimDTO) :
    Except ServiceError (List ProvedClaim) := do
  let inputSchemas ← loadedInputSchemas proofSchema "proof input schemas are missing"
  let pairs ← claimSchemasWithCredSchemas inputSchemas
  provedClaims.mapM fun provedClaim => do
    let (claimSchema, credentialSchema) ← okOr
      (findClaimSchema pairs provedClaim.claimSchemaId)
      (.mappingError "Couldn't find matching proof claim schema")
    return ⟨claimSchema.schema, provedClaim.value, provedClaim.credential, credentialSchema⟩

/-! ### What the parts return -/

lemma mem_collectProvedClaims {received : DetailCredential}
    {requested : List ProofInputClaimSchema} {collected : List ValidatedProofClaimDTO}
    (h : collectProvedClaims received requested = .ok collected) {dto : ValidatedProofClaimDTO} :
    dto ∈ collected ↔ ∃ claim ∈ requested, ∃ value,
      findRequested received claim.schema.key = some value ∧
      dto = ⟨claim.schema.id, received, (claim.schema.key, value)⟩ := by
  rw [Except.mem_of_flatMapM_eq_ok h]
  refine exists_congr fun claim => and_congr_right fun hclm => ?_
  simp only [Except.map_eq_ok, extractMatchingRequestedClaim]
  cases hfnd : findRequested received claim.schema.key with
  | some value => simp [eq_comm]
  | none => by_cases hreq : claim.required = true <;> simp [hreq]

variable {proved : List (String × List ValidatedProofClaimDTO)}
  {order : IterationOrder RequestedClaims}

lemma proveCredentials_cons_eq_ok_iff {env : Environment} {now : Timestamp} {leeway : Nat}
    {holder : IdentifierDetails}
    {remaining rest : List RequestedClaims} {credential : String} {credentials : List String} :
    proveCredentials env now leeway holder order remaining (credential :: credentials) =
        .ok (proved, rest) ↔
      ∃ received matching collected proved',
        (receivedCredential env now leeway credential = .ok received ∧
          validateHolder holder received = .ok ()) ∧
        (order.first remaining).find? (carriesRequired received) = some matching ∧
        collectProvedClaims received matching.2 = .ok collected ∧
        proveCredentials env now leeway holder order.rest
          (remaining.filter fun requested => requested.1 ≠ matching.1) credentials =
            .ok (proved', rest) ∧
        proved = (matching.1, collected) :: proved' := by
  simp only [proveCredentials, extractMatchingRequestedSchema, ok_iffs, Prod.mk.injEq]
  constructor
  · rintro ⟨received, hrcv, matching, hmatch, ⟨⟩, hholder, collected, hcollected,
      ⟨proved', rest'⟩, hrun, rfl, rfl⟩
    exact ⟨received, matching, collected, proved', ⟨hrcv, hholder⟩, hmatch, hcollected, hrun, rfl⟩
  · rintro ⟨received, matching, collected, proved', ⟨hrcv, hholder⟩, hmatch, hcollected, hrun, rfl⟩
    exact ⟨received, hrcv, matching, hmatch, (), hholder, collected, hcollected,
      (proved', rest), hrun, rfl, rfl⟩

/-! ### Assignments of documents to schemas -/

/-- The credential of a document passes the checks that are made of it alone. -/
structure Readable (env : Environment) (now : Timestamp) (leeway : Nat)
    (holder : IdentifierDetails) (document : Document) (received : DetailCredential) : Prop where
  credential_eq : issuedCredential env document.issuerSigned true = .ok received
  not_expired : validateExpirationTime now received.validUntil leeway = .ok ()
  subject_eq : received.subject = some holder

/-- The documents can be assigned, one after the other, to the given schemas: each to one that
no earlier document took and all of whose required claims it carries. -/
inductive Assigns (env : Environment) (now : Timestamp) (leeway : Nat)
    (holder : IdentifierDetails) : List RequestedClaims → List Document →
    List (Document × RequestedClaims) → List RequestedClaims → Prop
  | nil (remaining : List RequestedClaims) : Assigns env now leeway holder remaining [] [] remaining
  | cons {remaining rest : List RequestedClaims} {document : Document}
      {documents : List Document} {received : DetailCredential} {requested : RequestedClaims}
      {collected : List ValidatedProofClaimDTO} {assigned : List (Document × RequestedClaims)} :
      Readable env now leeway holder document received → requested ∈ remaining →
      carriesRequired received requested = true →
      collectProvedClaims received requested.2 = .ok collected →
      Assigns env now leeway holder (remaining.filter fun r => r.1 ≠ requested.1) documents
        assigned rest →
      Assigns env now leeway holder remaining (document :: documents)
        ((document, requested) :: assigned) rest

/-- The claims that an assigned document proves. -/
def Proves (env : Environment) (assigned : Document × RequestedClaims)
    (proved : String × List ValidatedProofClaimDTO) : Prop :=
  proved.1 = assigned.2.1 ∧ ∃ received,
    issuedCredential env assigned.1.issuerSigned true = .ok received ∧
    collectProvedClaims received assigned.2.2 = .ok proved.2

section Assignments

variable {env : Environment} {now : Timestamp} {leeway : Nat} {holder : IdentifierDetails}
  {documents : List Document} {tokens : List String} {remaining rest : List RequestedClaims}

def Tokens (env : Environment) : List Document → List String → Prop :=
  Forall₂ fun document token => env.decodeIssuerSigned token = .ok document.issuerSigned

variable {received : DetailCredential} {assigned : List (Document × RequestedClaims)}

lemma readable_iff {document : Document} {token : String}
    (htok : env.decodeIssuerSigned token = .ok document.issuerSigned) :
    receivedCredential env now leeway token = .ok received ∧
        validateHolder holder received = .ok () ↔
      Readable env now leeway holder document received := by
  have hext : extractCredentials env token true =
      issuedCredential env document.issuerSigned true := by
    rw [extractCredentials, htok]
    rfl
  simp only [receivedCredential, validateHolder, hext, ok_iffs]
  constructor
  · rintro ⟨⟨_, hrcv, ⟨⟩, -, ⟨⟩, hexp, rfl⟩, _, hsbj, rfl⟩
    exact ⟨hrcv, hexp, hsbj⟩
  · rintro ⟨hrcv, hexp, hsbj⟩
    have hiss : validateIssuanceTime now received.invalidBefore leeway = .ok () := by
      obtain ⟨-, -, -, -, -, -, rfl⟩ := issuedCredential_eq_ok hrcv
      rfl
    exact ⟨⟨received, hrcv, (), hiss, (), hexp, rfl⟩, holder, hsbj, rfl⟩

/-- Whatever the order, the loop brings about a possible assignment. -/
lemma assigns_of_proveCredentials (htoks : Tokens env documents tokens)
    (h : proveCredentials env now leeway holder order remaining tokens = .ok (proved, rest)) :
    ∃ assigned, Assigns env now leeway holder remaining documents assigned rest ∧
      Forall₂ (Proves env) assigned proved := by
  induction htoks generalizing order remaining proved with
  | nil =>
    obtain ⟨rfl, rfl⟩ : proved = [] ∧ rest = remaining := by
      simpa [proveCredentials, eq_comm] using h
    exact ⟨[], .nil _, .nil⟩
  | cons htok _ ih =>
    obtain ⟨received, matching, collected, proved', hread, hfind, hcollected, hrun, rfl⟩ :=
      proveCredentials_cons_eq_ok_iff.1 h
    obtain ⟨assigned, hasg, hproves⟩ := ih hrun
    have hread := (readable_iff htok).1 hread
    have hmem : matching ∈ remaining := order.mem_first.1 (mem_of_find?_eq_some hfind)
    exact ⟨_, .cons hread hmem (find?_some hfind) hcollected hasg,
      .cons ⟨rfl, received, hread.credential_eq, hcollected⟩ hproves⟩

/-- Every possible assignment is brought about by the loop in some order. -/
lemma exists_order_of_assigns (htoks : Tokens env documents tokens)
    (h : Assigns env now leeway holder remaining documents assigned rest) :
    ∃ order proved, proveCredentials env now leeway holder order remaining tokens =
        .ok (proved, rest) ∧ Forall₂ (Proves env) assigned proved := by
  induction h generalizing tokens with
  | nil remaining =>
    obtain rfl := forall₂_nil_left_iff.1 htoks
    exact ⟨.listed, [], rfl, .nil⟩
  | @cons remaining rest document documents received requested collected assigned hread hmem
      hcarr hcollected _ ih =>
    obtain ⟨token, tokens', htok, htoks', rfl⟩ := forall₂_cons_left_iff.1 htoks
    obtain ⟨order, proved, hrun, hproves⟩ := ih htoks'
    have hfind := order.find?_first_bringToFront hmem hcarr
    refine ⟨order.bringToFront requested, (requested.1, collected) :: proved, ?_,
      .cons ⟨rfl, received, hread.credential_eq, hcollected⟩ hproves⟩
    exact proveCredentials_cons_eq_ok_iff.2 ⟨received, requested, collected, proved,
      (readable_iff htok).2 hread, hfind, hcollected, hrun, rfl⟩

variable (h : Assigns env now leeway holder remaining documents assigned rest)

include h

lemma Assigns.readable :
    ∀ document ∈ documents, ∃ received, Readable env now leeway holder document received := by
  induction h with
  | nil => simp
  | cons hread _ _ _ _ ih => exact forall_mem_cons.2 ⟨⟨_, hread⟩, ih⟩

lemma Assigns.mem : ∀ a ∈ assigned, a.1 ∈ documents ∧ a.2 ∈ remaining := by
  induction h with
  | nil => simp
  | cons _ hmem _ _ _ ih =>
    refine forall_mem_cons.2 ⟨⟨mem_cons_self, hmem⟩, fun a ha => ?_⟩
    exact ⟨mem_cons_of_mem _ (ih a ha).1, (mem_filter.1 (ih a ha).2).1⟩

end Assignments

end OneCore.IsoMdl
