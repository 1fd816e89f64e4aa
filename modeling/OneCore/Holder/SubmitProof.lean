/-
# Submission of a proof by the holder

The holder answers a proof request with credentials of their choice for each requested
credential.  There are two versions of this: in the first the holder names the claims to
disclose, in the second the paths of optional claims.  Both look the request up, check the
choice against it, and prepare a presentation of each chosen credential.

A choice is a hash map, here the list of its entries.  Storage and formatters are functions of an
environment.  The presentations are then handed to the verification protocol, which is not part
of this file.
-/
import OneCore.Lib.Path
import OneCore.Model.ProofSchema

namespace OneCore.Holder

inductive HolderServiceError where
  | emptyPresentationSubmission
  | missingProofForInteraction (interactionId : String)
  | missingCredential (credentialId : String)
  | missingCredentialData (credentialId : String)
  | invalidPresentationSubmission (reason : String)
  | mappingError (msg : String)
  | nested (msg : String)

/-! ### Stored data -/

inductive PresentationDefinitionVersion where
  | v1
  | v2
deriving DecidableEq

structure HolderProof where
  id : String
  state : ProofState
  protocol : String
  interactionData : Option (List UInt8)

structure HolderClaim where
  id : String
  path : Str
  selectivelyDisclosable : Bool
  /-- Whether its schema is one of metadata, if the schema is there. -/
  metadata : Option Bool
deriving DecidableEq

/-- A credential of the holder.  Its key comes with the holder's DID and the id of the key in it,
if the holder is known by a DID. -/
structure HolderCredential where
  id : String
  claims : Option (List HolderClaim)
  credentialBlobId : Option String
  schema : Option Schema.CredentialSchema
  holderDidKeyJwk : Except HolderServiceError (Option String × String × Option String)

/-- What a credential formatter is to disclose of a token. -/
structure CredentialPresentation where
  token : String
  disclosedKeys : List Str

structure FormattedCredentialPresentation where
  presentation : String
  credentialSchema : Schema.CredentialSchema
  reference : String
  holderDid : Option String
  key : String
  jwkKeyId : Option String

/-! ### Requests -/

structure PresentationDefinitionField where
  id : String
  /-- The claim path in each credential. -/
  keyMap : List (String × Str)

structure RequestedCredential where
  id : String
  fields : List PresentationDefinitionField
  multiple : Option Bool

/-- A claim of an applicable credential, with the claims inside it. -/
inductive ClaimExt where
  | mk (path : Str) (userSelection required : Bool) (children : List ClaimExt)

structure ApplicableCredential where
  id : String
  claims : List ClaimExt

structure CredentialQueryResponse where
  multiple : Bool
  /-- The credentials that can be chosen; none if there is only a hint at what is missing. -/
  applicableCredentials : Option (List ApplicableCredential)

structure CredentialSetResponse where
  required : Bool
  options : List (List String)

structure PresentationDefinitionV2 where
  credentialQueries : IndexMap String CredentialQueryResponse
  credentialSets : List CredentialSetResponse

structure VerificationProtocol where
  supportedPresentationDefinition : List PresentationDefinitionVersion
  /-- The requested credentials in their groups. -/
  holderGetPresentationDefinition : HolderProof → JsonValue →
    Except String (List (List RequestedCredential))
  holderGetPresentationDefinitionV2 : HolderProof → JsonValue →
    Except String PresentationDefinitionV2

structure Environment where
  getProofByInteractionId : String → Except String (Option HolderProof)
  getCredential : String → Except String (Option HolderCredential)
  getProtocol : String → Option VerificationProtocol
  getBlob : String → Except String (Option (List UInt8))
  fromUtf8 : List UInt8 → Except String String
  parseJson : List UInt8 → Except String JsonValue
  /-- The selective disclosure of the formatter for a token of a credential schema. -/
  formatterForBlobAndSchema : String → Schema.CredentialSchema →
    Except String (CredentialPresentation → Except String String)

variable (env : Environment)

/-! ### Common checks -/

def requestedProof (interactionId : String) : Except HolderServiceError HolderProof := do
  let proof ← (env.getProofByInteractionId interactionId).mapError .nested
  okOr proof (.missingProofForInteraction interactionId)

def protocolFor (proof : HolderProof) : Except HolderServiceError VerificationProtocol :=
  okOr (env.getProtocol proof.protocol) (.nested "getting protocol")

/-- The request is of the given version and has not been answered; its data is returned. -/
def interactionData (proof : HolderProof) (protocol : VerificationProtocol)
    (version : PresentationDefinitionVersion) : Except HolderServiceError JsonValue := do
  ensure (version ∈ protocol.supportedPresentationDefinition) (.nested "checking endpoint version")
  ensure (proof.state = .requested) (.nested "checking proof state")
  let data ← okOr proof.interactionData (.mappingError "missing interaction")
  (env.parseJson data).mapError .mappingError

def credentialContent (blobId : String) (missing : HolderServiceError) :
    Except HolderServiceError String := do
  let blob ← (env.getBlob blobId).mapError .nested
  let blob ← okOr blob missing
  (env.fromUtf8 blob).mapError .mappingError

/-! ### The first version -/

structure SubmittedCredential where
  credentialId : String
  submitClaims : List String

structure PresentationSubmitRequest where
  interactionId : String
  submitCredentials : List (String × List SubmittedCredential)

/-- The path without its last segment. -/
def parentPath (path : Str) : Option Str :=
  (Path.splitOnce nestedClaimMarker path.reverse).map fun p => p.2.reverse

/-- A claim is disclosed with the claims above and below it; one that cannot be withheld is
disclosed with its parent. -/
def IsDisclosed (submittedPaths : List Str) (disclosed : List HolderClaim) (claim : HolderClaim) :
    Prop :=
  (∃ path ∈ submittedPaths, Path.AtOrBelow nestedClaimMarker path claim.path ∨
    Path.Below nestedClaimMarker claim.path path) ∨
  claim.selectivelyDisclosable = false ∧
    ∀ parent ∈ parentPath claim.path, ∃ c ∈ disclosed, c.path = parent

instance (submittedPaths : List Str) (disclosed : List HolderClaim) (claim : HolderClaim) :
    Decidable (IsDisclosed submittedPaths disclosed claim) :=
  inferInstanceAs (Decidable (_ ∨ _))

def disclosedClaimsForCredential (credential : HolderCredential) (submittedPaths : List Str) :
    Except HolderServiceError (List HolderClaim) := do
  let claims ← okOr credential.claims (.mappingError "claims missing")
  -- parents before children
  let sorted := (claims.filter fun claim => claim.metadata = some false).insertionSort
    fun a b => a.path ≤ b.path
  return sorted.foldl (fun disclosed claim =>
    if IsDisclosed submittedPaths disclosed claim then disclosed ++ [claim] else disclosed) []

def loadCredentials (submitCredentials : List (String × List SubmittedCredential)) :
    Except HolderServiceError (IndexMap String HolderCredential) :=
  (submitCredentials.flatMap Prod.snd).foldlM (fun credentials submitted => do
    let credential ← (env.getCredential submitted.credentialId).mapError .nested
    let credential ← okOr credential (.missingCredential submitted.credentialId)
    return credentials.insert credential.id credential) IndexMap.empty

/-- How many credentials may be submitted for a requested credential. -/
def checkMultiple (requested : RequestedCredential) (submitted : List SubmittedCredential) :
    Except HolderServiceError Unit :=
  ensure (¬(requested.multiple.getD false = true ∧ submitted.length > 1)) (.mappingError
    ("multiple credentials not supported for requested credential `" ++ requested.id ++ "`"))

def submittedPaths (requested : RequestedCredential) (submitted : SubmittedCredential) :
    Except HolderServiceError (List Str) :=
  (requested.fields.filter fun field => field.id ∈ submitted.submitClaims).mapM fun field =>
    okOr (field.keyMap.lookup submitted.credentialId) (.mappingError
      ("no matching key for credential_id `" ++ submitted.credentialId ++ "`"))

def presentCredential (credentials : IndexMap String HolderCredential)
    (requested : RequestedCredential) (submitted : SubmittedCredential) :
    Except HolderServiceError (FormattedCredentialPresentation × List HolderClaim) := do
  let paths ← submittedPaths requested submitted
  let credential ← okOr (credentials.get? submitted.credentialId)
    (.missingCredential submitted.credentialId)
  let blobId ← okOr credential.credentialBlobId (.missingCredentialData submitted.credentialId)
  let content ← credentialContent env blobId (.missingCredentialData submitted.credentialId)
  let schema ← okOr credential.schema (.mappingError "credential_schema missing")
  let disclosed ← disclosedClaimsForCredential credential paths
  let prepareSelectiveDisclosure ←
    (env.formatterForBlobAndSchema content schema).mapError .nested
  let (holderDid, key, jwkKeyId) ← credential.holderDidKeyJwk
  let presentation ← (prepareSelectiveDisclosure ⟨content, paths⟩).mapError .nested
  return (⟨presentation, schema, requested.id, holderDid, key, jwkKeyId⟩, disclosed)

def presentRequested (credentials : IndexMap String HolderCredential)
    (requestedCredentials : List RequestedCredential) (entry : String × List SubmittedCredential) :
    Except HolderServiceError (List (FormattedCredentialPresentation × List HolderClaim)) := do
  let requested ← okOr (requestedCredentials.find? fun r => r.id = entry.1)
    (.mappingError ("requested credential `" ++ entry.1 ++ "` not found"))
  checkMultiple requested entry.2
  entry.2.mapM (presentCredential env credentials requested)

def requestedCredentials (proof : HolderProof) :
    Except HolderServiceError (List RequestedCredential) := do
  let protocol ← protocolFor env proof
  let data ← interactionData env proof protocol .v1
  let groups ← (protocol.holderGetPresentationDefinition proof data).mapError .nested
  return groups.flatten

variable (submission : PresentationSubmitRequest)

def submitProof :
    Except HolderServiceError (List (FormattedCredentialPresentation × List HolderClaim)) := do
  ensure (submission.submitCredentials ≠ []) .emptyPresentationSubmission
  let proof ← requestedProof env submission.interactionId
  let credentials ← loadCredentials env submission.submitCredentials
  let requested ← requestedCredentials env proof
  Except.flatMapM submission.submitCredentials (presentRequested env credentials requested)

/-! ### The second version -/

structure CredentialSelection where
  credentialId : String
  /-- The paths of the optional claims that the holder has selected. -/
  userSelections : List Str

structure PresentationSubmitV2Request where
  interactionId : String
  submission : List (String × List CredentialSelection)

structure CredentialPathsToPresent where
  credentialId : String
  presentedPaths : List Str

/-- Remove the first occurrence of an element and put the last element in its place. -/
def swapRemove (l : List Str) (a : Str) : List Str :=
  match l.idxOf? a, l.getLast? with
  | some i, some last => (l.set i last).dropLast
  | _, _ => l

/-- Is the claim to be presented?  A selection is used up once it is found. -/
def isSelectedClaim (path : Str) (userSelection required : Bool) (selections : List Str) :
    Except HolderServiceError (Bool × List Str) := do
  let isSelected : Bool := path ∈ selections
  ensure (isSelected = true → userSelection = true) (.invalidPresentationSubmission
    ("Path `" ++ String.ofList path ++ "` is not a valid user selection"))
  let rest := if isSelected then swapRemove selections path else selections
  let isChildOrParent : Bool := rest.any fun selected =>
    decide (Path.Below nestedClaimMarker path selected) ||
      decide (Path.Below nestedClaimMarker selected path)
  return (required || isSelected || isChildOrParent, rest)

mutual

/-- The paths to present of a claim and of the claims inside it, after those found already. -/
def selectClaims (selections selected : List Str) :
    ClaimExt → Except HolderServiceError (List Str × List Str)
  | .mk path userSelection required children => do
    let (isSelected, rest) ← isSelectedClaim path userSelection required selections
    if isSelected then selectChildren rest (selected ++ [path]) children
    else return (rest, selected)

def selectChildren (selections selected : List Str) :
    List ClaimExt → Except HolderServiceError (List Str × List Str)
  | [] => .ok (selections, selected)
  | claim :: claims => do
    let (rest, selected) ← selectClaims selections selected claim
    selectChildren rest selected claims

end

def presentedClaimPathsFromNestedWithSelection (credential : ApplicableCredential)
    (userSelections : List Str) : Except HolderServiceError (List Str) := do
  let (rest, presented) ← selectChildren userSelections [] credential.claims
  ensure (rest = []) (.invalidPresentationSubmission
    ("Invalid user selections for credential `" ++ credential.id ++
      "`. The following selection paths do not match any known claim: [" ++
      ", ".intercalate (rest.map String.ofList) ++ "]"))
  return presented

def pathsToPresent (queryId : String) (applicable : List ApplicableCredential)
    (selection : CredentialSelection) : Except HolderServiceError CredentialPathsToPresent := do
  ensure selection.userSelections.Nodup (.invalidPresentationSubmission
    ("Invalid user selections for credential `" ++ selection.credentialId ++ "` for `" ++ queryId ++
      "`: user selections contain duplicate paths"))
  let selected ← okOr (applicable.find? fun c => c.id = selection.credentialId)
    (.invalidPresentationSubmission ("Credential `" ++ selection.credentialId ++
      "` is not applicable for credential query id `" ++ queryId ++ "`"))
  let paths ← presentedClaimPathsFromNestedWithSelection selected selection.userSelections
  return ⟨selection.credentialId, paths⟩

/-- How many credentials may be selected for a credential query. -/
def checkMultipleV2 (queryId : String) (query : CredentialQueryResponse)
    (selection : List CredentialSelection) : Except HolderServiceError Unit :=
  ensure (¬(selection.length > 1 ∧ query.multiple = false)) (.invalidPresentationSubmission
    ("Only one submission allowed for credential query id `" ++ queryId ++ "`"))

def getCredentialPathsToPresent (definition : PresentationDefinitionV2)
    (entry : String × List CredentialSelection) :
    Except HolderServiceError (String × List CredentialPathsToPresent) := do
  let query ← okOr (definition.credentialQueries.get? entry.1)
    (.invalidPresentationSubmission ("Unknown credential query id `" ++ entry.1 ++ "`"))
  let applicable ← okOr query.applicableCredentials (.invalidPresentationSubmission
    ("No applicable credentials for query id `" ++ entry.1 ++ "`"))
  checkMultipleV2 entry.1 query entry.2
  let paths ← entry.2.mapM (pathsToPresent entry.1 applicable)
  return (entry.1, paths)

/-- One of the options of a mandatory credential set has to be satisfied. -/
def checkCredentialSet (chosen : List (String × List CredentialPathsToPresent))
    (set : CredentialSetResponse × Nat) : Except HolderServiceError Unit :=
  ensure (set.1.required = true → ∃ option ∈ set.1.options, ∀ queryId ∈ option,
      queryId ∈ chosen.map Prod.fst)
    (.invalidPresentationSubmission
      ("No option satisfied for mandatory credential set with index `" ++ toString set.2 ++
        "`. Options are: [" ++ ", ".intercalate (set.1.options.map fun option =>
          "[" ++ ", ".intercalate option ++ "]") ++ "]"))

/-- The paths that have no other path below them. -/
def pathsToLeafs (presentedPaths : List Str) : List Str :=
  (presentedPaths.insertionSort fun a b => b ≤ a).foldl (fun leafs key =>
    if ∃ leaf ∈ leafs, leaf = key ∨ Path.Below nestedClaimMarker key leaf then leafs
    else leafs ++ [key]) []

def getCredentialPresentation (queryId : String) (chosen : CredentialPathsToPresent) :
    Except HolderServiceError (FormattedCredentialPresentation × List HolderClaim) := do
  let credential ← (env.getCredential chosen.credentialId).mapError .nested
  let credential ← okOr credential (.missingCredential chosen.credentialId)
  let blobId ← okOr credential.credentialBlobId
    (.mappingError ("Missing blob id on credential `" ++ chosen.credentialId ++ "`"))
  let content ← credentialContent env blobId (.mappingError ("Blob with id `" ++ blobId ++
    "` (belonging to credential `" ++ chosen.credentialId ++ "`) not found"))
  let schema ← okOr credential.schema (.mappingError "credential_schema missing")
  let prepareSelectiveDisclosure ←
    (env.formatterForBlobAndSchema content schema).mapError .nested
  let presentation ← (prepareSelectiveDisclosure
    ⟨content, pathsToLeafs chosen.presentedPaths⟩).mapError .nested
  let (holderDid, key, jwkKeyId) ← credential.holderDidKeyJwk
  let claims ← okOr credential.claims
    (.mappingError ("Missing claims on credential `" ++ chosen.credentialId ++ "`"))
  return (⟨presentation, schema, queryId, holderDid, key, jwkKeyId⟩,
    claims.filter fun claim => claim.path ∈ chosen.presentedPaths)

def presentationDefinitionV2 (proof : HolderProof) :
    Except HolderServiceError PresentationDefinitionV2 := do
  let protocol ← protocolFor env proof
  let data ← interactionData env proof protocol .v2
  (protocol.holderGetPresentationDefinitionV2 proof data).mapError .nested

variable (request : PresentationSubmitV2Request)

def submitProofV2 :
    Except HolderServiceError (List (FormattedCredentialPresentation × List HolderClaim)) := do
  ensure (request.submission ≠ []) .emptyPresentationSubmission
  let proof ← requestedProof env request.interactionId
  let definition ← presentationDefinitionV2 env proof
  let chosen ← request.submission.mapM (getCredentialPathsToPresent definition)
  forM definition.credentialSets.zipIdx (checkCredentialSet chosen)
  Except.flatMapM chosen fun entry => entry.2.mapM (getCredentialPresentation env entry.1)

/-! ### The number of credentials -/

def Answers (entry : String × List SubmittedCredential)
    (requested : RequestedCredential) : Prop :=
  entry ∈ submission.submitCredentials ∧ ∃ proof credentials,
    requestedProof env submission.interactionId = .ok proof ∧
    requestedCredentials env proof = .ok credentials ∧
    (credentials.find? fun r => r.id = entry.1) = some requested

def AnswersV2 (entry : String × List CredentialSelection)
    (query : CredentialQueryResponse) : Prop :=
  entry ∈ request.submission ∧ ∃ proof definition,
    requestedProof env request.interactionId = .ok proof ∧
    presentationDefinitionV2 env proof = .ok definition ∧
    definition.credentialQueries.get? entry.1 = some query

/-- A check of the number of credentials passes exactly if several are allowed, and a submission
is accepted only if the check passes. -/
structure RefusesExactly (check : Except HolderServiceError Unit) (accepted : Prop)
    (multiple : Bool) : Prop where
  passes_iff : check = .ok () ↔ multiple = true
  decisive : accepted → check = .ok ()

/-- More than one credential is refused exactly if `multiple` is not set. -/
def RefusesMany : Prop :=
  ∀ entry requested, Answers env submission entry requested → 1 < entry.2.length →
    RefusesExactly (checkMultiple requested entry.2)
      (∃ presentations, submitProof env submission = .ok presentations)
      (requested.multiple.getD false)

def RefusesManyV2 : Prop :=
  ∀ entry query, AnswersV2 env request entry query → 1 < entry.2.length →
    RefusesExactly (checkMultipleV2 entry.1 query entry.2)
      (∃ presentations, submitProofV2 env request = .ok presentations) query.multiple

variable {env}

lemma checkMultipleV2_of_submitProofV2 {request : PresentationSubmitV2Request}
    {presentations : List (FormattedCredentialPresentation × List HolderClaim)}
    (h : submitProofV2 env request = .ok presentations)
    {entry : String × List CredentialSelection} {query : CredentialQueryResponse}
    (hans : AnswersV2 env request entry query) :
    checkMultipleV2 entry.1 query entry.2 = .ok () := by
  obtain ⟨hent, proof, definition, hprf, hdfn, hget⟩ := hans
  simp only [submitProofV2, bind_eq_ok] at h
  obtain ⟨⟨⟩, -, proof', hprf', definition', hdfn', chosen, hchosen, -⟩ := h
  obtain rfl := ok_unique hprf hprf'
  obtain rfl := ok_unique hdfn hdfn'
  obtain ⟨_, -, hpaths⟩ := (mapM_eq_ok.1 hchosen).exists_of_mem_left hent
  simp only [getCredentialPathsToPresent, ok_iffs] at hpaths
  obtain ⟨query', hget', _, -, ⟨⟩, hchk, -⟩ := hpaths
  obtain rfl := mem_unique hget hget'
  exact hchk

/-- In the first version the test is the wrong way around, so that it is right only where there is
nothing to test. -/
lemma refusesMany_iff {submission : PresentationSubmitRequest} :
    RefusesMany env submission ↔ ∀ entry requested, Answers env submission entry requested →
      entry.2.length ≤ 1 := by
  constructor
  · intro h entry requested hans
    by_contra hmany
    have hlen : 1 < entry.2.length := Nat.lt_of_not_le hmany
    have hpasses := (h entry requested hans hlen).passes_iff
    have hchk : checkMultiple requested entry.2 = .ok () ↔
        ¬requested.multiple.getD false = true := by
      simp [checkMultiple, hlen]
    rw [hchk] at hpasses
    exact (iff_not_self hpasses.symm).elim
  · intro h entry requested hans hlen
    exact absurd (h entry requested hans) (Nat.not_le_of_lt hlen)

lemma refusesManyV2 : RefusesManyV2 env request := by
  intro entry query hans hlen
  refine ⟨?_, ?_⟩
  · simp [checkMultipleV2, hlen]
  · rintro ⟨presentations, h⟩
    exact checkMultipleV2_of_submitProofV2 h hans

end OneCore.Holder
