/-
# SD-JWTs in the IETF form

The credential formatter for SD-JWTs that name their type in the claim `vct`.  Once the signature
is checked and the disclosures are put in place, the token is turned into a credential: its
public claims and, over them, the metadata claims.  So the type of the token is among the claims
of the credential, whatever the public claims say.
-/
import OneCore.Model.ProofSchema
import OneCore.Model.Verification

namespace OneCore.SdJwtVcFormatter

/-- A position in a status list; other status mechanisms are not read. -/
structure SdJwtVcStatus where
  index : Nat
  uri : Str

structure SdJwtVc where
  vcType : Str
  status : Option SdJwtVcStatus
  publicClaims : List (Str × CredentialClaim)

structure Token where
  jwtId : Option String
  issuedAt : Option Timestamp
  expiresAt : Option Timestamp
  invalidBefore : Option Timestamp
  proofOfPossessionKey : Option PublicJwk
  /-- The payload as a JSON object. -/
  serialized : List (Str × JsonValue)
  custom : SdJwtVc

structure Environment where
  /-- The token with its disclosures in place and its issuer, after the check of its
  signature. -/
  buildFromTokenWithDisclosures : TokenVerifier → String →
    Except FormatterError (Token × IdentifierDetails)
  swiyuMode : Bool
  /-- Is the data type that of pictures without their prefix? -/
  isSwiyuPicture : String → Bool

/-! ### Metadata claims -/

def registeredClaims : List Str :=
  ["iss".toList, "aud".toList, "sub".toList, "jti".toList, "exp".toList, "nbf".toList, "iat".toList]

/-- Issuers under an old name of a DID method are given its new name. -/
def normalizedClaim (key : Str) (claim : JsonValue) : JsonValue :=
  match claim with
  | .string s =>
    if key = "iss".toList ∧ "did:tdw:".toList.isPrefixOf s then
      .string ("did:webvh:".toList ++ s.drop 8)
    else .string s
  | claim => claim

/-- Add a registered claim, if the token has it. -/
def insertRegistered (serialized : List (Str × JsonValue))
    (result : List (Str × CredentialClaim)) (key : Str) :
    Except FormatterError (List (Str × CredentialClaim)) :=
  match serialized.lookup key with
  | none => .ok result
  | some claim => do
    let value ← CredentialClaimValue.tryFrom (normalizedClaim key claim)
    return mapInsert key ((CredentialClaim.mk false false value).setMetadata true) result

/-- The claims that a hash map has after it is extended with others. -/
def extendClaims (claims added : List (Str × CredentialClaim)) : List (Str × CredentialClaim) :=
  added.foldl (fun claims c => mapInsert c.1 c.2 claims) claims

def vctKey : Str := "vct".toList

/-- The metadata claims of a token: the registered ones, and its type. -/
def getMetadataClaims (token : Token) : Except FormatterError (List (Str × CredentialClaim)) := do
  let result ← registeredClaims.foldlM (insertRegistered token.serialized) []
  return extendClaims result [(vctKey, .mk false true (.string token.custom.vcType))]

/-! ### Pictures -/

/-- Change the text at a path, which is taken from its end. -/
def postProcessFromEnd (process : Str → Str) :
    List Str → List (Str × CredentialClaim) → List (Str × CredentialClaim)
  | [], claims => claims
  | current :: path, claims =>
    match claims.lookup current with
    | none => claims
    | some (.mk sd md value) =>
      match path, value with
      | [], .string s => mapInsert current (.mk sd md (.string (process s))) claims
      | [], _ => claims
      | _ :: _, .object fields =>
        mapInsert current (.mk sd md (.object (postProcessFromEnd process path fields))) claims
      | _ :: _, _ => claims

def postProcessClaims (path : List Str) (claims : List (Str × CredentialClaim))
    (process : Str → Str) : List (Str × CredentialClaim) :=
  postProcessFromEnd process path.reverse claims

/-- The prefix of the data of a picture; the first bytes of a PNG are told by their encoding. -/
def addDataUriPrefix (value : Str) : Str :=
  if "iVBORw0K".toList.isPrefixOf value then "data:image/png;base64,".toList ++ value
  else "data:image/jpeg;base64,".toList ++ value

/-- The public claims, with the pictures of the credential schema given their prefixes. -/
def withPictures (env : Environment) (credentialSchema : Option Schema.CredentialSchema)
    (claims : List (Str × CredentialClaim)) : List (Str × CredentialClaim) :=
  match env.swiyuMode, credentialSchema.bind (·.claimSchemas) with
  | true, some claimSchemas =>
    (claimSchemas.filter fun s => env.isSwiyuPicture s.dataType).foldl
      (fun claims s =>
        postProcessClaims (s.key.splitOn nestedClaimMarker) claims addDataUriPrefix) claims
  | _, _ => claims

/-! ### Credentials -/

def credentialStatusFromSdjwtStatus (status : Option SdJwtVcStatus) : List CredentialStatus :=
  status.toList.map fun status => tokenStatusListEntry status.uri status.index

def extractCredentials (env : Environment) (verification : TokenVerifier) (token : String)
    (credentialSchema : Option Schema.CredentialSchema) :
    Except FormatterError DetailCredential := do
  let (jwt, issuer) ← env.buildFromTokenWithDisclosures verification token
  let publicClaims := withPictures env credentialSchema jwt.custom.publicClaims
  let metadataClaims ← getMetadataClaims jwt
  return {
    id := jwt.jwtId
    issuanceDate := jwt.issuedAt
    validFrom := jwt.issuedAt
    validUntil := jwt.expiresAt
    updateAt := none
    invalidBefore := jwt.invalidBefore
    issuer := issuer
    subject := jwt.proofOfPossessionKey.map .key
    claims := ⟨none, extendClaims publicClaims metadataClaims⟩
    status := credentialStatusFromSdjwtStatus jwt.custom.status
    credentialSchema := none }

/-! ### The type of a credential -/

/-- A key that is only added with one value has that value afterwards. -/
lemma lookup_extendClaims {claims added : List (Str × CredentialClaim)} {k : Str}
    {v : CredentialClaim} (hadded : (k, v) ∈ added ∨ claims.lookup k = some v)
    (huniq : ∀ e ∈ added, e.1 = k → e.2 = v) : (extendClaims claims added).lookup k = some v := by
  unfold extendClaims
  induction added generalizing claims with
  | nil => simpa using hadded
  | cons e added ih =>
    obtain ⟨hhead, htail⟩ := List.forall_mem_cons.1 huniq
    refine ih ?_ htail
    rw [lookup_mapInsert]
    by_cases hk : k = e.1
    · rw [if_pos hk, hhead hk.symm]
      exact Or.inr rfl
    · rw [if_neg hk]
      refine hadded.imp_left fun hmem => ?_
      exact (List.mem_cons.1 hmem).resolve_left fun he => hk (congrArg Prod.fst he)

/-- The registered claims of a token do not contain its type. -/
lemma key_of_mem_registered {serialized : List (Str × JsonValue)}
    {result : List (Str × CredentialClaim)}
    (h : registeredClaims.foldlM (insertRegistered serialized) [] = .ok result) :
    ∀ e ∈ result, e.1 ∈ registeredClaims := by
  refine Except.foldlM_invariant (P := fun result => ∀ e ∈ result, e.1 ∈ registeredClaims) h
    (by simp) fun claims key claims' hkey hcls hinsert => ?_
  unfold insertRegistered at hinsert
  cases hlkp : serialized.lookup key with
  | none =>
    rw [hlkp] at hinsert
    cases hinsert
    exact hcls
  | some claim =>
    simp only [hlkp, ok_iffs] at hinsert
    obtain ⟨value, -, rfl⟩ := hinsert
    intro e he
    rcases mem_mapInsert he with rfl | he
    · exact hkey
    · exact hcls e he

/-- The type of the token is the claim `vct` of the credential. -/
lemma lookup_vct_of_extractCredentials {env : Environment} {verification : TokenVerifier}
    {token : String} {credentialSchema : Option Schema.CredentialSchema}
    {credential : DetailCredential}
    (h : extractCredentials env verification token credentialSchema = .ok credential) :
    ∃ jwt issuer, env.buildFromTokenWithDisclosures verification token = .ok (jwt, issuer) ∧
      credential.claims.claims.lookup vctKey =
        some (.mk false true (.string jwt.custom.vcType)) := by
  simp only [extractCredentials, getMetadataClaims, ok_iffs] at h
  obtain ⟨⟨jwt, issuer⟩, hbld, _, ⟨registered, hreg, rfl⟩, rfl⟩ := h
  refine ⟨jwt, issuer, hbld, lookup_extendClaims (Or.inl ?_) fun e he hkey => ?_⟩
  · exact mem_mapInsert_self _ _ _
  · rcases mem_mapInsert he with rfl | he
    · rfl
    · have hmem := key_of_mem_registered hreg e he
      rw [hkey] at hmem
      exact absurd hmem (by decide)

end OneCore.SdJwtVcFormatter
