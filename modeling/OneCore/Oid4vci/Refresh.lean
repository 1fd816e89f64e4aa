/-
# Fetching a mobile document again

A mobile document is short-lived, so the wallet gets a refresh token with it.  Once the minimum time has
passed, the wallet exchanges the refresh token for a new access token and asks for the credential again,
with a proof for a new nonce.

The nonce is written to the column of the interaction that has the nonce of the first issuance, and only
if this column is empty.  Nothing empties it, so the second issuance is refused however valid the request
is.  This file says for any state of the issuer what the answer to such a request is.
-/
import OneCore.Oid4vci.System

namespace OneCore.Oid4vci

open List IndexMap IssuerConfig

variable (env : IssuerEnvironment)

/-! ### Requests that run alone -/

def createToken (input : Input) (db : Database) (call : TokenCall) :
    Except IssuerServiceError (TokenResponse × Database) := do
  let prepared ← readToken env input.now db call
  createTokenTx env input.now input.random db prepared

def createCredential (input : Input) (db : Database) (call : CredentialCall) :
    Except IssuerServiceError (CredentialResponse × Database) := do
  let authorized ← authorizeCredential env input.now db call
  let proved ← proveCredential env input.now db authorized
  let db ← useNonce db proved
  issueCredential env input db proved

variable {env} {ι : Type} {input : Input} {db db' : Database}

lemma completes_createToken {call : TokenCall} {response : TokenResponse}
    (h : createToken env input db call = .ok (response, db')) :
    ∃ prepared, Interleaving.Completes (Next env) db (.token call)
      (input, .tokenGranted prepared response) db' := by
  obtain ⟨prepared, hread, htx⟩ := bind_eq_ok.1 h
  have hfst : Next env db (.token call) (input, .tokenRead prepared) db
      (some (.tokenTx prepared)) := by
    simp [Next, advance, hread]
  have hsecond : Next env db (.tokenTx prepared) (input, .tokenGranted prepared response) db' none := by
    simp [Next, advance, htx]
  exact ⟨prepared, .more hfst (.last hsecond)⟩

lemma completes_createCredential {call : CredentialCall} {response : CredentialResponse}
    (h : createCredential env input db call = .ok (response, db')) :
    ∃ proved, Interleaving.Completes (Next env) db (.credential call)
      (input, .delivered proved response) db' := by
  simp only [createCredential, bind_eq_ok] at h
  obtain ⟨authorized, hauth, proved, hprv, db₁, hnon, hiss⟩ := h
  have hfst : Next env db (.credential call) (input, .credentialAuthorized authorized) db
      (some (.authorized authorized)) := by
    simp [Next, advance, hauth]
  have hsecond : Next env db (.authorized authorized) (input, .credentialProved proved) db
      (some (.proved proved)) := by
    simp [Next, advance, hprv]
  have hthird : Next env db (.proved proved) (input, .nonceUsed proved) db₁
      (some (.issuing proved)) := by
    simp [Next, advance, hnon]
  have hfourth : Next env db₁ (.issuing proved) (input, .delivered proved response) db' none := by
    simp [Next, advance, hiss]
  exact ⟨proved, .more hfst (.more hsecond (.more hthird (.last hfourth)))⟩

/-! ### The nonce column -/

section Nonce

variable [DecidableEq ι] {tr : List (IssuerTransition ι)} {c : IssuerConfig ι} {id : String}
  {row₀ : Interaction}

/-- The column is empty as long as no request has written a nonce for the interaction. -/
lemma nonceId_eq_none_iff (hrow₀ : db.interactions.get? id = some row₀)
    (h : Run (IssuerStep env) (start ι db) tr c) :
    ∃ row, c.shared.interactions.get? id = some row ∧ (row.nonceId = none ↔ row₀.nonceId = none ∧
      ∀ t ∈ tr, ∀ proved, Happens t (.nonceUsed proved) → proved.interactionId ≠ id) := by
  refine Run.history (P := fun past c => ∃ row, c.shared.interactions.get? id = some row ∧
    (row.nonceId = none ↔ row₀.nonceId = none ∧
      ∀ t ∈ past, ∀ proved, Happens t (.nonceUsed proved) → proved.interactionId ≠ id)) h ?_ ?_
  · exact ⟨row₀, hrow₀, by simp⟩
  · rintro pre t hpre hstep ⟨row, hrow, hiff⟩
    -- a step without a nonce for the interaction adds nothing to the right side
    have hkeep : (∀ proved, Happens t (.nonceUsed proved) → proved.interactionId ≠ id) →
        (row.nonceId = none ↔ row₀.nonceId = none ∧ ∀ t' ∈ pre ++ [t], ∀ proved,
          Happens t' (.nonceUsed proved) → proved.interactionId ≠ id) := by
      intro hoth
      rw [hiff]
      refine and_congr_right fun _ => ⟨fun hpast t' ht' => ?_, fun hpast t' ht' => ?_⟩
      · rcases mem_append.1 ht' with ht' | ht'
        · exact hpast t' ht'
        · exact mem_singleton.1 ht' ▸ hoth
      · exact hpast t' (mem_append_left _ ht')
    rcases Interleaving.Step.cases hstep with ⟨j, request, hlab, -, -, hshared, -⟩ |
      ⟨j, running, ⟨input, event⟩, rest, hlab, -, hnext, -⟩
    · refine ⟨row, hshared ▸ hrow, hkeep fun proved hused => ?_⟩
      obtain ⟨k, input, hsteps⟩ := hused
      rw [hlab] at hsteps
      cases hsteps
    · have hhapp : Happens t event := ⟨j, input, hlab⟩
      have hsome := hnext.outcome.isSome_row id
      rw [hrow] at hsome
      obtain ⟨row', hrow'⟩ := Option.isSome_iff_exists.1 hsome
      obtain ⟨row'', hrow'', hchg⟩ := hnext.outcome.row hrow'
      obtain rfl := mem_unique hrow hrow''
      refine ⟨row', hrow', ?_⟩
      cases hchg with
      | unchanged hwrs =>
        refine hkeep fun proved hused heq => hwrs ?_
        rw [hhapp.event_eq hused, ← heq]
        rfl
      | granted => exact hkeep fun proved hused => nomatch hhapp.event_eq hused
      | nonceUsed hid =>
        refine iff_of_false nofun fun hnone => ?_
        exact hnone.2 t (by simp) _ hhapp hid
      | delivered => exact hkeep fun proved hused => nomatch hhapp.event_eq hused

/-! ### The state of a credential -/

def Delivered (past : List (IssuerTransition ι)) (id : String) : Prop :=
  ∃ t ∈ past, ∃ proved response, Happens t (.delivered proved response) ∧ proved.credentialId = id

/-- No credential is removed, and only a delivery makes it accepted. -/
theorem accepted_of_run {old : IssuerCredential} (hold : db.credentials.get? id = some old)
    (h : Run (IssuerStep env) (IssuerConfig.start ι db) tr c) :
    ∃ new, c.shared.credentials.get? id = some new ∧
      (new.state = .accepted → old.state = .accepted ∨ Delivered tr id) := by
  refine Run.history (P := fun past c => ∃ new, c.shared.credentials.get? id = some new ∧
    (new.state = .accepted → old.state = .accepted ∨ Delivered past id)) h ⟨old, hold, .inl⟩ ?_
  rintro pre t - hstep ⟨mid, hmid, hacc⟩
  have hpast (hst : mid.state = .accepted) : old.state = .accepted ∨ Delivered (pre ++ [t]) id :=
    (hacc hst).imp_right fun ⟨a, ha, hdlv⟩ => ⟨a, mem_append_left _ ha, hdlv⟩
  rcases Interleaving.Step.cases hstep with ⟨i, call, -, -, -, hshared, -⟩ |
    ⟨i, call, ⟨input, event⟩, rest, hlab, -, hnext, -⟩
  · exact ⟨mid, hshared ▸ hmid, hpast⟩
  · obtain ⟨new, hnew, hchg⟩ := hnext.outcome.credential hmid
    refine ⟨new, hnew, fun hst => ?_⟩
    cases hchg with
    | unchanged => exact hpast hst
    | granted =>
      simp only [tokenUpdate] at hst
      split at hst
      · cases hst
      · exact hpast hst
    | errored => cases hst
    | delivered hid => exact .inr ⟨t, by simp, _, _, ⟨i, input, hlab⟩, hid⟩

end Nonce

/-! ### The second issuance -/

/-- The wallet has exchanged a refresh token of the interaction for the tokens of the response. -/
structure Refreshed (env : IssuerEnvironment) (db : Database) (id : String) (input : Input)
    (call : TokenCall) (response : TokenResponse) (db' : Database) : Prop where
  request_eq : ∃ token, call.request = .refreshToken token
  interactionId_eq : call.request.interactionId env = .ok id
  exchange_eq : createToken env input db call = .ok (response, db')

/-- The wallet asks for an accepted mobile document of the interaction, with a valid proof for a new
nonce, before the access token expires and after the minimum time.  What the request says and finds is
`proved`. -/
structure Fetches (env : IssuerEnvironment) (db : Database) (id : String) (now : Timestamp)
    (response : TokenResponse) (proved : ProvedCredential) : Prop where
  accessToken_eq : proved.call.accessToken = response.accessToken
  unexpired : ∀ time, fromUnixTimestamp response.expiresIn = .ok time → now < time
  schema_eq : db.getCredentialSchema proved.call.schemaId = some proved.schema
  configuration_eq : proved.call.request.credential = .credentialConfigurationId proved.schema.schemaId
  interactionId_eq : proved.interactionId = id
  credential_eq : (db.getCredentialsByInteractionId id).find?
    (fun e => e.2.schemaId = proved.call.schemaId) = some (proved.credentialId, proved.credential)
  accepted : proved.credential.state = .accepted
  mdoc : env.formatType proved.schema.format = .ok .mdoc
  protocol_ok : env.validateIssuanceProtocolType proved.credential.protocol = .ok ()
  params_eq : env.protocolParams proved.credential.protocol = .ok proved.params
  proof_eq : ∃ jwt, proved.call.request.proofJwt = .ok jwt ∧ env.verifyProof jwt = .ok proved.proof
  nonce_eq : ∃ nonce params, proved.proof.nonce = some nonce ∧ proved.params.nonce = some params ∧
    validateNonce env now params nonce = .ok proved.nonceId
  nonce_fresh : ∀ j row, db.interactions.get? j = some row → row.nonceId ≠ some proved.nonceId
  holder_ok : checkHolder env now proved = .ok ()
  refreshTime : ∃ created minimum, db.latestValidity proved.credentialId = some created ∧
    env.msoMinimumRefreshTime proved.schema.format = .ok minimum ∧ created + minimum ≤ now
  format_ok : ∃ token, env.formatCredential proved.credentialId now = .ok token

/-- The tokens of an interaction begin with its id, which has no dot. -/
structure TokenTexts (env : IssuerEnvironment) (id : String) (random : Randomness) : Prop where
  parse_eq : env.parseUuid (env.displayUuid id) = some id
  id_plain : '.' ∉ env.displayUuid id
  random_plain : '.' ∉ random.accessToken

section Fetch

variable {id : String} {response : TokenResponse} {proved : ProvedCredential} {call : TokenCall}
  {now : Timestamp}

lemma parseAccessToken_generateNewToken {random : Randomness} (htexts : TokenTexts env id random) :
    parseAccessToken env (generateNewToken env id random.accessToken) = .ok id := by
  have hspl : (generateNewToken env id random.accessToken).splitOn '.' =
      [env.displayUuid id, random.accessToken] := by
    have hplain : ∀ l ∈ [env.displayUuid id, random.accessToken], '.' ∉ l := by
      intro l hl
      rcases mem_pair.1 hl with rfl | rfl
      · exact htexts.id_plain
      · exact htexts.random_plain
    simpa [generateNewToken, intercalate] using
      splitOn_intercalate '.' hplain (by simp)
  rw [parseAccessToken, hspl]
  exact okOr_eq_ok.2 htexts.parse_eq

lemma Refreshed.row (h : Refreshed env db id input call response db') :
    ∃ row newData, db.interactions.get? id = some row ∧
      db'.interactions = db.interactions.insert id { row with data := some newData } ∧
      response.accessToken = generateNewToken env id input.random.accessToken ∧
      newData.preAuthorizedCodeUsed = true ∧
      env.hash response.accessToken = .ok newData.accessTokenHash ∧
      ∃ time, fromUnixTimestamp response.expiresIn = .ok time ∧
        newData.accessTokenExpiresAt = some time := by
  obtain ⟨prepared, hread, htx⟩ := bind_eq_ok.1 h.exchange_eq
  obtain ⟨grant⟩ := nonempty_tokenGrant htx
  obtain rfl : prepared.interactionId = id :=
    Except.ok.inj ((readToken_eq_ok hread).interactionId_eq.symm.trans h.interactionId_eq)
  obtain ⟨token, hreq⟩ := h.request_eq
  have hplain := grant.plain_eq
  rw [(readToken_eq_ok hread).call_eq, hreq, oidcIssuerCreateToken_refreshToken] at hplain
  obtain ⟨-, -, -, hplain⟩ := hplain
  have hacc : response.accessToken =
      generateNewToken env prepared.interactionId input.random.accessToken := by
    rw [grant.response_eq, hplain]
    unfold addMdocRefreshToken
    split
    · rfl
    · rfl
  obtain ⟨hused, -, hhash, -⟩ := interactionDataOfResponse_eq_ok grant.newData_eq
  exact ⟨grant.interaction, grant.newData, grant.get_eq, grant.interactions_eq, hacc, hused, hhash,
    interactionDataOfResponse_expiresAt grant.newData_eq⟩

lemma Refreshed.authorizes (h : Refreshed env db id input call response db')
    (htexts : TokenTexts env id input.random) (hfetc : Fetches env db' id now response proved) :
    authorizeCredential env now db' proved.call = .ok ⟨proved.call, proved.schema, id⟩ := by
  obtain ⟨row, newData, -, hrows, hacc, hused, hhash, time, htime, hexp⟩ := h.row
  refine authorizeCredential_eq_ok_iff.2 ⟨proved.schema, id, { row with data := some newData },
    newData, hfetc.schema_eq, ?_, ?_, ?_, rfl, ?_, rfl⟩
  · rw [throwIfCredentialRequestInvalid, hfetc.configuration_eq]
    exact ensure_eq_ok.2 rfl
  · rw [hfetc.accessToken_eq, hacc]
    exact parseAccessToken_generateNewToken htexts
  · rw [hrows, get?_insert, if_pos rfl]
  · rw [isAccessTokenValid_iff, hfetc.accessToken_eq]
    exact ⟨hused, hhash, time, hexp, hfetc.unexpired time htime⟩

lemma Fetches.proves (h : Fetches env db id now response proved) :
    proveCredential env now db ⟨proved.call, proved.schema, id⟩ = .ok proved := by
  obtain ⟨jwt, hjwt, hprf⟩ := h.proof_eq
  obtain ⟨nonce, params, hnon, hprm, hvalid⟩ := h.nonce_eq
  simp only [proveCredential, ok_iffs, exists_unit_iff]
  refine ⟨_, h.credential_eq, h.protocol_ok, jwt, hjwt, _, hprf, nonce, hnon, _, h.params_eq,
    params, hprm, _, hvalid, ?_⟩
  rw [← h.interactionId_eq]

/-- After the nonce was written, the mobile document is issued. -/
lemma Fetches.issues (h : Fetches env db id input.now response proved) {row : Interaction}
    {data : InteractionData} (hrow : db.interactions.get? id = some row) (hdata : row.data = some data)
    (hnon : useNonce db proved = .ok db') :
    ∃ r db'', issueCredential env input db' proved = .ok (r, db'') := by
  obtain ⟨i, hi, -, -, hdb'⟩ := useNonce_eq_ok_iff.1 hnon
  rw [h.interactionId_eq] at hi
  obtain rfl := mem_unique hrow hi
  obtain ⟨created, minimum, hcrea, hmini, htime⟩ := h.refreshTime
  obtain ⟨token, htok⟩ := h.format_ok
  have hfnd := h.credential_eq
  have hsch : db'.getCredentialSchema proved.credential.schemaId = some proved.schema := by
    have heq : proved.credential.schemaId = proved.call.schemaId := by
      simpa using find?_some hfnd
    rw [hdb', heq]
    exact h.schema_eq
  have hcred : db'.credentials.get? proved.credentialId = some proved.credential := by
    rw [hdb']
    exact get?_eq_some_iff.2 (mem_filter.1 (mem_of_find?_eq_some hfnd)).1
  have hissu : validateCredentialIssuable env input.now db' proved.credentialId
      proved.credential.state proved.schema.format .mdoc = .ok () := by
    rw [h.accepted, hdb']
    simp only [validateCredentialIssuable, ok_iffs, gt_iff_lt, not_lt]
    exact ⟨created, hcrea, minimum, hmini, htime⟩
  obtain ⟨db₂, hiss⟩ : ∃ db₂,
      issuerIssueCredential env input.now db' proved.credentialId = .ok (token, db₂) := by
    simp only [issuerIssueCredential, ok_iffs, exists_unit_iff, Prod.mk.injEq]
    exact ⟨_, _, hcred, _, hsch, _, h.mdoc, hissu, _, htok, rfl, rfl⟩
  obtain ⟨-, -, -, -, hinte, -⟩ := issuerIssueCredential_eq_ok hiss
  have hrow' : db'.interactions.get? proved.interactionId =
      some { row with nonceId := some proved.nonceId } := by
    rw [hdb']
    exact (get?_insert _ _ _ _).trans (if_pos rfl)
  simp only [issueCredential, issueTx, interactionDataToDto, ok_iffs, exists_unit_iff,
    Prod.mk.injEq, Prod.exists]
  exact ⟨_, _, h.holder_ok, _, hrow', data, hdata, token, db₂, hiss, _,
    updateInteraction_eq_ok_iff.2 ⟨_, hinte ▸ hrow', rfl⟩, rfl, rfl⟩

/-- After a refresh, an accepted mobile document is delivered to a valid request exactly if no nonce has
ever been consumed for its interaction, however the requests before have come. -/
theorem refreshed_delivers_iff [DecidableEq ι] {db₀ : Database} {tr : List (IssuerTransition ι)}
    {c : IssuerConfig ι} {row₀ : Interaction} {input' : Input}
    (hrun : Run (IssuerStep env) (IssuerConfig.start ι db₀) tr c)
    (hrow₀ : db₀.interactions.get? id = some row₀)
    (hrefreshed : Refreshed env c.shared id input call response db')
    (htexts : TokenTexts env id input.random)
    (hfetches : Fetches env db' id input'.now response proved) :
    (∃ r db'', createCredential env input' db' proved.call = .ok (r, db'')) ↔
      row₀.nonceId = none ∧
        ∀ t ∈ tr, ∀ earlier, Happens t (.nonceUsed earlier) → earlier.interactionId ≠ id := by
  obtain ⟨row, hrow, hiff⟩ := nonceId_eq_none_iff hrow₀ hrun
  obtain ⟨row', newData, hrow', hrows, -⟩ := hrefreshed.row
  obtain rfl := mem_unique hrow hrow'
  -- the exchange keeps the nonce column
  have haft : db'.interactions.get? id = some { row with data := some newData } := by
    rw [hrows, get?_insert, if_pos rfl]
  rw [← hiff]
  simp only [createCredential, bind_eq_ok, hrefreshed.authorizes htexts hfetches,
    Except.ok.injEq, exists_eq_left', hfetches.proves]
  constructor
  · rintro ⟨r, db'', db₁, hnon, -⟩
    obtain ⟨i, hi, hemp, -⟩ := useNonce_eq_ok_iff.1 hnon
    rw [hfetches.interactionId_eq, haft] at hi
    cases hi
    exact hemp
  · intro hemp
    have hnon := useNonce_eq_ok_iff.2 ⟨{ row with data := some newData },
      by rw [hfetches.interactionId_eq]; exact haft, hemp, hfetches.nonce_fresh, rfl⟩
    obtain ⟨r, db'', hiss⟩ := hfetches.issues haft rfl hnon
    exact ⟨r, db'', _, hnon, hiss⟩

end Fetch
/-! ### A second issuance that is refused -/

/-- The first issuance: the code is exchanged and the credential is fetched, for the nonce "2". -/
def firstIssuance : List (Interleaving.Action Nat Call Input) :=
  [.begins 0 (.token ⟨"s", .preAuthorizedCode ['1'] none, none, none⟩),
    .steps 0 (inputAt 1 'x'), .steps 0 (inputAt 1 'x'),
    .begins 1 (.credential ⟨"s", "1.ax".toList, ⟨.credentialConfigurationId "s", some (.jwt ["2"])⟩⟩),
    .steps 1 (inputAt 2 'y'), .steps 1 (inputAt 2 'y'), .steps 1 (inputAt 2 'y'),
    .steps 1 (inputAt 2 'y')]

/-- The data after the first issuance, or after the exchange of its refresh token. -/
def issuedDatabase (letter : Char) (expiresAt : Nat) (notificationId : Option String) : Database where
  schemas := [⟨"s", "s", "MDOC", false, none⟩]
  interactions := ⟨[("1", ⟨0, some ⟨true, unaryHash ['1', '.', 'a', letter], some (seconds expiresAt),
    some (unaryHash ['1', '.', 'm', letter]), some (seconds expiresAt), notificationId, none⟩,
    some "2"⟩)], nodup_singleton _⟩
  credentials := ⟨[("c", ⟨some "1", "s", .accepted, "OPENID4VCI", none⟩)], nodup_singleton _⟩
  validityCredentials := [("c", seconds 2)]

def secondFetch : ProvedCredential where
  call := ⟨"s", ['1', '.', 'a', 'z'], ⟨.credentialConfigurationId "s", some (.jwt ["1"])⟩⟩
  schema := ⟨"s", "s", "MDOC", false, none⟩
  interactionId := "1"
  credentialId := "c"
  credential := ⟨some "1", "s", .accepted, "OPENID4VCI", none⟩
  proof := ⟨.did "holder" "key", some "1", none⟩
  nonceId := "1"
  params := ⟨0, 0, some ⟨[], 0⟩⟩

def secondTokens : TokenResponse :=
  ⟨['1', '.', 'a', 'z'], "bearer", 120, some ['1', '.', 'm', 'z'], some 120⟩

lemma exists_firstIssuance : ∃ tr c,
    Run (IssuerStep sampleEnvironment) (start Nat (sampleDatabase none)) tr c ∧
      c.shared = issuedDatabase 'x' 101 (some "n") := by
  obtain ⟨⟨tr, c⟩, hprf, hshared⟩ : ∃ r ∈ Interleaving.performAll (advance sampleEnvironment)
      (start Nat (sampleDatabase none)) firstIssuance,
      r.2.shared = issuedDatabase 'x' 101 (some "n") := by
    decide +kernel
  exact ⟨tr, c, Interleaving.run_performAll hprf (And.intro (.token _) (.credential _)), hshared⟩

lemma refreshed_issuedDatabase : Refreshed sampleEnvironment (issuedDatabase 'x' 101 (some "n")) "1"
    (inputAt 20 'z') ⟨"s", .refreshToken ['1', '.', 'm', 'x'], none, none⟩ secondTokens
    (issuedDatabase 'z' 120 none) where
  request_eq := ⟨_, rfl⟩
  interactionId_eq := by decide +kernel
  exchange_eq := by decide +kernel

lemma fetches_secondFetch : Fetches sampleEnvironment (issuedDatabase 'z' 120 none) "1" (seconds 20)
    secondTokens secondFetch where
  accessToken_eq := rfl
  unexpired time htime := by
    obtain rfl : seconds 120 = time := Except.ok.inj htime
    decide
  schema_eq := by decide +kernel
  configuration_eq := rfl
  interactionId_eq := rfl
  credential_eq := by decide +kernel
  accepted := rfl
  mdoc := rfl
  protocol_ok := rfl
  params_eq := rfl
  proof_eq := ⟨"1", rfl, rfl⟩
  nonce_eq := ⟨"1", ⟨[], 0⟩, rfl, rfl, by decide +kernel⟩
  nonce_fresh j row hrow := by
    have hmem := get?_eq_some_iff.1 hrow
    obtain ⟨-, rfl⟩ := Prod.mk.inj (mem_singleton.1 hmem)
    decide
  holder_ok := rfl
  refreshTime := ⟨seconds 2, seconds 10, by decide +kernel, rfl, by decide⟩
  format_ok := ⟨_, rfl⟩

/-- The credential of the first issuance was delivered. -/
theorem firstIssuance_delivers : ∃ tr c,
    Run (IssuerStep sampleEnvironment) (IssuerConfig.start Nat (sampleDatabase none)) tr c ∧
      Delivered tr "c" := by
  obtain ⟨tr, c, hrun, hdb⟩ := exists_firstIssuance
  have hold : (sampleDatabase none).credentials.get? "c" = some _ := rfl
  obtain ⟨new, hnew, hacc⟩ := accepted_of_run hold hrun
  rw [hdb] at hnew
  cases hnew
  exact ⟨tr, c, hrun, (hacc rfl).resolve_left (by decide)⟩

/-- After one issuance the refresh token is exchanged, but the credential is not delivered again. -/
theorem second_fetch_refused : ∃ tr c,
    Run (IssuerStep sampleEnvironment) (IssuerConfig.start Nat (sampleDatabase none)) tr c ∧
      Refreshed sampleEnvironment c.shared "1" (inputAt 20 'z')
        ⟨"s", .refreshToken ['1', '.', 'm', 'x'], none, none⟩ secondTokens
        (issuedDatabase 'z' 120 none) ∧
      Fetches sampleEnvironment (issuedDatabase 'z' 120 none) "1" (seconds 20) secondTokens
        secondFetch ∧
      createCredential sampleEnvironment (inputAt 20 'z') (issuedDatabase 'z' 120 none)
        secondFetch.call = .error (.openID4VCI .invalidNonce) := by
  obtain ⟨tr, c, hrun, hdb⟩ := exists_firstIssuance
  refine ⟨tr, c, hrun, ?_, fetches_secondFetch, by decide +kernel⟩
  rw [hdb]
  exact refreshed_issuedDatabase

/-- The hypotheses hold after this issuance. -/
theorem second_fetch_iff : ∃ tr c row₀,
    Run (IssuerStep sampleEnvironment) (IssuerConfig.start Nat (sampleDatabase none)) tr c ∧
      (sampleDatabase none).interactions.get? "1" = some row₀ ∧
      ((∃ r db'', createCredential sampleEnvironment (inputAt 20 'z') (issuedDatabase 'z' 120 none)
        secondFetch.call = .ok (r, db'')) ↔ row₀.nonceId = none ∧
          ∀ t ∈ tr, ∀ earlier, Happens t (.nonceUsed earlier) → earlier.interactionId ≠ "1") := by
  obtain ⟨tr, c, hrun, hdb⟩ := exists_firstIssuance
  have hrow : (sampleDatabase none).interactions.get? "1" =
      some ⟨0, some ⟨false, [], none, none, none, none, none⟩, none⟩ := by decide +kernel
  have hrefr := refreshed_issuedDatabase
  rw [← hdb] at hrefr
  exact ⟨tr, c, _, hrun, hrow, refreshed_delivers_iff hrun hrow hrefr
    ⟨by decide, by decide, by decide⟩ fetches_secondFetch⟩

end OneCore.Oid4vci
