/-
# The issuer under concurrent requests

Any number of requests to the two endpoints run at the same time on one database.  A request is cut at its
accesses to the database: what it reads before its transaction may be old when the transaction begins.

The transactions take the lock of the interaction, so each of them is one step.  The nonce is written
outside of the transaction, and so is the error state after a wrong transaction code.

Each step has its own time and its own random texts; they are part of the label of the step.
-/
import OneCore.Lib.Interleaving
import OneCore.Oid4vci.Credential

namespace OneCore.Oid4vci

open List Option IndexMap

/-! ### Calls and their steps -/

inductive Call where
  /-- The token endpoint, before anything is read. -/
  | token (call : TokenCall)
  /-- The token endpoint, before the transaction. -/
  | tokenTx (prepared : PreparedToken)
  /-- The token endpoint after a failure, with the credentials that are still to be put into the error
  state. -/
  | tokenError (prepared : PreparedToken) (e : IssuerServiceError) (remaining : List String)
  /-- The credential endpoint, before anything is read. -/
  | credential (call : CredentialCall)
  /-- The credential endpoint, after the check of the access token. -/
  | authorized (authorized : AuthorizedCredential)
  /-- The credential endpoint, after the check of the proof. -/
  | proved (proved : ProvedCredential)
  /-- The credential endpoint, after the nonce was written. -/
  | issuing (proved : ProvedCredential)

inductive Call.IsRequest : Call → Prop
  | token (call : TokenCall) : IsRequest (.token call)
  | credential (call : CredentialCall) : IsRequest (.credential call)

inductive Event where
  | tokenRead (prepared : PreparedToken)
  | tokenGranted (prepared : PreparedToken) (response : TokenResponse)
  | tokenFailed (prepared : PreparedToken) (e : IssuerServiceError)
  | credentialErrored (prepared : PreparedToken) (credentialId : String)
  | tokenRefused (call : TokenCall) (e : IssuerServiceError)
  | credentialAuthorized (authorized : AuthorizedCredential)
  | credentialProved (proved : ProvedCredential)
  | nonceUsed (proved : ProvedCredential)
  | delivered (proved : ProvedCredential) (response : CredentialResponse)
  | credentialRefused (call : CredentialCall) (e : IssuerServiceError)

/-- The time of a step and the texts it draws. -/
structure Input where
  now : Timestamp
  random : Randomness

variable (env : IssuerEnvironment)

/-- The checks after the nonce, which read nothing, and the transaction. -/
def issueCredential (input : Input) (db : Database) (proved : ProvedCredential) :
    Except IssuerServiceError (CredentialResponse × Database) := do
  checkHolder env input.now proved
  issueTx env input.now input.random db proved

/-- The next step of a call: what it does, the database after it, and what is left. -/
def advance (input : Input) (db : Database) : Call → Event × Database × Option Call
  | .token call =>
    match readToken env input.now db call with
    | .ok prepared => (.tokenRead prepared, db, some (.tokenTx prepared))
    | .error e => (.tokenRefused call e, db, none)
  | .tokenTx prepared =>
    match createTokenTx env input.now input.random db prepared with
    | .ok (response, db') => (.tokenGranted prepared response, db', none)
    | .error e =>
      (.tokenFailed prepared e, db, some (.tokenError prepared e (erroredCredentials prepared e)))
  | .tokenError prepared e [] => (.tokenRefused prepared.call e, db, none)
  | .tokenError prepared e (id :: ids) =>
    match db.updateCredential id fun c => { c with state := .error } with
    | .ok db' => (.credentialErrored prepared id, db', some (.tokenError prepared e ids))
    | .error e' => (.tokenRefused prepared.call e', db, none)
  | .credential call =>
    match authorizeCredential env input.now db call with
    | .ok authorized => (.credentialAuthorized authorized, db, some (.authorized authorized))
    | .error e => (.credentialRefused call e, db, none)
  | .authorized authorized =>
    match proveCredential env input.now db authorized with
    | .ok proved => (.credentialProved proved, db, some (.proved proved))
    | .error e => (.credentialRefused authorized.call e, db, none)
  | .proved proved =>
    match useNonce db proved with
    | .ok db' => (.nonceUsed proved, db', some (.issuing proved))
    | .error e => (.credentialRefused proved.call e, db, none)
  | .issuing proved =>
    match issueCredential env input db proved with
    | .ok (response, db') => (.delivered proved response, db', none)
    | .error e => (.credentialRefused proved.call e, db, none)

/-- The steps of the running calls, labelled with their input and what they have done. -/
def Next (db : Database) (call : Call) (label : Input × Event) (db' : Database)
    (rest : Option Call) : Prop :=
  advance env label.1 db call = (label.2, db', rest)

abbrev IssuerConfig (ι : Type) := Interleaving.Config ι Database Call

abbrev IssuerLabel (ι : Type) := Interleaving.Label ι Call (Input × Event)

abbrev IssuerTransition (ι : Type) := Transition (IssuerConfig ι) (IssuerLabel ι)

/-- One step of the issuer: a request arrives or one of the running calls goes on. -/
def IssuerStep {ι : Type} [DecidableEq ι] : IssuerConfig ι → IssuerLabel ι → IssuerConfig ι → Prop :=
  Interleaving.Step Call.IsRequest (Next env)

def InjectiveHash : Prop := ∀ a b hash, env.hash a = .ok hash → env.hash b = .ok hash → a = b

/-- The run begins when no request has arrived. -/
def IssuerConfig.start (ι : Type) (db : Database) : IssuerConfig ι := ⟨db, fun _ => .idle⟩

/-! ### What a step can do -/

/-- The outcomes of a step, one for each kind of event. -/
inductive Outcome (input : Input) (db : Database) : Call → Event → Database → Option Call → Prop
  | tokenRead {call : TokenCall} {prepared : PreparedToken}
      (h : readToken env input.now db call = .ok prepared) :
      Outcome input db (.token call) (.tokenRead prepared) db (some (.tokenTx prepared))
  | tokenGranted {prepared : PreparedToken} {response : TokenResponse} {db' : Database}
      (h : createTokenTx env input.now input.random db prepared = .ok (response, db')) :
      Outcome input db (.tokenTx prepared) (.tokenGranted prepared response) db' none
  | tokenFailed {prepared : PreparedToken} {e : IssuerServiceError}
      (h : createTokenTx env input.now input.random db prepared = .error e) :
      Outcome input db (.tokenTx prepared) (.tokenFailed prepared e) db
        (some (.tokenError prepared e (erroredCredentials prepared e)))
  | credentialErrored {prepared : PreparedToken} {e : IssuerServiceError} {id : String}
      {ids : List String} {c : IssuerCredential} (h : db.credentials.get? id = some c) :
      Outcome input db (.tokenError prepared e (id :: ids)) (.credentialErrored prepared id)
        { db with credentials := db.credentials.insert id { c with state := .error } }
        (some (.tokenError prepared e ids))
  | tokenRefused {call : Call} {request : TokenCall} {e : IssuerServiceError}
      (h : (call = .token request ∧ readToken env input.now db request = .error e) ∨
        (∃ prepared, call = .tokenError prepared e [] ∧ request = prepared.call) ∨
        ∃ prepared e' id ids, call = .tokenError prepared e' (id :: ids) ∧
          db.credentials.get? id = none ∧ request = prepared.call) :
      Outcome input db call (.tokenRefused request e) db none
  | credentialAuthorized {call : CredentialCall} {authorized : AuthorizedCredential}
      (h : authorizeCredential env input.now db call = .ok authorized) :
      Outcome input db (.credential call) (.credentialAuthorized authorized) db
        (some (.authorized authorized))
  | credentialProved {authorized : AuthorizedCredential} {proved : ProvedCredential}
      (h : proveCredential env input.now db authorized = .ok proved) :
      Outcome input db (.authorized authorized) (.credentialProved proved) db
        (some (.proved proved))
  | nonceUsed {proved : ProvedCredential} {db' : Database} (h : useNonce db proved = .ok db') :
      Outcome input db (.proved proved) (.nonceUsed proved) db' (some (.issuing proved))
  | delivered {proved : ProvedCredential} {response : CredentialResponse} {db' : Database}
      (h : issueCredential env input db proved = .ok (response, db')) :
      Outcome input db (.issuing proved) (.delivered proved response) db' none
  | credentialRefused {call : Call} {request : CredentialCall} {e : IssuerServiceError} :
      Outcome input db call (.credentialRefused request e) db none

variable {env} {db db' : Database} {call : Call} {event : Event} {input : Input} {rest : Option Call}

lemma Next.outcome (h : Next env db call (input, event) db' rest) :
    Outcome env input db call event db' rest := by
  unfold Next advance at h
  split at h
  · split at h
    · next hok => cases h; exact .tokenRead hok
    · next herror => cases h; exact .tokenRefused (.inl ⟨rfl, herror⟩)
  · split at h
    · next hok => cases h; exact .tokenGranted hok
    · next herror => cases h; exact .tokenFailed herror
  · cases h
    exact .tokenRefused (.inr (.inl ⟨_, rfl, rfl⟩))
  · split at h
    · next hok =>
      cases h
      obtain ⟨c, hc, rfl⟩ := updateCredential_eq_ok_iff.1 hok
      exact .credentialErrored hc
    · next herror =>
      cases h
      refine .tokenRefused (.inr (.inr ⟨_, _, _, _, rfl, ?_, rfl⟩))
      unfold Database.updateCredential at herror
      split at herror
      · cases herror
      · assumption
  · split at h
    · next hok => cases h; exact .credentialAuthorized hok
    · cases h; exact .credentialRefused
  · split at h
    · next hok => cases h; exact .credentialProved hok
    · cases h; exact .credentialRefused
  · split at h
    · next hok => cases h; exact .nonceUsed hok
    · cases h; exact .credentialRefused
  · split at h
    · next hok => cases h; exact .delivered hok
    · cases h; exact .credentialRefused

/-! ### The row of an interaction -/

/-- The interaction whose row a step writes. -/
def Event.writes : Event → Option String
  | .tokenGranted prepared _ => some prepared.interactionId
  | .nonceUsed proved => some proved.interactionId
  | .delivered proved _ => some proved.interactionId
  | _ => none

/-- What a step does to a row: nothing, or it writes one of the two columns. -/
inductive RowChange (env : IssuerEnvironment) (id : String) (i : Interaction) :
    Event → Interaction → Prop
  | unchanged {event : Event} (h : event.writes ≠ some id) : RowChange env id i event i
  | granted {prepared : PreparedToken} {response : TokenResponse} {data newData : InteractionData}
      (hid : prepared.interactionId = id) (hdata : i.data = some data)
      (hnew : interactionDataOfResponse env response = .ok newData) :
      RowChange env id i (.tokenGranted prepared response) { i with data := some newData }
  | nonceUsed {proved : ProvedCredential} (hid : proved.interactionId = id)
      (hnonce : i.nonceId = none) :
      RowChange env id i (.nonceUsed proved) { i with nonceId := some proved.nonceId }
  | delivered {proved : ProvedCredential} {response : CredentialResponse} {data : InteractionData}
      (hid : proved.interactionId = id) (hdata : i.data = some data) :
      RowChange env id i (.delivered proved response)
        { i with data := some { data with notificationId := some response.notificationId } }

variable {authorized : AuthorizedCredential} {now : Timestamp} {i' : Interaction}

variable {proved : ProvedCredential}

lemma proveCredential_call (h : proveCredential env now db authorized = .ok proved) :
    proved.call = authorized.call := by
  simp only [proveCredential, ok_iffs] at h
  obtain ⟨_, -, _, -, _, -, _, -, _, -, _, -, _, -, _, -, rfl⟩ := h
  rfl

lemma useNonce_eq_ok_iff :
    useNonce db proved = .ok db' ↔ ∃ i, db.interactions.get? proved.interactionId = some i ∧
      i.nonceId = none ∧
      (∀ j k, db.interactions.get? j = some k → k.nonceId ≠ some proved.nonceId) ∧
      db' = { db with interactions :=
        db.interactions.insert proved.interactionId { i with nonceId := some proved.nonceId } } := by
  rw [useNonce, mapError_eq_ok, markNonceAsUsed_eq_ok_iff]

lemma nonempty_issuance_of_issueCredential {response : CredentialResponse}
    (h : issueCredential env input db proved = .ok (response, db')) :
    Nonempty (Issuance env db proved response db') := by
  obtain ⟨_, -, h⟩ := bind_eq_ok.1 h
  exact nonempty_issuance h

lemma get?_of_insert {rows : IndexMap String Interaction} {id id' : String} {i j : Interaction}
    (hi : rows.get? id' = some i) (h : (rows.insert id' i').get? id = some j) :
    (id = id' ∧ j = i' ∧ rows.get? id = some i) ∨ (id ≠ id' ∧ rows.get? id = some j) := by
  rw [get?_insert] at h
  split at h
  · next heq => exact .inl ⟨heq, (some.inj h).symm, heq ▸ hi⟩
  · next hne => exact .inr ⟨hne, h⟩

/-- Each row after a step comes from a row before it. -/
lemma Outcome.row (h : Outcome env input db call event db' rest) {id : String}
    (hi' : db'.interactions.get? id = some i') :
    ∃ i, db.interactions.get? id = some i ∧ RowChange env id i event i' := by
  cases h with
  | tokenRead | tokenFailed | credentialErrored | tokenRefused | credentialAuthorized
  | credentialProved | credentialRefused => exact ⟨i', hi', .unchanged nofun⟩
  | tokenGranted h =>
    obtain ⟨grant⟩ := nonempty_tokenGrant h
    rw [grant.interactions_eq] at hi'
    rcases get?_of_insert grant.get_eq hi' with ⟨rfl, rfl, hi⟩ | ⟨hne, hi⟩
    · exact ⟨_, hi, .granted rfl grant.data_eq grant.newData_eq⟩
    · exact ⟨i', hi, .unchanged fun heq => hne (some.inj heq).symm⟩
  | nonceUsed h =>
    obtain ⟨i, hi, hnonce, -, rfl⟩ := useNonce_eq_ok_iff.1 h
    rcases get?_of_insert hi hi' with ⟨rfl, rfl, hi⟩ | ⟨hne, hi⟩
    · exact ⟨_, hi, .nonceUsed rfl hnonce⟩
    · exact ⟨i', hi, .unchanged fun heq => hne (some.inj heq).symm⟩
  | delivered h =>
    obtain ⟨issuance⟩ := nonempty_issuance_of_issueCredential h
    rw [issuance.interactions_eq] at hi'
    rcases get?_of_insert issuance.get_eq hi' with ⟨rfl, rfl, hi⟩ | ⟨hne, hi⟩
    · exact ⟨_, hi, .delivered rfl issuance.data_eq⟩
    · exact ⟨i', hi, .unchanged fun heq => hne (some.inj heq).symm⟩

lemma Outcome.isSome_row (h : Outcome env input db call event db' rest) (id : String) :
    (db'.interactions.get? id).isSome = (db.interactions.get? id).isSome := by
  have hinsert : ∀ {id' : String} {i i' : Interaction}, db.interactions.get? id' = some i →
      ((db.interactions.insert id' i').get? id).isSome = (db.interactions.get? id).isSome := by
    intro id' i i' hi
    rw [get?_insert]
    split
    · next heq => rw [heq, hi, isSome_some, isSome_some]
    · rfl
  cases h with
  | tokenRead | tokenFailed | credentialErrored | tokenRefused | credentialAuthorized
  | credentialProved | credentialRefused => rfl
  | tokenGranted h =>
    obtain ⟨grant⟩ := nonempty_tokenGrant h
    rw [grant.interactions_eq]
    exact hinsert grant.get_eq
  | nonceUsed h =>
    obtain ⟨i, hi, -, -, rfl⟩ := useNonce_eq_ok_iff.1 h
    exact hinsert hi
  | delivered h =>
    obtain ⟨issuance⟩ := nonempty_issuance_of_issueCredential h
    rw [issuance.interactions_eq]
    exact hinsert issuance.get_eq

/-! ### The row of a credential -/

/-- What a step does to the row of a credential. -/
inductive CredentialChange (id : String) (c : IssuerCredential) : Event → IssuerCredential → Prop
  | unchanged {event : Event} (herrored : ∀ prepared, event ≠ .credentialErrored prepared id)
      (hgranted : ∀ prepared response, event = .tokenGranted prepared response →
        id ∉ prepared.credentials.map Prod.fst) : CredentialChange id c event c
  | granted {prepared : PreparedToken} {response : TokenResponse}
      (h : id ∈ prepared.credentials.map Prod.fst) :
      CredentialChange id c (.tokenGranted prepared response)
        (tokenUpdate prepared.attestation prepared.call.request c)
  | errored {prepared : PreparedToken} :
      CredentialChange id c (.credentialErrored prepared id) { c with state := .error }
  | delivered {proved : ProvedCredential} {response : CredentialResponse}
      (hid : proved.credentialId = id) (hstate : c.state = .offered ∨ c.state = .accepted) :
      CredentialChange id c (.delivered proved response) { c with state := .accepted }

section

variable (h : Outcome env input db call event db' rest)

include h

/-- No credential is removed, and each changes as its row does. -/
lemma Outcome.credential {id : String}
    {c : IssuerCredential} (hc : db.credentials.get? id = some c) :
    ∃ c', db'.credentials.get? id = some c' ∧ CredentialChange id c event c' := by
  cases h with
  | tokenRead | tokenFailed | tokenRefused | credentialAuthorized | credentialProved
  | credentialRefused =>
    exact ⟨c, hc, .unchanged (by simp) (by simp)⟩
  | nonceUsed h =>
    obtain ⟨i, -, -, -, rfl⟩ := useNonce_eq_ok_iff.1 h
    exact ⟨c, hc, .unchanged (by simp) (by simp)⟩
  | tokenGranted h =>
    obtain ⟨grant⟩ := nonempty_tokenGrant h
    rw [grant.credentials_get, hc]
    split
    · next hmem => exact ⟨_, rfl, .granted hmem⟩
    · next hmem =>
      refine ⟨c, rfl, .unchanged (by simp) fun _ _ heq => ?_⟩
      cases heq
      exact hmem
  | @credentialErrored _ _ id' _ c' h =>
    rw [get?_insert]
    split
    · next heq =>
      subst heq
      obtain rfl := mem_unique hc h
      exact ⟨_, rfl, .errored⟩
    · next hne =>
      refine ⟨c, hc, .unchanged (fun _ heq => ?_) (by simp)⟩
      cases heq
      exact hne rfl
  | delivered h =>
    obtain ⟨issuance⟩ := nonempty_issuance_of_issueCredential h
    rw [issuance.credentials_get]
    split
    · next heq =>
      subst heq
      obtain rfl := mem_unique hc issuance.credential_eq
      exact ⟨_, rfl, .delivered rfl issuance.state_eq⟩
    · exact ⟨c, hc, .unchanged (by simp) (by simp)⟩

lemma Outcome.credential_none {id : String}
    (hnone : db.credentials.get? id = none) : db'.credentials.get? id = none := by
  have hne : ∀ {id' : String} {c : IssuerCredential}, db.credentials.get? id' = some c → id ≠ id' := by
    rintro id' c hc rfl
    exact absurd (hc.symm.trans hnone) nofun
  cases h with
  | tokenRead | tokenFailed | tokenRefused | credentialAuthorized | credentialProved
  | credentialRefused => exact hnone
  | nonceUsed h =>
    obtain ⟨i, -, -, -, rfl⟩ := useNonce_eq_ok_iff.1 h
    exact hnone
  | tokenGranted h =>
    obtain ⟨grant⟩ := nonempty_tokenGrant h
    rw [grant.credentials_get, hnone, map_none, ite_self]
  | credentialErrored h =>
    exact (get?_insert _ _ _ _).trans ((if_neg (hne h)).trans hnone)
  | delivered h =>
    obtain ⟨issuance⟩ := nonempty_issuance_of_issueCredential h
    rw [issuance.credentials_get, if_neg (hne issuance.credential_eq), hnone]

lemma Outcome.schemas : db'.schemas = db.schemas := by
  cases h with
  | tokenRead | tokenFailed | credentialErrored | tokenRefused | credentialAuthorized
  | credentialProved | credentialRefused => rfl
  | tokenGranted h =>
    obtain ⟨grant⟩ := nonempty_tokenGrant h
    exact grant.schemas_eq
  | nonceUsed h =>
    obtain ⟨i, -, -, -, rfl⟩ := useNonce_eq_ok_iff.1 h
    rfl
  | delivered h =>
    obtain ⟨issuance⟩ := nonempty_issuance_of_issueCredential h
    exact issuance.schemas_eq

/-! ### The past of a call -/

end

section Past

variable {ι : Type}

def HappensTo (t : IssuerTransition ι) (i : ι) (event : Event) : Prop :=
  ∃ input, t.label = .steps i (input, event)

def Happens (t : IssuerTransition ι) (event : Event) : Prop := ∃ i, HappensTo t i event

/-- What is done in a transition, if it is a step of a running call. -/
def eventOf (t : IssuerTransition ι) : Option Event :=
  match t.label with
  | .begins _ _ => none
  | .steps _ label => some label.2

variable {t : IssuerTransition ι}

lemma happens_iff : Happens t event ↔ eventOf t = some event := by
  obtain ⟨src, label, dst⟩ := t
  cases label with
  | begins i call => exact iff_of_false (fun ⟨_, _, h⟩ => nomatch h) nofun
  | steps i label =>
    constructor
    · rintro ⟨j, input, h⟩
      cases h
      rfl
    · intro h
      cases h
      exact ⟨i, label.1, rfl⟩

lemma Happens.event_eq {event' : Event} (h : Happens t event)
    (h' : Happens t event') : event = event' :=
  some.inj ((happens_iff.1 h).symm.trans (happens_iff.1 h'))

/-- The call `i` has read what its transaction works with. -/
def WasRead (env : IssuerEnvironment) (past : List (IssuerTransition ι)) (i : ι)
    (prepared : PreparedToken) : Prop :=
  ∃ t ∈ past, ∃ input, t.label = .steps i (input, .tokenRead prepared) ∧
    readToken env input.now t.src.shared prepared.call = .ok prepared

def WasAuthorized (env : IssuerEnvironment) (past : List (IssuerTransition ι)) (i : ι)
    (authorized : AuthorizedCredential) : Prop :=
  ∃ t ∈ past, ∃ input, t.label = .steps i (input, .credentialAuthorized authorized) ∧
    authorizeCredential env input.now t.src.shared authorized.call = .ok authorized

def WasProved (env : IssuerEnvironment) (past : List (IssuerTransition ι)) (i : ι)
    (proved : ProvedCredential) : Prop :=
  ∃ authorized, WasAuthorized env past i authorized ∧
    ∃ t ∈ past, ∃ input, t.label = .steps i (input, .credentialProved proved) ∧
      proveCredential env input.now t.src.shared authorized = .ok proved

/-- The steps of a running call before the one it is at. -/
def Reached (env : IssuerEnvironment) (past : List (IssuerTransition ι)) (i : ι) : Call → Prop
  | .token _ | .credential _ => True
  | .tokenTx prepared | .tokenError prepared _ _ => WasRead env past i prepared
  | .authorized authorized => WasAuthorized env past i authorized
  | .proved proved => WasProved env past i proved
  | .issuing proved => (∃ t ∈ past, HappensTo t i (.nonceUsed proved)) ∧ WasProved env past i proved

variable {past past' : List (IssuerTransition ι)} {i : ι}

lemma WasAuthorized.mono (h : past ⊆ past')
    (hwas : WasAuthorized env past i authorized) : WasAuthorized env past' i authorized := by
  obtain ⟨t, ht, hrest⟩ := hwas
  exact ⟨t, h ht, hrest⟩

lemma WasProved.mono (h : past ⊆ past')
    (hwas : WasProved env past i proved) : WasProved env past' i proved := by
  obtain ⟨authorized, hauth, t, ht, hrest⟩ := hwas
  exact ⟨authorized, hauth.mono h, t, h ht, hrest⟩

lemma Reached.mono (h : past ⊆ past') (hrch : Reached env past i call) :
    Reached env past' i call := by
  cases call with
  | token | credential => trivial
  | tokenTx | tokenError =>
    obtain ⟨t, ht, hrest⟩ := hrch
    exact ⟨t, h ht, hrest⟩
  | authorized => exact WasAuthorized.mono h hrch
  | proved => exact WasProved.mono h hrch
  | issuing =>
    obtain ⟨⟨t, ht, hnonce⟩, hprv⟩ := hrch
    exact ⟨⟨t, h ht, hnonce⟩, hprv.mono h⟩

/-- A step adds itself to the past of its call. -/
lemma Outcome.reached (hlab : t.label = .steps i (input, event))
    (h : Outcome env input t.src.shared call event db' rest) (hpast : Reached env past i call) :
    ∀ call', rest = some call' → Reached env (past ++ [t]) i call' := by
  have hmem : t ∈ past ++ [t] := mem_append_right _ (mem_singleton_self t)
  have hsub : past ⊆ past ++ [t] := subset_append_left past [t]
  rintro call' rfl
  cases h with
  | tokenRead h =>
    refine ⟨t, hmem, input, hlab, ?_⟩
    rw [(readToken_eq_ok h).call_eq]
    exact h
  | tokenFailed => exact Reached.mono hsub hpast
  | credentialErrored => exact Reached.mono hsub hpast
  | credentialAuthorized h =>
    refine ⟨t, hmem, input, hlab, ?_⟩
    obtain ⟨_, _, _, _, -, -, -, -, -, -, rfl⟩ := authorizeCredential_eq_ok_iff.1 h
    exact h
  | credentialProved h => exact ⟨_, WasAuthorized.mono hsub hpast, t, hmem, input, hlab, h⟩
  | nonceUsed => exact ⟨⟨t, hmem, input, hlab⟩, WasProved.mono hsub hpast⟩

variable [DecidableEq ι] {tr : List (IssuerTransition ι)} {c : IssuerConfig ι}

/-- Every running call of a run has its past in the run. -/
lemma reached_of_run (h : Run (IssuerStep env) (IssuerConfig.start ι db) tr c) :
    ∀ i call, c.status i = .running call → Reached env tr i call := by
  refine Run.history (P := fun past c => ∀ i call, c.status i = .running call →
    Reached env past i call) h (fun i call hi => nomatch hi) fun pre t _ hstep hpast i call hi => ?_
  have hsub : pre ⊆ pre ++ [t] := subset_append_left pre [t]
  rcases Interleaving.Step.cases hstep with ⟨j, request, -, -, hreq, -, hst⟩ |
    ⟨j, running, event, rest, hlab, hrng, hnext, hst⟩
  · rw [hst, Function.update_apply] at hi
    split at hi
    · obtain rfl := Interleaving.Status.running.inj hi
      cases hreq with
      | token | credential => trivial
    · exact (hpast i call hi).mono hsub
  · rw [hst, Function.update_apply] at hi
    split at hi
    · next heq =>
      subst heq
      refine hnext.outcome.reached hlab (hpast i running hrng) call ?_
      exact Interleaving.Status.after_eq_running_iff.1 hi
    · exact (hpast i call hi).mono hsub

lemma schemas_of_run (h : Run (IssuerStep env) (IssuerConfig.start ι db) tr c) :
    c.shared.schemas = db.schemas := by
  refine h.preserves (P := fun c => c.shared.schemas = db.schemas) (fun t _ hstep hsrc => ?_) rfl
  rcases Interleaving.Step.cases hstep with ⟨_, _, -, -, -, hshared, -⟩ |
    ⟨_, _, _, _, -, -, hnext, -⟩
  · rw [hshared]
    exact hsrc
  · exact hnext.outcome.schemas.trans hsrc

/-- What is known at a step of a run: where its call was and what it has done. -/
structure StepFacts (env : IssuerEnvironment) (past : List (IssuerTransition ι))
    (t : IssuerTransition ι) (i : ι) (event : Event) where
  input : Input
  call : Call
  rest : Option Call
  label_eq : t.label = .steps i (input, event)
  status_eq : t.src.status i = .running call
  outcome : Outcome env input t.src.shared call event t.dst.shared rest
  reached : Reached env past i call

lemma nonempty_stepFacts (h : Run (IssuerStep env) (IssuerConfig.start ι db) tr c)
    {pre : List (IssuerTransition ι)} (hpre : pre ++ [t] <+: tr)
    (hhapp : HappensTo t i event) : Nonempty (StepFacts env pre t i event) := by
  obtain ⟨hrun, hstep⟩ := h.of_append_singleton hpre
  obtain ⟨input, hlab⟩ := hhapp
  obtain ⟨running, rest, hrng, hnext, -⟩ := Interleaving.Step.of_steps hstep hlab
  exact ⟨⟨input, running, rest, hlab, hrng, hnext.outcome, reached_of_run hrun i running hrng⟩⟩

end Past

/-! ### A small issuer -/

/-- A hash without collisions: each letter as so many ones, with a zero behind. -/
def unaryHash : Str → Bytes
  | [] => []
  | letter :: text => replicate letter.toNat 1 ++ 0 :: unaryHash text

lemma replicate_append_inj {m n : Nat} {a b : Bytes}
    (h : replicate m 1 ++ 0 :: a = replicate n 1 ++ 0 :: b) : m = n ∧ a = b := by
  induction m generalizing n with
  | zero => cases n with
    | zero => exact ⟨rfl, (cons.inj h).2⟩
    | succ n => exact absurd (cons.inj h).1 (by decide)
  | succ m ih => cases n with
    | zero => exact absurd (cons.inj h).1 (by decide)
    | succ n =>
      obtain ⟨rfl, hab⟩ := ih (cons.inj h).2
      exact ⟨rfl, hab⟩

lemma unaryHash_injective : Function.Injective unaryHash := by
  intro a b h
  induction a generalizing b with
  | nil => cases b with
    | nil => rfl
    | cons letter text =>
      cases hletter : letter.toNat with
      | zero => simp [unaryHash, hletter] at h
      | succ n => simp [unaryHash, hletter, replicate_succ] at h
  | cons letter text ih => cases b with
    | nil =>
      cases hletter : letter.toNat with
      | zero => simp [unaryHash, hletter] at h
      | succ n => simp [unaryHash, hletter, replicate_succ] at h
    | cons letter' text' =>
      obtain ⟨hletter, htext⟩ := replicate_append_inj h
      rw [Char.toNat_inj.1 hletter, ih htext]

/-- The issuer of the examples.  It has the interactions "1" and "2"; a nonce is its own id, a proof is
the nonce it has been made for, and all times are short. -/
def sampleEnvironment : IssuerEnvironment where
  jose := ⟨fun _ => none, .ok, id⟩
  parseUuid
    | ['1'] => some "1"
    | ['2'] => some "2"
    | _ => none
  displayUuid id := if id = "1" then ['1'] else ['2']
  hash text := .ok (unaryHash text)
  configEntity := .ok ⟨0, 0, some ⟨[], 0⟩⟩
  validateIssuanceProtocolType _ := .ok ()
  protocolParams _ := .ok ⟨0, 0, some ⟨[], 0⟩⟩
  preAuthorizationExpiresIn _ := .ok (seconds 100)
  tokenExpiresIn _ := .ok (seconds 100)
  refreshTokenExpiresIn _ := .ok (seconds 100)
  formatType _ := .ok .mdoc
  msoMinimumRefreshTime _ := .ok (seconds 10)
  baseUrl := some "issuer"
  protocolBaseUrl := some "issuer"
  decomposeAttestation _ := .error "not a token"
  decomposePop _ := .error "not a token"
  decomposeNonce nonce := .ok ⟨⟨"HS256", none, none, none⟩,
    ⟨some 0, some (seconds 100), some "issuer", none, ⟨nonceContext, some nonce⟩⟩, [], []⟩
  decomposeKeyAttestation _ := .error "not a token"
  verifyWithJwk _ _ _ _ := .ok ()
  assertionVerifier _ _ _ _ := .ok ()
  authenticationVerifier _ _ _ _ := .ok ()
  createHmac _ _ := .ok []
  verifyProof jwt := .ok ⟨.did "holder" "key", some jwt, none⟩
  resolveDid _ := .error "not a DID"
  isAttestationRevoked _ := .ok false
  remoteIdentifier _ := .ok ()
  formatCredential id _ := .ok id

lemma injectiveHash_sampleEnvironment : InjectiveHash sampleEnvironment := by
  intro a b hash ha hb
  exact unaryHash_injective (Except.ok.inj (ha.trans hb.symm))

def sampleDatabase (transactionCode : Option String) : Database where
  schemas := [⟨"s", "s", "MDOC", false, none⟩]
  interactions := ⟨[("1", ⟨0, some ⟨false, [], none, none, none, none, transactionCode⟩, none⟩)],
    nodup_singleton _⟩
  credentials := ⟨[("c", ⟨some "1", "s", .pending, "OPENID4VCI", none⟩)], nodup_singleton _⟩
  validityCredentials := []

def inputAt (time : Nat) (letter : Char) : Input :=
  ⟨seconds time, ⟨['a', letter], ['r', letter], ['m', letter], "n"⟩⟩

end OneCore.Oid4vci
