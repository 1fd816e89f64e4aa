/-
# Guesses at the transaction code

A pre-authorized code may be protected by a transaction code that the holder gets in another way.  After a
request with a wrong transaction code the credentials are put into the error state, so that nobody can try
again: a request is only granted when the credentials are pending.

But the states that a request checks are those it has read before its transaction.  A request with the
right code that has read them before the error state was written is still granted after it, and it takes
the credentials out of the error state.  This file says exactly for which orders of the steps one wrong
guess is the last one.
-/
import OneCore.Oid4vci.System

namespace OneCore.Oid4vci

open List IssuerConfig Function

variable {env : IssuerEnvironment} {ι : Type}

/-! ### Requests with one pre-authorized code -/

/-- A request to the token endpoint with the pre-authorized code of the interaction. -/
def OnCode (env : IssuerEnvironment) (id : String) (call : Call) : Prop :=
  ∃ request code txCode, call = .token request ∧
    request.request = .preAuthorizedCode code txCode ∧ env.parseUuid code = some id

/-- The steps of any number of requests with the same pre-authorized code. -/
def CodeStep [DecidableEq ι] (env : IssuerEnvironment) (id : String) :
    IssuerConfig ι → IssuerLabel ι → IssuerConfig ι → Prop :=
  Interleaving.Step (OnCode env id) (Next env)

/-- The interaction waits for its code, with this transaction code. -/
def Protected (db : Database) (id code : String) : Prop :=
  ∃ row data, db.interactions.get? id = some row ∧ row.data = some data ∧
    data.preAuthorizedCodeUsed = false ∧ data.transactionCode = some code

def BelongsTo (db : Database) (id credentialId : String) : Prop :=
  ∃ c, db.credentials.get? credentialId = some c ∧ c.interactionId = some id

/-- What a request has read, as far as it stays true. -/
structure Snapshot (env : IssuerEnvironment) (db : Database) (id : String)
    (prepared : PreparedToken) : Prop where
  request_eq : ∃ code txCode, prepared.call.request = .preAuthorizedCode code txCode
  interactionId_eq : prepared.interactionId = id
  schema_mem : prepared.schema ∈ db.schemas
  credentials_iff : ∀ x, x ∈ prepared.credentials.map Prod.fst ↔ BelongsTo db id x
  access_eq : ∃ protocol, env.tokenExpiresIn protocol = .ok prepared.accessTokenExpiresIn
  refresh_eq : ∃ protocol, env.refreshTokenExpiresIn protocol = .ok prepared.refreshTokenExpiresIn

def CodeCall (env : IssuerEnvironment) (db : Database) (id : String) : Call → Prop
  | .token request => OnCode env id (.token request)
  | .tokenTx prepared => Snapshot env db id prepared
  | .tokenError prepared _ remaining =>
    Snapshot env db id prepared ∧ ∀ x ∈ remaining, BelongsTo db id x
  | _ => False

/-- What stays true in such a run: the code is protected until it is used. -/
structure CodeInvariant (env : IssuerEnvironment) (db : Database) (id code : String)
    (c : IssuerConfig ι) : Prop where
  schemas_eq : c.shared.schemas = db.schemas
  belongs_iff : ∀ x, BelongsTo c.shared id x ↔ BelongsTo db id x
  row : ∃ row data, c.shared.interactions.get? id = some row ∧ row.data = some data ∧
    (data.preAuthorizedCodeUsed = false → data.transactionCode = some code)
  calls : ∀ i call, c.status i = .running call → CodeCall env db id call

lemma mem_getCredentialsByInteractionId_iff {db : Database} {id x : String} :
    x ∈ (db.getCredentialsByInteractionId id).map Prod.fst ↔ BelongsTo db id x := by
  simp [Database.getCredentialsByInteractionId, BelongsTo, IndexMap.get?_eq_some_iff]

variable {event : Event} {id : String}

lemma CredentialChange.interactionId_eq {c c' : IssuerCredential}
    (h : CredentialChange id c event c') : c'.interactionId = c.interactionId := by
  cases h with
  | unchanged | granted | errored | delivered => rfl

variable {input : Input}

lemma Outcome.belongsTo_iff {db db' : Database} {call : Call}
    {rest : Option Call} (h : Outcome env input db call event db' rest) {x : String} :
    BelongsTo db' id x ↔ BelongsTo db id x := by
  constructor
  · rintro ⟨c', hc', hid⟩
    cases hc : db.credentials.get? x with
    | none => exact absurd (hc'.symm.trans (h.credential_none hc)) nofun
    | some c =>
      obtain ⟨c'', hc'', hchg⟩ := h.credential hc
      obtain rfl := mem_unique hc' hc''
      exact ⟨c, hc, hchg.interactionId_eq ▸ hid⟩
  · rintro ⟨c, hc, hid⟩
    obtain ⟨c', hc', hchg⟩ := h.credential hc
    exact ⟨c', hc', hchg.interactionId_eq.trans hid⟩

variable {prepared : PreparedToken}

lemma Snapshot.of_readToken {db db₀ : Database} {request : TokenCall}
    (hon : OnCode env id (.token request)) (hsche : db.schemas = db₀.schemas)
    (hbelo : ∀ x, BelongsTo db id x ↔ BelongsTo db₀ id x)
    (h : readToken env input.now db request = .ok prepared) : Snapshot env db₀ id prepared := by
  have hread := readToken_eq_ok h
  obtain ⟨_, code, txCode, heq, hreq, hcode⟩ := hon
  cases heq
  have hid := hread.interactionId_eq
  rw [hreq] at hid
  obtain rfl := Option.some.inj ((okOr_eq_ok.1 hid).symm.trans hcode)
  refine ⟨⟨code, txCode, by rw [hread.call_eq, hreq]⟩, rfl, ?_, fun x => ?_, hread.access_eq,
    hread.refresh_eq⟩
  · rw [← hsche]
    exact mem_of_find?_eq_some hread.schema_eq
  · rw [hread.credentials_eq, mem_getCredentialsByInteractionId_iff, hbelo]

variable {db db' : Database} {code : String} {c c' : IssuerConfig ι} {call : Call} {rest : Option Call}

lemma CodeInvariant.row_step (hinv : CodeInvariant env db id code c)
    (h : Outcome env input c.shared call event db' rest) :
    ∃ row data, db'.interactions.get? id = some row ∧ row.data = some data ∧
      (data.preAuthorizedCodeUsed = false → data.transactionCode = some code) := by
  obtain ⟨row, data, hrow, hdata, hcode⟩ := hinv.row
  have hsome := h.isSome_row id
  rw [hrow] at hsome
  obtain ⟨row', hrow'⟩ := Option.isSome_iff_exists.1 hsome
  obtain ⟨row₀, hrow₀, hchg⟩ := h.row hrow'
  obtain rfl := mem_unique hrow hrow₀
  cases hchg with
  | unchanged => exact ⟨row, data, hrow', hdata, hcode⟩
  | granted _ _ hnew =>
    refine ⟨_, _, hrow', rfl, fun hunused => ?_⟩
    rw [(interactionDataOfResponse_eq_ok hnew).1] at hunused
    cases hunused
  | nonceUsed => exact ⟨_, data, hrow', hdata, hcode⟩
  | delivered _ hold =>
    obtain rfl := mem_unique hdata hold
    exact ⟨_, _, hrow', rfl, hcode⟩

lemma CodeInvariant.call_step (hinv : CodeInvariant env db id code c)
    (hcall : CodeCall env db id call) (h : Outcome env input c.shared call event db' rest) :
    ∀ call', rest = some call' → CodeCall env db id call' := by
  rintro call' rfl
  cases h with
  | tokenRead h => exact .of_readToken hcall hinv.schemas_eq hinv.belongs_iff h
  | tokenFailed =>
    refine ⟨hcall, fun x hx => (hcall.credentials_iff x).1 ?_⟩
    unfold erroredCredentials at hx
    split at hx
    · exact hx
    · cases hx
  | credentialErrored => exact ⟨hcall.1, fun x hx => hcall.2 x (mem_cons_of_mem _ hx)⟩
  | credentialAuthorized | credentialProved | nonceUsed => exact hcall

section Invariant

variable [DecidableEq ι] {tr : List (IssuerTransition ι)}

lemma CodeInvariant.step {l : IssuerLabel ι} (hinv : CodeInvariant env db id code c)
    (h : CodeStep env id c l c') : CodeInvariant env db id code c' := by
  rcases Interleaving.Step.cases h with ⟨i, call, -, -, hon, hshared, hst⟩ |
    ⟨i, call, ⟨input, event⟩, rest, -, hrng, hnext, hst⟩
  · refine ⟨hshared ▸ hinv.schemas_eq, hshared ▸ hinv.belongs_iff, hshared ▸ hinv.row, ?_⟩
    intro j call' hj
    rw [hst, update_apply] at hj
    split at hj
    · obtain rfl := Interleaving.Status.running.inj hj
      obtain ⟨request, code', txCode, rfl, hreq⟩ := hon
      exact ⟨request, code', txCode, rfl, hreq⟩
    · exact hinv.calls j call' hj
  · have hout := hnext.outcome
    refine ⟨hout.schemas.trans hinv.schemas_eq,
      fun x => hout.belongsTo_iff.trans (hinv.belongs_iff x), hinv.row_step hout, ?_⟩
    intro j call' hj
    rw [hst, update_apply] at hj
    split at hj
    · exact hinv.call_step (hinv.calls i call hrng) hout call'
        (Interleaving.Status.after_eq_running_iff.1 hj)
    · exact hinv.calls j call' hj

lemma CodeInvariant.of_run (hprot : Protected db id code)
    (h : Run (CodeStep env id) (start ι db) tr c) :
    CodeInvariant env db id code c := by
  refine h.preserves (fun t _ hstep hinv => hinv.step hstep) ⟨rfl, fun x => Iff.rfl, ?_, ?_⟩
  · obtain ⟨row, data, hrow, hdata, -, hcode⟩ := hprot
    exact ⟨row, data, hrow, hdata, fun _ => hcode⟩
  · intro i call hidle
    cases hidle

end Invariant

/-! ### Guesses -/

def Grants (t : IssuerTransition ι) : Prop :=
  ∃ prepared response, Happens t (.tokenGranted prepared response)

/-- A request with a wrong transaction code has returned its error. -/
def WrongGuess (code : String) (t : IssuerTransition ι) : Prop :=
  ∃ call preAuthorizedCode guess, Happens t (.tokenRefused call (.openID4VCI .invalidGrant)) ∧
    call.request = .preAuthorizedCode preAuthorizedCode (some guess) ∧ guess ≠ code

def ErrorWritten (x : String) (t : IssuerTransition ι) : Prop :=
  ∃ prepared, Happens t (.credentialErrored prepared x)

/-- A request with the right transaction code comes to its transaction, in time and while the code is
unused, and it has read all credentials as pending. -/
def Redeems (id code : String) (t : IssuerTransition ι) : Prop :=
  ∃ i input event prepared preAuthorizedCode, t.label = .steps i (input, event) ∧
    t.src.status i = .running (.tokenTx prepared) ∧ preAuthorizedCode ≠ [] ∧
    prepared.call.request = .preAuthorizedCode preAuthorizedCode (some code) ∧
    (∀ e ∈ prepared.credentials, e.2.state = .pending) ∧
    ∃ row data, t.src.shared.interactions.get? id = some row ∧ row.data = some data ∧
      data.preAuthorizedCodeUsed = false ∧
      ¬row.createdDate + prepared.preAuthorizationExpiresIn < input.now

/-- After the return of a wrong guess no request is answered with an access token, and the credentials are
in the error state for good. -/
def OneGuess (id code : String) (tr : List (IssuerTransition ι)) : Prop :=
  ∀ pre t post, tr = pre ++ t :: post → WrongGuess code t →
    (∀ t' ∈ post, ¬Grants t') ∧
    ∀ t' ∈ t :: post, ∀ x c, t'.dst.shared.credentials.get? x = some c →
      c.interactionId = some id → c.state = .error

/-- When a wrong guess returns, no request with the right code that has read pending credentials comes to
its transaction later, and if one came to it before, each credential has got the error state since. -/
def Settled (db : Database) (id code : String) (tr : List (IssuerTransition ι)) : Prop :=
  ∀ pre t post, tr = pre ++ t :: post → WrongGuess code t →
    (∀ t' ∈ post, ¬Redeems id code t') ∧
    ∀ x, BelongsTo db id x → ¬Since (Redeems id code) (ErrorWritten x) pre

/-- The hash and the formats are there, and the clock is such that the times of the tokens can be
written. -/
structure Operational (env : IssuerEnvironment) (db : Database) (tr : List (IssuerTransition ι)) :
    Prop where
  hash : ∀ text, ∃ digest, env.hash text = .ok digest
  format : ∀ schema ∈ db.schemas, ∃ formatType, env.formatType schema.format = .ok formatType
  clock : ∀ t ∈ tr, ∀ i input event, t.label = .steps i (input, event) → ∀ protocol lifetime,
    env.tokenExpiresIn protocol = .ok lifetime ∨ env.refreshTokenExpiresIn protocol = .ok lifetime →
    ∃ time, fromUnixTimestamp (unixTimestamp (input.now + lifetime)) = .ok time

variable {t : IssuerTransition ι} {tr : List (IssuerTransition ι)}

lemma exists_data (hop : Operational env db tr) (ht : t ∈ tr) {i : ι}
    (hlab : t.label = .steps i (input, event))
    (hsnap : Snapshot env db id prepared) {plain : TokenResponse}
    (hexp : plain.expiresIn = unixTimestamp (input.now + prepared.accessTokenExpiresIn))
    (hrfr : plain.refreshTokenExpiresIn = none) (formatType : FormatType) :
    ∃ newData, interactionDataOfResponse env (addMdocRefreshToken env input.now input.random prepared
      formatType plain) = .ok newData := by
  have hclock := hop.clock t ht i input event hlab
  obtain ⟨protocol, hacc⟩ := hsnap.access_eq
  obtain ⟨protocol', hlife⟩ := hsnap.refresh_eq
  refine exists_interactionDataOfResponse hop.hash ?_ ?_
  · obtain ⟨time, htime⟩ := hclock protocol _ (.inl hacc)
    refine ⟨time, ?_⟩
    unfold addMdocRefreshToken
    split
    · exact hexp ▸ htime
    · exact hexp ▸ htime
  · intro n hn
    unfold addMdocRefreshToken at hn
    split at hn
    · cases hn
      exact hclock protocol' _ (.inr hlife)
    · rw [hrfr] at hn
      cases hn

section Guess

variable [DecidableEq ι] {db : Database} {id code x : String} {tr : List (IssuerTransition ι)}
  {c : IssuerConfig ι} {t : IssuerTransition ι}

section Step

variable (hinv : CodeInvariant env db id code t.src) (hstep : CodeStep env id t.src t.label t.dst)
include hinv hstep

lemma state_step (hx : BelongsTo db id x) :
    (ErrorWritten x t ∧ ∃ c', t.dst.shared.credentials.get? x = some c' ∧ c'.state = .error) ∨
    (Grants t ∧ ∃ c', t.dst.shared.credentials.get? x = some c' ∧ c'.state = .offered) ∨
    (¬ErrorWritten x t ∧ ¬Grants t ∧
      t.dst.shared.credentials.get? x = t.src.shared.credentials.get? x) := by
  rcases Interleaving.Step.cases hstep with ⟨i, call, hlab, -, -, hshared, -⟩ |
    ⟨i, call, ⟨input, event⟩, rest, hlab, hrng, hnext, -⟩
  · have hno : ∀ event, ¬Happens t event := by
      rintro event ⟨j, input, hsteps⟩
      rw [hlab] at hsteps
      cases hsteps
    exact .inr (.inr ⟨fun ⟨_, h⟩ => hno _ h, fun ⟨_, _, h⟩ => hno _ h, by rw [hshared]⟩)
  · have hhapp : Happens t event := ⟨i, input, hlab⟩
    have hcall := hinv.calls i call hrng
    obtain ⟨c, hc, -⟩ := (hinv.belongs_iff x).2 hx
    have hout := hnext.outcome
    obtain ⟨c', hc', hchg⟩ := hout.credential hc
    cases hchg with
    | unchanged herro hgran =>
      refine .inr (.inr ⟨?_, ?_, hc'.trans hc.symm⟩)
      · rintro ⟨prepared, h⟩
        exact herro prepared (hhapp.event_eq h)
      · rintro ⟨prepared, response, h⟩
        obtain rfl := hhapp.event_eq h
        refine hgran prepared response rfl ?_
        cases hout with
        | tokenGranted => exact (hcall.credentials_iff x).2 hx
    | granted =>
      refine .inr (.inl ⟨⟨_, _, hhapp⟩, _, hc', ?_⟩)
      cases hout with
      | tokenGranted =>
        obtain ⟨code', txCode, hreq⟩ := hcall.request_eq
        rw [hreq]
        rfl
    | errored => exact .inl ⟨⟨_, hhapp⟩, _, hc', rfl⟩
    | delivered =>
      cases hout with
      | delivered => exact absurd hcall not_false

lemma Grants.redeems (h : Grants t) : Redeems id code t := by
  obtain ⟨prepared, response, i, input, hlab⟩ := h
  obtain ⟨call, rest, hrng, hnext, -⟩ := Interleaving.Step.of_steps hstep hlab
  have hcall := hinv.calls i call hrng
  have hout := hnext.outcome
  cases hout with
  | tokenGranted htx =>
    obtain ⟨grant⟩ := nonempty_tokenGrant htx
    obtain ⟨row, data, hrow, hdata, hcode⟩ := hinv.row
    have hget := grant.get_eq
    rw [hcall.interactionId_eq] at hget
    obtain rfl := mem_unique hrow hget
    obtain rfl := mem_unique hdata grant.data_eq
    obtain ⟨preAuthorizedCode, txCode, hreq⟩ := hcall.request_eq
    have hplain := grant.plain_eq
    rw [hreq, oidcIssuerCreateToken_preAuthorizedCode] at hplain
    obtain ⟨hne, htxCode, htime, hunused, hpend, -⟩ := hplain
    rw [hcode hunused] at htxCode
    have hright : txCode = some code := by
      cases txCode with
      | none => cases htxCode
      | some guess => rw [ensure_eq_ok.1 htxCode]
    refine ⟨i, input, _, prepared, preAuthorizedCode, hlab, hrng, hne, ?_, fun e he => ?_,
      grant.interaction, _, hrow, hdata, hunused, htime⟩
    · rw [hreq, hright]
    · exact hpend e.2 (mem_map_of_mem he)

lemma Redeems.grants (h : Redeems id code t) (hop : Operational env db tr) (ht : t ∈ tr) :
    Grants t := by
  obtain ⟨i, input, event, prepared, preAuthorizedCode, hlab, hst, hne, hreq, hpend,
    row, data, hrow, hdata, hunused, htime⟩ := h
  obtain ⟨call, rest, hrng, hnext, -⟩ := Interleaving.Step.of_steps hstep hlab
  obtain rfl := Interleaving.Status.running.inj (hst.symm.trans hrng)
  have hcall : Snapshot env db id prepared := hinv.calls i _ hrng
  by_contra href
  have hfailed : ∀ response db', createTokenTx env input.now input.random t.src.shared prepared ≠
      .ok (response, db') := by
    intro response db' htx
    have hev : event = .tokenGranted prepared response := by
      have hadva : advance env input t.src.shared (.tokenTx prepared) = _ := hnext
      rw [advance, htx] at hadva
      exact (congrArg Prod.fst hadva).symm
    exact href ⟨prepared, response, i, input, hev ▸ hlab⟩
  obtain ⟨row', data', hrow', hdata', hcode⟩ := hinv.row
  obtain rfl := mem_unique hrow hrow'
  obtain rfl := mem_unique hdata hdata'
  obtain ⟨formatType, hfmt⟩ := hop.format _ hcall.schema_mem
  obtain ⟨plain, hplain, hexp, hnore⟩ : ∃ plain, oidcIssuerCreateToken env input.now
      input.random data (prepared.credentials.map Prod.snd) prepared.interactionId row
      prepared.call.request prepared.preAuthorizationExpiresIn prepared.accessTokenExpiresIn
      prepared.refreshTokenExpiresIn = .ok plain ∧
      plain.expiresIn = unixTimestamp (input.now + prepared.accessTokenExpiresIn) ∧
      plain.refreshTokenExpiresIn = none := by
    rw [hreq]
    refine ⟨_, oidcIssuerCreateToken_preAuthorizedCode.2 ⟨hne, ?_, htime, hunused, ?_, rfl⟩,
      rfl, rfl⟩
    · rw [hcode hunused]
      exact ensure_eq_ok.2 rfl
    · intro c hc
      obtain ⟨e, he, rfl⟩ := mem_map.1 hc
      exact hpend e he
  obtain ⟨newData, hnew⟩ := exists_data hop ht hlab hcall hexp hnore formatType
  have hrows : ∀ y ∈ prepared.credentials.map Prod.fst,
      (t.src.shared.credentials.get? y).isSome := by
    intro y hy
    obtain ⟨c, hc, -⟩ := (hinv.belongs_iff y).2 ((hcall.credentials_iff y).1 hy)
    rw [hc]
    rfl
  obtain ⟨db', htx⟩ := exists_createTokenTx (hcall.interactionId_eq ▸ hrow) hdata hplain hrows
    hfmt hnew
  exact hfailed _ db' htx

end Step

/-- A credential that has got the error state since the last such request is in the error state. -/
lemma state_eq_error (hprot : Protected db id code)
    (h : Run (CodeStep env id) (start ι db) tr c) (hx : BelongsTo db id x) :
    (∃ w ∈ tr, ErrorWritten x w) → ¬Since (Redeems id code) (ErrorWritten x) tr →
      ∃ c', c.shared.credentials.get? x = some c' ∧ c'.state = .error := by
  refine Run.history (P := fun past c => (∃ w ∈ past, ErrorWritten x w) →
    ¬Since (Redeems id code) (ErrorWritten x) past →
    ∃ c', c.shared.credentials.get? x = some c' ∧ c'.state = .error) h ?_ ?_
  · rintro ⟨w, hw, -⟩
    cases hw
  · rintro pre t hpre hstep ih ⟨w, hw, hwrt⟩ hsnc
    obtain ⟨hrun, -⟩ := h.of_append_singleton hpre
    have hinv := CodeInvariant.of_run hprot hrun
    rw [Since.append_singleton_iff, not_or, not_and] at hsnc
    obtain ⟨hrede, hsnc⟩ := hsnc
    rcases state_step hinv hstep hx with ⟨-, hst⟩ | ⟨hgrants, -⟩ | ⟨hnot, -, hsame⟩
    · exact hst
    · exact absurd (hgrants.redeems hinv hstep) hrede
    · rw [hsame]
      refine ih ?_ (hsnc hnot)
      rcases mem_append.1 hw with hw | hw
      · exact ⟨w, hw, hwrt⟩
      · obtain rfl := mem_singleton.1 hw
        exact absurd hwrt hnot

/-- A credential that has not got the error state since such a request is not in the error state. -/
lemma state_ne_error (hop : Operational env db tr) (hprot : Protected db id code)
    (hx : BelongsTo db id x) {past : List (IssuerTransition ι)} (hpast : past <+: tr)
    (h : Run (CodeStep env id) (start ι db) past c) :
    Since (Redeems id code) (ErrorWritten x) past →
      ∃ d, c.shared.credentials.get? x = some d ∧ d.state ≠ .error := by
  refine Run.history (P := fun past c => Since (Redeems id code) (ErrorWritten x) past →
    ∃ d, c.shared.credentials.get? x = some d ∧ d.state ≠ .error) h ?_ ?_
  · exact fun hsnc => absurd hsnc Since.not_nil
  · intro pre t hpre hstep ih hsnc
    have ht : t ∈ tr := (hpre.trans hpast).subset (by simp)
    obtain ⟨hrun, -⟩ := h.of_append_singleton hpre
    have hinv := CodeInvariant.of_run hprot hrun
    have hoffe : Grants t → ∃ d, t.dst.shared.credentials.get? x = some d ∧ d.state ≠ .error := by
      intro hgrants
      rcases state_step hinv hstep hx with ⟨⟨_, herro⟩, -⟩ | ⟨-, d, hd, hst⟩ | ⟨-, hnot, -⟩
      · obtain ⟨_, _, hgran⟩ := hgrants
        cases herro.event_eq hgran
      · exact ⟨d, hd, by rw [hst]; exact nofun⟩
      · exact absurd hgrants hnot
    rcases Since.append_singleton_iff.1 hsnc with hrede | ⟨hnot, hsnc⟩
    · exact hoffe (hrede.grants hinv hstep hop ht)
    · rcases state_step hinv hstep hx with ⟨hwrt, -⟩ | ⟨hgrants, -⟩ | ⟨-, -, hsame⟩
      · exact absurd hwrt hnot
      · exact hoffe hgrants
      · rw [hsame]
        exact ih hsnc

/-- A call that puts credentials into the error state has done so with all that do not remain. -/
lemma errorWritten_of_tokenError (h : Run (CodeStep env id) (start ι db) tr c) :
    ∀ i prepared e remaining, c.status i = .running (.tokenError prepared e remaining) →
      ∀ x ∈ erroredCredentials prepared e, x ∈ remaining ∨ ∃ w ∈ tr, ErrorWritten x w := by
  refine Run.history (P := fun past c => ∀ i prepared e remaining,
    c.status i = .running (.tokenError prepared e remaining) →
    ∀ x ∈ erroredCredentials prepared e, x ∈ remaining ∨ ∃ w ∈ past, ErrorWritten x w) h ?_ ?_
  · intro i prepared e remaining hidle
    cases hidle
  · intro pre t hpre hstep ih i prepared e remaining hi x hx
    have hkeep : (x ∈ remaining ∨ ∃ w ∈ pre, ErrorWritten x w) →
        x ∈ remaining ∨ ∃ w ∈ pre ++ [t], ErrorWritten x w :=
      Or.imp_right fun ⟨w, hw, hwrt⟩ => ⟨w, mem_append_left _ hw, hwrt⟩
    rcases Interleaving.Step.cases hstep with ⟨j, call, -, -, hon, -, hst⟩ |
      ⟨j, call, ⟨input, event⟩, rest, hlab, hrng, hnext, hst⟩
    · rw [hst, update_apply] at hi
      split at hi
      · obtain ⟨request, -, -, rfl, -⟩ := hon
        cases hi
      · exact hkeep (ih i prepared e remaining hi x hx)
    · rw [hst, update_apply] at hi
      split at hi
      · next heq =>
        subst heq
        obtain rfl := Interleaving.Status.after_eq_running_iff.1 hi
        have hout := hnext.outcome
        generalize t.dst.shared = db' at hout
        cases hout with
        | tokenFailed => exact .inl hx
        | credentialErrored =>
          rcases ih i _ _ _ hrng x hx with hmem | ⟨w, hw, hwrt⟩
          · rcases mem_cons.1 hmem with rfl | hmem
            · exact .inr ⟨t, mem_append_right _ (mem_singleton_self t), _, i, input, hlab⟩
            · exact .inl hmem
          · exact .inr ⟨w, mem_append_left _ hw, hwrt⟩
      · exact hkeep (ih i prepared e remaining hi x hx)

/-- A wrong guess returns after the error state of all credentials was written. -/
lemma WrongGuess.errorWritten (hguess : WrongGuess code t) (hprot : Protected db id code)
    {pre : List (IssuerTransition ι)} (hrun : Run (CodeStep env id) (start ι db) pre t.src)
    (hstep : CodeStep env id t.src t.label t.dst) (hx : BelongsTo db id x) :
    ∃ w ∈ pre, ErrorWritten x w := by
  obtain ⟨request, preAuthorizedCode, guess, ⟨i, input, hlab⟩, hreq, -⟩ := hguess
  have hinv := CodeInvariant.of_run hprot hrun
  obtain ⟨call, rest, hrng, hnext, -⟩ := Interleaving.Step.of_steps hstep hlab
  have hcall := hinv.calls i call hrng
  have hout := hnext.outcome
  generalize t.dst.shared = db' at hout
  cases hout with
  | tokenRefused href =>
    rcases href with ⟨rfl, hread⟩ | ⟨prepared, rfl, rfl⟩ | ⟨prepared, e, y, ys, rfl, hnone, -⟩
    · exact absurd hread (readToken_ne_invalidGrant hreq)
    · have herro : x ∈ erroredCredentials prepared (.openID4VCI .invalidGrant) := by
        simp only [erroredCredentials, hreq]
        exact (hcall.1.credentials_iff x).2 hx
      rcases errorWritten_of_tokenError hrun i _ _ _ hrng x herro with hmem | hwrt
      · cases hmem
      · exact hwrt
    · obtain ⟨d, hd, -⟩ := (hinv.belongs_iff y).2 (hcall.2 y mem_cons_self)
      exact absurd (hd.symm.trans hnone) nofun

/-- An access token is given out only to a request with the right transaction code that has read pending
credentials, in time and while the code is unused. -/
theorem redeems_of_grants (hprotected : Protected db id code)
    (h : Run (CodeStep env id) (IssuerConfig.start ι db) tr c) (ht : t ∈ tr) (hgrants : Grants t) :
    Redeems id code t := by
  obtain ⟨pre, hpre⟩ := exists_before_of_mem ht
  obtain ⟨hrun, hstep⟩ := h.of_append_singleton hpre
  exact hgrants.redeems (CodeInvariant.of_run hprotected hrun) hstep

end Guess

/-! ### A guess that is not the last one -/

/-- The first request has the right code.  It has read the credential when the second one, with a wrong
code, goes through all its steps; then the first one comes to its transaction. -/
def guessSchedule : List (Interleaving.Action Nat Call Input) :=
  [.begins 0 (.token ⟨"s", .preAuthorizedCode ['1'] (some "42"), none, none⟩),
    .steps 0 (inputAt 1 'x'),
    .begins 1 (.token ⟨"s", .preAuthorizedCode ['1'] (some "41"), none, none⟩),
    .steps 1 (inputAt 1 'y'), .steps 1 (inputAt 1 'y'), .steps 1 (inputAt 1 'y'),
    .steps 1 (inputAt 1 'y'),
    .steps 0 (inputAt 1 'x')]

def Event.isGranted : Event → Bool
  | .tokenGranted _ _ => true
  | _ => false

lemma grants_of_isGranted (h : (eventOf t).any Event.isGranted = true) : Grants t := by
  obtain ⟨event, hev, hgran⟩ := (Option.any_eq_true _ _).1 h
  unfold Event.isGranted at hgran
  split at hgran
  · next prepared response => exact ⟨prepared, response, happens_iff.2 hev⟩
  · cases hgran

def Event.isWrongGuess (code : String) : Event → Bool
  | .tokenRefused ⟨_, .preAuthorizedCode _ (some guess), _, _⟩ (.openID4VCI .invalidGrant) =>
    guess ≠ code
  | _ => false

lemma wrongGuess_of_isWrongGuess
    (h : (eventOf t).any (Event.isWrongGuess code) = true) : WrongGuess code t := by
  obtain ⟨event, hev, hwrong⟩ := (Option.any_eq_true _ _).1 h
  unfold Event.isWrongGuess at hwrong
  split at hwrong
  · next preAuthorizedCode guess attestation pop =>
    exact ⟨_, preAuthorizedCode, guess, happens_iff.2 hev, rfl, of_decide_eq_true hwrong⟩
  · cases hwrong

def atFirstSecond (t : IssuerTransition ι) : Bool :=
  match t.label with
  | .begins _ _ => true
  | .steps _ label => label.1.now = seconds 1

lemma operational_of_atFirstSecond
    (h : ∀ t ∈ tr, atFirstSecond t = true) : Operational sampleEnvironment db tr where
  hash text := ⟨_, rfl⟩
  format schema _ := ⟨_, rfl⟩
  clock t ht i input event hlab protocol lifetime hlife := by
    have hnow := h t ht
    rw [atFirstSecond, hlab] at hnow
    have hseco : lifetime = seconds 100 := by
      rcases hlife with heq | heq
      · exact (Except.ok.inj heq).symm
      · exact (Except.ok.inj heq).symm
    rw [hseco, show input.now = seconds 1 from of_decide_eq_true hnow]
    exact ⟨_, rfl⟩

lemma protected_sampleDatabase (code : String) : Protected (sampleDatabase (some code)) "1" code :=
  ⟨_, _, rfl, rfl, rfl, rfl⟩

/-- The last two transitions, in reverse: a wrong guess, then a grant. -/
def endsGranted : List (IssuerTransition ι) → Bool
  | t' :: t :: _ => (eventOf t').any Event.isGranted && (eventOf t).any (Event.isWrongGuess "42")
  | _ => false

lemma exists_guessSchedule : ∃ pre t t' c,
    Run (CodeStep sampleEnvironment "1") (start Nat (sampleDatabase (some "42")))
      (pre ++ [t, t']) c ∧
    (∀ a ∈ pre ++ [t, t'], atFirstSecond a = true) ∧ WrongGuess "42" t ∧ Grants t' ∧
    (c.shared.credentials.get? "c").map IssuerCredential.state = some .offered := by
  obtain ⟨⟨tr, c⟩, hprf, hclock, hst, hlast⟩ : ∃ r ∈ Interleaving.performAll
      (advance sampleEnvironment) (start Nat (sampleDatabase (some "42"))) guessSchedule,
      (∀ t ∈ r.1, atFirstSecond t = true) ∧
      (r.2.shared.credentials.get? "c").map IssuerCredential.state = some .offered ∧
      endsGranted r.1.reverse = true := by
    decide +kernel
  unfold endsGranted at hlast
  split at hlast
  · next t' t rest hreve =>
    obtain rfl : tr = rest.reverse ++ [t, t'] := by
      simpa using reverse_eq_cons_iff.1 hreve
    rw [Bool.and_eq_true] at hlast
    refine ⟨rest.reverse, t, t', c, ?_, hclock, wrongGuess_of_isWrongGuess hlast.2,
      grants_of_isGranted hlast.1, hst⟩
    exact Interleaving.run_performAll hprf (And.intro ⟨_, _, _, rfl, rfl, rfl⟩ ⟨_, _, _, rfl, rfl, rfl⟩)
  · cases hlast

/-- The access token of the run is given out for the right code. -/
theorem guessSchedule_redeems :
    ∃ tr c, Run (CodeStep sampleEnvironment "1") (IssuerConfig.start Nat (sampleDatabase (some "42"))) tr c ∧
      ∃ t ∈ tr, Redeems "1" "42" t := by
  obtain ⟨pre, t, t', c, hrun, -, -, hgran, -⟩ := exists_guessSchedule
  exact ⟨_, c, hrun, t', by simp,
    redeems_of_grants (protected_sampleDatabase "42") hrun (by simp) hgran⟩

end OneCore.Oid4vci
