/-
# Tokens and nonces are used once

Whatever the order of the steps of the requests, a pre-authorized code gives one access token, a refresh
token is accepted once, and a nonce is consumed once by all interactions together.

The first two rest on the data column.  It is only replaced under the lock, after the check of what it
had, and what replaces it has the hashes of new tokens.  The nonce column is not written under the lock,
but only when it is empty, and it is never emptied again: the other two writers of the row keep it.
-/
import OneCore.Oid4vci.System

namespace OneCore.Oid4vci

open List Option IssuerConfig

variable {env : IssuerEnvironment} {ι : Type}

/-! ### What is used in a step -/

/-- The transition answers a request with a pre-authorized code for this interaction. -/
def RedeemsCode (env : IssuerEnvironment) (t : IssuerTransition ι) (interactionId : String) : Prop :=
  ∃ prepared response code txCode, Happens t (.tokenGranted prepared response) ∧
    prepared.call.request = .preAuthorizedCode code txCode ∧
    env.parseUuid code = some interactionId

def AcceptsRefreshToken (t : IssuerTransition ι) (token : Str) : Prop :=
  ∃ prepared response, Happens t (.tokenGranted prepared response) ∧
    prepared.call.request = .refreshToken token

def ConsumesNonce (t : IssuerTransition ι) (nonceId : String) : Prop :=
  ∃ proved, Happens t (.nonceUsed proved) ∧ proved.nonceId = nonceId

/-- The transition delivers a credential token of the interaction, for this nonce. -/
def Delivers (t : IssuerTransition ι) (interactionId nonceId : String) : Prop :=
  ∃ proved response, Happens t (.delivered proved response) ∧
    proved.interactionId = interactionId ∧ proved.nonceId = nonceId

def ValidAccessToken (env : IssuerEnvironment) (now : Timestamp) (db : Database)
    (interactionId : String) (token : Str) : Prop :=
  ∃ i data, db.interactions.get? interactionId = some i ∧ i.data = some data ∧
    isAccessTokenValid env now data token = true

def ValidRefreshToken (env : IssuerEnvironment) (now : Timestamp) (db : Database)
    (interactionId : String) (token : Str) : Prop :=
  ∃ i data, db.interactions.get? interactionId = some i ∧ i.data = some data ∧
    validateRefreshToken env now data token = .ok ()

/-- A new refresh token is none of those that have been accepted so far. -/
def FreshTokens (tr : List (IssuerTransition ι)) : Prop :=
  ∀ pre t, pre ++ [t] <+: tr → ∀ prepared response new,
    Happens t (.tokenGranted prepared response) → response.refreshToken = some new →
    ∀ a ∈ pre ++ [t], ¬AcceptsRefreshToken a new

/-! ### The data column -/

variable {prepared : PreparedToken}

lemma WasRead.interactionId_eq {past : List (IssuerTransition ι)} {i : ι}
    (h : WasRead env past i prepared) :
    prepared.call.request.interactionId env = .ok prepared.interactionId := by
  obtain ⟨t, -, input, -, hread⟩ := h
  simp only [readToken, ok_iffs] at hread
  obtain ⟨_, -, _, -, id, hid, _, -, _, -, _, -, _, -, _, -, _, -, heq⟩ := hread
  rw [← heq]
  exact hid

variable {pre : List (IssuerTransition ι)} {t : IssuerTransition ι}

section Runs

variable [DecidableEq ι] {db : Database}
  {tr : List (IssuerTransition ι)} {c : IssuerConfig ι} {id : String}

/-- A property that every grant from some point on gives to the data stays, since the other writer of
the column changes the notification id only. -/
lemma data_of_grant {A : IssuerTransition ι → Prop} {Q : InteractionData → Prop}
    (hA : ∀ t, A t → ∃ prepared response, Happens t (.tokenGranted prepared response) ∧
      prepared.interactionId = id)
    (hnoti : ∀ data n, Q data → Q { data with notificationId := n })
    (hgrant : ∀ pre t prepared response newData, pre ++ [t] <+: tr →
      Happens t (.tokenGranted prepared response) →
      interactionDataOfResponse env response = .ok newData → (∃ a ∈ pre ++ [t], A a) → Q newData)
    (h : Run (IssuerStep env) (start ι db) tr c) :
    (∃ a ∈ tr, A a) → ∀ i data, c.shared.interactions.get? id = some i → i.data = some data →
      Q data := by
  refine Run.history (P := fun past c => (∃ a ∈ past, A a) → ∀ i data,
    c.shared.interactions.get? id = some i → i.data = some data → Q data) h ?_ ?_
  · rintro ⟨a, ha, -⟩
    cases ha
  · rintro pre t hpre hstep ih ⟨a, ha, hAa⟩ i' data hi' hdata
    rcases Interleaving.Step.cases hstep with ⟨j, request, hlab, -, -, hshared, -⟩ |
      ⟨j, running, ⟨input, event⟩, rest, hlab, -, hnext, -⟩
    · rw [hshared] at hi'
      rcases mem_append.1 ha with ha | ha
      · exact ih ⟨a, ha, hAa⟩ i' data hi' hdata
      · obtain rfl := mem_singleton.1 ha
        obtain ⟨prepared, response, ⟨i, input, hsteps⟩, -⟩ := hA a hAa
        rw [hlab] at hsteps
        cases hsteps
    · have hhapp : Happens t event := ⟨j, input, hlab⟩
      -- unless this step is a grant for the row, the first grant was earlier
      have hear : (∀ prepared response, event = .tokenGranted prepared response →
          prepared.interactionId ≠ id) → ∃ a ∈ pre, A a := by
        intro hoth
        rcases mem_append.1 ha with ha | ha
        · exact ⟨a, ha, hAa⟩
        · obtain rfl := mem_singleton.1 ha
          obtain ⟨prepared, response, hgran, hid⟩ := hA a hAa
          exact absurd hid (hoth prepared response (hhapp.event_eq hgran))
      obtain ⟨i, hi, hchg⟩ := hnext.outcome.row hi'
      cases hchg with
      | unchanged hwrs =>
        refine ih (hear ?_) i' data hi hdata
        rintro prepared response rfl heq
        exact hwrs (congrArg some heq)
      | granted hid _ hnew =>
        cases hdata
        exact hgrant pre t _ _ _ hpre hhapp hnew ⟨a, ha, hAa⟩
      | nonceUsed => exact ih (hear fun _ _ heq => nomatch heq) i data hi hdata
      | delivered _ hold =>
        cases hdata
        exact hnoti _ _ (ih (hear fun _ _ heq => nomatch heq) i _ hi hold)

lemma exists_grant (h : Run (IssuerStep env) (start ι db) tr c) (hpre : pre ++ [t] <+: tr)
    {response : TokenResponse} (hgran : Happens t (.tokenGranted prepared response)) :
    (∃ input : Input, Nonempty (TokenGrant env input.now input.random t.src.shared prepared response
      t.dst.shared)) ∧ ∃ i, WasRead env pre i prepared := by
  obtain ⟨i, hgran⟩ := hgran
  obtain ⟨facts⟩ := nonempty_stepFacts h hpre hgran
  obtain ⟨input, call, rest, -, -, hout, hrch⟩ := facts
  cases hout with
  | tokenGranted htx => exact ⟨⟨input, nonempty_tokenGrant htx⟩, i, hrch⟩

/-! ### Codes and refresh tokens -/

section Tokens

/-- A code is granted once: the first grant marks it as used, and no writer takes the mark away. -/
lemma redeemsCode_pairwise (h : Run (IssuerStep env) (start ι db) tr c) :
    tr.Pairwise fun t t' => ∀ id, RedeemsCode env t id → ¬RedeemsCode env t' id := by
  refine pairwise_of_forall_before fun pre t' hpre t ht id hfst hsecond => ?_
  have hpar : ∀ {pre t prepared response code txCode}, pre ++ [t] <+: tr →
      Happens t (.tokenGranted prepared response) →
      prepared.call.request = .preAuthorizedCode code txCode → env.parseUuid code = some id →
      prepared.interactionId = id := by
    intro pre t prepared response code txCode hpre hgran hreq hcode
    obtain ⟨-, i, hread⟩ := exists_grant h hpre hgran
    have hid := hread.interactionId_eq
    rw [hreq] at hid
    exact some.inj ((okOr_eq_ok.1 hid).symm.trans hcode)
  obtain ⟨hrun, -⟩ := h.of_append_singleton hpre
  have hused : ∀ i data, t'.src.shared.interactions.get? id = some i → i.data = some data →
      data.preAuthorizedCodeUsed = true := by
    refine data_of_grant (A := fun t => t ∈ pre ∧ RedeemsCode env t id) ?_ (fun _ _ hq => hq)
      (fun _ _ _ _ _ _ _ hnew _ => (interactionDataOfResponse_eq_ok hnew).1) hrun
      ⟨t, ht, ht, hfst⟩
    rintro a ⟨ha, prepared, response, code, txCode, hgran, hreq, hcode⟩
    obtain ⟨before, hbef⟩ := exists_before_of_mem ha
    have hbef' := (hbef.trans (prefix_append pre [t'])).trans hpre
    exact ⟨prepared, response, hgran, hpar hbef' hgran hreq hcode⟩
  obtain ⟨prepared, response, code, txCode, hgran, hreq, hcode⟩ := hsecond
  obtain ⟨⟨input, ⟨grant⟩⟩, -⟩ := exists_grant h hpre hgran
  have hid := hpar hpre hgran hreq hcode
  have hplain := grant.plain_eq
  rw [hreq, oidcIssuerCreateToken_preAuthorizedCode] at hplain
  have hunused := hplain.2.2.2.1
  rw [hused _ _ (hid ▸ grant.get_eq) grant.data_eq] at hunused
  cases hunused

variable (hash : InjectiveHash env)

include hash

/-- A refresh token is accepted once: the hash that replaces its hash is that of a new token. -/
lemma acceptsRefreshToken_pairwise (hfr : FreshTokens tr)
    (h : Run (IssuerStep env) (start ι db) tr c) :
    tr.Pairwise fun t t' => ∀ token, AcceptsRefreshToken t token →
      ¬AcceptsRefreshToken t' token := by
  refine pairwise_of_forall_before fun pre t' hpre t ht token hfst hsecond => ?_
  obtain ⟨hrun, -⟩ := h.of_append_singleton hpre
  obtain ⟨prepared', response', hgran', hreq'⟩ := hsecond
  obtain ⟨⟨input, ⟨grant⟩⟩, _, hread'⟩ := exists_grant h hpre hgran'
  have hid' := hread'.interactionId_eq
  rw [hreq'] at hid'
  have hpre' : pre <+: tr := (prefix_append pre [t']).trans hpre
  have hrepl : ∀ i data, t'.src.shared.interactions.get? prepared'.interactionId = some i →
      i.data = some data → ∀ digest, data.refreshTokenHash = some digest →
      env.hash token ≠ .ok digest := by
    refine data_of_grant (A := fun t => t ∈ pre ∧ AcceptsRefreshToken t token) ?_
      (fun _ _ hq => hq) ?_ hrun ⟨t, ht, ht, hfst⟩
    · rintro a ⟨ha, prepared, response, hgran, hreq⟩
      obtain ⟨before, hbef⟩ := exists_before_of_mem ha
      refine ⟨prepared, response, hgran, ?_⟩
      obtain ⟨-, i, hread⟩ := exists_grant h (hbef.trans hpre') hgran
      have hid := hread.interactionId_eq
      rw [hreq, hid'] at hid
      exact (Except.ok.inj hid).symm
    · rintro before a prepared response newData hbef hgran hnew ⟨b, hb, -, hacc⟩ digest hdig hhash
      obtain ⟨new, hnewT, hnewH⟩ := (interactionDataOfResponse_eq_ok hnew).2.2.2 digest hdig
      obtain rfl := hash token new digest hhash hnewH
      exact hfr before a (hbef.trans hpre') prepared response token hgran hnewT b hb hacc
  have hplain := grant.plain_eq
  rw [hreq', oidcIssuerCreateToken_refreshToken] at hplain
  obtain ⟨digest, -, hsto, hhash, -⟩ := validateRefreshToken_eq_ok_iff.1 hplain.2.2.1
  exact hrepl _ _ grant.get_eq grant.data_eq digest hsto hhash

lemma subsingleton_validAccessToken (now : Timestamp) (db : Database)
    (id : String) {a b : Str} (ha : ValidAccessToken env now db id a)
    (hb : ValidAccessToken env now db id b) : a = b := by
  obtain ⟨i, data, hi, hdata, ha⟩ := ha
  obtain ⟨j, data', hj, hdata', hb⟩ := hb
  obtain rfl := mem_unique hi hj
  obtain rfl := mem_unique hdata hdata'
  exact hash a b _ (isAccessTokenValid_iff.1 ha).2.1 (isAccessTokenValid_iff.1 hb).2.1

lemma subsingleton_validRefreshToken (now : Timestamp) (db : Database)
    (id : String) {a b : Str} (ha : ValidRefreshToken env now db id a)
    (hb : ValidRefreshToken env now db id b) : a = b := by
  obtain ⟨i, data, hi, hdata, ha⟩ := ha
  obtain ⟨j, data', hj, hdata', hb⟩ := hb
  obtain rfl := mem_unique hi hj
  obtain rfl := mem_unique hdata hdata'
  obtain ⟨digest, -, hsto, ha, -⟩ := validateRefreshToken_eq_ok_iff.1 ha
  obtain ⟨digest', -, hsto', hb, -⟩ := validateRefreshToken_eq_ok_iff.1 hb
  obtain rfl := mem_unique hsto hsto'
  exact hash a b digest ha hb

end Tokens

/-! ### Nonces and deliveries -/

section Nonces

variable {proved : ProvedCredential} {i : ι} (h : Run (IssuerStep env) (start ι db) tr c)

include h

lemma nonceId_of_nonceUsed :
    (∃ t ∈ tr, Happens t (.nonceUsed proved)) →
      ∃ i, c.shared.interactions.get? proved.interactionId = some i ∧
        i.nonceId = some proved.nonceId := by
  refine Run.history (P := fun past c => (∃ t ∈ past, Happens t (.nonceUsed proved)) →
    ∃ i, c.shared.interactions.get? proved.interactionId = some i ∧
      i.nonceId = some proved.nonceId) h ?_ ?_
  · rintro ⟨a, ha, -⟩
    cases ha
  · rintro pre t hpre hstep ih ⟨a, ha, hused⟩
    rcases mem_append.1 ha with ha | ha
    · obtain ⟨i, hi, hnon⟩ := ih ⟨a, ha, hused⟩
      rcases Interleaving.Step.cases hstep with ⟨j, request, hlab, -, -, hshared, -⟩ |
        ⟨j, running, ⟨input, event⟩, rest, hlab, -, hnext, -⟩
      · rw [hshared]
        exact ⟨i, hi, hnon⟩
      · have hsome := hnext.outcome.isSome_row proved.interactionId
        rw [hi] at hsome
        obtain ⟨i', hi'⟩ := isSome_iff_exists.1 hsome
        refine ⟨i', hi', ?_⟩
        obtain ⟨j, hj, hchg⟩ := hnext.outcome.row hi'
        obtain rfl := mem_unique hi hj
        cases hchg with
        | unchanged => exact hnon
        | granted => exact hnon
        | nonceUsed _ hemp => exact absurd (hnon.symm.trans hemp) nofun
        | delivered => exact hnon
    · obtain rfl := mem_singleton.1 ha
      obtain ⟨i, hused⟩ := hused
      obtain ⟨facts⟩ := nonempty_stepFacts h hpre hused
      obtain ⟨input, call, rest, -, -, hout, -⟩ := facts
      cases hout with
      | nonceUsed huse =>
        obtain ⟨row, -, -, -, heq⟩ := useNonce_eq_ok_iff.1 huse
        refine ⟨{ row with nonceId := some proved.nonceId }, ?_, rfl⟩
        rw [heq]
        exact (IndexMap.get?_insert _ _ _ _).trans (if_pos rfl)

lemma consumesNonce_pairwise :
    tr.Pairwise fun t t' => ∀ nonceId, ConsumesNonce t nonceId → ¬ConsumesNonce t' nonceId := by
  refine pairwise_of_forall_before fun pre t' hpre t ht nonceId hfst hsecond => ?_
  obtain ⟨hrun, -⟩ := h.of_append_singleton hpre
  obtain ⟨proved, hused, rfl⟩ := hfst
  obtain ⟨i, hi, hnon⟩ := nonceId_of_nonceUsed hrun ⟨t, ht, hused⟩
  obtain ⟨proved', ⟨j, hused'⟩, hsame⟩ := hsecond
  obtain ⟨facts⟩ := nonempty_stepFacts h hpre hused'
  obtain ⟨input, call, rest, -, -, hout, -⟩ := facts
  cases hout with
  | nonceUsed huse =>
    obtain ⟨-, -, -, hfree, -⟩ := useNonce_eq_ok_iff.1 huse
    exact hfree _ i hi (hsame ▸ hnon)

lemma status_of_delivered :
    (∃ t ∈ tr, ∃ proved response, HappensTo t i (.delivered proved response)) →
      c.status i = .returned := by
  refine Run.history (P := fun past c => (∃ t ∈ past, ∃ proved response,
    HappensTo t i (.delivered proved response)) → c.status i = .returned) h ?_ ?_
  · rintro ⟨a, ha, -⟩
    cases ha
  · rintro pre t hpre hstep ih ⟨a, ha, proved, response, hdlv⟩
    rcases mem_append.1 ha with ha | ha
    · exact Interleaving.Step.returned hstep (ih ⟨a, ha, proved, response, hdlv⟩)
    · obtain rfl := mem_singleton.1 ha
      obtain ⟨input, hdlv⟩ := hdlv
      obtain ⟨running, rest, -, hnext, hst⟩ := Interleaving.Step.of_steps hstep hdlv
      cases hnext.outcome with
      | delivered =>
        rw [hst, Function.update_self]
        rfl

lemma exists_nonceUsed_of_delivered (hpre : pre ++ [t] <+: tr)
    {response : CredentialResponse} (hdlv : HappensTo t i (.delivered proved response)) :
    t.src.status i = .running (.issuing proved) ∧
      ∃ a ∈ pre, HappensTo a i (.nonceUsed proved) := by
  obtain ⟨facts⟩ := nonempty_stepFacts h hpre hdlv
  obtain ⟨input, call, rest, -, hst, hout, hrch⟩ := facts
  cases hout with
  | delivered => exact ⟨hst, hrch.1⟩

lemma delivers_pairwise :
    tr.Pairwise fun t t' => ∀ id nonceId, Delivers t id nonceId → ¬Delivers t' id nonceId := by
  refine pairwise_of_forall_before fun pre t' hpre t ht id nonceId hfst hsecond => ?_
  obtain ⟨proved, response, ⟨i, hdlv⟩, -, hnon⟩ := hfst
  obtain ⟨proved', response', ⟨i', hdlv'⟩, -, hnon'⟩ := hsecond
  obtain ⟨hrun, -⟩ := h.of_append_singleton hpre
  obtain ⟨before, hbef⟩ := exists_before_of_mem ht
  obtain ⟨-, a, ha, hused⟩ := exists_nonceUsed_of_delivered hrun hbef hdlv
  have ha : a ∈ pre := ((prefix_append before [t]).trans hbef).subset ha
  obtain ⟨hst', a', ha', hused'⟩ := exists_nonceUsed_of_delivered h hpre hdlv'
  -- the nonce was used in one step only, so both are deliveries of one call
  have hsame : a = a' := by
    by_contra hne
    have : Std.Symm fun t t' : IssuerTransition ι =>
        ∀ nonceId, ConsumesNonce t nonceId → ¬ConsumesNonce t' nonceId :=
      ⟨fun t t' hR nonceId ht' ht => hR nonceId ht ht'⟩
    refine (consumesNonce_pairwise hrun).forall ha ha' hne nonceId
      ⟨proved, ⟨i, hused⟩, hnon⟩ ⟨proved', ⟨i', hused'⟩, hnon'⟩
  subst hsame
  obtain ⟨input, hlab⟩ := hused
  obtain ⟨input', hlab'⟩ := hused'
  rw [hlab] at hlab'
  cases hlab'
  have hret := status_of_delivered hrun ⟨t, ht, proved, response, hdlv⟩
  exact absurd (hret.symm.trans hst') nofun

end Nonces

end Runs

/-! ### All together -/

/-- What is used at most once in a run, and what is valid at its end. -/
structure SingleUse (env : IssuerEnvironment) (tr : List (IssuerTransition ι))
    (c : IssuerConfig ι) : Prop where
  /-- Each pre-authorized code yields at most one access token. -/
  preAuthorizedCode : tr.Pairwise fun t t' => ∀ id, RedeemsCode env t id → ¬RedeemsCode env t' id
  /-- Each refresh token is accepted at most once. -/
  refreshToken : tr.Pairwise fun t t' => ∀ token, AcceptsRefreshToken t token →
    ¬AcceptsRefreshToken t' token
  /-- At most one access token of an interaction is valid. -/
  validAccessToken : ∀ now id a b, ValidAccessToken env now c.shared id a →
    ValidAccessToken env now c.shared id b → a = b
  /-- At most one refresh token of an interaction is valid. -/
  validRefreshToken : ∀ now id a b, ValidRefreshToken env now c.shared id a →
    ValidRefreshToken env now c.shared id b → a = b
  /-- Each nonce is consumed at most once over all interactions. -/
  nonce : tr.Pairwise fun t t' => ∀ nonceId, ConsumesNonce t nonceId → ¬ConsumesNonce t' nonceId
  /-- An interaction delivers at most once for each nonce. -/
  delivery : tr.Pairwise fun t t' => ∀ id nonceId, Delivers t id nonceId → ¬Delivers t' id nonceId
  /-- What is delivered is delivered for a nonce that was consumed for the interaction. -/
  consumed : ∀ pre t, pre ++ [t] <+: tr → ∀ proved response,
    Happens t (.delivered proved response) → ∃ a ∈ pre, Happens a (.nonceUsed proved)

/-- In every run of any number of requests to the two endpoints, tokens and nonces are single use.  The
end of the run is any moment, since every part of a run from its start is a run. -/
theorem singleUse_of_run [DecidableEq ι] {db : Database} {tr : List (IssuerTransition ι)}
    {c : IssuerConfig ι} (hash : InjectiveHash env) (hfresh : FreshTokens tr)
    (h : Run (IssuerStep env) (IssuerConfig.start ι db) tr c) : SingleUse env tr c where
  preAuthorizedCode := redeemsCode_pairwise h
  refreshToken := acceptsRefreshToken_pairwise hash hfresh h
  validAccessToken now id _ _ := subsingleton_validAccessToken hash now c.shared id
  validRefreshToken now id _ _ := subsingleton_validRefreshToken hash now c.shared id
  nonce := consumesNonce_pairwise h
  delivery := delivers_pairwise h
  consumed := by
    rintro pre t hpre proved response ⟨i, hdlv⟩
    obtain ⟨-, a, ha, hused⟩ := exists_nonceUsed_of_delivered h hpre hdlv
    exact ⟨a, ha, i, hused⟩

/-- The refresh token that a request was granted for. -/
def Event.acceptedRefreshToken : Event → Option Str
  | .tokenGranted prepared _ =>
    match prepared.call.request with
    | .refreshToken token => some token
    | _ => none
  | _ => none

def Event.newRefreshToken : Event → Option Str
  | .tokenGranted _ response => response.refreshToken
  | _ => none

variable {t : IssuerTransition ι}

lemma acceptsRefreshToken_iff {token : Str} :
    AcceptsRefreshToken t token ↔ (eventOf t).bind Event.acceptedRefreshToken = some token := by
  simp only [AcceptsRefreshToken, happens_iff, bind_eq_some_iff]
  constructor
  · rintro ⟨prepared, response, hev, hreq⟩
    exact ⟨_, hev, by rw [Event.acceptedRefreshToken, hreq]⟩
  · rintro ⟨event, hev, hacc⟩
    unfold Event.acceptedRefreshToken at hacc
    split at hacc
    · next prepared response =>
      split at hacc
      · next token' hreq =>
        cases hacc
        exact ⟨prepared, response, hev, hreq⟩
      · cases hacc
    · cases hacc

def Event.deliveredFor : Event → Option (String × String)
  | .delivered proved _ => some (proved.interactionId, proved.nonceId)
  | _ => none

lemma delivers_iff {id nonceId : String} :
    Delivers t id nonceId ↔ (eventOf t).bind Event.deliveredFor = some (id, nonceId) := by
  simp only [Delivers, happens_iff, bind_eq_some_iff]
  constructor
  · rintro ⟨proved, response, hev, rfl, rfl⟩
    exact ⟨_, hev, rfl⟩
  · rintro ⟨event, hev, hdlv⟩
    unfold Event.deliveredFor at hdlv
    split at hdlv
    · next proved response =>
      cases hdlv
      exact ⟨proved, response, hev, rfl, rfl⟩
    · cases hdlv

/-- The refresh token that is given out in `t` is not the one that is accepted in `a`. -/
def Distinct (a t : IssuerTransition ι) : Prop :=
  (eventOf t).bind Event.newRefreshToken = none ∨
    (eventOf a).bind Event.acceptedRefreshToken ≠ (eventOf t).bind Event.newRefreshToken

instance (a t : IssuerTransition ι) : Decidable (Distinct a t) :=
  inferInstanceAs (Decidable (_ ∨ _))

lemma freshTokens_of_pairwise {tr : List (IssuerTransition ι)} (hself : ∀ t ∈ tr, Distinct t t)
    (hpairs : tr.Pairwise Distinct) : FreshTokens tr := by
  intro pre t hpre prepared response token hgran hnew a ha hacce
  have hdst : Distinct a t := by
    rcases mem_append.1 ha with ha | ha
    · have hsub := hpairs.sublist hpre.sublist
      exact (pairwise_append.1 hsub).2.2 a ha t (mem_singleton_self t)
    · obtain rfl := mem_singleton.1 ha
      exact hself a (hpre.subset (mem_append_right _ (mem_singleton_self a)))
  have hgiven : (eventOf t).bind Event.newRefreshToken = some token := by
    rw [happens_iff.1 hgran]
    exact hnew
  rcases hdst with hnone | hne
  · rw [hgiven] at hnone
    cases hnone
  · exact hne ((acceptsRefreshToken_iff.1 hacce).trans hgiven.symm)

/-- A wallet exchanges the code, fetches the credential and exchanges the refresh token. -/
def sampleSchedule : List (Interleaving.Action Nat Call Input) :=
  [.begins 0 (.token ⟨"s", .preAuthorizedCode ['1'] none, none, none⟩),
    .steps 0 (inputAt 1 'x'), .steps 0 (inputAt 1 'x'),
    .begins 1 (.credential ⟨"s", "1.ax".toList, ⟨.credentialConfigurationId "s", some (.jwt ["2"])⟩⟩),
    .steps 1 (inputAt 2 'y'), .steps 1 (inputAt 2 'y'), .steps 1 (inputAt 2 'y'),
    .steps 1 (inputAt 2 'y'),
    .begins 2 (.token ⟨"s", .refreshToken "1.mx".toList, none, none⟩),
    .steps 2 (inputAt 3 'z'), .steps 2 (inputAt 3 'z')]

/-- The hypotheses hold for this run, in which a refresh token is accepted and a credential delivered. -/
theorem singleUse_sampleSchedule :
    ∃ tr c, Run (IssuerStep sampleEnvironment) (IssuerConfig.start Nat (sampleDatabase none)) tr c ∧
      FreshTokens tr ∧ (∃ t ∈ tr, AcceptsRefreshToken t "1.mx".toList) ∧
      (∃ t ∈ tr, Delivers t "1" "2") ∧ SingleUse sampleEnvironment tr c := by
  obtain ⟨⟨tr, c⟩, hprf, hself, hpairs, ⟨t, ht, hacc⟩, t', ht', hdlv⟩ :
      ∃ r ∈ Interleaving.performAll (advance sampleEnvironment)
        (start Nat (sampleDatabase none)) sampleSchedule,
        (∀ t ∈ r.1, Distinct t t) ∧ r.1.Pairwise Distinct ∧
        (∃ t ∈ r.1, (eventOf t).bind Event.acceptedRefreshToken = some "1.mx".toList) ∧
        ∃ t ∈ r.1, (eventOf t).bind Event.deliveredFor = some ("1", "2") := by
    decide +kernel
  have hrun : Run (IssuerStep sampleEnvironment) (start Nat (sampleDatabase none)) tr c :=
    Interleaving.run_performAll hprf (And.intro (.token _) (And.intro (.credential _) (.token _)))
  have hfr : FreshTokens tr := freshTokens_of_pairwise hself hpairs
  exact ⟨tr, c, hrun, hfr, ⟨t, ht, acceptsRefreshToken_iff.2 hacc⟩,
    ⟨t', ht', delivers_iff.2 hdlv⟩, singleUse_of_run injectiveHash_sampleEnvironment hfr hrun⟩

end OneCore.Oid4vci
