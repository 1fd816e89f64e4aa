/-
# The attestation of the wallet, over both endpoints

A schema may require that the wallet presents an attestation of itself, with a proof that it has the
attested key.  The token endpoint checks them if the schema that is named in its URL requires them.  The
credential endpoint does not look at them again for a schema without a level of key security, and it does
not ask which token request its access token comes from.

The schema in the URL of the token endpoint is not compared with the credentials of the interaction.  So
what protects a credential is not its own schema but the one that the client has named when it asked for
the token.
-/
import OneCore.Oid4vci.System

namespace OneCore.Oid4vci

open List Option IssuerConfig

variable {env : IssuerEnvironment} {ι : Type}

/-! ### Tokens and their requests -/

/-- The transition delivers a credential whose own schema requires an attestation of the wallet. -/
def DeliversAttested (t : IssuerTransition ι) (proved : ProvedCredential) : Prop :=
  ∃ response c schema, Happens t (.delivered proved response) ∧
    t.src.shared.credentials.get? proved.credentialId = some c ∧
    t.src.shared.getCredentialSchema c.schemaId = some schema ∧
    schema.requiresWalletInstanceAttestation = true

def Obtains (past : List (IssuerTransition ι)) (prepared : PreparedToken) (accessToken : Str) : Prop :=
  ∃ a ∈ past, ∃ response, Happens a (.tokenGranted prepared response) ∧
    response.accessToken = accessToken

/-- The request carried an attestation and a proof of possession, and they passed their checks. -/
def Attested (env : IssuerEnvironment) (prepared : PreparedToken) : Prop :=
  ∃ attestation pop, prepared.call.attestation = some attestation ∧
    prepared.call.attestationPop = some pop ∧
    ∃ now protocol leeway result, validateOauthClientAttestation env now (some attestation) (some pop)
      prepared.schema protocol leeway = .ok (some result)

def RequiresAttestation (db : Database) (schemaId : String) : Prop :=
  ∃ schema, db.getCredentialSchema schemaId = some schema ∧
    schema.requiresWalletInstanceAttestation = true

/-- Whenever such a credential is delivered, its access token was obtained by a request that has shown an
attestation. -/
def NotBypassed (env : IssuerEnvironment) (tr : List (IssuerTransition ι)) : Prop :=
  ∀ pre t, pre ++ [t] <+: tr → ∀ proved, DeliversAttested t proved →
    (∃ prepared, Obtains pre prepared proved.call.accessToken) ∧
    ∀ prepared, Obtains pre prepared proved.call.accessToken → Attested env prepared

/-- The requests for the access tokens of such credentials have named a schema that requires an
attestation. -/
def NamesAttestedSchema (db : Database) (tr : List (IssuerTransition ι)) : Prop :=
  ∀ pre t, pre ++ [t] <+: tr → ∀ proved, DeliversAttested t proved →
    ∀ prepared, Obtains pre prepared proved.call.accessToken →
      RequiresAttestation db prepared.call.schemaId

def NoTokens (db : Database) : Prop :=
  ∀ id row data, db.interactions.get? id = some row → row.data = some data →
    data.preAuthorizedCodeUsed = false

/-! ### The origin of an access token -/

section Origin

variable [DecidableEq ι] {db : Database} {tr : List (IssuerTransition ι)} {c : IssuerConfig ι}

/-- An access token with this hash was given out. -/
def GivenOut (env : IssuerEnvironment) (past : List (IssuerTransition ι)) (hash : Bytes) : Prop :=
  ∃ a ∈ past, ∃ prepared response, Happens a (.tokenGranted prepared response) ∧
    env.hash response.accessToken = .ok hash

/-- The hash in a row is the hash of a token that was given out in the run. -/
lemma givenOut_of_used (hnone : NoTokens db) (h : Run (IssuerStep env) (start ι db) tr c) :
    ∀ id row data, c.shared.interactions.get? id = some row → row.data = some data →
      data.preAuthorizedCodeUsed = true → GivenOut env tr data.accessTokenHash := by
  refine Run.history (P := fun past c => ∀ id row data, c.shared.interactions.get? id = some row →
    row.data = some data → data.preAuthorizedCodeUsed = true →
      GivenOut env past data.accessTokenHash) h ?_ ?_
  · intro id row data hrow hdata hused
    rw [hnone id row data hrow hdata] at hused
    cases hused
  · intro pre t hpre hstep ih id row data hrow hdata hused
    have hkeep : GivenOut env pre data.accessTokenHash → GivenOut env (pre ++ [t]) data.accessTokenHash :=
      fun ⟨a, ha, hrest⟩ => ⟨a, mem_append_left _ ha, hrest⟩
    rcases Interleaving.Step.cases hstep with ⟨j, request, -, -, -, hshared, -⟩ |
      ⟨j, running, ⟨input, event⟩, rest, hlab, -, hnext, -⟩
    · rw [hshared] at hrow
      exact hkeep (ih id row data hrow hdata hused)
    · obtain ⟨row₀, hrow₀, hchg⟩ := hnext.outcome.row hrow
      cases hchg with
      | unchanged => exact hkeep (ih id row data hrow₀ hdata hused)
      | granted _ _ hnew =>
        cases hdata
        exact ⟨t, mem_append_right _ (mem_singleton_self t), _, _, ⟨j, input, hlab⟩,
          (interactionDataOfResponse_eq_ok hnew).2.2.1⟩
      | nonceUsed => exact hkeep (ih id row₀ data hrow₀ hdata hused)
      | delivered _ hold =>
        cases hdata
        have hpast := ih id row₀ _ hrow₀ hold hused
        exact hkeep hpast

lemma exists_obtains (hash : InjectiveHash env) (hnone : NoTokens db)
    (h : Run (IssuerStep env) (start ι db) tr c) {pre : List (IssuerTransition ι)}
    {t : IssuerTransition ι} (hpre : pre ++ [t] <+: tr) {proved : ProvedCredential}
    {response : CredentialResponse} (hdlv : Happens t (.delivered proved response)) :
    ∃ prepared, Obtains pre prepared proved.call.accessToken := by
  obtain ⟨i, hdlv⟩ := hdlv
  obtain ⟨facts⟩ := nonempty_stepFacts h hpre hdlv
  obtain ⟨input, call, rest, -, -, hout, hrch⟩ := facts
  cases hout with
  | delivered =>
    obtain ⟨-, authorized, ⟨a, ha, now, -, hauth⟩, p, -, now', -, hprv⟩ := hrch
    obtain ⟨before, hbef⟩ := exists_before_of_mem ha
    obtain ⟨hrun, -⟩ := h.of_append_singleton ((hbef.trans (prefix_append pre [t])).trans hpre)
    obtain ⟨_, id, row, data, -, -, -, hrow, hdata, hvalid, -⟩ :=
      authorizeCredential_eq_ok_iff.1 hauth
    obtain ⟨hused, htok, -⟩ := isAccessTokenValid_iff.1 hvalid
    obtain ⟨b, hb, prepared, response', hgran, hgiven⟩ :=
      givenOut_of_used hnone hrun id row data hrow hdata hused
    refine ⟨prepared, b, ?_, response', hgran, ?_⟩
    · exact ((prefix_append before [a]).trans hbef).subset hb
    · rw [hash _ _ _ hgiven htok, proveCredential_call hprv]

/-- A request has an attestation exactly if it has named a schema that requires one. -/
lemma attested_iff (h : Run (IssuerStep env) (start ι db) tr c)
    {prepared : PreparedToken} {accessToken : Str} (hobta : Obtains tr prepared accessToken) :
    Attested env prepared ↔ RequiresAttestation db prepared.call.schemaId := by
  obtain ⟨a, ha, response, ⟨i, hgran⟩, -⟩ := hobta
  obtain ⟨before, hbef⟩ := exists_before_of_mem ha
  obtain ⟨facts⟩ := nonempty_stepFacts h hbef hgran
  obtain ⟨input, call, rest, -, -, hout, hrch⟩ := facts
  cases hout with
  | tokenGranted =>
    obtain ⟨b, hb, input', -, hread⟩ := hrch
    obtain ⟨before', hbef'⟩ := exists_before_of_mem hb
    obtain ⟨hrun, -⟩ := h.of_append_singleton ((hbef'.trans (prefix_append before [a])).trans hbef)
    have hreading := readToken_eq_ok hread
    have hsch : db.getCredentialSchema prepared.call.schemaId = some prepared.schema := by
      have heq := hreading.schema_eq
      rw [Database.getCredentialSchema, schemas_of_run hrun] at heq
      exact heq
    obtain ⟨protocol, leeway, hvdt⟩ := hreading.attestation_eq
    constructor
    · rintro ⟨attestation, pop, -, -, now, protocol', leeway', result, hres⟩
      refine ⟨prepared.schema, hsch, ?_⟩
      rw [← isSome_of_validateOauthClientAttestation hres]
      rfl
    · rintro ⟨schema, hrqd, hrequ⟩
      obtain rfl := mem_unique hsch hrqd
      rw [← isSome_of_validateOauthClientAttestation hvdt] at hrequ
      obtain ⟨result, hres⟩ := isSome_iff_exists.1 hrequ
      rw [hres] at hvdt
      obtain ⟨attestation, pop, hatn, hpop⟩ :=
        exists_of_validateOauthClientAttestation hvdt
      rw [hatn, hpop] at hvdt
      exact ⟨attestation, pop, hatn, hpop, _, protocol, leeway, result, hvdt⟩

/-- The attestation is not bypassed exactly in the runs in which the requests for the tokens of such
credentials have named a schema that requires it. -/
theorem notBypassed_iff (hash : InjectiveHash env) (hnone : NoTokens db)
    (h : Run (IssuerStep env) (IssuerConfig.start ι db) tr c) :
    NotBypassed env tr ↔ NamesAttestedSchema db tr := by
  constructor
  · intro hsafe pre t hpre proved hdeli prepared hobta
    obtain ⟨hrun, -⟩ := h.of_append_singleton hpre
    exact (attested_iff hrun hobta).1 ((hsafe pre t hpre proved hdeli).2 prepared hobta)
  · intro hnames pre t hpre proved hdeli
    obtain ⟨hrun, -⟩ := h.of_append_singleton hpre
    refine ⟨?_, fun prepared hobta => (attested_iff hrun hobta).2 ?_⟩
    · obtain ⟨response, -, -, hdlv, -⟩ := hdeli
      exact exists_obtains hash hnone h hpre hdlv
    · exact hnames pre t hpre proved hdeli prepared hobta

end Origin

/-! ### A bypass -/

/-- The credential is one of the schema "w", which requires an attestation; the schema "s" does not. -/
def attestedDatabase : Database where
  schemas := [⟨"s", "s", "MDOC", false, none⟩, ⟨"w", "w", "MDOC", true, none⟩]
  interactions := ⟨[("1", ⟨0, some ⟨false, [], none, none, none, none, none⟩, none⟩)],
    nodup_singleton _⟩
  credentials := ⟨[("c", ⟨some "1", "w", .pending, "OPENID4VCI", none⟩)], nodup_singleton _⟩
  validityCredentials := []

/-- The client asks for the token at the endpoint of the one schema and for the credential at the endpoint
of the other. -/
def bypassSchedule : List (Interleaving.Action Nat Call Input) :=
  [.begins 0 (.token ⟨"s", .preAuthorizedCode ['1'] none, none, none⟩),
    .steps 0 (inputAt 1 'x'), .steps 0 (inputAt 1 'x'),
    .begins 1 (.credential ⟨"w", ['1', '.', 'a', 'x'],
      ⟨.credentialConfigurationId "w", some (.jwt ["2"])⟩⟩),
    .steps 1 (inputAt 2 'y'), .steps 1 (inputAt 2 'y'), .steps 1 (inputAt 2 'y'),
    .steps 1 (inputAt 2 'y')]

/-- The access token of a grant without an attestation. -/
def Event.unattestedToken : Event → Option Str
  | .tokenGranted ⟨⟨_, _, none, _⟩, _, _, _, _, _, _, _⟩ response => some response.accessToken
  | _ => none

/-- The access token and the credential of a delivery. -/
def Event.deliveredWith : Event → Option (Str × String)
  | .delivered proved _ => some (proved.call.accessToken, proved.credentialId)
  | _ => none

lemma exists_bypassSchedule : ∃ pre t c,
    Run (IssuerStep sampleEnvironment) (start Nat attestedDatabase) (pre ++ [t]) c ∧
    (∃ a ∈ pre, (eventOf a).bind Event.unattestedToken = some ['1', '.', 'a', 'x']) ∧
    (eventOf t).bind Event.deliveredWith = some (['1', '.', 'a', 'x'], "c") ∧
    t.src.shared.credentials.get? "c" = some ⟨some "1", "w", .offered, "OPENID4VCI", none⟩ := by
  obtain ⟨⟨tr, c⟩, hprf, hchk⟩ : ∃ r ∈ Interleaving.performAll (advance sampleEnvironment)
      (start Nat attestedDatabase) bypassSchedule, (match r.1.reverse with
      | t :: rest => decide ((∃ a ∈ rest,
          (eventOf a).bind Event.unattestedToken = some ['1', '.', 'a', 'x']) ∧
        (eventOf t).bind Event.deliveredWith = some (['1', '.', 'a', 'x'], "c") ∧
        t.src.shared.credentials.get? "c" = some ⟨some "1", "w", .offered, "OPENID4VCI", none⟩)
      | [] => false) = true := by
    decide +kernel
  split at hchk
  · next t rest hreve =>
    obtain ⟨⟨a, ha, htok⟩, hdlv, hrow⟩ := of_decide_eq_true hchk
    refine ⟨rest.reverse, t, c, ?_, ⟨a, mem_reverse.2 ha, htok⟩, hdlv, hrow⟩
    rw [← reverse_eq_cons_iff.1 hreve]
    exact Interleaving.run_performAll hprf (And.intro (.token _) (.credential _))
  · cases hchk

lemma noTokens_attestedDatabase : NoTokens attestedDatabase := by
  intro id row data hrow hdata
  have hmem := IndexMap.get?_eq_some_iff.1 hrow
  obtain ⟨-, rfl⟩ := Prod.mk.inj (mem_singleton.1 hmem)
  cases hdata
  rfl

/-- A credential of a schema that requires an attestation is delivered for a token that was obtained
without one. -/
theorem attestation_bypassed : ∃ tr c,
    Run (IssuerStep sampleEnvironment) (IssuerConfig.start Nat attestedDatabase) tr c ∧
      NoTokens attestedDatabase ∧ ¬NotBypassed sampleEnvironment tr := by
  obtain ⟨pre, t, c, hrun, ⟨a, ha, htok⟩, hdlv, hrow⟩ := exists_bypassSchedule
  refine ⟨pre ++ [t], c, hrun, noTokens_attestedDatabase, fun hsafe => ?_⟩
  obtain ⟨event, hev, hdlv⟩ := bind_eq_some_iff.1 hdlv
  obtain ⟨event', hev', htok⟩ := bind_eq_some_iff.1 htok
  unfold Event.deliveredWith at hdlv
  unfold Event.unattestedToken at htok
  split at hdlv
  · next proved response =>
    obtain ⟨hacc, hid⟩ := Prod.mk.inj (some.inj hdlv)
    split at htok
    · next response' =>
      have hsch : t.src.shared.schemas = attestedDatabase.schemas := by
        obtain ⟨hbef, -⟩ := hrun.of_append_singleton (prefix_refl _)
        exact schemas_of_run hbef
      have hdeli : DeliversAttested t proved := by
        refine ⟨response, _, ⟨"w", "w", "MDOC", true, none⟩, happens_iff.2 hev, hid ▸ hrow, ?_, rfl⟩
        rw [Database.getCredentialSchema, hsch]
        decide +kernel
      obtain ⟨_, _, hnone, -⟩ := (hsafe pre t (prefix_refl _) proved hdeli).2 _
        ⟨a, ha, response', happens_iff.2 hev', (some.inj htok).trans hacc.symm⟩
      cases hnone
    · cases htok
  · cases hdlv

/-- The hypotheses hold for this run, in which such a credential is delivered. -/
theorem bypassSchedule_iff : ∃ tr c,
    Run (IssuerStep sampleEnvironment) (IssuerConfig.start Nat attestedDatabase) tr c ∧
      (NotBypassed sampleEnvironment tr ↔ NamesAttestedSchema attestedDatabase tr) := by
  obtain ⟨pre, t, c, hrun, -⟩ := exists_bypassSchedule
  exact ⟨pre ++ [t], c, hrun,
    notBypassed_iff injectiveHash_sampleEnvironment noTokens_attestedDatabase hrun⟩

end OneCore.Oid4vci
