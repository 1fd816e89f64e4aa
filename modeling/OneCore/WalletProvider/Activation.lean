/-
# Activations in a run

In every run of the provider, a wallet unit of a mobile platform becomes active in one way only: an
activation has read the unit while it was pending, has found evidence for the nonce that the unit was
registered with, and now writes the status.  Whether the evidence is complete is a matter of the
request and the configuration.
-/
import OneCore.WalletProvider.Evidence

namespace OneCore.WalletProvider

open List Option IndexMap Interleaving ProviderConfig

variable {Key Der ι : Type}

/-! ### The past of an activation -/

/-- What is known of an activation that has been read and is going to activate the unit. -/
structure ActivationReading (env : Environment Key Der) (now : Timestamp) (db : Database) (id : Nat)
    (request : WalletUnitActivationRequest) (jwk : PublicJwk) where
  row : WalletUnit
  nonce : String
  params : WalletProviderParams
  key : Key
  row_eq : db.walletUnits.get? id = some row
  pending : row.status = .pending
  nonce_eq : row.nonce = some nonce
  params_eq : getWalletProviderConfigParams env row.walletProviderName = .ok params
  intime : now ≤ row.lastModified + seconds params.walletInstanceAttestation.integrityCheck.timeout
  attested : validateAttestation env request.attestation row.os nonce params = .ok key
  proved : proveKeys env now params row.os nonce key request = .ok jwk

lemma eq_pending_of_checkPending {status : WalletUnitStatus} (h : checkPending status = .ok ()) :
    status = .pending := by
  cases status with
  | pending => rfl
  | active | revoked | unattested | error => cases h

lemma nonempty_activationReading {env : Environment Key Der} {now : Timestamp} {db : Database}
    {id : Nat} {request : WalletUnitActivationRequest} {jwk : PublicJwk}
    (h : readActivation env now db id request = .ok (.activate jwk)) :
    Nonempty (ActivationReading env now db id request jwk) := by
  simp only [readActivation, ok_iffs, exists_unit_iff] at h
  obtain ⟨unit, hunit, hpend, nonce, hnon, params, hprm, _, -, h⟩ := h
  obtain ⟨-, hrow, -⟩ := loadWalletUnit_eq_ok_iff.1 hunit
  split at h
  · cases h
  · next hintime =>
    split at h
    · cases h
    · next key hkey =>
      obtain ⟨_, hprv, heq⟩ := Except.map_eq_ok.1 h
      cases heq
      exact ⟨⟨unit.row, nonce, params, key, hrow, eq_pending_of_checkPending hpend, hnon, hprm,
        Int.not_lt.1 hintime, hkey, hprv⟩⟩

variable (past : List (ProviderTransition ι Key Der))

/-- The unit was registered in the past.  As long as it is pending, its last change is its
registration. -/
def RegisteredIn (id : Nat) (row : WalletUnit) : Prop :=
  ∃ t ∈ past, ∃ i input request, t.label = .steps i (input, .registered id request) ∧
    row.os = request.os ∧ row.walletProviderName = request.walletProvider ∧
    (∀ nonce, row.nonce = some nonce → nonce = input.env.generateAlphanumeric id) ∧
    (row.status = .pending → row.lastModified = input.now)

lemma RegisteredIn.mono {past past' : List (ProviderTransition ι Key Der)} {id : Nat}
    {row : WalletUnit} (hsub : past ⊆ past') (h : RegisteredIn past id row) :
    RegisteredIn past' id row := by
  obtain ⟨t, ht, hrest⟩ := h
  exact ⟨t, hsub ht, hrest⟩

/-- The columns that say what the unit is stay the same. -/
structure SameIdentity (row row' : WalletUnit) : Prop where
  os : row'.os = row.os
  walletProviderName : row'.walletProviderName = row.walletProviderName
  nonce : row'.nonce = row.nonce

variable {row row' : WalletUnit}

lemma RegisteredIn.change {past : List (ProviderTransition ι Key Der)} {id : Nat}
    (h : RegisteredIn past id row) (hsame : SameIdentity row row')
    (hpend : row'.status = .pending → row.status = .pending ∧ row'.lastModified = row.lastModified) :
    RegisteredIn past id row' := by
  obtain ⟨t, ht, i, input, request, hlabel, hos, hname, hnon, htime⟩ := h
  refine ⟨t, ht, i, input, request, hlabel, hsame.os.trans hos, hsame.walletProviderName.trans hname,
    hsame.nonce.symm ▸ hnon, fun h => ?_⟩
  obtain ⟨hp, hmodi⟩ := hpend h
  exact hmodi.trans (htime hp)

variable {input : Input Key Der}

lemma UnitChange.sameIdentity {id : Nat} {event : Event}
    (h : UnitChange input id row event row') : SameIdentity row row' := by
  cases h with
  | unchanged | activation | issued | revocation => exact ⟨rfl, rfl, rfl⟩

lemma UnitChange.pending {id : Nat} {event : Event}
    (h : UnitChange input id row event row') (hpend : row'.status = .pending) :
    row.status = .pending := by
  cases h with
  | unchanged | issued => exact hpend
  | @activation _ prepared => cases prepared with
    | activate | fail => cases hpend
  | revocation => cases hpend

def UnitsRegistered (db : Database) : Prop :=
  ∀ id row, db.walletUnits.get? id = some row → id < db.nextId ∧ RegisteredIn past id row

/-- What a running call has behind it: an activation has read the unit, and the unit of a request for
attestations is not pending any more. -/
def UnitPast (db : Database) (i : ι) : Call → Prop
  | .activating id request prepared => ∃ t ∈ past, ∃ input,
      t.label = .steps i (input, .activationRead id request prepared)
  | .issuing _ prepared => ∃ row, db.walletUnits.get? prepared.unit.id = some row ∧
      row.status ≠ .pending
  | _ => True

section Steps

variable {past : List (ProviderTransition ι Key Der)} {t : ProviderTransition ι Key Der} {i j : ι}
  {a b : Call} {input : Input Key Der} {event : Event} {rest : Option Call}

lemma Outcome.call_of_issued {db db' : Database} {request : IssueWalletUnitAttestationRequest}
    {prepared : PreparedIssue} {response : IssueResponse}
    (h : Outcome input db a (.issued request prepared response) db' rest) :
    a = .issuing request prepared := by
  cases h
  rfl

/-- A step keeps the registrations: a new unit is registered in it, and the others keep theirs. -/
lemma UnitsRegistered.step (hlabel : t.label = .steps i (input, event))
    (h : Outcome input t.src.shared a event t.dst.shared rest)
    (hunits : UnitsRegistered past t.src.shared) (hpast : UnitPast past t.src.shared i a) :
    UnitsRegistered (past ++ [t]) t.dst.shared := by
  intro id row' hrow'
  cases hrow : t.src.shared.walletUnits.get? id with
  | none =>
    obtain ⟨request, rfl, hreg⟩ := h.unit_none hrow hrow'
    obtain ⟨params, organisationId, row, -, rfl, hdb, hkinds⟩ := registerWalletUnit_eq_ok hreg
    rw [hdb] at hrow' ⊢
    have heq : some row = some row' := by
      rw [← hrow', get?_insert, if_pos rfl]
    cases heq
    refine ⟨Nat.lt_succ_self _, t, by simp, i, input, request, hlabel, ?_⟩
    rcases hkinds with ⟨-, -, rfl⟩ | ⟨-, jwk, rfl⟩
    · exact ⟨rfl, rfl, fun nonce hnon => (some.inj hnon).symm, fun _ => rfl⟩
    · exact ⟨rfl, rfl, nofun, nofun⟩
  | some row =>
    obtain ⟨hid, hregi⟩ := hunits id row hrow
    obtain ⟨row'', hrow'', hchg⟩ := h.unit hid hrow
    obtain rfl := mem_unique hrow'' hrow'
    refine ⟨Nat.lt_of_lt_of_le hid h.nextId_le, (hregi.mono (by simp)).change
      hchg.sameIdentity fun hpend => ⟨hchg.pending hpend, ?_⟩⟩
    have hbef := hchg.pending hpend
    cases hchg with
    | unchanged => rfl
    | @activation _ prepared => cases prepared with
      | activate | fail => cases hpend
    | issued hiss =>
      -- the unit was active when the request was read
      obtain rfl := h.call_of_issued
      obtain ⟨old, hold, hnot⟩ := hpast
      rw [hiss, hrow] at hold
      cases hold
      exact absurd hbef hnot
    | revocation => cases hpend

lemma UnitPast.others (h : Outcome input t.src.shared a event t.dst.shared rest)
    (hunits : UnitsRegistered past t.src.shared) (hpast : UnitPast past t.src.shared j b) :
    UnitPast (past ++ [t]) t.dst.shared j b := by
  cases b with
  | register | activate | issue | revoke | revoking | marking => trivial
  | activating id request prepared =>
    obtain ⟨t', ht', input', hlabel⟩ := hpast
    exact ⟨t', mem_append_left _ ht', input', hlabel⟩
  | issuing request prepared =>
    obtain ⟨row, hrow, hst⟩ := hpast
    obtain ⟨row', hrow', hchg⟩ := h.unit (hunits _ row hrow).1 hrow
    exact ⟨row', hrow', fun hpend => hst (hchg.pending hpend)⟩

/-- A step adds itself to the past of its call. -/
lemma UnitPast.step (hlabel : t.label = .steps i (input, event))
    (h : Outcome input t.src.shared a event t.dst.shared (some b)) :
    UnitPast (past ++ [t]) t.dst.shared i b := by
  generalize t.dst.shared = db' at h
  cases h with
  | activationRead => exact ⟨t, by simp, input, hlabel⟩
  | @issueRead _ _ _ prepared _ hread =>
    obtain ⟨reading⟩ := nonempty_issueReading hread
    obtain ⟨hid, hrow, -⟩ := loadWalletUnit_eq_ok_iff.1 reading.load_eq
    refine ⟨prepared.unit.row, ?_, fun hpend => ?_⟩
    · rw [(sameUnits_attestKeys reading.inputs_eq).walletUnits, hid]
      exact hrow
    · rw [reading.active] at hpend
      cases hpend
  | revocationRead | revocationWritten => trivial

end Steps

/-- The registrations of the units and the past of the running calls, as an invariant. -/
def unitInvariant (ι Key Der : Type) : Interleaving.Invariant ι Call.IsRequest (@Next Key Der) where
  shared := UnitsRegistered
  call := UnitPast
  pair _ _ := True
  pair_symm := id
  pair_request _ := trivial
  call_request h := by cases h <;> trivial
  shared_begins _ hdb hunits id row hrow := by
    rw [hdb] at hrow ⊢
    exact ⟨(hunits id row hrow).1, (hunits id row hrow).2.mono (by simp)⟩
  call_begins {past t i a j b} _ hdb hpast := by
    rw [hdb]
    cases b with
    | register | activate | issue | revoke | revoking | marking => trivial
    | activating id request prepared =>
      obtain ⟨t', ht', input', hlabel⟩ := hpast
      exact ⟨t', mem_append_left _ ht', input', hlabel⟩
    | issuing request prepared => exact hpast
  shared_steps hlabel hnext hunits hpast := hunits.step hlabel hnext.outcome hpast
  call_steps hlabel hnext _ _ := UnitPast.step hlabel hnext.outcome
  call_others _ _ hnext hunits _ hpast _ := hpast.others hnext.outcome hunits
  pair_steps _ _ _ _ _ := trivial

/-! ### Becoming active -/

/-- The activation by which a unit becomes active: its write, and the read before it. -/
structure ActivationOf (pre : List (ProviderTransition ι Key Der)) (t : ProviderTransition ι Key Der)
    (id : Nat) where
  call : ι
  request : WalletUnitActivationRequest
  jwk : PublicJwk
  input : Input Key Der
  /-- The time and the configuration when the unit was read and the attestation was checked. -/
  readInput : Input Key Der
  read : ProviderTransition ι Key Der
  label_eq : t.label = .steps call (input, .activationWritten id request (.activate jwk))
  read_mem : read ∈ pre
  read_label : read.label = .steps call (readInput, .activationRead id request (.activate jwk))

variable {pre : List (ProviderTransition ι Key Der)} {t : ProviderTransition ι Key Der}

/-- The unit was registered in time with a nonce of its own, and there is evidence for the nonce and
the key that is recorded. -/
def ActivationOf.Sound {id : Nat} (a : ActivationOf pre t id) (Signed : Key → Bytes → Prop)
    (ChainsTo : AttestationCertificate Key → String → Prop) (row : WalletUnit) : Prop :=
  ∃ registration ∈ pre, ∃ caller registered request params,
    registration.label = .steps caller (registered, .registered id request) ∧
    request.os = row.os ∧ request.walletProvider = row.walletProviderName ∧
    getWalletProviderConfigParams a.readInput.env row.walletProviderName = .ok params ∧
    a.readInput.now ≤
      registered.now + seconds params.walletInstanceAttestation.integrityCheck.timeout ∧
    Evidence a.readInput.env Signed ChainsTo a.readInput.now params row.os
      (registered.env.generateAlphanumeric id) a.request a.jwk ∧
    row.authenticationKeyJwk = some a.jwk ∧
    ∀ other row', other ≠ id → t.dst.shared.walletUnits.get? other = some row' →
      row'.nonce ≠ some (registered.env.generateAlphanumeric id)

/-- The service has an address, and the attestation lists a signing certificate. -/
def ActivationOf.Complete {id : Nat} (a : ActivationOf pre t id) (row : WalletUnit) :
    Prop :=
  a.readInput.env.lists.baseUrl.isSome ∧
    ∃ params, getWalletProviderConfigParams a.readInput.env row.walletProviderName = .ok params ∧
      ListsSigner a.readInput.env params a.request.attestation row.os

def UsedIn (tr : List (ProviderTransition ι Key Der)) (input : Input Key Der) : Prop :=
  ∃ t ∈ tr, ∃ i event, t.label = .steps i (input, event)

/-- What is assumed of all steps of a run: the cryptography is sound, the integrity of the
applications is checked, and a random text is drawn only once. -/
structure ActivationSetting (tr : List (ProviderTransition ι Key Der)) (Signed : Key → Bytes → Prop)
    (ChainsTo : AttestationCertificate Key → String → Prop) : Prop where
  sound : ∀ input, UsedIn tr input → SoundCryptography input.env Signed ChainsTo
  enabled : ∀ input, UsedIn tr input → ∀ name params,
    getWalletProviderConfigParams input.env name = .ok params →
      params.walletInstanceAttestation.integrityCheck.enabled = true
  nonces : ∀ input input', UsedIn tr input → UsedIn tr input' → ∀ m n,
    input.env.generateAlphanumeric m = input'.env.generateAlphanumeric n → m = n

section Run

variable [DecidableEq ι] {db : Database} {tr pre : List (ProviderTransition ι Key Der)}
  {t : ProviderTransition ι Key Der} {c : ProviderConfig ι} {Signed : Key → Bytes → Prop}
  {ChainsTo : AttestationCertificate Key → String → Prop} {id : Nat} {row : WalletUnit}

lemma unitInvariant_holds (hstart : db.walletUnits.entries = [])
    (hrun : Run ProviderStep (start ι db) tr c) :
    (unitInvariant ι Key Der).Holds tr c := by
  refine Interleaving.Invariant.holds_of_run (fun id row hrow => ?_) hrun
  have hmem : (id, row) ∈ db.walletUnits.entries := get?_eq_some_iff.1 hrow
  rw [hstart] at hmem
  cases hmem

/-- A unit that becomes active without being a web wallet does so by the write of an activation. -/
lemma nonempty_activationOf (hstart : db.walletUnits.entries = [])
    (hrun : Run ProviderStep (start ι db) tr c)
    (hset : ActivationSetting tr Signed ChainsTo) (hpre : pre ++ [t] <+: tr)
    (hbef : ∀ old, t.src.shared.walletUnits.get? id = some old → old.status ≠ .active)
    (hrow : t.dst.shared.walletUnits.get? id = some row) (hos : row.os ≠ .web)
    (hact : row.status = .active) : Nonempty (ActivationOf pre t id) := by
  obtain ⟨hrunpre, hstep⟩ := hrun.of_append_singleton hpre
  have hinv := unitInvariant_holds hstart hrunpre
  have hmem : t ∈ tr := hpre.subset (by simp)
  rcases hstep.cases with ⟨_, _, -, -, -, hdb, -⟩ |
    ⟨i, call, ⟨input, event⟩, rest, hlabel, hrng, hnext, -⟩
  · rw [hdb] at hrow
    exact absurd hact (hbef row hrow)
  · have hout := Next.outcome hnext
    cases hold : t.src.shared.walletUnits.get? id with
    | none =>
      -- a new unit waits for its activation, because the integrity is checked
      obtain ⟨request, rfl, hreg⟩ := hout.unit_none hold hrow
      obtain ⟨params, _, new, hprm, rfl, hdb, hkinds⟩ := registerWalletUnit_eq_ok hreg
      rw [hdb] at hrow
      have heq : some new = some row := by
        rw [← hrow, get?_insert, if_pos rfl]
      cases heq
      have henb := hset.enabled input ⟨t, hmem, i, _, hlabel⟩ _ params hprm
      rcases hkinds with ⟨-, -, rfl⟩ | ⟨hnot, jwk, rfl⟩
      · cases hact
      · exact absurd ⟨henb, hos⟩ hnot
    | some old =>
      obtain ⟨row', hrow', hchg⟩ := hout.unit (hinv.shared id old hold).1 hold
      obtain rfl := mem_unique hrow' hrow
      cases hchg with
      | unchanged => exact absurd hact (hbef _ hold)
      | issued => exact absurd (show old.status = .active from hact) (hbef _ hold)
      | revocation => cases hact
      | @activation request prepared =>
        cases prepared with
        | fail => cases hact
        | activate jwk =>
          have hcall : call = .activating id request (.activate jwk) := by
            cases hout
            rfl
          obtain ⟨read, hread, readInput, hreadL⟩ := hinv.call (hcall ▸ hrng)
          exact ⟨⟨i, request, jwk, input, readInput, read, hlabel, hread, hreadL⟩⟩

lemma sameIdentity_of_run {c' : ProviderConfig ι} (hrun : Run ProviderStep c tr c')
    (hid : id < c.shared.nextId) (hrow : c.shared.walletUnits.get? id = some row) :
    ∃ row', c'.shared.walletUnits.get? id = some row' ∧ SameIdentity row row' := by
  have hkept : id < c'.shared.nextId ∧
      ∃ row', c'.shared.walletUnits.get? id = some row' ∧ SameIdentity row row' := by
    refine hrun.preserves (P := fun c => id < c.shared.nextId ∧
      ∃ row', c.shared.walletUnits.get? id = some row' ∧ SameIdentity row row')
      (fun t _ hstep hsrc => ?_) ⟨hid, row, hrow, rfl, rfl, rfl⟩
    rcases Interleaving.Step.cases hstep with ⟨_, _, -, -, -, hdb, -⟩ |
      ⟨_, _, ⟨input, event⟩, _, -, -, hnext, -⟩
    · rw [hdb]
      exact hsrc
    · obtain ⟨hlt, row', hrow', hsame⟩ := hsrc
      have hout := Next.outcome hnext
      obtain ⟨row'', hrow'', hchg⟩ := hout.unit hlt hrow'
      have hsame' := hchg.sameIdentity
      exact ⟨Nat.lt_of_lt_of_le hlt hout.nextId_le, row'', hrow'', hsame'.os.trans hsame.os,
        hsame'.walletProviderName.trans hsame.walletProviderName, hsame'.nonce.trans hsame.nonce⟩
  exact hkept.2

lemma exists_activationReading (hstart : db.walletUnits.entries = [])
    (hrun : Run ProviderStep (start ι db) pre t.src)
    (hstep : ProviderStep t.src t.label t.dst) (a : ActivationOf pre t id)
    (hrow : t.dst.shared.walletUnits.get? id = some row) :
    ∃ reading : ActivationReading a.readInput.env a.readInput.now a.read.src.shared id a.request a.jwk,
      RegisteredIn pre id reading.row ∧ SameIdentity reading.row row := by
  obtain ⟨before, after, hspl, hbef, hread, haft⟩ := hrun.split_of_mem a.read_mem
  have hinv := unitInvariant_holds hstart hbef
  have hrest := haft.concat hstep
  obtain ⟨call, rest, -, hnext, -⟩ := Interleaving.Step.of_steps hread a.read_label
  have hout := Next.outcome hnext
  generalize hdst : a.read.dst.shared = db' at hout
  cases hout with
  | activationRead hread =>
    obtain ⟨reading⟩ := nonempty_activationReading hread
    obtain ⟨hid, hreg⟩ := hinv.shared id reading.row reading.row_eq
    have hid' : id < a.read.dst.shared.nextId := by
      rw [hdst]
      exact hid
    have hrow' : a.read.dst.shared.walletUnits.get? id = some reading.row := by
      rw [hdst]
      exact reading.row_eq
    obtain ⟨row', hrow'', hsame⟩ := sameIdentity_of_run hrest hid' hrow'
    obtain rfl := mem_unique hrow'' hrow
    exact ⟨reading, hreg.mono (hspl ▸ subset_append_left _ _), hsame⟩

lemma authenticationKeyJwk_of_activation (hstep : ProviderStep t.src t.label t.dst)
    (a : ActivationOf pre t id) (hrow : t.dst.shared.walletUnits.get? id = some row) :
    row.authenticationKeyJwk = some a.jwk := by
  obtain ⟨call, rest, -, hnext, -⟩ := Interleaving.Step.of_steps hstep a.label_eq
  have hout := Next.outcome hnext
  cases hout with
  | activationWritten h =>
    obtain ⟨old, -, hunits, -⟩ := walletUnits_updateWalletUnit (mapError_eq_ok.1 h)
    rw [hunits, get?_insert, if_pos rfl] at hrow
    cases hrow
    rfl

end Run

/-! ### An attestation without a signing certificate -/

def activationSchedule (input : Input PublicJwk SampleDer) :
    List (Interleaving.Action Bool Call (Input PublicJwk SampleDer)) :=
  [.begins false (.register ⟨"provider", .android, none, none⟩), .steps false input,
    .begins true (.activate 1 ⟨["certificate"], "attested", none⟩), .steps true input, .steps true input]

variable {revocationMethod : Option String} {digests : List Bytes}

lemma sampleSetting
    {tr : List (ProviderTransition Bool PublicJwk SampleDer)} {c : ProviderConfig Bool}
    (h : performAll advance (start Bool sampleDatabase)
      (activationSchedule (sampleInput digests revocationMethod)) = some (tr, c)) :
    Run ProviderStep (start Bool sampleDatabase) tr c ∧
      (∀ input, UsedIn tr input → input = sampleInput digests revocationMethod) ∧
      ActivationSetting tr (fun _ _ => True) fun _ _ => True := by
  have hused : ∀ input, UsedIn tr input → input = sampleInput digests revocationMethod := by
    rintro input ⟨t, ht, i, event, hlabel⟩
    have hmem := mem_of_performAll h ht hlabel
    simp only [activationSchedule, mem_cons, Interleaving.Action.steps.injEq, reduceCtorEq,
      not_mem_nil, or_false, false_or] at hmem
    rcases hmem with ⟨-, rfl⟩ | ⟨-, rfl⟩ | ⟨-, rfl⟩ <;> rfl
  refine ⟨run_performAll h (And.intro (.register _) (.activate _ _)), hused, ⟨?_, ?_, ?_⟩⟩
  · intro input hinp
    obtain rfl := hused input hinp
    exact ⟨fun _ _ _ _ => trivial, fun _ _ _ _ _ _ _ => trivial, fun _ _ _ h => (nomatch h),
      fun _ _ h => (nomatch h)⟩
  · intro input hinp name params hprm
    obtain rfl := hused input hinp
    simp only [getWalletProviderConfigParams, ok_iffs] at hprm
    obtain ⟨_, henb, _, -, rfl⟩ := hprm
    cases henb
    rfl
  · intro input input' hinp hinp' m n heq
    obtain rfl := hused input hinp
    obtain rfl := hused input' hinp'
    have hlen := congrArg String.length heq
    simpa [sampleInput, sampleEnvironment] using hlen

/-- The last transition of the schedule makes the unit active. -/
def activatesLast (r : List (ProviderTransition Bool PublicJwk SampleDer) × ProviderConfig Bool) :
    Bool :=
  match r.1.reverse with
  | t :: _ => decide ((t.src.shared.walletUnits.get? 1).map WalletUnit.status ≠ some .active) &&
      decide ((t.dst.shared.walletUnits.get? 1).map
        (fun row => (row.os, row.status)) = some (.android, .active))
  | [] => false

lemma exists_activatesLast (h : ∃ r ∈ performAll advance (start Bool sampleDatabase)
      (activationSchedule (sampleInput digests revocationMethod)), activatesLast r = true) :
    ∃ (pre : List (ProviderTransition Bool PublicJwk SampleDer)) (t : ProviderTransition Bool PublicJwk SampleDer)
      (c : ProviderConfig Bool) (row : WalletUnit),
      Run ProviderStep (start Bool sampleDatabase) (pre ++ [t]) c ∧
      (∀ input, UsedIn (pre ++ [t]) input → input = sampleInput digests revocationMethod) ∧
      ActivationSetting (pre ++ [t]) (fun _ _ => True) (fun _ _ => True) ∧
      (∀ old, t.src.shared.walletUnits.get? 1 = some old → old.status ≠ .active) ∧
      t.dst.shared.walletUnits.get? 1 = some row ∧ row.os = .android ∧ row.status = .active := by
  obtain ⟨⟨tr, c⟩, hprf, hlast⟩ := h
  unfold activatesLast at hlast
  split at hlast
  · next t rest htr =>
    obtain rfl := reverse_eq_cons_iff.1 htr
    obtain ⟨hrun, hused, hset⟩ := sampleSetting hprf
    simp only [Bool.and_eq_true, decide_eq_true_eq, map_eq_some_iff, Prod.mk.injEq] at hlast
    obtain ⟨hbef, row, hrow, hos, hact⟩ := hlast
    refine ⟨rest.reverse, t, c, row, hrun, hused, hset, fun old hold hold' => hbef ?_, hrow, hos,
      hact⟩
    rw [hold, map_some, hold']
  · cases hlast

end OneCore.WalletProvider
