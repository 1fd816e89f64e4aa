/-
# What the requests do to the rows of the wallet units

A row is written by a registration, by the write of an activation, by the transaction of a request
for attestations and by the write of a revocation.  The status is changed by activations and
revocations only.
-/
import OneCore.WalletProvider.System

namespace OneCore.WalletProvider

open Database IndexMap

variable {Key Der : Type} {db db' : Database} {now : Timestamp}

/-! ### Writes of a row -/

variable {id : Nat} {request : Database.UpdateWalletUnitRequest} {listId keyId : Nat}
  {certificate method : Option String} {info : RevocationInfo} {status : Option CredentialStatus}
  {prepared : PreparedIssue} {infos : List RevocationInfo} {row : WalletUnit}

lemma updateWalletUnit_eq_ok_iff :
    db.updateWalletUnit now id request = .ok db' ↔ ∃ row, db.walletUnits.get? id = some row ∧
      ¬db.authenticationKeyTaken id row.organisationId
        (request.authenticationKeyJwk.or row.authenticationKeyJwk) ∧
      db' = (request.attestedKeys.getD []).foldl (upsertAttestedKey now)
        { db with walletUnits := db.walletUnits.insert id (request.apply now row) } := by
  simp only [updateWalletUnit, ok_iffs, exists_unit_iff]
  tauto

lemma foldl_upsertAttestedKey_eq (keys : List WalletUnitAttestedKey) :
    keys.foldl (upsertAttestedKey now) db = { db with
      attestedKeys := (keys.foldl (upsertAttestedKey now) db).attestedKeys } := by
  induction keys generalizing db with
  | nil => rfl
  | cons key keys ih =>
    rw [List.foldl_cons, ih]
    rfl

lemma walletUnits_updateWalletUnit (h : db.updateWalletUnit now id request = .ok db') : ∃ row,
      db.walletUnits.get? id = some row ∧
      db'.walletUnits = db.walletUnits.insert id (request.apply now row) ∧ db'.nextId = db.nextId := by
  obtain ⟨row, hrow, -, rfl⟩ := updateWalletUnit_eq_ok_iff.1 h
  rw [foldl_upsertAttestedKey_eq]
  exact ⟨row, hrow, rfl, rfl⟩

/-! ### The tables that the status lists leave alone -/

/-- The tables besides the keys and the status lists are the same, and ids may have been drawn. -/
structure SameUnits (db db' : Database) : Prop where
  walletUnits : db'.walletUnits = db.walletUnits
  organisations : db'.organisations = db.organisations
  identifiers : db'.identifiers = db.identifiers
  nextId_le : db.nextId ≤ db'.nextId

lemma SameUnits.refl (db : Database) : SameUnits db db := ⟨rfl, rfl, rfl, Nat.le_refl _⟩

lemma SameUnits.trans {db'' : Database} (h : SameUnits db db') (h' : SameUnits db' db'') :
    SameUnits db db'' where
  walletUnits := h'.walletUnits.trans h.walletUnits
  organisations := h'.organisations.trans h.organisations
  identifiers := h'.identifiers.trans h.identifiers
  nextId_le := Nat.le_trans h.nextId_le h'.nextId_le

lemma createEntry_eq_ok_iff {index : Nat} :
    db.createEntry now listId keyId index = .ok db' ↔ ¬db.indexTaken listId index ∧
      ∃ row, db.attestedKeys.get? keyId = some row ∧ db' = { db with
        nextId := db.nextId + 1
        entries := db.entries.insert db.nextId ⟨listId, some index, .active⟩
        attestedKeys := db.attestedKeys.insert keyId
          { row with lastModified := now, revocationListEntryId := some db.nextId } } := by
  simp only [createEntry, freshId, ok_iffs, exists_unit_iff]
  tauto

lemma sameUnits_createEntry {index : Nat}
    (h : db.createEntry now listId keyId index = .ok db') : SameUnits db db' := by
  obtain ⟨-, row, -, rfl⟩ := createEntry_eq_ok_iff.1 h
  exact ⟨rfl, rfl, rfl, Nat.le_succ _⟩

/-- The two ways to get an entry: on a list that is there, or on a new one. -/
lemma createKeyEntry_eq_ok {env : StatusListEnvironment} {issuer method : String}
    (h : createKeyEntry env now db keyId issuer certificate method = .ok (info, db')) :
    (db.getRevocationByIssuerIdentifierId issuer certificate method = some info.revocationListId ∧
      db.createEntry now info.revocationListId keyId info.revocationListIndex = .ok db') ∨
    ∃ list, info.revocationListId = db.nextId ∧
      ({ db with
        nextId := db.nextId + 1
        revocationLists := db.revocationLists.insert db.nextId list } : Database).createEntry now
          info.revocationListId keyId info.revocationListIndex = .ok db' := by
  unfold createKeyEntry at h
  split at h
  · next listId hlist =>
    simp only [ok_iffs, Prod.mk.injEq] at h
    obtain ⟨_, hcr, rfl, rfl⟩ := h
    exact .inl ⟨hlist, hcr⟩
  · simp only [startNewListForEntity, freshId, ok_iffs, Prod.mk.injEq, Prod.exists] at h
    obtain ⟨_, _, ⟨formatted, -, _, hcr, rfl, rfl⟩, rfl, rfl⟩ := h
    exact .inr ⟨_, rfl, hcr⟩

lemma sameUnits_createKeyEntry {env : StatusListEnvironment} {issuer method : String}
    (h : createKeyEntry env now db keyId issuer certificate method = .ok (info, db')) :
    SameUnits db db' := by
  rcases createKeyEntry_eq_ok h with ⟨-, hcr⟩ | ⟨list, -, hcr⟩
  · exact sameUnits_createEntry hcr
  · have hlist : SameUnits db { db with
        nextId := db.nextId + 1
        revocationLists := db.revocationLists.insert db.nextId list } :=
      ⟨rfl, rfl, rfl, Nat.le_succ _⟩
    exact hlist.trans (sameUnits_createEntry hcr)

lemma addIssuedAttestation_eq_ok {env : StatusListEnvironment} {method : String}
    {key : WalletUnitAttestedKey} {status : CredentialStatus}
    (h : addIssuedAttestation env now db method key = .ok (status, db')) :
    ∃ issuer certificate info,
      createKeyEntry env now db key.id issuer certificate method = .ok (info, db') ∧
      createCredentialStatus env info = .ok status := by
  simp only [addIssuedAttestation, ok_iffs, Prod.exists, Prod.mk.injEq] at h
  obtain ⟨_, -, _, -, issuer, -, _, -, info, _, hcr, status', hst, rfl, rfl⟩ := h
  exact ⟨issuer, _, info, hcr, hst⟩

variable {env : Environment Key Der} {input : AttestedKeyInput}

/-- What the status of a key rests on, for each kind of key. -/
lemma keyStatus_eq_ok (h : keyStatus env now db method input = .ok (status, db')) :
    (method = none ∧ status = none ∧ db' = db) ∨
    (∃ m key s, method = some m ∧ input = .newlyCreated key ∧ status = some s ∧
      addIssuedAttestation env.lists now db m key = .ok (s, db')) ∨
    (method.isSome ∧ input = .reused none ∧ status = none ∧ db' = db) ∨
    ∃ info s, method.isSome ∧ input = .reused (some info) ∧ status = some s ∧
      createCredentialStatus env.lists info = .ok s ∧ db' = db := by
  unfold keyStatus at h
  split at h
  · cases h
    exact .inl ⟨rfl, rfl, rfl⟩
  · next m key =>
    simp only [ok_iffs, Prod.exists, Prod.mk.injEq] at h
    obtain ⟨s, _, hadd, rfl, rfl⟩ := h
    exact .inr (.inl ⟨m, key, s, rfl, rfl, rfl, hadd⟩)
  · cases h
    exact .inr (.inr (.inl ⟨rfl, rfl, rfl, rfl⟩))
  · next info =>
    simp only [ok_iffs, Prod.mk.injEq] at h
    obtain ⟨s, hst, rfl, rfl⟩ := h
    exact .inr (.inr (.inr ⟨info, s, rfl, rfl, rfl, hst, rfl⟩))

lemma sameUnits_keyStatus
    (h : keyStatus env now db method input = .ok (status, db')) : SameUnits db db' := by
  rcases keyStatus_eq_ok h with ⟨-, -, rfl⟩ | ⟨_, _, _, -, -, -, hadd⟩ | ⟨-, -, -, rfl⟩ |
    ⟨_, _, -, -, -, -, rfl⟩
  · exact .refl _
  · obtain ⟨_, _, _, hcr, -⟩ := addIssuedAttestation_eq_ok hadd
    exact sameUnits_createKeyEntry hcr
  · exact .refl _
  · exact .refl _

lemma issueKeyAttestation_eq_ok {input : KeyAttestationInput} {issued : IssuedAttestation}
    (h : issueKeyAttestation env now prepared db input = .ok (issued, db')) :
    ∃ status, keyStatus env now db prepared.revocationMethod input.key = .ok (status, db') ∧
      issued.attestation.attestedKeys = [input.holderJwk] ∧
      issued.attestation.status = status.filter fun s => env.isUrl s.uri := by
  simp only [issueKeyAttestation, createWua, ok_iffs, Prod.exists, Prod.mk.injEq] at h
  obtain ⟨status, _, hst, _, ⟨_, -, rfl⟩, _, -, rfl, rfl⟩ := h
  exact ⟨status, hst, rfl, rfl⟩

variable {inputs : List KeyAttestationInput}

lemma sameUnits_issueKeyAttestations {issued : List IssuedAttestation}
    (h : issueKeyAttestations env now prepared db inputs = .ok (issued, db')) : SameUnits db db' := by
  induction inputs generalizing db issued with
  | nil =>
    cases h
    exact .refl _
  | cons input inputs ih =>
    simp only [issueKeyAttestations, ok_iffs, Prod.exists, Prod.mk.injEq] at h
    obtain ⟨_, _, hfst, _, _, hrest, -, rfl⟩ := h
    obtain ⟨_, hst, -⟩ := issueKeyAttestation_eq_ok hfst
    exact (sameUnits_keyStatus hst).trans (ih hrest)

/-! ### Requests for attestations and revocations -/

variable {walletUnitId : Nat} {keys keys' : List WalletUnitAttestedKey}

lemma sameUnits_attestKey {expirationDate : Timestamp} {jwk : PublicJwk}
    (h : attestKey walletUnitId expirationDate keys db jwk = (input, keys', db')) :
    SameUnits db db' := by
  unfold attestKey at h
  split at h
  · cases h
    exact .refl _
  · cases h
    exact ⟨rfl, rfl, rfl, Nat.le_succ _⟩

variable {params : WalletProviderParams} {requests : List IssueWuaRequest}

lemma attestKeys_cons_eq_ok_iff {request : IssueWuaRequest} :
    attestKeys env now params walletUnitId (request :: requests) keys db = .ok (inputs, keys', db') ↔
      ∃ jwk, verifyPop env now request.proof params.deviceAuthLeeway = .ok jwk ∧
        ∃ input keys₁ db₁ rest, attestKey walletUnitId
          (now + seconds params.walletUnitAttestation.expirationTime) keys db jwk = (input, keys₁, db₁) ∧
        attestKeys env now params walletUnitId requests keys₁ db₁ = .ok (rest, keys', db') ∧
        inputs = ⟨jwk, request.securityLevel, input⟩ :: rest := by
  simp only [attestKeys, ok_iffs, Prod.exists, Prod.mk.injEq]
  constructor
  · rintro ⟨jwk, hjwk, rest, _, _, hrest, rfl, rfl, rfl⟩
    exact ⟨jwk, hjwk, _, _, _, rest, rfl, hrest, rfl⟩
  · rintro ⟨jwk, hjwk, input, keys₁, db₁, rest, hkey, hrest, rfl⟩
    refine ⟨jwk, hjwk, rest, keys', db', ?_, ?_, rfl, rfl⟩
    · rw [hkey]
      exact hrest
    · rw [hkey]

lemma sameUnits_attestKeys
    (h : attestKeys env now params walletUnitId requests keys db = .ok (inputs, keys', db')) :
    SameUnits db db' := by
  induction requests generalizing keys db inputs with
  | nil =>
    cases h
    exact .refl _
  | cons request requests ih =>
    obtain ⟨_, -, _, _, _, _, hkey, hrest, -⟩ := attestKeys_cons_eq_ok_iff.1 h
    exact (sameUnits_attestKey hkey).trans (ih hrest)

/-- What is known of a request for attestations that has been read. -/
structure IssueReading (input : Input Key Der) (db : Database) (id : Nat) (bearerToken : String)
    (request : IssueWalletUnitAttestationRequest) (prepared : PreparedIssue) (db' : Database) where
  keys : List WalletUnitAttestedKey
  load_eq : loadWalletUnit db id = .ok prepared.unit
  keys_eq : db.getByWalletUnitId id = .ok keys
  active : prepared.unit.row.status = .active
  params_eq : getWalletProviderConfigParams input.env prepared.unit.row.walletProviderName =
    .ok prepared.params
  method_eq : getRevocationMethod input.env prepared.params = .ok prepared.revocationMethod
  inputs_eq : attestKeys input.env input.now prepared.params id request.wua keys db =
    .ok (prepared.inputs, prepared.attestedKeys, db')

variable {input : Input Key Der}

lemma nonempty_issueReading {bearerToken : String} {request : IssueWalletUnitAttestationRequest}
    (h : readIssue input.env input.now db id bearerToken request = .ok (prepared, db')) :
    Nonempty (IssueReading input db id bearerToken request prepared db') := by
  simp only [readIssue, loadAttestedKeys, ok_iffs, exists_unit_iff, Prod.exists, Prod.mk.injEq] at h
  obtain ⟨unit, hunit, keys, hkeys, hact, params, hprm, _, -, method, hmth, _, -, _, -, _, -,
    -, _, -, _, -, inputs, _, _, hinps, rfl, rfl⟩ := h
  exact ⟨⟨keys, hunit, hkeys, hact, hprm, hmth, hinps⟩⟩

lemma loadWalletUnit_eq_ok_iff {unit : LoadedWalletUnit} :
    loadWalletUnit db id = .ok unit ↔ unit.id = id ∧ db.walletUnits.get? id = some unit.row ∧
      db.organisations.get? unit.row.organisationId = some unit.organisation := by
  simp only [loadWalletUnit, getWalletUnit, ok_iffs]
  cases hrow : db.walletUnits.get? id with
  | none => simp
  | some row =>
    simp only [ok_iffs]
    constructor
    · rintro ⟨_, ⟨organisation, horga, rfl⟩, heq⟩
      cases heq
      exact ⟨rfl, rfl, horga⟩
    · rintro ⟨rfl, heq, horga⟩
      cases heq
      exact ⟨_, ⟨_, horga, rfl⟩, rfl⟩

lemma issueTx_eq_ok {response : IssueResponse}
    (h : issueTx env now db prepared = .ok (response, db')) :
    (prepared.inputs = [] ∧ response.wua = [] ∧ db' = db) ∨
    ∃ db₁, db.updateWalletUnit now prepared.unit.id prepared.update = .ok db₁ ∧
      issueKeyAttestations env now prepared db₁ prepared.inputs = .ok (response.wua, db') := by
  unfold issueTx at h
  split at h
  · next hnoth =>
    cases h
    exact .inl ⟨hnoth.2, rfl, rfl⟩
  · simp only [ok_iffs, Prod.exists, Prod.mk.injEq] at h
    obtain ⟨db₁, hupd, _, _, hiss, rfl, rfl⟩ := h
    exact .inr ⟨db₁, hupd, hiss⟩

variable {status : EntryStatus}

lemma updateListEntries_eq_ok {env : StatusListEnvironment}
    (h : updateListEntries env status infos db listId = .ok db') : ∃ lists, db' = { db with
      revocationLists := lists
      entries := (((infos.filter fun info => decide (info.revocationListId = listId)).map
        RevocationInfo.revocationListIndex).foldl
          (fun db index => db.updateEntry listId index status) db).entries } := by
  have hfold : ∀ (indexes : List Nat) (db : Database),
      indexes.foldl (fun db index => db.updateEntry listId index status) db = { db with
        entries := (indexes.foldl (fun db index => db.updateEntry listId index status) db).entries } := by
    intro indexes
    induction indexes with
    | nil => exact fun _ => rfl
    | cons index indexes ih =>
      intro db
      rw [List.foldl_cons, ih]
      rfl
  simp only [updateListEntries, updateFormattedList, ok_iffs] at h
  obtain ⟨_, -, _, -, _, -, rfl⟩ := h
  rw [hfold]
  exact ⟨_, rfl⟩

lemma sameUnits_updateAttestationEntries {env : StatusListEnvironment} {order : IterationOrder Nat}
    (h : updateAttestationEntries env order db infos status = .ok db') :
    SameUnits db db' ∧ db'.attestedKeys = db.attestedKeys ∧ db'.nextId = db.nextId := by
  unfold updateAttestationEntries at h
  generalize order.first _ = lists at h
  induction lists generalizing db with
  | nil =>
    cases h
    exact ⟨.refl _, rfl, rfl⟩
  | cons listId lists ih =>
    rw [List.foldlM_cons, bind_eq_ok] at h
    obtain ⟨db₁, hfst, hrest⟩ := h
    obtain ⟨_, rfl⟩ := updateListEntries_eq_ok hfst
    obtain ⟨hsame, hkeys, hid⟩ := ih hrest
    exact ⟨⟨hsame.walletUnits, hsame.organisations, hsame.identifiers, hsame.nextId_le⟩, hkeys, hid⟩

variable {prepared : PreparedRevocation}

lemma markEntries_eq_ok (h : markEntries input db prepared = .ok db') :
    (prepared.entries = none ∧ db' = db) ∨
    ∃ method infos, prepared.entries = some (method, infos) ∧
      updateAttestationEntries input.env.lists input.order db infos .revoked = .ok db' := by
  unfold markEntries at h
  split at h
  · next hnone =>
    cases h
    exact .inl ⟨hnone, rfl⟩
  · next method infos hsome =>
    simp only [revokeEntries, ok_iffs, exists_unit_iff] at h
    exact .inr ⟨method, infos, hsome, h.2⟩

lemma sameUnits_markEntries (h : markEntries input db prepared = .ok db') :
    SameUnits db db' ∧ db'.attestedKeys = db.attestedKeys ∧ db'.nextId = db.nextId := by
  rcases markEntries_eq_ok h with ⟨-, rfl⟩ | ⟨_, _, -, hupd⟩
  · exact ⟨.refl _, rfl, rfl⟩
  · exact sameUnits_updateAttestationEntries hupd

lemma readRevocation_eq_ok_iff :
    readRevocation env db id = .ok prepared ↔ ∃ unit params, loadWalletUnit db id = .ok unit ∧
      db.getByWalletUnitId id = .ok prepared.keys ∧ unit.row.status = .active ∧
      getWalletProviderConfigParams env unit.row.walletProviderName = .ok params ∧
      prepared.unitId = id ∧
      prepared.revocationMethod = params.walletUnitAttestation.revocationMethod := by
  simp only [readRevocation, loadAttestedKeys, ok_iffs, exists_unit_iff]
  constructor
  · rintro ⟨unit, hunit, keys, hkeys, hact, params, hprm, rfl⟩
    exact ⟨unit, params, hunit, hkeys, hact, hprm, rfl, rfl⟩
  · rintro ⟨unit, params, hunit, hkeys, hact, hprm, rfl, hmth⟩
    exact ⟨unit, hunit, _, hkeys, hact, params, hprm, by rw [← hmth]⟩

/-! ### Registrations -/

lemma createWalletUnit_eq_ok (h : db.createWalletUnit id row = .ok db') :
    db' = { db with walletUnits := db.walletUnits.insert id row } := by
  simp only [createWalletUnit, ok_iffs, exists_unit_iff] at h
  exact h.2.symm

/-- A registration adds a row: one that waits with a nonce, or an active one with a key. -/
lemma registerWalletUnit_eq_ok {request : RegisterWalletUnitRequest}
    (h : registerWalletUnit env now db request = .ok (id, db')) :
    ∃ params organisationId row,
      getWalletProviderConfigParams env request.walletProvider = .ok params ∧ id = db.nextId ∧
      db' = { db with nextId := db.nextId + 1, walletUnits := db.walletUnits.insert id row } ∧
      ((params.walletInstanceAttestation.integrityCheck.enabled = true ∧ request.os ≠ .web ∧
          row = walletUnitFromRequest request organisationId none now
            (some (env.generateAlphanumeric id))) ∨
        (¬(params.walletInstanceAttestation.integrityCheck.enabled = true ∧ request.os ≠ .web) ∧
          ∃ jwk, row = walletUnitFromRequest request organisationId (some jwk) now none)) := by
  simp only [registerWalletUnit, ok_iffs, exists_unit_iff] at h
  obtain ⟨params, hprm, organisation, -, _, -, -, h⟩ := h
  split at h
  · next henb =>
    simp only [createWalletUnitWithNonce, freshId, ok_iffs, exists_unit_iff, Prod.mk.injEq] at h
    obtain ⟨-, _, hcr, rfl, rfl⟩ := h
    obtain rfl := createWalletUnit_eq_ok hcr
    exact ⟨params, organisation.1, _, hprm, rfl, rfl, .inl ⟨henb.1, henb.2, rfl⟩⟩
  · next hdisa =>
    simp only [createWalletUnitWithAuthKey, freshId, ok_iffs, exists_unit_iff, Prod.mk.injEq] at h
    obtain ⟨_, -, _, -, jwk, -, _, -, -, _, hcr, rfl, rfl⟩ := h
    obtain rfl := createWalletUnit_eq_ok hcr
    exact ⟨params, organisation.1, _, hprm, rfl, rfl, .inr ⟨hdisa, jwk, rfl⟩⟩

/-! ### The row of a unit -/

/-- The unit whose status a step writes. -/
def Event.writesStatus : Event → Option Nat
  | .registered id _ => some id
  | .activationWritten id _ _ => some id
  | .revocationWritten prepared => some prepared.unitId
  | _ => none

/-- What a step does to the row of a unit, if it is there. -/
inductive UnitChange (input : Input Key Der) (id : Nat) (row : WalletUnit) : Event → WalletUnit → Prop
  | unchanged {event : Event} (h : event.writesStatus ≠ some id) : UnitChange input id row event row
  | activation {request : WalletUnitActivationRequest} {prepared : PreparedActivation} :
      UnitChange input id row (.activationWritten id request prepared)
        ((prepared.update input.now).apply input.now row)
  | issued {request : IssueWalletUnitAttestationRequest} {prepared : PreparedIssue}
      {response : IssueResponse} (hid : prepared.unit.id = id) :
      UnitChange input id row (.issued request prepared response) (prepared.update.apply input.now row)
  | revocation {prepared : PreparedRevocation} (hid : prepared.unitId = id) :
      UnitChange input id row (.revocationWritten prepared)
        (({ status := some .revoked } : Database.UpdateWalletUnitRequest).apply input.now row)

variable {call : Call} {event : Event} {rest : Option Call}

/-- What a step does to the table: nothing, one new row, or one row with another content. -/
inductive RowsWritten (input : Input Key Der) (db db' : Database) : Event → Prop
  | same {event : Event} (hrows : db'.walletUnits = db.walletUnits) (hid : db.nextId ≤ db'.nextId)
      (h : event.writesStatus = none) : RowsWritten input db db' event
  | new {request : RegisterWalletUnitRequest} {row : WalletUnit}
      (hrows : db'.walletUnits = db.walletUnits.insert db.nextId row)
      (hid : db.nextId ≤ db'.nextId)
      (h : registerWalletUnit input.env input.now db request = .ok (db.nextId, db')) :
      RowsWritten input db db' (.registered db.nextId request)
  | changed {event : Event} {id : Nat} {old row : WalletUnit}
      (hold : db.walletUnits.get? id = some old)
      (hrows : db'.walletUnits = db.walletUnits.insert id row) (hid : db.nextId ≤ db'.nextId)
      (hother : ∀ id', id' ≠ id → event.writesStatus ≠ some id')
      (h : UnitChange input id old event row) : RowsWritten input db db' event

variable (h : Outcome input db call event db' rest)

include h

lemma Outcome.rowsWritten : RowsWritten input db db' event := by
  have hother : ∀ {id id' : Nat}, id' ≠ id → some id ≠ some id' :=
    fun hne heq => hne (Option.some.inj heq).symm
  cases h with
  | activationRead | revocationRead | refused => exact .same rfl (Nat.le_refl _) rfl
  | registered h =>
    obtain ⟨_, _, _, -, rfl, rfl, -⟩ := registerWalletUnit_eq_ok h
    exact .new rfl (Nat.le_succ _) h
  | activationWritten h =>
    obtain ⟨_, hold, hrows, hid⟩ := walletUnits_updateWalletUnit (mapError_eq_ok.1 h)
    exact .changed hold hrows hid.ge (fun _ => hother) .activation
  | issueRead h =>
    obtain ⟨reading⟩ := nonempty_issueReading h
    have hsame := sameUnits_attestKeys reading.inputs_eq
    exact .same hsame.walletUnits hsame.nextId_le rfl
  | issued h =>
    rcases issueTx_eq_ok h with ⟨-, -, rfl⟩ | ⟨db₁, hupd, hiss⟩
    · exact .same rfl (Nat.le_refl _) rfl
    · obtain ⟨_, hold, hrows, hid⟩ := walletUnits_updateWalletUnit hupd
      have hsame := sameUnits_issueKeyAttestations hiss
      exact .changed hold (hsame.walletUnits.trans hrows) (hid ▸ hsame.nextId_le) (fun _ _ => nofun)
        (.issued rfl)
  | revocationWritten h =>
    obtain ⟨_, hold, hrows, hid⟩ := walletUnits_updateWalletUnit (mapError_eq_ok.1 h)
    exact .changed hold hrows hid.ge (fun _ => hother) (.revocation rfl)
  | revoked h =>
    have hsame := (sameUnits_markEntries h).1
    exact .same hsame.walletUnits hsame.nextId_le rfl

/-- No unit is removed, and each changes as its row does.  A new unit has a new id. -/
lemma Outcome.unit (hid : id < db.nextId) (hrow : db.walletUnits.get? id = some row) :
    ∃ row', db'.walletUnits.get? id = some row' ∧ UnitChange input id row event row' := by
  cases h.rowsWritten with
  | same hrows _ h => exact ⟨row, hrows ▸ hrow, .unchanged (by simp [h])⟩
  | new hrows _ h =>
    have hne : id ≠ db.nextId := Nat.ne_of_lt hid
    refine ⟨row, ?_, .unchanged fun heq => hne (Option.some.inj heq).symm⟩
    rw [hrows, get?_insert, if_neg hne, hrow]
  | @changed _ id' old row' hold hrows _ hother h =>
    rw [hrows, get?_insert]
    by_cases heq : id = id'
    · subst heq
      obtain rfl := mem_unique hrow hold
      exact ⟨row', if_pos rfl, h⟩
    · exact ⟨row, (if_neg heq).trans hrow, .unchanged (hother id heq)⟩

/-- A unit that was not there has been registered in the step. -/
lemma Outcome.unit_none {row' : WalletUnit}
    (hnone : db.walletUnits.get? id = none) (hrow' : db'.walletUnits.get? id = some row') :
    ∃ request, event = .registered id request ∧
      registerWalletUnit input.env input.now db request = .ok (id, db') := by
  cases h.rowsWritten with
  | same hrows => exact absurd ((hrows ▸ hrow').symm.trans hnone) nofun
  | new hrows _ hreg =>
    rw [hrows, get?_insert, hnone] at hrow'
    obtain rfl : id = db.nextId := by_contra fun hne => by simp [hne] at hrow'
    exact ⟨_, rfl, hreg⟩
  | changed hold hrows =>
    rw [hrows, get?_insert, hnone, if_neg] at hrow'
    · cases hrow'
    · rintro rfl
      exact absurd (hold.symm.trans hnone) nofun

lemma Outcome.nextId_le : db.nextId ≤ db'.nextId := by
  cases h.rowsWritten with
  | same _ hid | new _ hid | changed _ _ hid => exact hid

end OneCore.WalletProvider
