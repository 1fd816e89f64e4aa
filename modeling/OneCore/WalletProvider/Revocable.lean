/-
# Attestations can be revoked

An attestation that is issued while a revocation method is configured should refer to an entry of its
key, so that a revocation of the wallet unit that comes later marks the entry.  Whether it does depends
on the key: one that was stored without an entry never gets one, and one that comes twice in a request
has an entry only in its first attestation.
-/
import OneCore.WalletProvider.KeyHistory

namespace OneCore.WalletProvider

open List Option Interleaving ProviderConfig

variable {Key Der ι : Type}

/-! ### Runs from the beginning -/

/-- No wallet unit is registered.  There may be entries of others; each has its own place. -/
structure NoUnits (db : Database) : Prop where
  walletUnits : db.walletUnits.entries = []
  attestedKeys : db.attestedKeys.entries = []
  entry_lt : ∀ {e entry}, db.entries.get? e = some entry → e < db.nextId
  place_inj : ∀ {e e' entry entry' info}, db.entries.get? e = some entry →
    db.entries.get? e' = some entry' → entry.At info → entry'.At info → e = e'

lemma NoUnits.get?_attestedKeys {db : Database} (h : NoUnits db) {k : Nat} {row : AttestedKeyRow} :
    db.attestedKeys.get? k ≠ some row := by
  intro hrow
  have hmem := IndexMap.get?_eq_some_iff.1 hrow
  rw [h.attestedKeys] at hmem
  cases hmem

lemma NoUnits.keysKept {db : Database} (h : NoUnits db) :
    KeysKept db.nextId ([] : List (ProviderTransition ι Key Der)) db where
  consistent := {
    first_le := Nat.le_refl _
    key_lt := fun hrow => absurd hrow h.get?_attestedKeys
    entry_lt := h.entry_lt
    link := fun hrow => absurd hrow h.get?_attestedKeys
    link_inj := fun hrow => absurd hrow h.get?_attestedKeys
    place_inj := h.place_inj }
  marked hfst hent := absurd (h.entry_lt hent) (Nat.not_lt_of_le hfst)

variable {info : RevocationInfo} {jwk : PublicJwk}

/-- A revocation that has read the keys when the key had its entry marks the entry. -/
lemma entryRevoked_of_revocation {readDb readDb' doneDb doneDb' : Database}
    {readInput doneInput : Input Key Der} {call call' : Call} {rest rest' : Option Call}
    {prepared : PreparedRevocation} {k entryId : Nat}
    (hread : Outcome readInput readDb call (.revocationRead prepared) readDb' rest)
    (hdone : Outcome doneInput doneDb call' (.revoked prepared) doneDb' rest')
    (hmth : prepared.revocationMethod.isSome)
    (hlinked : Linked readDb k prepared.unitId jwk entryId info)
    (hent : ∃ entry, doneDb.entries.get? entryId = some entry ∧ entry.At info) :
    EntryRevoked doneDb' entryId := by
  have hmem : info ∈ prepared.keys.filterMap WalletUnitAttestedKey.revocation := by
    cases hread with
    | revocationRead h =>
      obtain ⟨_, _, -, hkeys, -, -, hid, -⟩ := readRevocation_eq_ok_iff.1 h
      rw [hid] at hlinked
      obtain ⟨key, hkey, hrev⟩ := (loadedKeys_of_getByWalletUnitId hkeys).complete hlinked
      exact mem_filterMap.2 ⟨key, hkey, hrev⟩
  cases hdone with
  | revoked h =>
    obtain ⟨entry, hent, hat⟩ := hent
    obtain ⟨entry', hent', -, -, ⟨-, hstatus⟩ | ⟨hnot, -⟩⟩ := exists_entry_of_markEntries h hent
    · exact ⟨entry', hent', hstatus⟩
    · exact absurd ⟨hmth, info, hmem, hat⟩ hnot

variable [DecidableEq ι] {db : Database} {c c' : ProviderConfig ι}
  {tr pre post : List (ProviderTransition ι Key Der)} {t : ProviderTransition ι Key Der}

lemma keyInvariant_holds (hstart : NoUnits db) (hrun : Run ProviderStep (start ι db) tr c) :
    (keyInvariant ι Key Der db.nextId).Holds tr c :=
  Interleaving.Invariant.holds_of_run hstart.keysKept hrun

/-- In every run, no two keys share an entry and no two entries a place in a list, and the entries of keys
that are revoked were marked by a revocation. -/
theorem keysKept_of_run (hstart : NoUnits db) (hrun : Run ProviderStep (ProviderConfig.start ι db) tr c) :
    KeysKept db.nextId tr c.shared :=
  (keyInvariant_holds hstart hrun).shared

lemma grows_of_run (hstart : NoUnits db)
    (hbef : Run ProviderStep (start ι db) pre c) (hrun : Run ProviderStep c tr c') :
    Grows c.shared c'.shared := by
  have hkept : Run ProviderStep (start ι db) (pre ++ tr) c' ∧
      Grows c.shared c'.shared := by
    refine hrun.history (P := fun past c' =>
      Run ProviderStep (start ι db) (pre ++ past) c' ∧ Grows c.shared c'.shared)
      ⟨by simpa using hbef, .refl _⟩ fun past t _ hstep hpast => ?_
    obtain ⟨hrunp, hgrows⟩ := hpast
    refine ⟨by simpa using hrunp.concat hstep, hgrows.trans ?_⟩
    have hinv := keyInvariant_holds hstart hrunp
    rcases Interleaving.Step.cases hstep with ⟨_, _, -, -, -, hdb, -⟩ |
      ⟨i, a, ⟨input, event⟩, rest, -, hrng, hnext, -⟩
    · rw [hdb]
      exact .refl _
    · exact ((Next.outcome hnext).keyStep hinv.shared.consistent (hinv.call hrng).underWay).grows
  exact hkept.2

lemma grows_of_mem (hstart : NoUnits db) (hrun : Run ProviderStep (start ι db) tr c) (ht : t ∈ tr) :
    Grows t.src.shared c.shared := by
  obtain ⟨before, after, -, hbef, hstep, haft⟩ := hrun.split_of_mem ht
  exact grows_of_run hstart hbef (Run.cons_iff.2 ⟨rfl, hstep, haft⟩)

variable {input : Input Key Der}

lemma outcome_of_mem {c₀ : ProviderConfig ι} (hrun : Run ProviderStep c₀ tr c) (ht : t ∈ tr) {i : ι}
    {event : Event} (hlab : t.label = .steps i (input, event)) :
    ∃ call rest, t.src.status i = .running call ∧
      Outcome input t.src.shared call event t.dst.shared rest := by
  obtain ⟨before, hbef⟩ := exists_before_of_mem ht
  obtain ⟨call, rest, -, hrng, hnext, -⟩ :=
    exists_running_of_steps hrun hbef hlab
  exact ⟨call, rest, hrng, Next.outcome hnext⟩

/-! ### Issuances -/

/-- A request for attestations that has been answered: its transaction, and the read before it. -/
structure IssuanceOf (pre : List (ProviderTransition ι Key Der))
    (t : ProviderTransition ι Key Der) where
  call : ι
  request : IssueWalletUnitAttestationRequest
  prepared : PreparedIssue
  response : IssueResponse
  input : Input Key Der
  /-- The time and the configuration when the keys were read. -/
  readInput : Input Key Der
  read : ProviderTransition ι Key Der
  label_eq : t.label = .steps call (input, .issued request prepared response)
  read_mem : read ∈ pre
  read_label : read.label = .steps call (readInput, .issueRead request prepared)

namespace IssuanceOf

variable (a : IssuanceOf pre t)

def jwk? (j : Nat) : Option PublicJwk :=
  a.request.wua[j]?.bind (namedKey a.readInput.env)

/-- The first row of the unit for this key when the request was read. -/
def stored? (jwk : PublicJwk) : Option (Nat × AttestedKeyRow) :=
  a.read.src.shared.firstKey a.prepared.unit.id jwk

/-- A proof that comes earlier in the request names the key. -/
def Earlier (j : Nat) (jwk : PublicJwk) : Prop :=
  some jwk ∈ (a.request.wua.take j).map (namedKey a.readInput.env)

/-- The service has an address, and the addresses of its status lists can be parsed. -/
def HasAddress : Prop :=
  ∃ baseUrl, a.input.env.lists.baseUrl = some baseUrl ∧
    a.input.env.isUrl (revocationListUrl baseUrl 0) = true

/-- The attestation at a position is about a key of the unit and refers to an entry of this key. -/
def RefersToEntry (j : Nat) (db : Database) (entryId : Nat) : Prop :=
  ∃ issued jwk k info status, a.response.wua[j]? = some issued ∧
    issued.attestation.attestedKeys = [jwk] ∧ Linked db k a.prepared.unit.id jwk entryId info ∧
    createCredentialStatus a.input.env.lists info = .ok status ∧
    issued.attestation.status = some status

/-- The attestation refers to an entry of its key, and each revocation of the unit that begins later,
while a method is configured, and returns without an error marks this entry. -/
def Revocable (post : List (ProviderTransition ι Key Der)) (j : Nat) : Prop :=
  ∃ entryId, a.RefersToEntry j t.dst.shared entryId ∧
    ∀ r ∈ post, ∀ d ∈ post, ∀ i prepared readInput doneInput,
      r.label = .steps i (readInput, .revocationRead prepared) →
      d.label = .steps i (doneInput, .revoked prepared) →
      prepared.unitId = a.prepared.unit.id → prepared.revocationMethod.isSome →
      EntryRevoked d.dst.shared entryId

/-- The key is stored with an entry when the request is read, or it is not stored and no proof before
this one names it. -/
def Registrable (j : Nat) : Prop :=
  ∃ jwk, a.jwk? j = some jwk ∧
    ((∃ k row, a.stored? jwk = some (k, row) ∧ row.revocationListEntryId.isSome) ∨
      (a.stored? jwk = none ∧ ¬a.Earlier j jwk))

/-- What an attestation refers to, by its key. -/
inductive Kind (j : Nat) (issued : IssuedAttestation) (jwk : PublicJwk) : Prop
  /-- The key was stored with an entry. -/
  | known {k : Nat} {row : AttestedKeyRow} {entryId : Nat} {info : RevocationInfo}
      (hstored : a.stored? jwk = some (k, row)) (hlink : row.revocationListEntryId = some entryId)
      (hlinked : Linked a.read.src.shared k a.prepared.unit.id jwk entryId info)
      (hrefers : RefersTo a.input.env issued info)
  /-- The key was stored without an entry, or it was not stored and comes twice. -/
  | unlisted (hstatus : issued.attestation.status = none)
      (hstored : (∃ k row, a.stored? jwk = some (k, row) ∧ row.revocationListEntryId = none) ∨
        (a.stored? jwk = none ∧ a.Earlier j jwk))
  /-- The key was not stored; it has got an entry. -/
  | new {k : Nat} {entryId : Nat} {info : RevocationInfo} (hstored : a.stored? jwk = none)
      (hearlier : ¬a.Earlier j jwk) (hnew : t.src.shared.attestedKeys.get? k = none)
      (hlinked : Linked t.dst.shared k a.prepared.unit.id jwk entryId info)
      (hrefers : RefersTo a.input.env issued info)

lemma nonempty (hstart : NoUnits db)
    (hrun : Run ProviderStep (start ι db) (pre ++ t :: post) c) {i : ι}
    {request : IssueWalletUnitAttestationRequest} {prepared : PreparedIssue}
    {response : IssueResponse}
    (hlab : t.label = .steps i (input, .issued request prepared response)) :
    Nonempty (IssuanceOf pre t) := by
  have hpre : pre ++ [t] <+: pre ++ t :: post := ⟨post, by simp⟩
  obtain ⟨call, rest, hrunpre, hrng, hnext, -⟩ :=
    exists_running_of_steps hrun hpre hlab
  obtain rfl := (Next.outcome hnext).call_of_issued
  obtain ⟨-, read, hread, readInput, hreadL⟩ := (keyInvariant_holds hstart hrunpre).call hrng
  exact ⟨⟨i, request, prepared, response, input, readInput, read, hlab, hread, hreadL⟩⟩

lemma exists_reading (hrun : Run ProviderStep (start ι db) pre c) : ∃ bearerToken,
      Nonempty (IssueReading a.readInput a.read.src.shared a.prepared.unit.id bearerToken a.request
        a.prepared a.read.dst.shared) := by
  obtain ⟨call, rest, -, hout⟩ := outcome_of_mem hrun a.read_mem a.read_label
  cases hout with
  | @issueRead _ bearerToken _ _ _ h =>
    obtain ⟨reading⟩ := nonempty_issueReading h
    obtain ⟨rfl, -, -⟩ := loadWalletUnit_eq_ok_iff.1 reading.load_eq
    exact ⟨bearerToken, ⟨reading⟩⟩

lemma issued (hstart : NoUnits db) (hrun : Run ProviderStep (start ι db) (pre ++ t :: post) c) :
    UnderWay t.src.shared a.prepared ∧ Issued a.input.env db.nextId t.src.shared
      a.prepared.revocationMethod a.prepared.inputs a.response.wua t.dst.shared := by
  have hpre : pre ++ [t] <+: pre ++ t :: post := ⟨post, by simp⟩
  obtain ⟨call, rest, hrunpre, hrng, hnext, -⟩ :=
    exists_running_of_steps hrun hpre a.label_eq
  have hinv := keyInvariant_holds hstart hrunpre
  have hout := Next.outcome hnext
  obtain rfl := hout.call_of_issued
  obtain ⟨hunder, -⟩ := hinv.call hrng
  cases hout with
  | issued h => exact ⟨hunder, issued_of_issueTx hinv.shared.consistent hunder h⟩

variable {j : Nat}

omit [DecidableEq ι] in
/-- The keys of the attestations are the ones that the proofs name. -/
lemma jwk?_eq {bearerToken : String}
    (reading : IssueReading a.readInput a.read.src.shared a.prepared.unit.id bearerToken a.request
      a.prepared a.read.dst.shared) {input : KeyAttestationInput}
    (hinp : a.prepared.inputs[j]? = some input) :
    a.jwk? j = some input.holderJwk ∧ ∀ jwk, a.Earlier j jwk ↔
      jwk ∈ (a.prepared.inputs.take j).map KeyAttestationInput.holderJwk := by
  have hnames := map_namedKey_of_attestKeys reading.inputs_eq
  constructor
  · have hat := congrArg (fun l => l[j]?) hnames
    simp only [getElem?_map, hinp, map_some] at hat
    obtain ⟨request, hreq, hname⟩ := map_eq_some_iff.1 hat
    rw [jwk?, hreq]
    exact hname
  · intro jwk
    rw [Earlier, map_take, hnames, ← map_take]
    simp only [List.mem_map, some.injEq]

/-- An attestation that is issued while a method is configured is of one of the three kinds. -/
lemma exists_kind (hstart : NoUnits db) (hrun : Run ProviderStep (start ι db) (pre ++ t :: post) c)
    (hmth : a.prepared.revocationMethod.isSome) (hj : j < a.response.wua.length) :
    ∃ issued jwk, a.response.wua[j]? = some issued ∧ a.jwk? j = some jwk ∧
      issued.attestation.attestedKeys = [jwk] ∧ a.Kind j issued jwk := by
  obtain ⟨hrunpre, -, -⟩ := hrun.of_append_cons
  obtain ⟨bearerToken, ⟨reading⟩⟩ := a.exists_reading hrunpre
  obtain ⟨hunder, hiss⟩ := a.issued hstart hrun
  have hlen := hiss.attests.length_eq
  have hj' : j < a.prepared.inputs.length := hlen ▸ hj
  have hinp : a.prepared.inputs[j]? = some a.prepared.inputs[j] := getElem?_eq_getElem hj'
  have hmem : a.prepared.inputs[j] ∈ a.prepared.inputs := getElem_mem hj'
  obtain ⟨hkeys, hatte⟩ := hiss.attests.get hj' hj
  obtain ⟨hjwk, hearlier⟩ := a.jwk?_eq reading hinp
  have hloaded := loadedKeys_of_getByWalletUnitId reading.keys_eq
  refine ⟨a.response.wua[j], _, getElem?_eq_getElem hj, hjwk, hkeys, ?_⟩
  have hkind := keyKind_of_attestKeys reading.inputs_eq hinp
  have hnew := hunder.new _ hmem
  specialize hatte hmth
  generalize hkey : a.prepared.inputs[j].key = attested at hkind hatte hnew
  cases hkind with
  | @known k revocation h =>
    obtain ⟨row, hstored, hpls⟩ := hloaded.lookup_some h
    cases hpls with
    | none hlink => exact .unlisted hatte (.inl ⟨k, row, hstored, hlink⟩)
    | some hlink hlinked => exact .known hstored hlink hlinked hatte
  | repeated h hmem => exact .unlisted hatte (.inr ⟨hloaded.lookup_none h, (hearlier _).2 hmem⟩)
  | @new key h hnot =>
    obtain ⟨entryId, info, hlinked, hrefers⟩ := hatte
    obtain ⟨hunit, hholder⟩ := hnew key rfl
    rw [hunit, hholder] at hlinked
    have hheld : key.id ∈ (newKeys a.prepared.inputs).map WalletUnitAttestedKey.id := by
      refine mem_map_of_mem (mem_filterMap.2 ⟨_, hmem, ?_⟩)
      rw [hkey]
      rfl
    exact .new (hloaded.lookup_none h) (fun hmem => hnot ((hearlier _).1 hmem))
      (hunder.held _ hheld).1 hlinked hrefers

omit [DecidableEq ι] in
/-- A reference is put into the attestation exactly if the address of the list can be parsed. -/
lemma exists_status_iff {issued : IssuedAttestation}
    (h : RefersTo a.input.env issued info) :
    (∃ status, issued.attestation.status = some status) ↔ a.HasAddress := by
  obtain ⟨status, hcr, hflt⟩ := h
  obtain ⟨baseUrl, hbase, hstatus⟩ : ∃ baseUrl, a.input.env.lists.baseUrl = some baseUrl ∧
      ⟨revocationListUrl baseUrl info.revocationListId, info.revocationListIndex⟩ = status := by
    simpa only [createCredentialStatus, bind_eq_ok, okOr_eq_ok, pure_eq_ok] using hcr
  have hurl : a.input.env.isUrl status.uri = a.input.env.isUrl (revocationListUrl baseUrl 0) := by
    rw [← hstatus]
    exact a.input.env.isUrl_list baseUrl _ 0
  simp only [hflt, filter_eq_some_iff]
  constructor
  · rintro ⟨status', heq, hpar⟩
    cases heq
    exact ⟨baseUrl, hbase, hurl ▸ hpar⟩
  · rintro ⟨baseUrl', hbase', hpar⟩
    obtain rfl := mem_unique hbase hbase'
    exact ⟨status, rfl, hurl.trans hpar⟩

omit [DecidableEq ι] in
lemma RefersToEntry.exists_status {a : IssuanceOf pre t} {entryId : Nat} {issued : IssuedAttestation}
    (hiss : a.response.wua[j]? = some issued) (h : a.RefersToEntry j db entryId) :
    ∃ status, issued.attestation.status = some status := by
  obtain ⟨issued', _, _, _, status, hiss', -, -, -, hsome⟩ := h
  obtain rfl := mem_unique hiss hiss'
  exact ⟨status, hsome⟩

omit [DecidableEq ι] in
lemma not_registrable (hjwk : a.jwk? j = some jwk)
    (hstored : (∃ k row, a.stored? jwk = some (k, row) ∧ row.revocationListEntryId = none) ∨
      (a.stored? jwk = none ∧ a.Earlier j jwk)) : ¬a.Registrable j := by
  rintro ⟨jwk', hjwk', h⟩
  obtain rfl := mem_unique hjwk hjwk'
  rcases h with ⟨k, row, hsome, hlink⟩ | ⟨hemp, hnot⟩
  · rcases hstored with ⟨k', row', hsome', hlink'⟩ | ⟨hemp, -⟩
    · obtain ⟨rfl, rfl⟩ := Prod.mk.inj (mem_unique hsome hsome')
      rw [hlink'] at hlink
      cases hlink
    · exact absurd (hemp.symm.trans hsome) nofun
  · rcases hstored with ⟨k', row', hsome', -⟩ | ⟨-, hearlier⟩
    · exact absurd (hemp.symm.trans hsome') nofun
    · exact hnot hearlier

/-- An attestation that refers to an entry of its key can be revoked. -/
lemma revocable_of_refersToEntry (hstart : NoUnits db)
    (hrun : Run ProviderStep (start ι db) (pre ++ t :: post) c) {entryId : Nat}
    (h : a.RefersToEntry j t.dst.shared entryId) : a.Revocable post j := by
  refine ⟨entryId, h, fun r hr d hd i prepared readInput doneInput hread hdone hunit hmth => ?_⟩
  obtain ⟨hrunpre, hstep, haft⟩ := hrun.of_append_cons
  have hrunt := hrunpre.concat hstep
  obtain ⟨_, _, _, info, _, -, -, hlinked, -⟩ := h
  -- both steps of the revocation come after the attestation
  obtain ⟨_, _, -, hbef, -, -⟩ := haft.split_of_mem hr
  obtain ⟨_, _, -, hbef', -, -⟩ := haft.split_of_mem hd
  have hread_linked := hlinked.grows (grows_of_run hstart hrunt hbef)
  have hdone_linked := hlinked.grows (grows_of_run hstart hrunt hbef')
  obtain ⟨_, _, -, hreadO⟩ := outcome_of_mem haft hr hread
  obtain ⟨_, _, -, hdoneO⟩ := outcome_of_mem haft hd hdone
  rw [← hunit] at hread_linked
  exact entryRevoked_of_revocation hreadO hdoneO hmth hread_linked hdone_linked.entry

end IssuanceOf

/-- In every run, an attestation that is issued while a revocation method is configured can be revoked,
exactly if the addresses of the status lists can be parsed and its key was stored with an entry, or was
not stored and comes first in its request. -/
theorem attestation_revocable_iff (hstart : NoUnits db)
    (hrun : Run ProviderStep (ProviderConfig.start ι db) (pre ++ t :: post) c) {i : ι}
    {input : Input Key Der} {request : IssueWalletUnitAttestationRequest} {prepared : PreparedIssue}
    {response : IssueResponse}
    (hlabel : t.label = .steps i (input, .issued request prepared response)) :
    Nonempty (IssuanceOf pre t) ∧
      ∀ a : IssuanceOf pre t, a.prepared.revocationMethod.isSome →
        ∀ j, j < a.response.wua.length → (a.Revocable post j ↔ a.HasAddress ∧ a.Registrable j) := by
  refine ⟨IssuanceOf.nonempty hstart hrun hlabel, fun a hmth j hj => ?_⟩
  obtain ⟨issued, jwk, hiss, hjwk, hkeys, hkind⟩ := a.exists_kind hstart hrun hmth hj
  have hstatus : a.Revocable post j → ∃ status, issued.attestation.status = some status :=
    fun ⟨_, hrefers, _⟩ => hrefers.exists_status hiss
  -- a reference to an entry of the key is all that is needed
  have hent : ∀ {k entryId info}, Linked t.dst.shared k a.prepared.unit.id jwk entryId info →
      RefersTo a.input.env issued info → (a.Revocable post j ↔ a.HasAddress) := by
    intro k entryId info hlinked hrefers
    rw [← a.exists_status_iff hrefers]
    refine ⟨hstatus, fun ⟨status, hsome⟩ => ?_⟩
    exact a.revocable_of_refersToEntry hstart hrun
      ⟨issued, jwk, k, info, status, hiss, hkeys, hlinked, hrefers.create hsome, hsome⟩
  cases hkind with
  | known hstored hlink hlinked hrefers =>
    obtain ⟨hrunpre, hstep, -⟩ := hrun.of_append_cons
    have hgrows := grows_of_mem hstart (hrunpre.concat hstep) (mem_append_left _ a.read_mem)
    rw [hent (hlinked.grows hgrows) hrefers]
    refine (and_iff_left ⟨jwk, hjwk, .inl ⟨_, _, hstored, ?_⟩⟩).symm
    rw [hlink]
    rfl
  | unlisted hnone hstored =>
    refine iff_of_false (fun h => ?_) fun h => a.not_registrable hjwk hstored h.2
    obtain ⟨status, hsome⟩ := hstatus h
    exact absurd (hnone.symm.trans hsome) nofun
  | new hstored hearlier _ hlinked hrefers =>
    rw [hent hlinked hrefers]
    exact (and_iff_left ⟨jwk, hjwk, .inr ⟨hstored, hearlier⟩⟩).symm

/-! ### A key that comes twice -/

/-- A web wallet is registered, and a request for attestations is answered. -/
def issuanceSchedule (keys : List IssueWuaRequest) (input : Input PublicJwk SampleDer) :
    List (Interleaving.Action Bool Call (Input PublicJwk SampleDer)) :=
  [.begins false (.register ⟨"provider", .web, some (sampleKey "device"), some "device"⟩),
    .steps false input, .begins true (.issue 1 "device" ⟨[], keys⟩), .steps true input, .steps true input]

/-- The last transition of the schedule issues attestations while a method is configured; whether each
has a reference is as expected. -/
def issuesLast (expected : List Bool)
    (r : List (ProviderTransition Bool PublicJwk SampleDer) × ProviderConfig Bool) : Bool :=
  match r.1.reverse with
  | ⟨_, .steps _ (_, .issued _ prepared response), _⟩ :: _ => prepared.revocationMethod.isSome &&
      decide (response.wua.map (fun issued => issued.attestation.status.isSome) = expected)
  | _ => false

lemma noUnits_sampleDatabase : NoUnits sampleDatabase where
  walletUnits := rfl
  attestedKeys := rfl
  entry_lt h := (nomatch h)
  place_inj h := (nomatch h)

lemma exists_issuesLast {keys : List IssueWuaRequest} {expected : List Bool}
    (h : ∃ r ∈ performAll advance (start Bool sampleDatabase)
      (issuanceSchedule keys (sampleInput [] (some "lists"))), issuesLast expected r = true) :
    ∃ (pre : List (ProviderTransition Bool PublicJwk SampleDer))
      (t : ProviderTransition Bool PublicJwk SampleDer) (c : ProviderConfig Bool) (i : Bool)
      (input : Input PublicJwk SampleDer) (request : IssueWalletUnitAttestationRequest)
      (prepared : PreparedIssue) (response : IssueResponse),
      Run ProviderStep (start Bool sampleDatabase) (pre ++ t :: []) c ∧
      t.label = .steps i (input, .issued request prepared response) ∧
      prepared.revocationMethod.isSome ∧
      response.wua.map (fun issued => issued.attestation.status.isSome) = expected := by
  obtain ⟨⟨tr, c⟩, hprf, hlast⟩ := h
  have hrun : Run ProviderStep (start Bool sampleDatabase) tr c :=
    run_performAll hprf (And.intro (.register _) (.issue _ _ _))
  unfold issuesLast at hlast
  split at hlast
  · next src i input request prepared response dst rest htr =>
    obtain rfl := reverse_eq_cons_iff.1 htr
    rw [Bool.and_eq_true, decide_eq_true_eq] at hlast
    exact ⟨rest.reverse, _, c, i, input, request, prepared, response, hrun, rfl, hlast⟩
  · cases hlast

/-- A request names one new key twice, and the second attestation has no reference. -/
theorem repeated_key_not_revocable :
    ∃ (pre : List (ProviderTransition Bool PublicJwk SampleDer))
      (t : ProviderTransition Bool PublicJwk SampleDer) (c : ProviderConfig Bool),
      Run ProviderStep (ProviderConfig.start Bool sampleDatabase) (pre ++ t :: []) c ∧
      ∃ a : IssuanceOf pre t, a.prepared.revocationMethod.isSome ∧ 1 < a.response.wua.length ∧
        ¬a.Revocable [] 1 := by
  obtain ⟨pre, t, c, i, input, request, prepared, response, hrun, hlab, hmth, hstatus⟩ :=
    @exists_issuesLast [⟨"key", .high⟩, ⟨"key", .high⟩] [true, false] (by decide +kernel)
  obtain ⟨a⟩ := IssuanceOf.nonempty noUnits_sampleDatabase hrun hlab
  cases hlab.symm.trans a.label_eq
  have hlen : a.response.wua.length = 2 := by simpa using congrArg length hstatus
  refine ⟨pre, t, c, hrun, a, hmth, by omega, ?_⟩
  rintro ⟨_, ⟨issued, _, _, _, status, hiss, -, -, -, hsome⟩, -⟩
  have hsecond := congrArg (fun l => l[1]?) hstatus
  simp [hiss, hsome] at hsecond

/-- The keys are kept when one is issued. -/
theorem single_key_kept :
    ∃ (pre : List (ProviderTransition Bool PublicJwk SampleDer)) (t : _) (c : ProviderConfig Bool),
      KeysKept sampleDatabase.nextId (pre ++ [t]) c.shared := by
  obtain ⟨pre, t, c, _, _, _, _, _, hrun, -⟩ :=
    @exists_issuesLast [⟨"key", .high⟩] [true] (by decide +kernel)
  exact ⟨pre, t, c, keysKept_of_run noUnits_sampleDatabase hrun⟩

/-- A request with one new key: the attestation refers to an entry. -/
theorem single_key_revocable :
    ∃ (pre : List (ProviderTransition Bool PublicJwk SampleDer))
      (t : ProviderTransition Bool PublicJwk SampleDer) (a : IssuanceOf pre t),
      a.prepared.revocationMethod.isSome ∧ 0 < a.response.wua.length ∧
      (a.Revocable [] 0 ↔ a.HasAddress ∧ a.Registrable 0) := by
  obtain ⟨pre, t, c, i, input, request, prepared, response, hrun, hlab, hmth, hstatus⟩ :=
    @exists_issuesLast [⟨"key", .high⟩] [true] (by decide +kernel)
  obtain ⟨⟨a⟩, hiff⟩ := attestation_revocable_iff noUnits_sampleDatabase hrun hlab
  cases hlab.symm.trans a.label_eq
  have hlen : 0 < a.response.wua.length := by
    have hone : a.response.wua.length = 1 := by simpa using congrArg length hstatus
    omega
  exact ⟨pre, t, a, hmth, hlen, hiff a hmth 0 hlen⟩

end OneCore.WalletProvider
