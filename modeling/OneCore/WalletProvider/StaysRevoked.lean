/-
# Revoked units and their attestations

After a revocation the unit should stay revoked, and the entries of all attestations of the unit should
be marked.  A step of an activation writes the status without looking at it again, and an attestation
that is issued after the revocation has read the keys has an entry that the revocation does not know.
So both hold exactly in the runs in which no activation writes after the revocation, and in which the
keys of all attestations had their entries when a revocation read them.
-/
import OneCore.Lib.Decimal
import OneCore.WalletProvider.Revocable

namespace OneCore.WalletProvider

open List Interleaving ProviderConfig

variable {Key Der ι : Type}

/-! ### The status of the unit -/

def WritesRevoked (unitId : Nat) (t : ProviderTransition ι Key Der) : Prop :=
  ∃ i input prepared, t.label = .steps i (input, .revocationWritten prepared) ∧
    prepared.unitId = unitId

def WritesActivation (unitId : Nat) (t : ProviderTransition ι Key Der) : Prop :=
  ∃ i input request prepared, t.label = .steps i (input, .activationWritten unitId request prepared)

def UnitRevoked (db : Database) (unitId : Nat) : Prop :=
  ∃ row, db.walletUnits.get? unitId = some row ∧ row.status = .revoked

variable {call : Call} {input : Input Key Der} {rest : Option Call} {unitId : Nat}
  {info : RevocationInfo} {jwk : PublicJwk}

lemma unitRevoked_iff {db : Database} {row : WalletUnit} (hrow : db.walletUnits.get? unitId = some row) :
    UnitRevoked db unitId ↔ row.status = .revoked := by
  constructor
  · rintro ⟨row', hrow', hst⟩
    obtain rfl := mem_unique hrow hrow'
    exact hst
  · exact fun hst => ⟨row, hrow, hst⟩

/-- A step leaves a unit revoked that was not registered by it, unless it writes the status. -/
lemma unitRevoked_step_iff {past : List (ProviderTransition ι Key Der)}
    {t : ProviderTransition ι Key Der} {i : ι} {event : Event}
    (hlab : t.label = .steps i (input, event))
    (h : Outcome input t.src.shared call event t.dst.shared rest)
    (hunits : UnitsRegistered past t.src.shared) :
    UnitRevoked t.dst.shared unitId ↔
      WritesRevoked unitId t ∨ ¬WritesActivation unitId t ∧ UnitRevoked t.src.shared unitId := by
  have hrevo : WritesRevoked unitId t ↔
      ∃ prepared, event = .revocationWritten prepared ∧ prepared.unitId = unitId := by
    constructor
    · rintro ⟨_, _, prepared, hlab', hunit⟩
      rw [hlab] at hlab'
      cases hlab'
      exact ⟨prepared, rfl, hunit⟩
    · rintro ⟨prepared, rfl, hunit⟩
      exact ⟨i, input, prepared, hlab, hunit⟩
  have hacti : WritesActivation unitId t ↔
      ∃ request prepared, event = .activationWritten unitId request prepared := by
    constructor
    · rintro ⟨_, _, request, prepared, hlab'⟩
      rw [hlab] at hlab'
      cases hlab'
      exact ⟨request, prepared, rfl⟩
    · rintro ⟨request, prepared, rfl⟩
      exact ⟨i, input, request, prepared, hlab⟩
  rw [hrevo, hacti]
  cases hrow : t.src.shared.walletUnits.get? unitId with
  | none =>
    -- a new unit is not revoked
    have hnot : ¬UnitRevoked t.src.shared unitId := by
      rintro ⟨row, hrow', -⟩
      exact absurd (hrow.symm.trans hrow') nofun
    refine iff_of_false ?_ ?_
    · rintro ⟨row', hrow', hst⟩
      obtain ⟨request, rfl, hreg⟩ := h.unit_none hrow hrow'
      obtain ⟨params, organisationId, row, -, hid, hdb, hkinds⟩ := registerWalletUnit_eq_ok hreg
      rw [hdb, IndexMap.get?_insert, if_pos rfl] at hrow'
      cases hrow'
      rcases hkinds with ⟨-, -, rfl⟩ | ⟨-, jwk, rfl⟩
      · cases hst
      · cases hst
    · rintro (⟨prepared, rfl, rfl⟩ | ⟨-, hrvd⟩)
      · cases h with
        | revocationWritten h =>
          obtain ⟨_, hrow', -⟩ := walletUnits_updateWalletUnit (mapError_eq_ok.1 h)
          exact absurd (hrow.symm.trans hrow') nofun
      · exact hnot hrvd
  | some row =>
    obtain ⟨row', hrow', hchg⟩ := h.unit (hunits _ row hrow).1 hrow
    rw [unitRevoked_iff hrow, unitRevoked_iff hrow']
    cases hchg with
    | unchanged hwrs =>
      have hnot : ¬∃ prepared, event = .revocationWritten prepared ∧ prepared.unitId = unitId := by
        rintro ⟨prepared, rfl, rfl⟩
        exact hwrs rfl
      have hnot' : ¬∃ request prepared, event = .activationWritten unitId request prepared := by
        rintro ⟨request, prepared, rfl⟩
        exact hwrs rfl
      rw [or_iff_right hnot, and_iff_right hnot']
    | @activation request prepared =>
      refine iff_of_false ?_ ?_
      · cases prepared with
        | activate | fail => exact nofun
      · simp
    | issued =>
      tauto
    | @revocation prepared hunit => exact iff_of_true rfl (.inl ⟨prepared, rfl, hunit⟩)

variable [DecidableEq ι] {db : Database} {c : ProviderConfig ι}
  {tr pre post : List (ProviderTransition ι Key Der)} {t : ProviderTransition ι Key Der}

/-- A unit is revoked exactly if a revocation has written its status and no activation has done so
since. -/
lemma unitRevoked_iff_since (hstart : NoUnits db)
    (hrun : Run ProviderStep (start ι db) tr c) :
    UnitRevoked c.shared unitId ↔ Since (WritesRevoked unitId) (WritesActivation unitId) tr := by
  have hhist : Run ProviderStep (start ι db) tr c ∧ (UnitRevoked c.shared unitId ↔
      Since (WritesRevoked unitId) (WritesActivation unitId) tr) := by
    refine hrun.history (P := fun past c => Run ProviderStep (start ι db) past c ∧
      (UnitRevoked c.shared unitId ↔
        Since (WritesRevoked unitId) (WritesActivation unitId) past)) ⟨.refl _, ?_⟩ ?_
    · refine iff_of_false ?_ Since.not_nil
      rintro ⟨row, hrow, -⟩
      have hmem : (unitId, row) ∈ db.walletUnits.entries := IndexMap.get?_eq_some_iff.1 hrow
      rw [hstart.walletUnits] at hmem
      cases hmem
    · rintro past t - hstep ⟨hrunp, hpast⟩
      refine ⟨hrunp.concat hstep, ?_⟩
      rw [Since.append_singleton_iff, ← hpast]
      rcases Interleaving.Step.cases hstep with ⟨_, _, hlab, -, -, hdb, -⟩ |
        ⟨i, a, ⟨input, event⟩, rest, hlab, -, hnext, -⟩
      · have hnot : ¬WritesRevoked unitId t := by
          rintro ⟨_, _, _, hlab', -⟩
          rw [hlab] at hlab'
          cases hlab'
        have hnot' : ¬WritesActivation unitId t := by
          rintro ⟨_, _, _, _, hlab'⟩
          rw [hlab] at hlab'
          cases hlab'
        rw [hdb, or_iff_right hnot, and_iff_right hnot']
      · have hunits := (unitInvariant_holds hstart.walletUnits hrunp).shared
        exact unitRevoked_step_iff hlab (Next.outcome hnext) hunits
  exact hhist.2

/-! ### The entries of the attestations -/

lemma revocationListUrl_injective (baseUrl : String) :
    Function.Injective (revocationListUrl baseUrl) := by
  intro m n h
  have hlist := congrArg String.toList h
  simp only [revocationListUrl, String.toList_append] at hlist
  exact Decimal.toString_toList_injective (append_cancel_left hlist)

lemma createCredentialStatus_injective {env : StatusListEnvironment} {info' : RevocationInfo}
    {status : CredentialStatus} (h : createCredentialStatus env info = .ok status)
    (h' : createCredentialStatus env info' = .ok status) : info = info' := by
  simp only [createCredentialStatus, ok_iffs] at h h'
  obtain ⟨baseUrl, hbase, rfl⟩ := h
  obtain ⟨baseUrl', hbase', heq⟩ := h'
  obtain rfl := mem_unique hbase hbase'
  simp only [CredentialStatus.mk.injEq] at heq
  obtain ⟨hlist, hidx⟩ := heq
  exact congrArg₂ RevocationInfo.mk (revocationListUrl_injective baseUrl hlist).symm hidx.symm

/-- A revocation of the unit that has read the keys in the given transition, while a method is
configured, and has returned without an error. -/
def Completes (tr : List (ProviderTransition ι Key Der)) (unitId : Nat)
    (r : ProviderTransition ι Key Der) : Prop :=
  ∃ d ∈ tr, ∃ i prepared readInput doneInput,
    r.label = .steps i (readInput, .revocationRead prepared) ∧
    d.label = .steps i (doneInput, .revoked prepared) ∧
    prepared.unitId = unitId ∧ prepared.revocationMethod.isSome

namespace IssuanceOf

/-- The key of the attestation had its entry when a revocation that has returned read the keys: the key
was stored with the entry at that time, or the key was new and the revocation read the keys after the
attestation was issued. -/
def Covered (a : IssuanceOf pre t) (tr post : List (ProviderTransition ι Key Der)) (j : Nat) : Prop :=
  ∃ jwk, a.jwk? j = some jwk ∧
    ((∃ k row entryId info, a.stored? jwk = some (k, row) ∧
        row.revocationListEntryId = some entryId ∧
        ∃ r ∈ tr, Completes tr a.prepared.unit.id r ∧
          Linked r.src.shared k a.prepared.unit.id jwk entryId info) ∨
      (a.stored? jwk = none ∧ ¬a.Earlier j jwk ∧ ∃ r ∈ post, Completes tr a.prepared.unit.id r))

omit [DecidableEq ι] in
lemma Covered.registrable {a : IssuanceOf pre t} {j : Nat} (h : a.Covered tr post j) :
    a.Registrable j := by
  obtain ⟨jwk, hjwk, ⟨k, row, entryId, _, hsto, hlink, -⟩ | ⟨hsto, hear, -⟩⟩ := h
  · exact ⟨jwk, hjwk, .inl ⟨k, row, hsto, by simp [hlink]⟩⟩
  · exact ⟨jwk, hjwk, .inr ⟨hsto, hear⟩⟩

end IssuanceOf

variable {r : ProviderTransition ι Key Der}

/-- The two steps of a revocation come in order. -/
lemma exists_done_after {before after : List (ProviderTransition ι Key Der)}
    (hrun : Run ProviderStep (start ι db) (before ++ r :: after) c)
    (h : Completes (before ++ r :: after) unitId r) : ∃ d ∈ after, ∃ i prepared readInput doneInput,
      r.label = .steps i (readInput, .revocationRead prepared) ∧
      d.label = .steps i (doneInput, .revoked prepared) ∧
      prepared.unitId = unitId ∧ prepared.revocationMethod.isSome := by
  obtain ⟨d, hd, i, prepared, readInput, doneInput, hread, hdone, hunit, hmth⟩ := h
  refine ⟨d, ?_, i, prepared, readInput, doneInput, hread, hdone, hunit, hmth⟩
  rcases mem_append.1 hd with hbef | hmem
  · -- a call that has returned does not read the keys afterwards
    obtain ⟨past, hpast⟩ := exists_before_of_mem hd
    obtain ⟨call, rest, -, -, hnext, hst⟩ :=
      exists_running_of_steps hrun hpast hdone
    have hrest : rest = none := by
      have hout := Next.outcome hnext
      cases hout
      rfl
    have hret : d.dst.status i = .returned := by
      rw [hst, hrest, Function.update_self]
      rfl
    exact absurd hread (not_steps_of_returned hrun hbef hret)
  · rcases mem_cons.1 hmem with rfl | haft
    · rw [hread] at hdone
      cases hdone
    · exact haft

/-- A revocation that has returned has marked the entries of the keys that it has read. -/
lemma entryRevoked_of_completes (hstart : NoUnits db)
    (hrun : Run ProviderStep (start ι db) tr c) (hr : r ∈ tr) {k entryId : Nat}
    (hcomp : Completes tr unitId r) (hlnk : Linked r.src.shared k unitId jwk entryId info) :
    EntryRevoked c.shared entryId := by
  obtain ⟨before, after, rfl, hbef, hstep, haft⟩ := hrun.split_of_mem hr
  obtain ⟨d, hd, i, prepared, readInput, doneInput, hread, hdone, rfl, hmth⟩ :=
    exists_done_after hrun hcomp
  obtain ⟨_, _, -, hreadO⟩ := outcome_of_mem hrun hr hread
  obtain ⟨_, _, -, hdoneO⟩ := outcome_of_mem haft hd hdone
  obtain ⟨middle, rest, rfl, hmiddle, hdstep, hrest⟩ := haft.split_of_mem hd
  have hrund := (hbef.concat hstep).append hmiddle
  have hgrows := grows_of_mem hstart hrund (t := r) (by simp)
  have hrvd := entryRevoked_of_revocation hreadO hdoneO hmth hlnk (hlnk.grows hgrows).entry
  exact hrvd.grows (grows_of_run hstart (hrund.concat hdstep) hrest)

/-- An entry that is marked was read by a revocation that has returned. -/
lemma exists_completes_of_entryRevoked (hstart : NoUnits db)
    (hrun : Run ProviderStep (start ι db) tr c) {k entryId : Nat}
    (hlnk : Linked c.shared k unitId jwk entryId info) (hrvd : EntryRevoked c.shared entryId) :
    ∃ r ∈ tr, Completes tr unitId r ∧ Linked r.src.shared k unitId jwk entryId info := by
  have hkept := (keyInvariant_holds hstart hrun).shared
  obtain ⟨⟨row, hrow, hiskey, hlink⟩, entry, hent, hat⟩ := hlnk
  obtain ⟨entry', hent', hst⟩ := hrvd
  obtain rfl := mem_unique hent hent'
  obtain ⟨hfst, -⟩ := hkept.consistent.link hrow hlink
  obtain ⟨d, hd, i, doneInput, prepared, hdone, hmth, info', hinfo', hat'⟩ :=
    hkept.marked hfst hent hst
  obtain rfl := hat.unique hat'
  -- the revocation has read the place of the entry
  obtain ⟨past, hpast⟩ := exists_before_of_mem hd
  obtain ⟨call, rest, hrunp, hrng, hnext, -⟩ :=
    exists_running_of_steps hrun hpast hdone
  have hcall : call = .marking prepared := by
    have hout := Next.outcome hnext
    cases hout
    rfl
  subst hcall
  obtain ⟨r, hr, readInput, hread⟩ := (keyInvariant_holds hstart hrunp).call hrng
  have hrtr : r ∈ tr := hpast.subset (mem_append_left _ hr)
  obtain ⟨_, _, -, hout⟩ := outcome_of_mem hrun hrtr hread
  obtain ⟨key, hkey, hrev⟩ := mem_filterMap.1 hinfo'
  obtain ⟨e, hlnk'⟩ : ∃ e, Linked r.src.shared key.id prepared.unitId key.publicKeyJwk e info := by
    generalize r.dst.shared = db' at hout
    cases hout with
    | revocationRead h =>
      obtain ⟨_, _, -, hkeys, -, -, hid, -⟩ := readRevocation_eq_ok_iff.1 h
      obtain ⟨-, row', -, -, hpls⟩ := (loadedKeys_of_getByWalletUnitId hkeys).stored key hkey
      rw [hrev] at hpls
      cases hpls with
      | some _ hlnk => exact ⟨_, hid ▸ hlnk⟩
  -- it is the same key, because neither the place nor the entry is used twice
  obtain ⟨⟨row', hrow', hiskey', hlink'⟩, entry', hent', hat''⟩ :=
    hlnk'.grows (grows_of_mem hstart hrun hrtr)
  obtain rfl := hkept.consistent.place_inj hent hent' hat hat''
  obtain rfl := hkept.consistent.link_inj hrow hrow' hlink hlink'
  obtain rfl := mem_unique hrow hrow'
  have hunit : prepared.unitId = unitId := hiskey'.1.symm.trans hiskey.1
  have hjwk : key.publicKeyJwk = jwk := hiskey'.2.symm.trans hiskey.2
  rw [hunit, hjwk] at hlnk'
  exact ⟨r, hrtr, ⟨d, hd, i, prepared, readInput, doneInput, hread, hdone, hunit, hmth⟩, hlnk'⟩

/-- The entry of an attestation is marked, exactly if a revocation that has returned has found it. -/
lemma IssuanceOf.entryRevoked_iff (a : IssuanceOf pre t) (hstart : NoUnits db)
    (hrun : Run ProviderStep (start ι db) (pre ++ t :: post) c)
    (hmth : a.prepared.revocationMethod.isSome) {j : Nat} (hj : j < a.response.wua.length) :
    (∃ entryId, a.RefersToEntry j c.shared entryId ∧ EntryRevoked c.shared entryId) ↔
      a.HasAddress ∧ a.Covered (pre ++ t :: post) post j := by
  obtain ⟨issued, jwk, hiss, hjwk, hkeys, hkind⟩ := a.exists_kind hstart hrun hmth hj
  obtain ⟨hrunpre, hstep, haft⟩ := hrun.of_append_cons
  have hcons := (keyInvariant_holds hstart hrun).shared.consistent
  -- the entry that the attestation refers to is the one of its key
  have hent : ∀ {k entryId info}, Linked c.shared k a.prepared.unit.id jwk entryId info →
      RefersTo a.input.env issued info →
      ((∃ entryId, a.RefersToEntry j c.shared entryId ∧ EntryRevoked c.shared entryId) ↔
        a.HasAddress ∧ EntryRevoked c.shared entryId) := by
    intro k entryId info hlnk hrefers
    rw [← a.exists_status_iff hrefers]
    constructor
    · rintro ⟨entryId', ⟨issued', _, k', info', status, hiss', -, hlnk', hcr, hsome⟩, hrvd⟩
      obtain rfl := mem_unique hiss hiss'
      refine ⟨⟨status, hsome⟩, ?_⟩
      obtain rfl := createCredentialStatus_injective hcr (hrefers.create hsome)
      obtain ⟨-, entry, hent, hat⟩ := hlnk
      obtain ⟨-, entry', hent', hat'⟩ := hlnk'
      obtain rfl := hcons.place_inj hent hent' hat hat'
      exact hrvd
    · rintro ⟨⟨status, hsome⟩, hrvd⟩
      exact ⟨entryId, ⟨issued, jwk, k, info, status, hiss, hkeys, hlnk, hrefers.create hsome,
        hsome⟩, hrvd⟩
  cases hkind with
  | @known k row entryId info hsto hlink hlnk hrefers =>
    have hlast := hlnk.grows (grows_of_mem hstart hrun (mem_append_left _ a.read_mem))
    rw [hent hlast hrefers]
    refine and_congr_right fun _ => ⟨fun hrvd => ?_, ?_⟩
    · obtain ⟨r, hr, hcomp, hlinkedr⟩ :=
        exists_completes_of_entryRevoked hstart hrun hlast hrvd
      exact ⟨jwk, hjwk, .inl ⟨k, row, entryId, info, hsto, hlink, r, hr, hcomp, hlinkedr⟩⟩
    · rintro ⟨jwk', hjwk', ⟨k', row', entryId', info', hsto', hlink', r, hr, hcomp, hlinkedr⟩ |
        ⟨hnone, -⟩⟩
      · obtain rfl := mem_unique hjwk hjwk'
        obtain ⟨rfl, rfl⟩ := Prod.mk.inj (mem_unique hsto hsto')
        obtain rfl := mem_unique hlink hlink'
        exact entryRevoked_of_completes hstart hrun hr hcomp hlinkedr
      · obtain rfl := mem_unique hjwk hjwk'
        exact absurd (hsto.symm.trans hnone) nofun
  | unlisted hnone hsto =>
    refine iff_of_false ?_ fun h => a.not_registrable hjwk hsto h.2.registrable
    rintro ⟨_, hrefers, -⟩
    obtain ⟨status, hsome⟩ := hrefers.exists_status hiss
    exact absurd (hnone.symm.trans hsome) nofun
  | @new k entryId info hsto hear hnew hlnk hrefers =>
    have hrunt := hrunpre.concat hstep
    have hlast := hlnk.grows (grows_of_run hstart hrunt haft)
    rw [hent hlast hrefers]
    refine and_congr_right fun _ => ⟨fun hrvd => ?_, ?_⟩
    · obtain ⟨r, hr, hcomp, hlinkedr⟩ :=
        exists_completes_of_entryRevoked hstart hrun hlast hrvd
      refine ⟨jwk, hjwk, .inr ⟨hsto, hear, r, ?_, hcomp⟩⟩
      rcases mem_append.1 hr with hpre | hmem
      · -- the key was not there before the attestation was issued
        obtain ⟨row, hrow, -⟩ := (hlinkedr.grows (grows_of_mem hstart hrunpre hpre)).key
        exact absurd (hrow.symm.trans hnew) nofun
      · rcases mem_cons.1 hmem with rfl | hpost
        · obtain ⟨_, -, _, _, _, _, hread, -⟩ := hcomp
          rw [a.label_eq] at hread
          cases hread
        · exact hpost
    · rintro ⟨jwk', hjwk', ⟨k', row', _, _, hsto', -⟩ | ⟨-, -, r, hr, hcomp⟩⟩
      · obtain rfl := mem_unique hjwk hjwk'
        exact absurd (hsto.symm.trans hsto') nofun
      · obtain ⟨before, after, -, hbef, -, -⟩ := haft.split_of_mem hr
        have hlinkedr := hlnk.grows (grows_of_run hstart hrunt hbef)
        have hmem : r ∈ pre ++ t :: post := by simp [hr]
        exact entryRevoked_of_completes hstart hrun hmem hcomp hlinkedr

/-- The unit is revoked, and so is the entry of each attestation that was issued for it in the run while
a revocation method was configured. -/
def RevokedWithAttestations (tr : List (ProviderTransition ι Key Der)) (db : Database) (unitId : Nat) :
    Prop :=
  UnitRevoked db unitId ∧
    ∀ pre t post, tr = pre ++ t :: post → ∀ a : IssuanceOf pre t, a.prepared.unit.id = unitId →
      a.prepared.revocationMethod.isSome → ∀ j, j < a.response.wua.length →
        ∃ entryId, a.RefersToEntry j db entryId ∧ EntryRevoked db entryId

/-- The status was last written by a revocation, and a revocation that has returned has found the key of
each attestation with its entry. -/
def RevocationCovers (tr : List (ProviderTransition ι Key Der)) (unitId : Nat) : Prop :=
  Since (WritesRevoked unitId) (WritesActivation unitId) tr ∧
    ∀ pre t post, tr = pre ++ t :: post → ∀ a : IssuanceOf pre t, a.prepared.unit.id = unitId →
      a.prepared.revocationMethod.isSome → ∀ j, j < a.response.wua.length →
        a.HasAddress ∧ a.Covered tr post j

/-- In every run, whatever calls have been interleaved, the unit is revoked and the entries of all its
attestations are marked, exactly if a revocation was the last to write the status, and each attestation
had its entry when a revocation that has returned read the keys. -/
theorem unit_stays_revoked_iff (hstart : NoUnits db)
    (hrun : Run ProviderStep (ProviderConfig.start ι db) tr c) (unitId : Nat) :
    RevokedWithAttestations tr c.shared unitId ↔ RevocationCovers tr unitId := by
  rw [RevokedWithAttestations, RevocationCovers, unitRevoked_iff_since hstart hrun]
  refine and_congr_right fun _ => forall_congr' fun pre => forall_congr' fun t =>
    forall_congr' fun post => forall_congr' fun htr => ?_
  subst htr
  exact forall_congr' fun a => forall_congr' fun _ => forall_congr' fun hmth =>
    forall_congr' fun j => forall_congr' fun hj => a.entryRevoked_iff hstart hrun hmth hj

/-! ### Two races -/

/-- Two activations read a pending unit.  The first one makes it active, a request for attestations
reads it, and a revocation reads, writes and returns.  Then the request is answered, and the second
activation writes. -/
def raceSchedule (input : Input PublicJwk SampleDer) :
    List (Interleaving.Action Nat Call (Input PublicJwk SampleDer)) :=
  [.begins 0 (.register ⟨"provider", .android, none, none⟩), .steps 0 input,
    .begins 1 (.activate 1 ⟨["certificate"], "attested", none⟩), .steps 1 input,
    .begins 2 (.activate 1 ⟨["certificate"], "attested", none⟩), .steps 2 input, .steps 1 input,
    .begins 3 (.issue 1 "attested" ⟨[], [⟨"key", .high⟩]⟩), .steps 3 input,
    .begins 4 (.revoke 1), .steps 4 input, .steps 4 input, .steps 4 input,
    .steps 3 input, .steps 2 input]

/-- A web wallet is registered, gets an attestation and is revoked. -/
def orderlySchedule (input : Input PublicJwk SampleDer) :
    List (Interleaving.Action Nat Call (Input PublicJwk SampleDer)) :=
  [.begins 0 (.register ⟨"provider", .web, some (sampleKey "device"), some "device"⟩), .steps 0 input,
    .begins 1 (.issue 1 "device" ⟨[], [⟨"key", .high⟩]⟩), .steps 1 input, .steps 1 input,
    .begins 2 (.revoke 1), .steps 2 input, .steps 2 input, .steps 2 input]

def hasRevoked (unitId : Nat) (t : ProviderTransition Nat PublicJwk SampleDer) : Bool :=
  match t.label with
  | .steps _ (_, .revoked prepared) => decide (prepared.unitId = unitId)
  | _ => false

def hasIssued (unitId : Nat) (t : ProviderTransition Nat PublicJwk SampleDer) : Bool :=
  match t.label with
  | .steps _ (_, .issued _ prepared response) => prepared.revocationMethod.isSome &&
      decide (prepared.unit.id = unitId) && decide (0 < response.wua.length)
  | _ => false

lemma exists_of_hasRevoked {t : ProviderTransition Nat PublicJwk SampleDer}
    (h : hasRevoked unitId t = true) : ∃ i input prepared,
      t.label = .steps i (input, .revoked prepared) ∧ prepared.unitId = unitId := by
  unfold hasRevoked at h
  split at h
  · next i input prepared hlab => exact ⟨i, input, prepared, hlab, of_decide_eq_true h⟩
  · cases h

/-- A revocation has returned, the unit is active again, and an attestation has an entry that is not
marked. -/
theorem active_after_revocation :
    ∃ (tr : List (ProviderTransition Nat PublicJwk SampleDer)) (c : ProviderConfig Nat),
      Run ProviderStep (ProviderConfig.start Nat sampleDatabase) tr c ∧
      (∃ d ∈ tr, ∃ i input prepared, d.label = .steps i (input, .revoked prepared) ∧
        prepared.unitId = 1) ∧
      (c.shared.walletUnits.get? 1).map WalletUnit.status = some .active ∧
      ∃ pre t post, tr = pre ++ t :: post ∧ ∃ a : IssuanceOf pre t, a.prepared.unit.id = 1 ∧
        a.prepared.revocationMethod.isSome ∧ 0 < a.response.wua.length ∧
        ¬∃ entryId, a.RefersToEntry 0 c.shared entryId ∧ EntryRevoked c.shared entryId := by
  obtain ⟨⟨tr, c⟩, hprf, ⟨d, hd, hrvd⟩, ⟨t, ht, hiss⟩, hst, hents⟩ :
      ∃ r ∈ performAll advance (start Nat sampleDatabase)
        (raceSchedule (sampleInput [[10]] (some "lists"))),
        (∃ d ∈ r.1, hasRevoked 1 d = true) ∧ (∃ t ∈ r.1, hasIssued 1 t = true) ∧
        (r.2.shared.walletUnits.get? 1).map WalletUnit.status = some .active ∧
        ∀ entry ∈ r.2.shared.entries.entries, entry.2.status = .active := by
    decide +kernel
  have hrun : Run ProviderStep (start Nat sampleDatabase) tr c :=
    run_performAll hprf (And.intro (.register _) (And.intro (.activate _ _)
      (And.intro (.activate _ _) (And.intro (.issue _ _ _) (.revoke _)))))
  refine ⟨tr, c, hrun, ⟨d, hd, exists_of_hasRevoked hrvd⟩, hst, ?_⟩
  obtain ⟨pre, post, rfl⟩ := append_of_mem ht
  unfold hasIssued at hiss
  split at hiss
  · next i input request prepared response hlab =>
    simp only [Bool.and_eq_true, decide_eq_true_eq] at hiss
    obtain ⟨a⟩ := IssuanceOf.nonempty noUnits_sampleDatabase hrun hlab
    cases hlab.symm.trans a.label_eq
    obtain ⟨⟨hmth, hunit⟩, hlen⟩ := hiss
    refine ⟨pre, t, post, rfl, a, hunit, hmth, hlen, ?_⟩
    rintro ⟨entryId, -, entry, hent, hmarked⟩
    have hact := hents _ (IndexMap.get?_eq_some_iff.1 hent)
    exact absurd (hact.symm.trans hmarked) nofun
  · cases hiss

/-- A run in which a revocation has returned. -/
theorem orderly_revocation :
    ∃ (tr : List (ProviderTransition Nat PublicJwk SampleDer)) (c : ProviderConfig Nat),
      (∃ d ∈ tr, ∃ i input prepared, d.label = .steps i (input, .revoked prepared) ∧
        prepared.unitId = 1) ∧
      UnitRevoked c.shared 1 ∧ (RevokedWithAttestations tr c.shared 1 ↔ RevocationCovers tr 1) := by
  obtain ⟨⟨tr, c⟩, hprf, ⟨d, hd, hrvd⟩, hst⟩ :
      ∃ r ∈ performAll advance (start Nat sampleDatabase)
        (orderlySchedule (sampleInput [[10]] (some "lists"))), (∃ d ∈ r.1, hasRevoked 1 d = true) ∧
        (r.2.shared.walletUnits.get? 1).map WalletUnit.status = some .revoked := by
    decide +kernel
  have hrun : Run ProviderStep (start Nat sampleDatabase) tr c :=
    run_performAll hprf (And.intro (.register _) (And.intro (.issue _ _ _) (.revoke _)))
  exact ⟨tr, c, ⟨d, hd, exists_of_hasRevoked hrvd⟩, Option.map_eq_some_iff.1 hst,
    unit_stays_revoked_iff noUnits_sampleDatabase hrun 1⟩

end OneCore.WalletProvider
