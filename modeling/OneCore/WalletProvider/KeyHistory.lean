/-
# Keys and entries in a run

In every run the database stays consistent and nothing is lost: a key keeps its entry, and an entry
that has been marked stays marked.  An entry is marked only by a revocation that has read its key.

A request for attestations that is under way holds ids for its new keys.  Nobody else writes a key with
such an id, because two requests never hold the same one.
-/
import OneCore.WalletProvider.Activation
import OneCore.WalletProvider.AttestedKeys

namespace OneCore.WalletProvider

open List Database

variable {Key Der ι : Type} {db db' : Database} {now : Timestamp} {first : Nat}

/-! ### A request that is under way -/

/-- What holds of the database while a request for attestations is under way. -/
structure UnderWay (db : Database) (prepared : PreparedIssue) : Prop where
  nodup : (prepared.attestedKeys.map WalletUnitAttestedKey.id).Nodup
  newNodup : ((newKeys prepared.inputs).map WalletUnitAttestedKey.id).Nodup
  stored : ∀ key ∈ prepared.attestedKeys,
    (∃ row, db.attestedKeys.get? key.id = some row ∧ row.IsKey key.walletUnitId key.publicKeyJwk) ∨
    key.id ∈ (newKeys prepared.inputs).map WalletUnitAttestedKey.id
  /-- The ids of the new keys are held. -/
  held : ∀ k ∈ (newKeys prepared.inputs).map WalletUnitAttestedKey.id,
    db.attestedKeys.get? k = none ∧ k < db.nextId
  written : ∀ key ∈ newKeys prepared.inputs, ∃ key' ∈ prepared.attestedKeys,
    key'.identity = key.identity
  new : ∀ input ∈ prepared.inputs, ∀ key, input.key = .newlyCreated key →
    key.walletUnitId = prepared.unit.id ∧ key.publicKeyJwk = input.holderJwk

lemma map_id_eq_map_identity (keys : List WalletUnitAttestedKey) :
    keys.map WalletUnitAttestedKey.id = (keys.map WalletUnitAttestedKey.identity).map Prod.fst := by
  rw [map_map]
  rfl

variable {id : Nat}

lemma KeysAttested.new_ids {keys keys' : List WalletUnitAttestedKey}
    {inputs : List KeyAttestationInput} (h : KeysAttested id db keys inputs keys' db') {k : Nat}
    (hk : k ∈ (newKeys inputs).map WalletUnitAttestedKey.id) : db.nextId ≤ k ∧ k < db'.nextId := by
  rw [h.ids_eq, mem_range'_1] at hk
  rw [h.db_eq]
  exact hk

variable {prepared : PreparedIssue} {request : Database.UpdateWalletUnitRequest}

lemma underWay_of_reading {input : Input Key Der} {bearerToken : String}
    {request : IssueWalletUnitAttestationRequest} (hdb : Consistent first db)
    (reading : IssueReading input db id bearerToken request prepared db') : UnderWay db' prepared := by
  have hloaded := loadedKeys_of_getByWalletUnitId reading.keys_eq
  have hatd := keysAttested_of_attestKeys reading.inputs_eq
  obtain ⟨hid, -, -⟩ := loadWalletUnit_eq_ok_iff.1 reading.load_eq
  have hkeys : db'.attestedKeys = db.attestedKeys := by rw [hatd.db_eq]
  have hids : prepared.attestedKeys.map WalletUnitAttestedKey.id =
      reading.keys.map WalletUnitAttestedKey.id ++
        (newKeys prepared.inputs).map WalletUnitAttestedKey.id := by
    rw [map_id_eq_map_identity, hatd.keys_eq, map_append, ← map_id_eq_map_identity,
      ← map_id_eq_map_identity]
  have hnewN : ((newKeys prepared.inputs).map WalletUnitAttestedKey.id).Nodup := by
    rw [hatd.ids_eq]
    exact nodup_range'
  refine ⟨?_, hnewN, fun key hkey => ?_, fun k hk => ?_, fun key hkey => ?_, ?_⟩
  · rw [hids, nodup_append]
    refine ⟨hloaded.nodup, hnewN, fun a ha b hb => ?_⟩
    obtain ⟨key, hkey, rfl⟩ := mem_map.1 ha
    obtain ⟨-, row, hrow, -⟩ := hloaded.stored key hkey
    exact Nat.ne_of_lt (Nat.lt_of_lt_of_le (hdb.key_lt hrow) (hatd.new_ids hb).1)
  · have hmem := mem_map_of_mem (f := WalletUnitAttestedKey.identity) hkey
    rw [hatd.keys_eq, mem_append] at hmem
    rcases hmem with hmem | hmem
    · obtain ⟨old, hold, heq⟩ := mem_map.1 hmem
      simp only [WalletUnitAttestedKey.identity, Prod.mk.injEq] at heq
      obtain ⟨heqid, hunit, hjwk, -⟩ := heq
      obtain ⟨holdid, row, hrow, hiskey, -⟩ := hloaded.stored old hold
      refine .inl ⟨row, ?_, hiskey.1.trans (holdid.symm.trans hunit), hiskey.2.trans hjwk⟩
      rw [hkeys, ← heqid]
      exact hrow
    · obtain ⟨new, hnew, heq⟩ := mem_map.1 hmem
      exact .inr (mem_map.2 ⟨new, hnew, congrArg Prod.fst heq⟩)
  · obtain ⟨hle, hlt⟩ := hatd.new_ids hk
    refine ⟨?_, hlt⟩
    cases hrow : db.attestedKeys.get? k with
    | none => rw [hkeys, hrow]
    | some row => exact absurd (hdb.key_lt hrow) (Nat.not_lt_of_le hle)
  · have hmem := mem_map_of_mem (f := WalletUnitAttestedKey.identity) hkey
    exact mem_map.1 (hatd.keys_eq ▸ mem_append_right _ hmem)
  · rw [hid]
    exact hatd.new

lemma UnderWay.writable (h : UnderWay db prepared) : Writable db prepared.attestedKeys :=
  ⟨h.nodup, fun key hkey => (h.stored key hkey).imp_right (h.held key.id)⟩

lemma UnderWay.grows (h : UnderWay db prepared) (hgrows : Grows db db')
    (hheld : ∀ k ∈ (newKeys prepared.inputs).map WalletUnitAttestedKey.id,
      db'.attestedKeys.get? k = none) : UnderWay db' prepared where
  nodup := h.nodup
  newNodup := h.newNodup
  stored key hkey := (h.stored key hkey).imp_left hgrows.isKey
  held k hk := ⟨hheld k hk, Nat.lt_of_lt_of_le (h.held k hk).2 hgrows.nextId_le⟩
  written := h.written
  new := h.new

lemma keys_of_updateWalletUnit (h : db.updateWalletUnit now id request = .ok db') :
    ∃ db₀ : Database, db₀.attestedKeys = db.attestedKeys ∧ db₀.entries = db.entries ∧
      db₀.nextId = db.nextId ∧
      db' = (request.attestedKeys.getD []).foldl (upsertAttestedKey now) db₀ := by
  obtain ⟨row, -, -, rfl⟩ := updateWalletUnit_eq_ok_iff.1 h
  exact ⟨{ db with walletUnits := db.walletUnits.insert id (request.apply now row) }, rfl, rfl, rfl,
    rfl⟩

lemma issued_of_issueTx {env : Environment Key Der} {response : IssueResponse}
    (hdb : Consistent first db) (hunder : UnderWay db prepared)
    (h : issueTx env now db prepared = .ok (response, db')) :
    Issued env first db prepared.revocationMethod prepared.inputs response.wua db' := by
  rcases issueTx_eq_ok h with ⟨hinps, hresp, rfl⟩ | ⟨db₁, hupd, hiss⟩
  · rw [hinps, hresp]
    exact ⟨.refl _, hdb, fun hrow' hnone => absurd (hrow'.symm.trans hnone) nofun, .inr, .nil⟩
  · obtain ⟨db₀, hrows, hents, hid, rfl⟩ := keys_of_updateWalletUnit hupd
    have hle : db.nextId ≤ db₀.nextId := Nat.le_of_eq hid.symm
    have hdb₀ : Consistent first db₀ := hdb.of_eq hrows hents hle
    by_cases hnil : prepared.inputs = []
    · -- without a key in the request, no key is written
      rw [PreparedIssue.update, if_pos hnil, hnil] at hiss
      obtain ⟨hwua, rfl⟩ := Prod.mk.inj (Except.ok.inj hiss)
      rw [hnil, ← hwua]
      refine ⟨.of_eq hrows hents hle, hdb₀, fun hrow' hnone => ?_, fun hent => .inr (hents ▸ hent), .nil⟩
      rw [← hrows] at hnone
      exact absurd (hrow'.symm.trans hnone) nofun
    rw [PreparedIssue.update, if_neg hnil] at hiss
    have hwrit : Writable db₀ prepared.attestedKeys := by
      obtain ⟨hnd, hsto⟩ := hunder.writable
      rw [← hrows, ← hid] at hsto
      exact ⟨hnd, hsto⟩
    have hawaits : AwaitsEntries (prepared.attestedKeys.foldl (upsertAttestedKey now) db₀) prepared.inputs := by
      refine ⟨hunder.newNodup, fun key hkey => ?_⟩
      obtain ⟨key', hkey', hiden⟩ := hunder.written key hkey
      simp only [WalletUnitAttestedKey.identity, Prod.mk.injEq] at hiden
      obtain ⟨heqid, hunit, hjwk, -⟩ := hiden
      have hnone : db₀.attestedKeys.get? key'.id = none := by
        rw [hrows, heqid]
        exact (hunder.held key.id (mem_map_of_mem hkey)).1
      obtain ⟨new, hnew, hiskey, hlink⟩ := hwrit.new_row hkey' hnone
      exact ⟨new, heqid ▸ hnew, ⟨hiskey.1.trans hunit, hiskey.2.trans hjwk⟩, hlink⟩
    have hissued := issued_of_issueKeyAttestations (hdb₀.foldl_upsertAttestedKey hwrit) hawaits hiss
    have hgrows := (grows_foldl_upsertAttestedKey hwrit).trans hissued.grows
    refine ⟨(Grows.of_eq hrows hents hle).trans hgrows, hissued.consistent, fun {k row'} hrow' hnone => ?_,
      fun hentry => ?_, hissued.attests⟩
    · cases hrow₁ : (prepared.attestedKeys.foldl (upsertAttestedKey now) db₀).attestedKeys.get? k with
      | none => exact hissued.stored hrow' hrow₁
      | some row₁ =>
        rcases get?_foldl_upsertAttestedKey hwrit.nodup k with ⟨key, hkey, rfl, -⟩ | hsame
        · refine (hunder.stored key hkey).resolve_left ?_
          rintro ⟨old, hold, -⟩
          exact absurd (hold.symm.trans hnone) nofun
        · rw [hsame, hrows, hnone] at hrow₁
          cases hrow₁
    · have hent := hissued.entries hentry
      rwa [foldl_upsertAttestedKey_eq, hents] at hent

/-! ### What a step does to keys and entries -/

/-- What a step does to keys and entries: nothing is lost, new keys are the ones that a request holds,
and only a revocation marks entries. -/
structure KeyStep (first : Nat) (db : Database) (event : Event) (db' : Database) : Prop where
  grows : Grows db db'
  consistent : Consistent first db'
  stored : ∀ {k row'}, db'.attestedKeys.get? k = some row' → db.attestedKeys.get? k = none →
    ∃ request prepared response, event = .issued request prepared response ∧
      k ∈ (newKeys prepared.inputs).map WalletUnitAttestedKey.id
  marked : ∀ {e entry'}, db'.entries.get? e = some entry' → entry'.status = .revoked →
    (∃ entry, db.entries.get? e = some entry ∧ entry.status = .revoked ∧
      entry'.revocationListId = entry.revocationListId ∧ entry'.index = entry.index) ∨
    ∃ prepared, event = .revoked prepared ∧ prepared.Marks entry'

lemma KeyStep.of_eq {event : Event} (hdb : Consistent first db)
    (hkeys : db'.attestedKeys = db.attestedKeys) (hents : db'.entries = db.entries)
    (hid : db.nextId ≤ db'.nextId) : KeyStep first db event db' where
  grows := .of_eq hkeys hents hid
  consistent := hdb.of_eq hkeys hents hid
  stored hrow' hnone := absurd ((hkeys ▸ hrow').symm.trans hnone) nofun
  marked {_ entry'} hentry' hstatus := .inl ⟨entry', hents ▸ hentry', hstatus, rfl, rfl⟩

lemma KeyStep.of_updateWalletUnit {event : Event} (hdb : Consistent first db)
    (hnone : request.attestedKeys = none) (h : db.updateWalletUnit now id request = .ok db') :
    KeyStep first db event db' := by
  obtain ⟨db₀, hkeys, hents, hid, rfl⟩ := keys_of_updateWalletUnit h
  rw [hnone]
  exact .of_eq hdb hkeys hents (Nat.le_of_eq hid.symm)

lemma PreparedRevocation.Marks.congr {prepared : PreparedRevocation}
    {entry entry' : RevocationListEntry} (h : prepared.Marks entry)
    (hlist : entry'.revocationListId = entry.revocationListId) (hidx : entry'.index = entry.index) :
    prepared.Marks entry' := by
  obtain ⟨hmth, info, hinfo, hat⟩ := h
  exact ⟨hmth, info, hinfo, hlist.trans hat.1, hidx.trans hat.2⟩

variable {input : Input Key Der} {call : Call} {event : Event} {rest : Option Call}

lemma Outcome.keyStep (h : Outcome input db call event db' rest) (hdb : Consistent first db)
    (hcall : ∀ request prepared, call = .issuing request prepared → UnderWay db prepared) :
    KeyStep first db event db' := by
  cases h with
  | activationRead | revocationRead | refused => exact .of_eq hdb rfl rfl (Nat.le_refl _)
  | registered h =>
    obtain ⟨_, _, _, -, rfl, rfl, -⟩ := registerWalletUnit_eq_ok h
    exact .of_eq hdb rfl rfl (Nat.le_succ _)
  | @activationWritten _ _ prepared _ h =>
    refine .of_updateWalletUnit hdb ?_ (mapError_eq_ok.1 h)
    cases prepared <;> rfl
  | issueRead h =>
    obtain ⟨reading⟩ := nonempty_issueReading h
    have hatd := keysAttested_of_attestKeys reading.inputs_eq
    refine .of_eq hdb ?_ ?_ (sameUnits_attestKeys reading.inputs_eq).nextId_le
    · rw [hatd.db_eq]
    · rw [hatd.db_eq]
  | issued h =>
    have hiss := issued_of_issueTx hdb (hcall _ _ rfl) h
    refine ⟨hiss.grows, hiss.consistent, fun hrow' hnone => ⟨_, _, _, rfl, ?_⟩,
      fun {e entry'} hentry' hstatus => .inl ?_⟩
    · exact hiss.stored hrow' hnone
    · rcases hiss.entries hentry' with hact | hentry
      · exact absurd (hstatus.symm.trans hact) nofun
      · exact ⟨entry', hentry, hstatus, rfl, rfl⟩
  | revocationWritten h => exact .of_updateWalletUnit hdb rfl (mapError_eq_ok.1 h)
  | @revoked prepared _ h =>
    obtain ⟨-, hkeys, -⟩ := sameUnits_markEntries h
    refine ⟨grows_markEntries h, hdb.markEntries h, fun hrow' hnone => ?_,
      fun {e entry'} hentry' hstatus => ?_⟩
    · exact absurd ((hkeys ▸ hrow').symm.trans hnone) nofun
    · obtain ⟨entry, hentry, hlist, hidx, ⟨hmarks, -⟩ | ⟨-, rfl⟩⟩ := entry_of_markEntries h hentry'
      · exact .inr ⟨prepared, rfl, hmarks.congr hlist hidx⟩
      · exact .inl ⟨entry', hentry, hstatus, rfl, rfl⟩

/-! ### The invariant -/

/-- A revocation that has returned has marked the entry. -/
def MarkedIn (past : List (ProviderTransition ι Key Der)) (entry : RevocationListEntry) : Prop :=
  ∃ t ∈ past, ∃ i input prepared, t.label = .steps i (input, .revoked prepared) ∧ prepared.Marks entry

/-- The database is consistent, and the entries of keys that are revoked were marked. -/
structure KeysKept (first : Nat) (past : List (ProviderTransition ι Key Der)) (db : Database) :
    Prop where
  consistent : Consistent first db
  marked : ∀ {e entry}, first ≤ e → db.entries.get? e = some entry → entry.status = .revoked →
    MarkedIn past entry

/-- What a running call has behind it: it has read what it goes on with. -/
def KeyPast (past : List (ProviderTransition ι Key Der)) (db : Database) (i : ι) : Call → Prop
  | .issuing request prepared => UnderWay db prepared ∧ ∃ t ∈ past, ∃ input,
      t.label = .steps i (input, .issueRead request prepared)
  | .revoking prepared | .marking prepared => ∃ t ∈ past, ∃ input,
      t.label = .steps i (input, .revocationRead prepared)
  | _ => True

/-- The ids of the new keys of a request that is under way. -/
def Call.newIds : Call → List Nat
  | .issuing _ prepared => (newKeys prepared.inputs).map WalletUnitAttestedKey.id
  | _ => []

section Steps

variable {past past' : List (ProviderTransition ι Key Der)} {t : ProviderTransition ι Key Der}
  {i j : ι} {a b : Call}

lemma MarkedIn.mono {entry : RevocationListEntry} (hsub : past ⊆ past') (h : MarkedIn past entry) :
    MarkedIn past' entry := by
  obtain ⟨t, ht, hrest⟩ := h
  exact ⟨t, hsub ht, hrest⟩

lemma KeyPast.mono (hsub : past ⊆ past') (h : KeyPast past db j b)
    (hunder : ∀ request prepared, b = .issuing request prepared → UnderWay db' prepared) :
    KeyPast past' db' j b := by
  cases b with
  | register | activate | activating | issue | revoke => trivial
  | issuing request prepared =>
    obtain ⟨-, t, ht, hrest⟩ := h
    exact ⟨hunder _ _ rfl, t, hsub ht, hrest⟩
  | revoking prepared | marking prepared =>
    obtain ⟨t, ht, hrest⟩ := h
    exact ⟨t, hsub ht, hrest⟩

lemma KeyPast.underWay (h : KeyPast past db i a) (request : IssueWalletUnitAttestationRequest)
    (prepared : PreparedIssue) (heq : a = .issuing request prepared) : UnderWay db prepared := by
  subst heq
  exact h.1

lemma KeyPast.newIds_lt (h : KeyPast past db i a) {k : Nat} (hk : k ∈ a.newIds) :
    k < db.nextId := by
  cases a with
  | register | activate | activating | issue | revoke | revoking | marking => cases hk
  | issuing request prepared => exact (h.1.held k hk).2

section

variable (hkept : KeysKept first past t.src.shared) (hpast : KeyPast past t.src.shared i a)
include hkept hpast

lemma KeysKept.step (hlabel : t.label = .steps i (input, event))
    (h : Outcome input t.src.shared a event t.dst.shared rest) :
    KeysKept first (past ++ [t]) t.dst.shared := by
  have hstep := h.keyStep hkept.consistent hpast.underWay
  refine ⟨hstep.consistent, fun {e entry'} hfirst hentry' hstatus => ?_⟩
  rcases hstep.marked hentry' hstatus with ⟨entry, hentry, hrvd, hlist, hidx⟩ |
    ⟨prepared, rfl, hmarks⟩
  · obtain ⟨t', ht', i', input', prepared, hlabel', hmarks⟩ := hkept.marked hfirst hentry hrvd
    exact ⟨t', mem_append_left _ ht', i', input', prepared, hlabel', hmarks.congr hlist hidx⟩
  · exact ⟨t, by simp, i, input, prepared, hlabel, hmarks⟩

lemma KeyPast.others (h : Outcome input t.src.shared a event t.dst.shared rest)
    (hother : KeyPast past t.src.shared j b) (hpair : Disjoint a.newIds b.newIds) :
    KeyPast (past ++ [t]) t.dst.shared j b := by
  have hstep := h.keyStep hkept.consistent hpast.underWay
  refine hother.mono (by simp) fun request prepared heq => ?_
  subst heq
  refine hother.1.grows hstep.grows fun k hk => ?_
  cases hrow : t.dst.shared.attestedKeys.get? k with
  | none => rfl
  | some row =>
    obtain ⟨request', prepared', response, rfl, hmem⟩ := hstep.stored hrow (hother.1.held k hk).1
    obtain rfl := h.call_of_issued
    exact absurd hk (hpair hmem)

lemma KeyPast.step (hlabel : t.label = .steps i (input, event))
    (h : Outcome input t.src.shared a event t.dst.shared (some b)) :
    KeyPast (past ++ [t]) t.dst.shared i b := by
  generalize t.dst.shared = db' at h
  cases h with
  | activationRead => trivial
  | issueRead hread =>
    obtain ⟨reading⟩ := nonempty_issueReading hread
    exact ⟨underWay_of_reading hkept.consistent reading, t, by simp, input, hlabel⟩
  | revocationRead => exact ⟨t, by simp, input, hlabel⟩
  | revocationWritten =>
    obtain ⟨t', ht', hrest⟩ := hpast
    exact ⟨t', mem_append_left _ ht', hrest⟩

end

lemma disjoint_newIds (h : Outcome input db a event db' (some b)) {c : Call}
    (hother : KeyPast past db j c) : Disjoint b.newIds c.newIds := by
  cases h with
  | activationRead | revocationRead | revocationWritten => exact disjoint_nil_left _
  | issueRead hread =>
    obtain ⟨reading⟩ := nonempty_issueReading hread
    have hatd := keysAttested_of_attestKeys reading.inputs_eq
    intro k hk hk'
    exact absurd (hother.newIds_lt hk') (Nat.not_lt_of_le (hatd.new_ids hk).1)

end Steps

/-- Consistency and the past of the running calls, as an invariant. -/
def keyInvariant (ι Key Der : Type) (first : Nat) :
    Interleaving.Invariant ι Call.IsRequest (@Next Key Der) where
  shared := KeysKept first
  call := KeyPast
  pair a b := Disjoint a.newIds b.newIds
  pair_symm h := h.symm
  pair_request h := by cases h <;> exact disjoint_nil_left _
  call_request h := by cases h <;> trivial
  shared_begins _ hdb hkept := by
    rw [hdb]
    exact ⟨hkept.consistent, fun hfirst hentry hstatus =>
      (hkept.marked hfirst hentry hstatus).mono (by simp)⟩
  call_begins _ hdb hpast := by
    rw [hdb]
    exact hpast.mono (by simp) hpast.underWay
  shared_steps hlabel hnext hkept hpast := hkept.step hpast hlabel hnext.outcome
  call_steps hlabel hnext hkept hpast := hpast.step hkept hlabel hnext.outcome
  call_others _ _ hnext hkept hpast hother hpair :=
    hpast.others hkept hnext.outcome hother hpair
  pair_steps hnext _ _ hother _ := disjoint_newIds (Next.outcome hnext) hother

end OneCore.WalletProvider
