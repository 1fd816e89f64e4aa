/-
# Keys and their entries

The row of an attested key points to an entry, and the entry has a place on a status list.  Rows are
written again and entries are marked, but a key keeps its unit, its JWK and its entry, and an entry
keeps its place; an entry that is revoked stays so.

A database is consistent if no two entries have the same place and every link points to an entry.
-/
import OneCore.WalletProvider.Units

namespace OneCore.WalletProvider

open List Database IndexMap

variable {db db' db'' : Database} {now : Timestamp}

/-! ### What is kept -/

def RevocationListEntry.At (entry : RevocationListEntry) (info : RevocationInfo) : Prop :=
  entry.revocationListId = info.revocationListId ∧ entry.index = some info.revocationListIndex

instance (entry : RevocationListEntry) (info : RevocationInfo) : Decidable (entry.At info) :=
  inferInstanceAs (Decidable (_ ∧ _))

variable {entry : RevocationListEntry}

lemma RevocationListEntry.At.unique {info info' : RevocationInfo}
    (h : entry.At info) (h' : entry.At info') : info = info' := by
  obtain ⟨list, index⟩ := info
  obtain ⟨list', index'⟩ := info'
  have hlist : list = list' := h.1.symm.trans h'.1
  have hidx : index = index' := mem_unique h.2 h'.2
  rw [hlist, hidx]

def AttestedKeyRow.IsKey (row : AttestedKeyRow) (unitId : Nat) (jwk : PublicJwk) : Prop :=
  row.walletUnitId = unitId ∧ row.publicKeyJwk = jwk

/-- The key of the unit has an entry, and the entry is at the given place. -/
structure Linked (db : Database) (keyId unitId : Nat) (jwk : PublicJwk) (entryId : Nat)
    (info : RevocationInfo) : Prop where
  key : ∃ row, db.attestedKeys.get? keyId = some row ∧ row.IsKey unitId jwk ∧
    row.revocationListEntryId = some entryId
  entry : ∃ entry, db.entries.get? entryId = some entry ∧ entry.At info

def EntryRevoked (db : Database) (entryId : Nat) : Prop :=
  ∃ entry, db.entries.get? entryId = some entry ∧ entry.status = .revoked

/-- Keys keep their unit, their JWK and their entry; entries keep their place, and revoked ones stay
revoked. -/
structure Grows (db db' : Database) : Prop where
  nextId_le : db.nextId ≤ db'.nextId
  key : ∀ {k row}, db.attestedKeys.get? k = some row → ∃ row', db'.attestedKeys.get? k = some row' ∧
    row'.IsKey row.walletUnitId row.publicKeyJwk ∧
    ∀ e, row.revocationListEntryId = some e → row'.revocationListEntryId = some e
  entry : ∀ {e entry}, db.entries.get? e = some entry → ∃ entry', db'.entries.get? e = some entry' ∧
    entry'.revocationListId = entry.revocationListId ∧ entry'.index = entry.index ∧
    (entry.status = .revoked → entry'.status = .revoked)

lemma Grows.of_eq (hkeys : db'.attestedKeys = db.attestedKeys) (hents : db'.entries = db.entries)
    (hid : db.nextId ≤ db'.nextId) : Grows db db' where
  nextId_le := hid
  key {_ row} h := ⟨row, hkeys ▸ h, ⟨rfl, rfl⟩, fun _ => id⟩
  entry {_ entry} h := ⟨entry, hents ▸ h, rfl, rfl, id⟩

lemma Grows.refl (db : Database) : Grows db db := .of_eq rfl rfl (Nat.le_refl _)

lemma Grows.trans (h : Grows db db') (h' : Grows db' db'') : Grows db db'' where
  nextId_le := Nat.le_trans h.nextId_le h'.nextId_le
  key hrow := by
    obtain ⟨row', hrow', hkey, hlink⟩ := h.key hrow
    obtain ⟨row'', hrow'', hkey', hlink'⟩ := h'.key hrow'
    refine ⟨row'', hrow'', ⟨hkey'.1.trans hkey.1, hkey'.2.trans hkey.2⟩, fun e he => ?_⟩
    exact hlink' e (hlink e he)
  entry hent := by
    obtain ⟨entry', hent', hlist, hidx, hst⟩ := h.entry hent
    obtain ⟨entry'', hent'', hlist', hidx', hst'⟩ := h'.entry hent'
    exact ⟨entry'', hent'', hlist'.trans hlist, hidx'.trans hidx, hst' ∘ hst⟩

variable {jwk : PublicJwk} {entryId e : Nat} {method : String} {issued : IssuedAttestation}
  {status : EntryStatus} {lists : StatusListEnvironment} {prepared : PreparedRevocation}
  {input : Input Key Der}

lemma Grows.isKey (h : Grows db db') {k unitId : Nat}
    (hkey : ∃ row, db.attestedKeys.get? k = some row ∧ row.IsKey unitId jwk) :
    ∃ row, db'.attestedKeys.get? k = some row ∧ row.IsKey unitId jwk := by
  obtain ⟨row, hrow, hkey⟩ := hkey
  obtain ⟨row', hrow', hkey', -⟩ := h.key hrow
  exact ⟨row', hrow', hkey'.1.trans hkey.1, hkey'.2.trans hkey.2⟩

variable {info : RevocationInfo}

lemma Linked.grows {keyId unitId : Nat}
    (h : Linked db keyId unitId jwk entryId info) (hgrows : Grows db db') :
    Linked db' keyId unitId jwk entryId info := by
  obtain ⟨⟨row, hrow, hkey, hlink⟩, entry, hent, hat⟩ := h
  obtain ⟨row', hrow', hkey', hlink'⟩ := hgrows.key hrow
  obtain ⟨entry', hent', hlist, hidx, -⟩ := hgrows.entry hent
  exact ⟨⟨row', hrow', ⟨hkey'.1.trans hkey.1, hkey'.2.trans hkey.2⟩, hlink' _ hlink⟩,
    entry', hent', hlist.trans hat.1, hidx.trans hat.2⟩

lemma EntryRevoked.grows (h : EntryRevoked db entryId) (hgrows : Grows db db') :
    EntryRevoked db' entryId := by
  obtain ⟨entry, hent, hst⟩ := h
  obtain ⟨entry', hent', -, -, hst'⟩ := hgrows.entry hent
  exact ⟨entry', hent', hst' hst⟩

/-! ### Consistency -/

/-- Ids are below the counter, a link points to an entry that is there, to one that is not older than
the id `first`, and neither an entry nor a place is used twice. -/
structure Consistent (first : Nat) (db : Database) : Prop where
  first_le : first ≤ db.nextId
  key_lt : ∀ {k row}, db.attestedKeys.get? k = some row → k < db.nextId
  entry_lt : ∀ {e entry}, db.entries.get? e = some entry → e < db.nextId
  link : ∀ {k row e}, db.attestedKeys.get? k = some row → row.revocationListEntryId = some e →
    first ≤ e ∧ ∃ entry, db.entries.get? e = some entry
  link_inj : ∀ {k k' row row' e}, db.attestedKeys.get? k = some row →
    db.attestedKeys.get? k' = some row' → row.revocationListEntryId = some e →
    row'.revocationListEntryId = some e → k = k'
  place_inj : ∀ {e e' entry entry' info}, db.entries.get? e = some entry →
    db.entries.get? e' = some entry' → entry.At info → entry'.At info → e = e'

variable {first : Nat}

/-- No link and no entry is new, and an entry has no other place. -/
lemma Consistent.of_grows (h : Consistent first db) (hgrows : Grows db db')
    (hkey : ∀ {k row'}, db'.attestedKeys.get? k = some row' → k < db'.nextId ∧
      ∀ {e}, row'.revocationListEntryId = some e →
        ∃ row, db.attestedKeys.get? k = some row ∧ row.revocationListEntryId = some e)
    (hent : ∀ {e entry'}, db'.entries.get? e = some entry' →
      ∃ entry, db.entries.get? e = some entry ∧ ∀ {info}, entry'.At info → entry.At info) :
    Consistent first db' where
  first_le := Nat.le_trans h.first_le hgrows.nextId_le
  key_lt hrow := (hkey hrow).1
  entry_lt hent' := by
    obtain ⟨entry, hold, -⟩ := hent hent'
    exact Nat.lt_of_lt_of_le (h.entry_lt hold) hgrows.nextId_le
  link hrow hlink := by
    obtain ⟨row, hold, hlink⟩ := (hkey hrow).2 hlink
    obtain ⟨hfst, entry, hentry⟩ := h.link hold hlink
    obtain ⟨entry', hentry', -⟩ := hgrows.entry hentry
    exact ⟨hfst, entry', hentry'⟩
  link_inj hrow hrow' hlink hlink' := by
    obtain ⟨old, hold, hlink⟩ := (hkey hrow).2 hlink
    obtain ⟨old', hold', hlink'⟩ := (hkey hrow').2 hlink'
    exact h.link_inj hold hold' hlink hlink'
  place_inj hent₁ hent₂ hat₁ hat₂ := by
    obtain ⟨old₁, hold₁, hplace₁⟩ := hent hent₁
    obtain ⟨old₂, hold₂, hplace₂⟩ := hent hent₂
    exact h.place_inj hold₁ hold₂ (hplace₁ hat₁) (hplace₂ hat₂)

lemma Consistent.of_eq (h : Consistent first db) (hkeys : db'.attestedKeys = db.attestedKeys)
    (hents : db'.entries = db.entries) (hid : db.nextId ≤ db'.nextId) : Consistent first db' := by
  refine h.of_grows (.of_eq hkeys hents hid) (fun {k row} hrow => ?_) fun {e entry} hent => ?_
  · rw [hkeys] at hrow
    exact ⟨Nat.lt_of_lt_of_le (h.key_lt hrow) hid, fun hlink => ⟨row, hrow, hlink⟩⟩
  · exact ⟨entry, hents ▸ hent, id⟩

/-! ### Keys are written -/

/-- The keys can be written: each is stored as a key of the same unit, or it is new. -/
structure Writable (db : Database) (keys : List WalletUnitAttestedKey) : Prop where
  nodup : (keys.map WalletUnitAttestedKey.id).Nodup
  stored : ∀ key ∈ keys,
    (∃ row, db.attestedKeys.get? key.id = some row ∧ row.IsKey key.walletUnitId key.publicKeyJwk) ∨
    (db.attestedKeys.get? key.id = none ∧ key.id < db.nextId)

lemma attestedKeys_foldl_upsertAttestedKey (keys : List WalletUnitAttestedKey) :
    (keys.foldl (upsertAttestedKey now) db).attestedKeys =
      keys.foldl (fun rows key => rows.upsert key.id (upsertRow now key))
        db.attestedKeys := by
  induction keys generalizing db with
  | nil => rfl
  | cons key keys ih => exact ih

variable {keys : List WalletUnitAttestedKey}

lemma get?_foldl_upsertAttestedKey (hnd : (keys.map WalletUnitAttestedKey.id).Nodup) (k : Nat) :
    (∃ key ∈ keys, key.id = k ∧
      (keys.foldl (upsertAttestedKey now) db).attestedKeys.get? k =
        some (upsertRow now key (db.attestedKeys.get? k))) ∨
    (keys.foldl (upsertAttestedKey now) db).attestedKeys.get? k =
      db.attestedKeys.get? k := by
  rw [attestedKeys_foldl_upsertAttestedKey]
  by_cases hk : k ∈ keys.map WalletUnitAttestedKey.id
  · obtain ⟨key, hkey, rfl⟩ := mem_map.1 hk
    exact .inl ⟨key, hkey, rfl, get?_foldl_upsert_of_nodup _ _ hnd _ hkey⟩
  · exact .inr (get?_foldl_upsert_of_not_mem _ _ hk _)

/-- A row after the keys were written was there before with the same link, or it is new and has no
link. -/
lemma Writable.row_after (h : Writable db keys) {k : Nat} {row' : AttestedKeyRow}
    (hrow' : (keys.foldl (upsertAttestedKey now) db).attestedKeys.get? k = some row') :
    (∃ row, db.attestedKeys.get? k = some row ∧ row'.IsKey row.walletUnitId row.publicKeyJwk ∧
      row'.revocationListEntryId = row.revocationListEntryId) ∨
    (db.attestedKeys.get? k = none ∧ k < db.nextId ∧ row'.revocationListEntryId = none) := by
  rcases get?_foldl_upsertAttestedKey h.nodup k with ⟨key, hkey, rfl, hget⟩ | hget
  · obtain rfl := mem_unique hget hrow'
    rcases h.stored key hkey with ⟨row, hrow, hiskey⟩ | ⟨hnone, hlt⟩
    · rw [hrow]
      exact .inl ⟨row, rfl, ⟨hiskey.1.symm, hiskey.2.symm⟩, rfl⟩
    · rw [hnone]
      exact .inr ⟨rfl, hlt, rfl⟩
  · exact .inl ⟨row', hget.symm.trans hrow', ⟨rfl, rfl⟩, rfl⟩

lemma Writable.new_row (h : Writable db keys)
    {key : WalletUnitAttestedKey} (hkey : key ∈ keys) (hnone : db.attestedKeys.get? key.id = none) :
    ∃ row, (keys.foldl (upsertAttestedKey now) db).attestedKeys.get? key.id = some row ∧
      row.IsKey key.walletUnitId key.publicKeyJwk ∧ row.revocationListEntryId = none := by
  have hget := get?_foldl_upsert_of_nodup WalletUnitAttestedKey.id (upsertRow now)
    h.nodup db.attestedKeys hkey
  rw [← attestedKeys_foldl_upsertAttestedKey, hnone] at hget
  exact ⟨_, hget, ⟨rfl, rfl⟩, rfl⟩

lemma grows_foldl_upsertAttestedKey (h : Writable db keys) :
    Grows db (keys.foldl (upsertAttestedKey now) db) where
  nextId_le := by
    rw [foldl_upsertAttestedKey_eq]
  entry {_ entry} hent := by
    rw [foldl_upsertAttestedKey_eq]
    exact ⟨entry, hent, rfl, rfl, id⟩
  key {k row} hrow := by
    rcases @get?_foldl_upsertAttestedKey db now keys h.nodup k with ⟨key, hkey, rfl, hget⟩ | hget
    · obtain ⟨row', hrow', hiskey⟩ := (h.stored key hkey).resolve_right fun hnew =>
        absurd (hrow.symm.trans hnew.1) nofun
      obtain rfl := mem_unique hrow hrow'
      rw [hrow] at hget
      exact ⟨_, hget, ⟨hiskey.1.symm, hiskey.2.symm⟩, fun _ => id⟩
    · exact ⟨row, hget.trans hrow, ⟨rfl, rfl⟩, fun _ => id⟩

lemma Consistent.foldl_upsertAttestedKey (h : Consistent first db) (hkeys : Writable db keys) :
    Consistent first (keys.foldl (upsertAttestedKey now) db) := by
  refine h.of_grows (grows_foldl_upsertAttestedKey hkeys) (fun {k row'} hrow' => ?_) fun {e entry} hent => ?_
  · rcases hkeys.row_after hrow' with ⟨row, hrow, -, heq⟩ | ⟨-, hlt, hnone⟩ <;>
      rw [foldl_upsertAttestedKey_eq]
    · exact ⟨h.key_lt hrow, fun hlink => ⟨row, hrow, heq ▸ hlink⟩⟩
    · exact ⟨hlt, fun hlink => absurd (hlink.symm.trans hnone) nofun⟩
  · rw [foldl_upsertAttestedKey_eq] at hent
    exact ⟨entry, hent, id⟩

/-! ### An entry is added -/

/-- What a new entry changes: it has a new id and a place that was free, and a key points to it. -/
structure EntryAdded (now : Timestamp) (db : Database) (keyId : Nat) (info : RevocationInfo)
    (db' : Database) where
  row : AttestedKeyRow
  entryId : Nat
  nextId_le : db.nextId ≤ entryId
  nextId_eq : db'.nextId = entryId + 1
  row_eq : db.attestedKeys.get? keyId = some row
  free : ∀ {e entry}, db.entries.get? e = some entry → ¬entry.At info
  keys_eq : db'.attestedKeys = db.attestedKeys.insert keyId
    { row with lastModified := now, revocationListEntryId := some entryId }
  entries_eq : db'.entries = db.entries.insert entryId
    ⟨info.revocationListId, some info.revocationListIndex, .active⟩

lemma nonempty_entryAdded_of_createEntry {keyId : Nat} {lists : IndexMap Nat RevocationList}
    {nextId : Nat} (hid : db.nextId ≤ nextId)
    (h : ({ db with nextId := nextId, revocationLists := lists } : Database).createEntry now
      info.revocationListId keyId info.revocationListIndex = .ok db') :
    Nonempty (EntryAdded now db keyId info db') := by
  obtain ⟨hfree, row, hrow, rfl⟩ := createEntry_eq_ok_iff.1 h
  refine ⟨⟨row, nextId, hid, rfl, hrow, fun {e entry} hent hat => hfree ?_, rfl, rfl⟩⟩
  exact ⟨(e, entry), get?_eq_some_iff.1 hent, hat⟩

namespace EntryAdded

variable {keyId : Nat} (a : EntryAdded now db keyId info db')

include a

lemma get?_attestedKeys (k : Nat) :
    db'.attestedKeys.get? k = if k = keyId then some { a.row with
      lastModified := now, revocationListEntryId := some a.entryId } else db.attestedKeys.get? k := by
  rw [a.keys_eq, get?_insert]

lemma get?_entries :
    db'.entries.get? e = if e = a.entryId then
      some ⟨info.revocationListId, some info.revocationListIndex, .active⟩ else db.entries.get? e := by
  rw [a.entries_eq, get?_insert]

lemma linked : Linked db' keyId a.row.walletUnitId a.row.publicKeyJwk a.entryId info where
  key := ⟨_, (a.get?_attestedKeys keyId).trans (if_pos rfl), ⟨rfl, rfl⟩, rfl⟩
  entry := ⟨_, (a.get?_entries).trans (if_pos rfl), rfl, rfl⟩

lemma get?_of_ne {k : Nat} (hne : k ≠ keyId) :
    db'.attestedKeys.get? k = db.attestedKeys.get? k := by
  rw [a.get?_attestedKeys, if_neg hne]

lemma entry_cases (h : db'.entries.get? e = some entry) :
    (e = a.entryId ∧ entry.At info ∧ entry.status = .active) ∨ db.entries.get? e = some entry := by
  rw [a.get?_entries] at h
  split at h
  · next heq =>
    cases h
    exact .inl ⟨heq, ⟨rfl, rfl⟩, rfl⟩
  · exact .inr h

lemma link_cases {k : Nat} {row : AttestedKeyRow}
    (h : db'.attestedKeys.get? k = some row) (hlink : row.revocationListEntryId = some e) :
    (k = keyId ∧ e = a.entryId) ∨ db.attestedKeys.get? k = some row := by
  rw [a.get?_attestedKeys] at h
  split at h
  · next heq =>
    cases h
    exact .inl ⟨heq, (Option.some.inj hlink).symm⟩
  · exact .inr h

/-- Nothing is lost if the key had no entry. -/
lemma grows (hdb : Consistent first db)
    (hlink : a.row.revocationListEntryId = none) : Grows db db' where
  nextId_le := by
    rw [a.nextId_eq]
    exact Nat.le_succ_of_le a.nextId_le
  key {k row} hrow := by
    rw [a.get?_attestedKeys]
    split
    · next heq =>
      subst heq
      obtain rfl := mem_unique a.row_eq hrow
      refine ⟨_, rfl, ⟨rfl, rfl⟩, fun e he => ?_⟩
      cases he.symm.trans hlink
    · exact ⟨row, hrow, ⟨rfl, rfl⟩, fun _ => id⟩
  entry {e entry} hent := by
    have hne : e ≠ a.entryId := Nat.ne_of_lt (Nat.lt_of_lt_of_le (hdb.entry_lt hent) a.nextId_le)
    exact ⟨entry, ((a.get?_entries).trans (if_neg hne)).trans hent, rfl, rfl, id⟩

/-- The new entry is not used by another key, and its place was free. -/
lemma consistent (h : Consistent first db) : Consistent first db' := by
  have hid : db.nextId ≤ db'.nextId := by
    rw [a.nextId_eq]
    exact Nat.le_succ_of_le a.nextId_le
  have hnew : ∀ {k row}, db.attestedKeys.get? k = some row →
      row.revocationListEntryId ≠ some a.entryId := by
    intro k row hrow hlink
    obtain ⟨-, entry, hent⟩ := h.link hrow hlink
    exact absurd (h.entry_lt hent) (Nat.not_lt_of_le a.nextId_le)
  refine ⟨Nat.le_trans h.first_le hid, fun {k row} hrow => ?_, fun {e entry} hent => ?_,
    fun {k row e} hrow hlink => ?_, fun {k k' row row' e} hrow hrow' hlink hlink' => ?_,
    fun {e e' entry entry' place} hent hent' hat hat' => ?_⟩
  · rw [a.get?_attestedKeys] at hrow
    split at hrow
    · next heq =>
      subst heq
      exact Nat.lt_of_lt_of_le (h.key_lt a.row_eq) hid
    · exact Nat.lt_of_lt_of_le (h.key_lt hrow) hid
  · rcases a.entry_cases hent with ⟨rfl, -⟩ | hent
    · rw [a.nextId_eq]
      exact Nat.lt_succ_self _
    · exact Nat.lt_of_lt_of_le (h.entry_lt hent) hid
  · rcases a.link_cases hrow hlink with ⟨-, rfl⟩ | hrow
    · exact ⟨Nat.le_trans h.first_le a.nextId_le, _, (a.get?_entries).trans (if_pos rfl)⟩
    · obtain ⟨hfst, entry, hent⟩ := h.link hrow hlink
      refine ⟨hfst, ?_⟩
      rw [a.get?_entries]
      split
      · exact ⟨_, rfl⟩
      · exact ⟨entry, hent⟩
  · rcases a.link_cases hrow hlink with ⟨rfl, rfl⟩ | hrow
    · rcases a.link_cases hrow' hlink' with ⟨rfl, -⟩ | hrow'
      · rfl
      · exact absurd hlink' (hnew hrow')
    · rcases a.link_cases hrow' hlink' with ⟨-, rfl⟩ | hrow'
      · exact absurd hlink (hnew hrow)
      · exact h.link_inj hrow hrow' hlink hlink'
  · -- two entries at one place are both new or both old, since the place of the new one was free
    rcases a.entry_cases hent with ⟨rfl, hinfo, -⟩ | hent
    · rcases a.entry_cases hent' with ⟨rfl, -, -⟩ | hent'
      · rfl
      · exact absurd (hat.unique hinfo ▸ hat') (a.free hent')
    · rcases a.entry_cases hent' with ⟨rfl, hinfo, -⟩ | hent'
      · exact absurd (hat'.unique hinfo ▸ hat) (a.free hent)
      · exact h.place_inj hent hent' hat hat'

end EntryAdded

/-! ### The attestations of a request -/

def AttestedKeyInput.newKey : AttestedKeyInput → Option WalletUnitAttestedKey
  | .newlyCreated key => some key
  | .reused _ => none

def newKeys (inputs : List KeyAttestationInput) : List WalletUnitAttestedKey :=
  inputs.filterMap fun input => input.key.newKey

lemma newKeys_sublist {inputs inputs' : List KeyAttestationInput} (h : inputs.Sublist inputs') :
    (newKeys inputs).Sublist (newKeys inputs') :=
  h.filterMap _

/-- The new keys of a request are stored and have no entry yet. -/
structure AwaitsEntries (db : Database) (inputs : List KeyAttestationInput) : Prop where
  nodup : ((newKeys inputs).map WalletUnitAttestedKey.id).Nodup
  stored : ∀ key ∈ newKeys inputs, ∃ row, db.attestedKeys.get? key.id = some row ∧
    row.IsKey key.walletUnitId key.publicKeyJwk ∧ row.revocationListEntryId = none

variable {inputs : List KeyAttestationInput}

lemma AwaitsEntries.tail {input : KeyAttestationInput}
    (h : AwaitsEntries db (input :: inputs)) : AwaitsEntries db inputs := by
  have hsub := newKeys_sublist (sublist_cons_self input inputs)
  exact ⟨h.nodup.sublist (hsub.map _), fun key hkey => h.stored key (hsub.subset hkey)⟩

variable {Key Der : Type} {env : Environment Key Der}

/-- The attestation refers to the place, as far as the address of the list can be parsed. -/
def RefersTo (env : Environment Key Der) (issued : IssuedAttestation) (info : RevocationInfo) : Prop :=
  ∃ status, createCredentialStatus env.lists info = .ok status ∧
    issued.attestation.status = (some status).filter fun s => env.isUrl s.uri

lemma RefersTo.create {status : CredentialStatus}
    (h : RefersTo env issued info) (hsome : issued.attestation.status = some status) :
    createCredentialStatus env.lists info = .ok status := by
  obtain ⟨status', hcr, hflt⟩ := h
  rw [hflt, Option.filter_eq_some_iff] at hsome
  obtain rfl := Option.some.inj hsome.1
  exact hcr

/-- What the attestation of a key refers to: a new key has got an entry, and a key that is used again
has the entry that was loaded. -/
def Attests (env : Environment Key Der) (db : Database) (issued : IssuedAttestation) :
    AttestedKeyInput → Prop
  | .newlyCreated key => ∃ entryId info,
      Linked db key.id key.walletUnitId key.publicKeyJwk entryId info ∧ RefersTo env issued info
  | .reused none => issued.attestation.status = none
  | .reused (some info) => RefersTo env issued info

lemma Attests.grows {input : AttestedKeyInput} (h : Attests env db issued input)
    (hgrows : Grows db db') : Attests env db' issued input := by
  match input, h with
  | .newlyCreated key, ⟨entryId, info, hlnk, hrefers⟩ =>
    exact ⟨entryId, info, hlnk.grows hgrows, hrefers⟩
  | .reused none, h => exact h
  | .reused (some info), h => exact h

/-- What is known of the database and the attestations after they were issued. -/
structure Issued (env : Environment Key Der) (first : Nat) (db : Database) (method : Option String)
    (inputs : List KeyAttestationInput) (issued : List IssuedAttestation) (db' : Database) : Prop where
  grows : Grows db db'
  consistent : Consistent first db'
  /-- The keys that were not there are the new ones. -/
  stored : ∀ {k row'}, db'.attestedKeys.get? k = some row' → db.attestedKeys.get? k = none →
    k ∈ (newKeys inputs).map WalletUnitAttestedKey.id
  /-- The new entries are active. -/
  entries : ∀ {e entry}, db'.entries.get? e = some entry →
    entry.status = .active ∨ db.entries.get? e = some entry
  attests : Forall₂ (fun input attestation =>
    attestation.attestation.attestedKeys = [input.holderJwk] ∧
      (method.isSome → Attests env db' attestation input.key)) inputs issued

/-- One attestation is issued, and the other new keys still wait for their entries. -/
lemma issued_of_issueKeyAttestation {prepared : PreparedIssue} {input : KeyAttestationInput}
    (hdb : Consistent first db) (hawaits : AwaitsEntries db (input :: inputs))
    (h : issueKeyAttestation env now prepared db input = .ok (issued, db')) :
    Issued env first db prepared.revocationMethod [input] [issued] db' ∧ AwaitsEntries db' inputs := by
  obtain ⟨status, hst, hkeys, hflt⟩ := issueKeyAttestation_eq_ok h
  have hsame : ∀ {db : Database} {k : Nat} {row' : AttestedKeyRow},
      db.attestedKeys.get? k = some row' → db.attestedKeys.get? k = none →
      k ∈ (newKeys [input]).map WalletUnitAttestedKey.id :=
    fun hrow' hnone => absurd (hrow'.symm.trans hnone) nofun
  rcases keyStatus_eq_ok hst with ⟨hmth, -, rfl⟩ | ⟨_, key, s, -, hinp, rfl, hadd⟩ |
    ⟨-, hinp, rfl, rfl⟩ | ⟨info, s, -, hinp, rfl, hs, rfl⟩
  · refine ⟨⟨.refl _, hdb, hsame, .inr, .cons ⟨hkeys, fun hsome => ?_⟩ .nil⟩, hawaits.tail⟩
    rw [hmth] at hsome
    cases hsome
  · obtain ⟨_, _, info, hcr, hs⟩ := addIssuedAttestation_eq_ok hadd
    have hadded : Nonempty (EntryAdded now db key.id info db') := by
      rcases createKeyEntry_eq_ok hcr with ⟨-, hcr⟩ | ⟨list, -, hcr⟩
      · exact nonempty_entryAdded_of_createEntry (Nat.le_refl _) hcr
      · exact nonempty_entryAdded_of_createEntry (Nat.le_succ _) hcr
    obtain ⟨added⟩ := hadded
    have hnew : newKeys (input :: inputs) = key :: newKeys inputs := by
      simp [newKeys, hinp, AttestedKeyInput.newKey]
    obtain ⟨row, hrow, hiskey, hlink⟩ := hawaits.stored key (hnew ▸ mem_cons_self)
    obtain rfl := mem_unique added.row_eq hrow
    have hlnk := added.linked
    rw [hiskey.1, hiskey.2] at hlnk
    refine ⟨⟨added.grows hdb hlink, added.consistent hdb, fun {k row'} hrow' hnone => ?_,
      fun hent => ?_, .cons ⟨hkeys, fun _ => ?_⟩ .nil⟩, hawaits.tail.nodup, fun key' hkey' => ?_⟩
    · by_cases heq : k = key.id
      · subst heq
        exact absurd (added.row_eq.symm.trans hnone) nofun
      · rw [added.get?_of_ne heq] at hrow'
        exact absurd (hrow'.symm.trans hnone) nofun
    · exact (added.entry_cases hent).imp (fun h => h.2.2) id
    · rw [hinp]
      exact ⟨added.entryId, info, hlnk, s, hs, hflt⟩
    · -- the new keys of a request have different ids
      have hnd := hawaits.nodup
      rw [hnew, map_cons, nodup_cons] at hnd
      have hne : key'.id ≠ key.id := fun heq => hnd.1 (heq ▸ mem_map_of_mem hkey')
      rw [added.get?_of_ne hne]
      exact hawaits.tail.stored key' hkey'
  · refine ⟨⟨.refl _, hdb, hsame, .inr, .cons ⟨hkeys, fun _ => ?_⟩ .nil⟩, hawaits.tail⟩
    rw [hinp]
    exact hflt
  · refine ⟨⟨.refl _, hdb, hsame, .inr, .cons ⟨hkeys, fun _ => ?_⟩ .nil⟩, hawaits.tail⟩
    rw [hinp]
    exact ⟨s, hs, hflt⟩

lemma issued_of_issueKeyAttestations {prepared : PreparedIssue}
    {issued : List IssuedAttestation} (hdb : Consistent first db) (hawaits : AwaitsEntries db inputs)
    (h : issueKeyAttestations env now prepared db inputs = .ok (issued, db')) :
    Issued env first db prepared.revocationMethod inputs issued db' := by
  induction inputs generalizing db issued with
  | nil =>
    cases h
    exact ⟨.refl _, hdb, fun hrow' hnone => absurd (hrow'.symm.trans hnone) nofun, .inr, .nil⟩
  | cons input inputs ih =>
    simp only [issueKeyAttestations, ok_iffs, Prod.exists, Prod.mk.injEq] at h
    obtain ⟨attestation, db₁, hfst, rest, _, hrest, rfl, rfl⟩ := h
    obtain ⟨hone, hawaits₁⟩ := issued_of_issueKeyAttestation hdb hawaits hfst
    have htail := ih hone.consistent hawaits₁ hrest
    obtain ⟨⟨hkeys, hatte⟩, -⟩ := forall₂_cons.1 hone.attests
    have hsub := newKeys_sublist (sublist_cons_self input inputs)
    have hsub' : (newKeys [input]).Sublist (newKeys (input :: inputs)) :=
      newKeys_sublist (singleton_sublist.2 mem_cons_self)
    refine ⟨hone.grows.trans htail.grows, htail.consistent, fun {k row'} hrow' hnone => ?_,
      fun hent => ?_, .cons ⟨hkeys, fun hmth => (hatte hmth).grows htail.grows⟩ htail.attests⟩
    · cases hrow₁ : db₁.attestedKeys.get? k with
      | none => exact (hsub.map _).subset (htail.stored hrow' hrow₁)
      | some row₁ => exact (hsub'.map _).subset (hone.stored hrow₁ hnone)
    · exact (htail.entries hent).elim .inl hone.entries

/-! ### Entries are marked -/

def markIf (p : Bool) (status : EntryStatus) (entry : RevocationListEntry) : RevocationListEntry :=
  if p then { entry with status := status } else entry

lemma markIf_markIf (p q : Bool) :
    markIf p status (markIf q status entry) = markIf (q || p) status entry := by
  cases p <;> cases q <;> rfl

@[simp] lemma at_markIf {p : Bool} : (markIf p status entry).At info ↔ entry.At info := by
  cases p <;> exact Iff.rfl

lemma get?_updateEntry (listId index : Nat) :
    (db.updateEntry listId index status).entries.get? e = (db.entries.get? e).map fun entry =>
      markIf (decide (entry.At ⟨listId, index⟩)) status entry := by
  rw [updateEntry, get?_retain]
  cases db.entries.get? e with
  | none => rfl
  | some entry =>
    by_cases hat : entry.At ⟨listId, index⟩
    · simp only [Option.bind_some, Option.map_some, markIf, hat, decide_true, if_true]
      exact congrArg some (if_pos hat)
    · simp only [Option.bind_some, Option.map_some, markIf, hat, decide_false]
      exact congrArg some (if_neg hat)

lemma get?_foldl_updateEntry (listId : Nat) (indexes : List Nat) :
    (indexes.foldl (fun db index => db.updateEntry listId index status) db).entries.get? e =
      (db.entries.get? e).map fun entry =>
        markIf (indexes.any fun index => decide (entry.At ⟨listId, index⟩)) status entry := by
  induction indexes generalizing db with
  | nil => exact (Option.map_id' ..).symm
  | cons index indexes ih =>
    rw [foldl_cons, ih, get?_updateEntry, Option.map_map]
    congr 1
    funext entry
    simp [markIf_markIf]

variable {infos : List RevocationInfo}

/-- One list: the entries at the given places of this list are marked. -/
lemma get?_updateListEntries {listId : Nat}
    (h : updateListEntries lists status infos db listId = .ok db') :
    db'.entries.get? e = (db.entries.get? e).map fun entry => markIf (infos.any fun info =>
      decide (info.revocationListId = listId ∧ entry.At info)) status entry := by
  obtain ⟨_, rfl⟩ := updateListEntries_eq_ok h
  rw [get?_foldl_updateEntry]
  congr 1
  funext entry
  congr 1
  rw [any_map, any_filter]
  congr 1
  funext info
  by_cases hlist : info.revocationListId = listId
  · subst hlist
    simp
  · simp [hlist]

/-- All lists: exactly the entries at the given places are marked. -/
lemma get?_updateAttestationEntries {order : IterationOrder Nat}
    (h : updateAttestationEntries lists order db infos status = .ok db') :
    db'.entries.get? e = (db.entries.get? e).map fun entry =>
      markIf (infos.any fun info => decide (entry.At info)) status entry := by
  have hloop : ∀ (l : List Nat) (db : Database),
      l.foldlM (updateListEntries lists status infos) db = .ok db' →
      db'.entries.get? e = (db.entries.get? e).map fun entry => markIf (infos.any fun info =>
        decide (info.revocationListId ∈ l ∧ entry.At info)) status entry := by
    intro l
    induction l with
    | nil =>
      intro db hdb
      cases hdb
      simp [markIf]
    | cons listId l ih =>
      intro db hdb
      rw [foldlM_cons, bind_eq_ok] at hdb
      obtain ⟨db₁, hfst, hrest⟩ := hdb
      rw [ih db₁ hrest, get?_updateListEntries hfst, Option.map_map]
      congr 1
      funext entry
      simp only [Function.comp_apply, at_markIf, markIf_markIf]
      congr 1
      grind
  rw [hloop _ _ h]
  congr 1
  funext entry
  congr 1
  rw [Bool.eq_iff_iff]
  simp only [any_eq_true, decide_eq_true_eq, IterationOrder.mem_first, mem_dedup, mem_map]
  tauto

/-- The entries that a revocation marks: those of the keys it has read, if there is a method. -/
def PreparedRevocation.Marks (prepared : PreparedRevocation) (entry : RevocationListEntry) : Prop :=
  prepared.revocationMethod.isSome ∧
    ∃ info ∈ prepared.keys.filterMap WalletUnitAttestedKey.revocation, entry.At info

instance (prepared : PreparedRevocation) (entry : RevocationListEntry) :
    Decidable (prepared.Marks entry) :=
  inferInstanceAs (Decidable (_ ∧ ∃ info ∈ _, _))

lemma PreparedRevocation.marks_iff_of_entries (h : prepared.entries = some (method, infos)) : prepared.Marks entry ↔ ∃ info ∈ infos, entry.At info := by
  unfold PreparedRevocation.entries at h
  split at h
  · cases h
  · next method' hmth =>
    split at h
    · cases h
    · cases h
      exact and_iff_right (by rw [hmth]; rfl)

lemma PreparedRevocation.not_marks_of_entries (h : prepared.entries = none) : ¬prepared.Marks entry := by
  rintro ⟨hmth, info, hinfo, -⟩
  unfold PreparedRevocation.entries at h
  split at h
  · next hnone =>
    rw [hnone] at hmth
    cases hmth
  · split at h
    · next hnil =>
      rw [hnil] at hinfo
      cases hinfo
    · cases h

section

variable (h : markEntries input db prepared = .ok db')

include h

lemma get?_markEntries (e : Nat) :
    db'.entries.get? e = (db.entries.get? e).map fun entry =>
      markIf (decide (prepared.Marks entry)) .revoked entry := by
  rcases markEntries_eq_ok h with ⟨hnone, rfl⟩ | ⟨method, infos, hsome, hupd⟩
  · simp [PreparedRevocation.not_marks_of_entries hnone, markIf]
  · rw [get?_updateAttestationEntries hupd]
    congr 1
    funext entry
    congr 1
    rw [Bool.eq_iff_iff]
    simp [PreparedRevocation.marks_iff_of_entries hsome]

lemma entry_of_markEntries {entry' : RevocationListEntry}
    (hent' : db'.entries.get? e = some entry') : ∃ entry, db.entries.get? e = some entry ∧
      entry'.revocationListId = entry.revocationListId ∧ entry'.index = entry.index ∧
      ((prepared.Marks entry ∧ entry'.status = .revoked) ∨ (¬prepared.Marks entry ∧ entry' = entry)) := by
  rw [get?_markEntries h, Option.map_eq_some_iff] at hent'
  obtain ⟨entry, hent, rfl⟩ := hent'
  refine ⟨entry, hent, ?_⟩
  by_cases hmarks : prepared.Marks entry
  · simp [markIf, hmarks]
  · simp [markIf, hmarks]

lemma exists_entry_of_markEntries
    (hent : db.entries.get? e = some entry) : ∃ entry', db'.entries.get? e = some entry' ∧
      entry'.revocationListId = entry.revocationListId ∧ entry'.index = entry.index ∧
      ((prepared.Marks entry ∧ entry'.status = .revoked) ∨ (¬prepared.Marks entry ∧ entry' = entry)) := by
  have hget := get?_markEntries h e
  rw [hent] at hget
  obtain ⟨old, hold, hrest⟩ := entry_of_markEntries h hget
  obtain rfl := mem_unique hent hold
  exact ⟨_, hget, hrest⟩

lemma grows_markEntries : Grows db db' where
  nextId_le := (sameUnits_markEntries h).1.nextId_le
  key {_ row} hrow := ⟨row, (sameUnits_markEntries h).2.1 ▸ hrow, ⟨rfl, rfl⟩, fun _ => id⟩
  entry hent := by
    obtain ⟨entry', hent', hlist, hidx, hmark⟩ := exists_entry_of_markEntries h hent
    refine ⟨entry', hent', hlist, hidx, fun hrvd => ?_⟩
    rcases hmark with ⟨-, hst⟩ | ⟨-, rfl⟩
    · exact hst
    · exact hrvd

end

lemma Consistent.markEntries (hdb : Consistent first db)
    (h : markEntries input db prepared = .ok db') : Consistent first db' := by
  obtain ⟨-, hkeys, hid⟩ := sameUnits_markEntries h
  refine hdb.of_grows (grows_markEntries h) (fun {k row} hrow => ?_) fun hent' => ?_
  · rw [hkeys] at hrow
    exact ⟨hid ▸ hdb.key_lt hrow, fun hlink => ⟨row, hrow, hlink⟩⟩
  · obtain ⟨entry, hent, hlist, hidx, -⟩ := entry_of_markEntries h hent'
    exact ⟨entry, hent, fun hat => ⟨hlist.symm.trans hat.1, hidx.symm.trans hat.2⟩⟩

end OneCore.WalletProvider
