/-
# The keys that a request reads

A request for attestations and a revocation load the keys of the unit, with the places of their
entries.  A request for attestations goes on with the list: the keys of its proofs are looked up in
it, and those that are not there are appended with new ids, still without an entry.  A key that comes
twice is therefore found the second time, without an entry.
-/
import OneCore.WalletProvider.KeyEntries

namespace OneCore.WalletProvider

open List Option WalletUnitAttestedKey

variable {db db' : Database} {now : Timestamp} {id : Nat}

/-! ### Loading -/

variable {key : WalletUnitAttestedKey} {k : Nat} {row : AttestedKeyRow} {expirationDate : Timestamp}
  {jwk : PublicJwk} {input : AttestedKeyInput} {earlier : List PublicJwk}

/-- A key as it is loaded: its place is the one of its entry. -/
lemma convertModel_eq_ok (h : db.convertModel (k, row) = .ok key) :
    key.id = k ∧ key.walletUnitId = row.walletUnitId ∧ key.publicKeyJwk = row.publicKeyJwk ∧
      ((row.revocationListEntryId = none ∧ key.revocation = none) ∨
        ∃ e entry info, row.revocationListEntryId = some e ∧ db.entries.get? e = some entry ∧
          entry.At info ∧ key.revocation = some info) := by
  simp only [Database.convertModel, ok_iffs] at h
  obtain ⟨revocation, hrev, rfl⟩ := h
  refine ⟨rfl, rfl, rfl, ?_⟩
  unfold Database.getRevocation at hrev
  split at hrev
  · next hnone =>
    cases hrev
    exact .inl ⟨hnone, rfl⟩
  · next e hsome =>
    simp only [ok_iffs, exists_unit_iff] at hrev
    obtain ⟨entry, hent, index, hidx, -, rfl⟩ := hrev
    exact .inr ⟨e, entry, _, hsome, hent, ⟨rfl, hidx⟩, rfl⟩

/-- The first row of a key of the unit with the given JWK, with its id. -/
def Database.firstKey (db : Database) (unitId : Nat) (jwk : PublicJwk) :
    Option (Nat × AttestedKeyRow) :=
  db.attestedKeys.entries.find? fun key =>
    decide (key.2.walletUnitId = unitId ∧ key.2.publicKeyJwk = jwk)

/-- What stays of a key when it gets a new expiration date. -/
def WalletUnitAttestedKey.identity (key : WalletUnitAttestedKey) :
    Nat × Nat × PublicJwk × Option RevocationInfo :=
  (key.id, key.walletUnitId, key.publicKeyJwk, key.revocation)

/-- The first key on the list with the given JWK: its id and its place. -/
def lookupKey (keys : List WalletUnitAttestedKey) (jwk : PublicJwk) :
    Option (Nat × Option RevocationInfo) :=
  (keys.find? fun key => decide (key.publicKeyJwk = jwk)).map fun key => (key.id, key.revocation)

/-- The place of the entry that the row of a key points to, as it is loaded. -/
inductive Places (db : Database) (k unitId : Nat) (jwk : PublicJwk) (row : AttestedKeyRow) :
    Option RevocationInfo → Prop
  | none (h : row.revocationListEntryId = none) : Places db k unitId jwk row none
  | some {entryId : Nat} {info : RevocationInfo} (h : row.revocationListEntryId = some entryId)
      (linked : Linked db k unitId jwk entryId info) : Places db k unitId jwk row (some info)

/-- What is known of the keys of a unit that were loaded. -/
structure LoadedKeys (db : Database) (id : Nat) (keys : List WalletUnitAttestedKey) : Prop where
  nodup : (keys.map WalletUnitAttestedKey.id).Nodup
  stored : ∀ key ∈ keys, key.walletUnitId = id ∧ ∃ row, db.attestedKeys.get? key.id = some row ∧
    row.IsKey id key.publicKeyJwk ∧ Places db key.id id key.publicKeyJwk row key.revocation
  /-- No key with an entry is missing. -/
  complete : ∀ {k jwk entryId info}, Linked db k id jwk entryId info →
    ∃ key ∈ keys, key.revocation = some info
  /-- The first key on the list is the one of the first row. -/
  lookup_none : ∀ {jwk}, lookupKey keys jwk = none → db.firstKey id jwk = none
  lookup_some : ∀ {jwk k revocation}, lookupKey keys jwk = some (k, revocation) →
    ∃ row, db.firstKey id jwk = some (k, row) ∧ Places db k id jwk row revocation

variable {keys : List WalletUnitAttestedKey} {rows : List (Nat × AttestedKeyRow)}

section

variable (h : Forall₂ (fun row key => db.convertModel row = .ok key) rows keys)

include h

/-- The first key on the list is the one of the first row. -/
lemma find?_of_forall₂ (jwk : PublicJwk) :
    ((keys.find? fun key => decide (key.publicKeyJwk = jwk)) = none ∧
      (rows.find? fun row => decide (row.2.publicKeyJwk = jwk)) = none) ∨
    ∃ row key, (keys.find? fun key => decide (key.publicKeyJwk = jwk)) = some key ∧
      (rows.find? fun row => decide (row.2.publicKeyJwk = jwk)) = some row ∧
      db.convertModel row = .ok key := by
  induction h with
  | nil => exact .inl ⟨rfl, rfl⟩
  | @cons row key rows keys hrow _ ih =>
    obtain ⟨-, -, hjwk, -⟩ := convertModel_eq_ok hrow
    by_cases heq : row.2.publicKeyJwk = jwk
    · have heq' : key.publicKeyJwk = jwk := hjwk.trans heq
      exact .inr ⟨row, key, by simp [heq'], by simp [heq], hrow⟩
    · have heq' : key.publicKeyJwk ≠ jwk := fun h => heq (hjwk.symm.trans h)
      simpa [heq, heq'] using ih

lemma map_id_of_forall₂ : keys.map WalletUnitAttestedKey.id = rows.map Prod.fst := by
  induction h with
  | nil => rfl
  | cons hcnv _ ih => rw [map_cons, map_cons, ih, (convertModel_eq_ok hcnv).1]

end

lemma places_of_convertModel (hrow : db.attestedKeys.get? k = some row)
    (hunit : row.walletUnitId = id) (h : db.convertModel (k, row) = .ok key) :
    Places db k id key.publicKeyJwk row key.revocation := by
  obtain ⟨rfl, -, hjwk, ⟨hlink, hrev⟩ | ⟨e, entry, info, hlink, hent, hat, hrev⟩⟩ :=
    convertModel_eq_ok h
  · rw [hrev]
    exact .none hlink
  · rw [hrev]
    exact .some hlink ⟨⟨row, hrow, ⟨hunit, hjwk.symm⟩, hlink⟩, entry, hent, hat⟩

/-- The rows of the keys of a unit, with their ids. -/
def Database.keyRows (db : Database) (id : Nat) : List (Nat × AttestedKeyRow) :=
  db.attestedKeys.entries.filter fun key => decide (key.2.walletUnitId = id)

lemma mem_keyRows_iff :
    (k, row) ∈ db.keyRows id ↔ db.attestedKeys.get? k = some row ∧ row.walletUnitId = id := by
  rw [Database.keyRows, mem_filter, decide_eq_true_eq, IndexMap.get?_eq_some_iff]

lemma loadedKeys_of_getByWalletUnitId
    (h : db.getByWalletUnitId id = .ok keys) : LoadedKeys db id keys := by
  have hall : Forall₂ (fun row key => db.convertModel row = .ok key) (db.keyRows id) keys := mapM_eq_ok.1 h
  have hfst : ∀ jwk, db.firstKey id jwk =
      (db.keyRows id).find? fun row => decide (row.2.publicKeyJwk = jwk) := by
    simp [Database.firstKey, Database.keyRows]
  refine ⟨?_, fun key hkey => ?_, fun {k jwk e info} hlnk => ?_, fun {jwk} hnone => ?_,
    fun {jwk k revocation} hsome => ?_⟩
  · rw [map_id_of_forall₂ hall]
    exact db.attestedKeys.nodup.sublist (filter_sublist.map _)
  · obtain ⟨⟨k, row⟩, hmem, hcnv⟩ := hall.exists_of_mem_right hkey
    obtain ⟨hget, hunit⟩ := mem_keyRows_iff.1 hmem
    have hpls := places_of_convertModel hget hunit hcnv
    obtain ⟨rfl, hid, hjwk, -⟩ := convertModel_eq_ok hcnv
    exact ⟨hid.trans hunit, row, hget, ⟨hunit, hjwk.symm⟩, hpls⟩
  · obtain ⟨⟨row, hget, ⟨hunit, -⟩, hlink⟩, entry, hent, hat⟩ := hlnk
    obtain ⟨key, hkey, hcnv⟩ := hall.exists_of_mem_left (mem_keyRows_iff.2 ⟨hget, hunit⟩)
    obtain ⟨-, -, -, ⟨hnone, -⟩ | ⟨e', entry', info', hlink', hent', hat', hsome⟩⟩ :=
      convertModel_eq_ok hcnv
    · exact absurd (hlink.symm.trans hnone) nofun
    · obtain rfl := mem_unique hlink hlink'
      obtain rfl := mem_unique hent hent'
      exact ⟨key, hkey, hat'.unique hat ▸ hsome⟩
  · rw [hfst]
    rw [lookupKey, map_eq_none_iff] at hnone
    rcases find?_of_forall₂ hall jwk with ⟨-, hrows⟩ | ⟨row, key, hkeys, -, -⟩
    · exact hrows
    · exact absurd (hkeys.symm.trans hnone) nofun
  · rw [lookupKey, map_eq_some_iff] at hsome
    obtain ⟨key, hfind, heq⟩ := hsome
    rcases find?_of_forall₂ hall jwk with ⟨hkeys, -⟩ | ⟨⟨k', row⟩, key', hkeys, hrows, hcnv⟩
    · exact absurd (hfind.symm.trans hkeys) nofun
    · obtain rfl := mem_unique hfind hkeys
      obtain ⟨hget, hunit⟩ := mem_keyRows_iff.1 (mem_of_find?_eq_some hrows)
      have hpls := places_of_convertModel hget hunit hcnv
      have hjwk : key.publicKeyJwk = jwk := by simpa using find?_some hfind
      obtain ⟨hid, -⟩ := convertModel_eq_ok hcnv
      obtain ⟨rfl, rfl⟩ := Prod.mk.inj heq
      subst hid
      exact ⟨row, (hfst jwk).trans hrows, hjwk ▸ hpls⟩

/-! ### Looking up the keys of a request -/

lemma map_identity_touchKey :
    (touchKey jwk expirationDate keys).map identity =
      keys.map identity := by
  induction keys with
  | nil => rfl
  | cons key keys ih =>
    rw [touchKey]
    split
    · rfl
    · rw [map_cons, map_cons, ih]

lemma lookupKey_eq_find?_identity :
    lookupKey keys jwk = ((keys.map identity).find? fun key =>
      decide (key.2.2.1 = jwk)).map fun key => (key.1, key.2.2.2) := by
  rw [find?_map, Option.map_map]
  rfl

lemma lookupKey_append_singleton
    (hnew : lookupKey keys key.publicKeyJwk = none) (jwk : PublicJwk) :
    lookupKey (keys ++ [key]) jwk =
      if jwk = key.publicKeyJwk then some (key.id, key.revocation) else lookupKey keys jwk := by
  by_cases heq : jwk = key.publicKeyJwk
  · subst heq
    rw [lookupKey, map_eq_none_iff] at hnew
    rw [lookupKey, find?_append, hnew, none_or]
    simp
  · have hne : key.publicKeyJwk ≠ jwk := fun h => heq h.symm
    rw [if_neg heq, lookupKey, lookupKey]
    simp [hne]

variable {keys' : List WalletUnitAttestedKey}

/-- One key of a request: it is on the list, or it is put there. -/
lemma attestKey_eq (h : attestKey id expirationDate keys db jwk = (input, keys', db')) :
    (∃ k revocation, lookupKey keys jwk = some (k, revocation) ∧ input = .reused revocation ∧
      keys' = touchKey jwk expirationDate keys ∧ db' = db) ∨
    (lookupKey keys jwk = none ∧ input = .newlyCreated ⟨db.nextId, id, expirationDate, jwk, none⟩ ∧
      keys' = keys ++ [⟨db.nextId, id, expirationDate, jwk, none⟩] ∧
      db' = { db with nextId := db.nextId + 1 }) := by
  unfold attestKey at h
  split at h
  · next key hfind =>
    cases h
    refine .inl ⟨key.id, key.revocation, ?_, rfl, rfl, rfl⟩
    rw [lookupKey, hfind, map_some]
  · next hfind =>
    cases h
    refine .inr ⟨?_, rfl, rfl, rfl⟩
    rw [lookupKey, hfind, map_none]

/-- What is known after the keys of a request were looked up. -/
structure KeysAttested (id : Nat) (db : Database) (keys : List WalletUnitAttestedKey)
    (inputs : List KeyAttestationInput) (keys' : List WalletUnitAttestedKey) (db' : Database) : Prop where
  /-- The new keys are appended. -/
  keys_eq : keys'.map identity =
    keys.map identity ++ (newKeys inputs).map identity
  /-- Their ids are the next ones. -/
  ids_eq : (newKeys inputs).map WalletUnitAttestedKey.id =
    range' db.nextId (newKeys inputs).length
  db_eq : db' = { db with nextId := db.nextId + (newKeys inputs).length }
  new : ∀ input ∈ inputs, ∀ key, input.key = .newlyCreated key →
    key.walletUnitId = id ∧ key.publicKeyJwk = input.holderJwk

variable {Key Der : Type} {env : Environment Key Der} {params : WalletProviderParams}
  {requests : List IssueWuaRequest} {inputs : List KeyAttestationInput}

lemma keysAttested_of_attestKeys
    (h : attestKeys env now params id requests keys db = .ok (inputs, keys', db')) :
    KeysAttested id db keys inputs keys' db' := by
  induction requests generalizing keys db inputs with
  | nil =>
    cases h
    exact ⟨by simp [newKeys], rfl, rfl, forall_mem_nil _⟩
  | cons request requests ih =>
    obtain ⟨jwk, -, input, keys₁, db₁, rest, hkey, hrest, rfl⟩ := attestKeys_cons_eq_ok_iff.1 h
    have htail := ih hrest
    rcases attestKey_eq hkey with ⟨k, revocation, -, rfl, rfl, rfl⟩ | ⟨-, rfl, rfl, rfl⟩
    · refine ⟨htail.keys_eq.trans ?_, htail.ids_eq, htail.db_eq, forall_mem_cons.2 ⟨?_, htail.new⟩⟩
      · rw [map_identity_touchKey]
        rfl
      · rintro _ ⟨⟩
    · refine ⟨htail.keys_eq.trans ?_, ?_, htail.db_eq.trans ?_, forall_mem_cons.2 ⟨?_, htail.new⟩⟩
      · rw [map_append, append_assoc]
        rfl
      · simp only [newKeys, filterMap_cons, AttestedKeyInput.newKey, map_cons,
          length_cons, range'_succ]
        exact congrArg _ htail.ids_eq
      · simp only [newKeys, filterMap_cons, AttestedKeyInput.newKey, length_cons]
        congr 1
        omega
      · rintro _ ⟨⟩
        exact ⟨rfl, rfl⟩

/-- What becomes of the key at a position: it was loaded and has the place it was loaded with, it comes
earlier in the request and has no place yet, or it is new. -/
inductive KeyKind (keys : List WalletUnitAttestedKey) (earlier : List PublicJwk) (jwk : PublicJwk) :
    AttestedKeyInput → Prop
  | known {k : Nat} {revocation : Option RevocationInfo}
      (h : lookupKey keys jwk = some (k, revocation)) : KeyKind keys earlier jwk (.reused revocation)
  | repeated (h : lookupKey keys jwk = none) (hearlier : jwk ∈ earlier) :
      KeyKind keys earlier jwk (.reused none)
  | new {key : WalletUnitAttestedKey} (h : lookupKey keys jwk = none) (hearlier : jwk ∉ earlier) :
      KeyKind keys earlier jwk (.newlyCreated key)

lemma KeyKind.of_touchKey {jwk' : PublicJwk} {found : Nat × Option RevocationInfo}
    (hfnd : lookupKey keys jwk = some found)
    (h : KeyKind (touchKey jwk expirationDate keys) earlier jwk' input) :
    KeyKind keys (jwk :: earlier) jwk' input := by
  have hsame : lookupKey (touchKey jwk expirationDate keys) jwk' = lookupKey keys jwk' := by
    rw [lookupKey_eq_find?_identity, lookupKey_eq_find?_identity, map_identity_touchKey]
  cases h with
  | known h => exact .known (hsame ▸ h)
  | repeated h hearlier => exact .repeated (hsame ▸ h) (mem_cons_of_mem _ hearlier)
  | new h hearlier =>
    rw [hsame] at h
    refine .new h fun hmem => ?_
    rcases mem_cons.1 hmem with rfl | hmem
    · exact absurd (hfnd.symm.trans h) nofun
    · exact hearlier hmem

/-- A new key is found from now on, without a place. -/
lemma KeyKind.of_append (hnew : lookupKey keys key.publicKeyJwk = none)
    (hrev : key.revocation = none) (h : KeyKind (keys ++ [key]) earlier jwk input) :
    KeyKind keys (key.publicKeyJwk :: earlier) jwk input := by
  have hlkp := lookupKey_append_singleton hnew jwk
  by_cases heq : jwk = key.publicKeyJwk
  · subst heq
    rw [if_pos rfl, hrev] at hlkp
    cases h with
    | known h =>
      obtain ⟨-, rfl⟩ := Prod.mk.inj (mem_unique hlkp h)
      exact .repeated hnew mem_cons_self
    | repeated h | new h => exact absurd (hlkp.symm.trans h) nofun
  · rw [if_neg heq] at hlkp
    cases h with
    | known h => exact .known (hlkp ▸ h)
    | repeated h hearlier => exact .repeated (hlkp ▸ h) (mem_cons_of_mem _ hearlier)
    | new h hearlier =>
      refine .new (hlkp ▸ h) fun hmem => ?_
      exact hearlier ((mem_cons.1 hmem).resolve_left heq)

lemma keyKind_of_attestKeys
    (h : attestKeys env now params id requests keys db = .ok (inputs, keys', db')) {j : Nat}
    {input : KeyAttestationInput} (hinp : inputs[j]? = some input) :
    KeyKind keys ((inputs.take j).map KeyAttestationInput.holderJwk) input.holderJwk input.key := by
  induction requests generalizing keys db inputs j with
  | nil =>
    cases h
    cases hinp
  | cons request requests ih =>
    obtain ⟨jwk, -, first, keys₁, db₁, rest, hkey, hrest, rfl⟩ := attestKeys_cons_eq_ok_iff.1 h
    cases j with
    | zero =>
      cases hinp
      rcases attestKey_eq hkey with ⟨k, revocation, hlkp, rfl, -, -⟩ | ⟨hlkp, rfl, -, -⟩
      · exact .known hlkp
      · exact .new hlkp not_mem_nil
    | succ j =>
      have htail := ih hrest (getElem?_cons_succ ▸ hinp)
      rcases attestKey_eq hkey with ⟨k, revocation, hlkp, -, rfl, -⟩ | ⟨hlkp, -, rfl, -⟩
      · exact .of_touchKey hlkp htail
      · exact .of_append hlkp rfl htail

def namedKey (env : Environment Key Der) (request : IssueWuaRequest) : Option PublicJwk :=
  (env.decomposeToken request.proof).toOption.bind fun token => token.header.jwk

/-- The attestations are for the keys that the proofs name. -/
lemma map_namedKey_of_attestKeys
    (h : attestKeys env now params id requests keys db = .ok (inputs, keys', db')) :
    requests.map (namedKey env) = inputs.map fun input => some input.holderJwk := by
  induction requests generalizing keys db inputs with
  | nil =>
    cases h
    rfl
  | cons request requests ih =>
    obtain ⟨jwk, hjwk, input, keys₁, db₁, rest, -, hrest, rfl⟩ := attestKeys_cons_eq_ok_iff.1 h
    simp only [verifyPop, decompose, ok_iffs] at hjwk
    obtain ⟨token, htok, named, hhd, _, -, _, -, _, -, rfl⟩ := hjwk
    have hnamed : namedKey env request = some named := by
      rw [namedKey, htok]
      exact hhd
    rw [map_cons, map_cons, hnamed, ih hrest]

end OneCore.WalletProvider
