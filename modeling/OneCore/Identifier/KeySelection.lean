/-
# Selecting a key of an identifier

An identifier stands for a key, for a DID with its keys, or for certificates with one key each.  Who
signs something says which key may be used: by the ids of a key, a DID or a certificate, and by a filter
on the role, the algorithm and the key usage.

A certificate that is found by a search is asked for its key usage; one that is named by its id is not.
-/
import OneCore.Proto.KeyVerification

namespace OneCore.Identifiers

open List Option

/-! ### Keys, DIDs and certificates -/

structure Key where
  id : String
  keyType : String
  keyReference : Option (List UInt8)
  organisation : Option String
deriving DecidableEq

def Key.keyAlgorithmType (key : Key) : Option KeyAlgorithmType :=
  if key.keyType = "EDDSA" then some .eddsa
  else if key.keyType = "ECDSA" then some .ecdsa
  else if key.keyType = "BBS_PLUS" then some .bbsPlus
  else if key.keyType = "ML_DSA" then some .mlDsa
  else none

def Key.isRemote (key : Key) : Bool := key.keyReference.isNone

structure RelatedKey where
  role : KeyRole
  key : Key

structure Did where
  id : String
  didMethod : String
  deactivated : Bool
  keys : Option (List RelatedKey)
  organisation : Option String

inductive CertificateState where
  | notYetActive
  | active
  | revoked
  | expired
deriving DecidableEq

structure Certificate where
  id : String
  chain : String
  state : CertificateState
  key : Option Key
deriving DecidableEq

inductive IdentifierType where
  | key
  | did
  | certificate
  | certificateAuthority
deriving DecidableEq

structure Identifier where
  id : String
  type : IdentifierType
  isRemote : Bool
  organisation : Option String
  did : Option Did
  key : Option Key
  certificates : Option (List Certificate)

/-! ### Key usage -/

inductive KeyUsagePurpose where
  | digitalSignature
  | contentCommitment
  | keyEncipherment
  | dataEncipherment
  | keyAgreement
  | keyCertSign
  | crlSign
  | encipherOnly
  | decipherOnly
deriving DecidableEq

structure KeyUsage where
  digitalSignature : Bool
  nonRepudiation : Bool
  keyEncipherment : Bool
  dataEncipherment : Bool
  keyAgreement : Bool
  keyCertSign : Bool
  crlSign : Bool
  encipherOnly : Bool
  decipherOnly : Bool

/-- The reading of certificates: the blocks of a PEM text, the certificate in a block, and its key
usage, if it has this extension. -/
structure X509Library (Pem X509 : Type) where
  iterFromBuffer : String → List (Except String Pem)
  parseX509 : Pem → Except String X509
  keyUsage : X509 → Except String (Option KeyUsage)

def keyUsageMatches (keyUsage : KeyUsage) : KeyUsagePurpose → Bool
  | .digitalSignature => keyUsage.digitalSignature
  | .contentCommitment => keyUsage.nonRepudiation
  | .keyEncipherment => keyUsage.keyEncipherment
  | .dataEncipherment => keyUsage.dataEncipherment
  | .keyAgreement => keyUsage.keyAgreement
  | .keyCertSign => keyUsage.keyCertSign
  | .crlSign => keyUsage.crlSign
  | .encipherOnly => keyUsage.encipherOnly
  | .decipherOnly => keyUsage.decipherOnly

/-! ### Selections -/

structure KeyFilter where
  didRole : Option KeyRole := none
  certificateKeyUsage : Option (List KeyUsagePurpose) := none
  algorithms : Option (List KeyAlgorithmType) := none
deriving DecidableEq

structure KeySelection where
  key : Option String := none
  did : Option String := none
  certificate : Option String := none
  keyFilter : Option KeyFilter := none

inductive SelectedKey where
  | key (key : Key)
  | certificate (certificate : Certificate) (key : Key)
  | did (did : Did) (key : RelatedKey)

def SelectedKey.getKey : SelectedKey → Key
  | .key k => k
  | .certificate _ k => k
  | .did _ k => k.key

def SelectedKey.getCertificate : SelectedKey → Option Certificate
  | .certificate c _ => some c
  | _ => none

def SelectedKey.getDid : SelectedKey → Option Did
  | .did d _ => some d
  | _ => none

inductive KeySelectionError where
  | selectionNotApplicableForType (identifierId idType : String) (identifierType : IdentifierType)
  | remoteIdentifier
  | keyNotFound (identifierId keyId : String)
  | didIdentifierMismatch (identifierId didId : String)
  | didDeactivated (didId : String)
  | noKeyMatchingFilter (identifierId : String) (keyFilter : KeyFilter)
  | keyNotMatchingFilter (keyId : String) (keyFilter : KeyFilter)
  | certificateNotFound (identifierId certificateId : String)
  | certificateInvalidState (certificateId : String) (state : CertificateState)
  | noActiveMatchingCertificate (identifierId : String) (keyFilter : KeyFilter)
  | keyCertificateMismatch (certificateId keyId : String)
  | keyDidMismatch (didId keyId : String)
  | mappingError (message : String)
deriving DecidableEq

namespace KeyFilter

def matchesKey (filter : KeyFilter) (key : Key) : Bool :=
  match filter.algorithms with
  | none => true
  | some algorithms =>
    match key.keyAlgorithmType with
    | none => false
    | some algorithm => algorithms.contains algorithm

def matchesRelatedKey (filter : KeyFilter) (key : RelatedKey) : Bool :=
  let roleMatch := match filter.didRole with
    | none => true
    | some role => decide (role = key.role)
  roleMatch && filter.matchesKey key.key

end KeyFilter

namespace Did

def findKey (did : Did) (keyId : String) (filter : KeyFilter) :
    Except KeySelectionError RelatedKey := do
  let keys ← okOr did.keys (.mappingError "keys is None")
  let sameIdKeys := keys.filter fun entry => decide (entry.key.id = keyId)
  ensure (sameIdKeys ≠ []) (.keyDidMismatch did.id keyId)
  okOr (sameIdKeys.find? filter.matchesRelatedKey) (.keyNotMatchingFilter keyId filter)

def findFirstMatchingKey (did : Did) (filter : KeyFilter) :
    Except KeySelectionError (Option RelatedKey) := do
  let keys ← okOr did.keys (.mappingError "keys is None")
  return keys.find? filter.matchesRelatedKey

end Did

section

variable {Pem X509 : Type} (lib : X509Library Pem X509)

namespace Certificate

def matchesKeyUsage (certificate : Certificate) (certificateKeyUsage : List KeyUsagePurpose) : Bool :=
  match lib.iterFromBuffer certificate.chain with
  | .ok pem :: _ =>
    match lib.parseX509 pem with
    | .ok cert =>
      match lib.keyUsage cert with
      | .ok (some keyUsage) => certificateKeyUsage.all (keyUsageMatches keyUsage)
      | _ => false
    | .error _ => false
  | _ => false

def hasMatchingKey (certificate : Certificate) (filter : KeyFilter) : Bool :=
  let usageMatches := match filter.certificateKeyUsage with
    | none => true
    | some certificateKeyUsage => certificate.matchesKeyUsage lib certificateKeyUsage
  usageMatches && match certificate.key with
    | none => false
    | some key => filter.matchesKey key

end Certificate

namespace Identifier

variable (identifier : Identifier) (selection : KeySelection)

def throwOnCertificateId : Except KeySelectionError Unit :=
  ensure (selection.certificate = none)
    (.selectionNotApplicableForType identifier.id "Certificate" identifier.type)

def throwOnDidId : Except KeySelectionError Unit :=
  ensure (selection.did = none) (.selectionNotApplicableForType identifier.id "Did" identifier.type)

def selectOwnKey (filter : KeyFilter) :
    Except KeySelectionError SelectedKey := do
  identifier.throwOnCertificateId selection
  identifier.throwOnDidId selection
  let key ← okOr identifier.key (.mappingError "Missing identifier key")
  ensure (filter.matchesKey key) (.noKeyMatchingFilter identifier.id filter)
  ensure (∀ keyId ∈ selection.key, keyId = key.id)
    (.keyNotFound identifier.id (selection.key.getD ""))
  return .key key

/-- The key that is named, or the first one that the filter lets through. -/
def findRelatedKey (did : Did) (selection : KeySelection) (filter : KeyFilter) :
    Except KeySelectionError RelatedKey :=
  match selection.key with
  | some keyId => did.findKey keyId filter
  | none => do
    let key? ← did.findFirstMatchingKey filter
    okOr key? (.noKeyMatchingFilter identifier.id filter)

def selectDidKey (filter : KeyFilter) :
    Except KeySelectionError SelectedKey := do
  identifier.throwOnCertificateId selection
  let did ← okOr identifier.did (.mappingError "Missing identifier did")
  ensure (did.deactivated = false) (.didDeactivated did.id)
  ensure (∀ didId ∈ selection.did, did.id = didId)
    (.didIdentifierMismatch identifier.id (selection.did.getD ""))
  let key ← identifier.findRelatedKey did selection filter
  return .did did key

/-- The certificate that is named, if it is active, or the first active one that the filter lets
through. -/
def selectCertificate (filter : KeyFilter) (certs : List Certificate) :
    Except KeySelectionError Certificate :=
  match selection.certificate with
  | some requestedId => do
    let requestedCert ← okOr (certs.find? fun cert => decide (cert.id = requestedId))
      (.certificateNotFound identifier.id requestedId)
    ensure (requestedCert.state = .active)
      (.certificateInvalidState requestedCert.id requestedCert.state)
    return requestedCert
  | none =>
    okOr
      (certs.find? fun c => decide (c.state = .active) && c.hasMatchingKey lib filter)
      (.noActiveMatchingCertificate identifier.id filter)

def selectCertificateKey (filter : KeyFilter) :
    Except KeySelectionError SelectedKey := do
  identifier.throwOnDidId selection
  let certs ← okOr identifier.certificates (.mappingError "Missing identifier certificates")
  let certificate ← identifier.selectCertificate lib selection filter certs
  let key ← okOr certificate.key (.mappingError "Missing certificate key")
  ensure (filter.matchesKey key) (.keyNotMatchingFilter key.id filter)
  ensure (∀ keyId ∈ selection.key, keyId = key.id)
    (.keyCertificateMismatch certificate.id (selection.key.getD ""))
  return .certificate certificate key

def selectKey : Except KeySelectionError SelectedKey := do
  ensure (identifier.isRemote = false) .remoteIdentifier
  let filter := selection.keyFilter.getD {}
  match identifier.type with
  | .key => identifier.selectOwnKey selection filter
  | .did => identifier.selectDidKey selection filter
  | .certificate | .certificateAuthority => identifier.selectCertificateKey lib selection filter

end Identifier

/-! ### Two signers -/

inductive SignerError where
  | selectingSigningKey (e : KeySelectionError)
  | invalidIssuerIdentifier (identifierId : String)
  | other (message : String)
deriving DecidableEq

def requiredCaCertKeyUsages (hasRevocationMethod : Bool) : List KeyUsagePurpose :=
  if hasRevocationMethod then [.keyCertSign, .crlSign] else [.keyCertSign]

def caSelection (certificate key : Option String) (hasRevocationMethod : Bool) : KeySelection where
  key := key
  certificate := certificate
  keyFilter := some { certificateKeyUsage := some (requiredCaCertKeyUsages hasRevocationMethod) }

/-- The certificate and the key that a certificate is issued with; `finish` is what is done with
them. -/
def prepareParamsAndCaIssuer {Issuer : Type} (identifier : Identifier) (certificate key : Option String)
    (hasRevocationMethod : Bool) (finish : Certificate → Key → Except SignerError Issuer) :
    Except SignerError (Certificate × Issuer) := do
  let selected ← (identifier.selectKey lib (caSelection certificate key hasRevocationMethod)).mapError
    .selectingSigningKey
  match selected with
  | .certificate c k => do
    let issuer ← finish c k
    return (c, issuer)
  | _ => .error (.invalidIssuerIdentifier identifier.id)

inductive RevocationError where
  | keyWithRoleNotFound (role : KeyRole)
  | other (message : String)

def statusListSelection (issuerCertificate : Option Certificate) : KeySelection where
  certificate := issuerCertificate.map Certificate.id
  keyFilter := some {
    didRole := some .assertionMethod
    certificateKeyUsage := some [.digitalSignature] }

/-- The key that a status list is signed with; `sign` is what is done with it. -/
def formatStatusListCredential (identifier : Identifier) (issuerCertificate : Option Certificate)
    (sign : SelectedKey → Except RevocationError String) :
    Except RevocationError (SelectedKey × String) := do
  let selected ← (identifier.selectKey lib (statusListSelection issuerCertificate)).mapError
    fun _ => .keyWithRoleNotFound .assertionMethod
  let statusList ← sign selected
  return (selected, statusList)

/-! ### What a selection should respect -/

/-- The certificate can be read, it has a key usage, and every given purpose is among it. -/
def Certificate.Carries (certificate : Certificate) (usages : List KeyUsagePurpose) : Prop :=
  ∃ pem rest cert keyUsage, lib.iterFromBuffer certificate.chain = .ok pem :: rest ∧
    lib.parseX509 pem = .ok cert ∧ lib.keyUsage cert = .ok (some keyUsage) ∧
    ∀ usage ∈ usages, keyUsageMatches keyUsage usage = true

def SelectedKey.BelongsTo (selected : SelectedKey) (identifier : Identifier) : Prop :=
  match selected with
  | .key k => identifier.type = .key ∧ identifier.key = some k
  | .did d k => identifier.type = .did ∧ identifier.did = some d ∧ ∃ keys, d.keys = some keys ∧ k ∈ keys
  | .certificate c k => (identifier.type = .certificate ∨ identifier.type = .certificateAuthority) ∧
      (∃ certs, identifier.certificates = some certs ∧ c ∈ certs) ∧ c.key = some k

/-- The selected key satisfies the whole selection. -/
structure Respects (identifier : Identifier) (selection : KeySelection) (selected : SelectedKey) :
    Prop where
  belongs : selected.BelongsTo identifier
  key : ∀ keyId, selection.key = some keyId → selected.getKey.id = keyId
  did : ∀ didId, selection.did = some didId → ∃ d, selected.getDid = some d ∧ d.id = didId
  certificate : ∀ certificateId, selection.certificate = some certificateId →
    ∃ c, selected.getCertificate = some c ∧ c.id = certificateId
  algorithm : ∀ filter algorithms, selection.keyFilter = some filter →
    filter.algorithms = some algorithms →
    ∃ algorithm ∈ algorithms, selected.getKey.keyAlgorithmType = some algorithm
  role : ∀ filter role d k, selection.keyFilter = some filter → filter.didRole = some role →
    selected = .did d k → k.role = role
  activeDid : ∀ d, selected.getDid = some d → d.deactivated = false
  activeCertificate : ∀ c, selected.getCertificate = some c → c.state = .active
  usage : ∀ filter usages c, selection.keyFilter = some filter →
    filter.certificateKeyUsage = some usages → selected.getCertificate = some c →
    c.Carries lib usages

/-- A certificate that is named, while a key usage is asked for, carries this key usage. -/
def NamedCertificateCarries (identifier : Identifier) (selection : KeySelection) : Prop :=
  ∀ filter usages certificateId certs c, selection.keyFilter = some filter →
    filter.certificateKeyUsage = some usages → selection.certificate = some certificateId →
    identifier.certificates = some certs →
    (certs.find? fun cert => decide (cert.id = certificateId)) = some c → c.Carries lib usages

end

section

variable {Pem X509 : Type} {lib : X509Library Pem X509} {identifier : Identifier}
  {selection : KeySelection} {filter : KeyFilter} {selected : SelectedKey}

/-! ### The filter -/

lemma KeyFilter.matchesKey_iff {key : Key} : filter.matchesKey key = true ↔
    ∀ algorithms, filter.algorithms = some algorithms →
      ∃ algorithm ∈ algorithms, key.keyAlgorithmType = some algorithm := by
  unfold KeyFilter.matchesKey
  cases filter.algorithms with
  | none => simp
  | some algorithms =>
    cases key.keyAlgorithmType with
    | none => simp
    | some algorithm => simp

variable {key : RelatedKey} {certificate c : Certificate} {did : Did}

lemma KeyFilter.matchesRelatedKey_iff : filter.matchesRelatedKey key = true ↔
    (∀ role, filter.didRole = some role → key.role = role) ∧ filter.matchesKey key.key = true := by
  unfold KeyFilter.matchesRelatedKey
  cases filter.didRole with
  | none => simp
  | some role =>
    rw [Bool.and_eq_true, decide_eq_true_eq]
    refine and_congr_left fun _ => ⟨fun h role' hrole => ?_, fun h => (h role rfl).symm⟩
    exact h.symm.trans (some.inj hrole)

variable {usages : List KeyUsagePurpose}

lemma Certificate.matchesKeyUsage_iff :
    certificate.matchesKeyUsage lib usages = true ↔ certificate.Carries lib usages := by
  unfold Certificate.matchesKeyUsage Certificate.Carries
  constructor
  · intro h
    split at h
    · next pem rest hpem =>
      split at h
      · next cert hcert =>
        split at h
        · next keyUsage hkeyU =>
          exact ⟨pem, rest, cert, keyUsage, hpem, hcert, hkeyU, all_eq_true.1 h⟩
        · cases h
      · cases h
    · cases h
  · rintro ⟨pem, rest, cert, keyUsage, hpem, hcert, hkeyU, hall⟩
    simp only [hpem, hcert, hkeyU]
    exact all_eq_true.2 hall

lemma Certificate.hasMatchingKey_iff :
    certificate.hasMatchingKey lib filter = true ↔
      (∀ usages, filter.certificateKeyUsage = some usages → certificate.Carries lib usages) ∧
      ∃ key, certificate.key = some key ∧ filter.matchesKey key = true := by
  have hkey : (match certificate.key with
      | none => false
      | some key => filter.matchesKey key) = true ↔
      ∃ key, certificate.key = some key ∧ filter.matchesKey key = true := by
    cases certificate.key with
    | none => simp
    | some key => simp
  unfold Certificate.hasMatchingKey
  rw [Bool.and_eq_true, hkey]
  cases filter.certificateKeyUsage with
  | none => simp
  | some usages => simp [Certificate.matchesKeyUsage_iff]

/-! ### What is found -/

lemma Did.findKey_eq_ok {keyId : String}
    (h : did.findKey keyId filter = .ok key) : ∃ keys, did.keys = some keys ∧ key ∈ keys ∧
      key.key.id = keyId ∧ filter.matchesRelatedKey key = true := by
  simp only [Did.findKey, ok_iffs, exists_unit_iff] at h
  obtain ⟨keys, hkeys, -, hfind⟩ := h
  obtain ⟨hmem, hid⟩ := mem_filter.1 (mem_of_find?_eq_some hfind)
  exact ⟨keys, hkeys, hmem, of_decide_eq_true hid, find?_some hfind⟩

lemma Identifier.selectOwnKey_eq_ok (h : identifier.selectOwnKey selection filter = .ok selected) :
    ∃ k, selected = .key k ∧ identifier.key = some k ∧ selection.did = none ∧
      selection.certificate = none ∧ filter.matchesKey k = true ∧
      ∀ keyId ∈ selection.key, keyId = k.id := by
  simp only [Identifier.selectOwnKey, Identifier.throwOnCertificateId, Identifier.throwOnDidId,
    ok_iffs, exists_unit_iff] at h
  tauto

lemma Identifier.findRelatedKey_eq_ok
    (h : identifier.findRelatedKey did selection filter = .ok key) :
    ∃ keys, did.keys = some keys ∧ key ∈ keys ∧ filter.matchesRelatedKey key = true ∧
      ∀ keyId, selection.key = some keyId → key.key.id = keyId := by
  unfold Identifier.findRelatedKey at h
  split at h
  · next keyId hkeyId =>
    obtain ⟨keys, hkeys, hmem, hid, hmatc⟩ := Did.findKey_eq_ok h
    refine ⟨keys, hkeys, hmem, hmatc, fun keyId' heq => ?_⟩
    exact hid.trans (mem_unique hkeyId heq)
  · next hnone =>
    simp only [Did.findFirstMatchingKey, ok_iffs] at h
    obtain ⟨_, ⟨keys, hkeys, rfl⟩, hfind⟩ := h
    refine ⟨keys, hkeys, mem_of_find?_eq_some hfind, find?_some hfind, fun keyId heq => ?_⟩
    cases hnone.symm.trans heq

lemma Identifier.selectDidKey_eq_ok (h : identifier.selectDidKey selection filter = .ok selected) :
    ∃ d k, selected = .did d k ∧ identifier.did = some d ∧ d.deactivated = false ∧
      (∀ didId ∈ selection.did, d.id = didId) ∧ selection.certificate = none ∧
      identifier.findRelatedKey d selection filter = .ok k := by
  simp only [Identifier.selectDidKey, Identifier.throwOnCertificateId, ok_iffs,
    exists_unit_iff] at h
  obtain ⟨hcert, d, hd, hact, hid, k, hk, rfl⟩ := h
  exact ⟨d, k, rfl, hd, hact, hid, hcert, hk⟩

/-- The certificate is active.  One that is named has the given id; one that is found carries the key
usage. -/
lemma Identifier.selectCertificate_eq_ok {certs : List Certificate}
    (h : identifier.selectCertificate lib selection filter certs = .ok c) :
    c ∈ certs ∧ c.state = .active ∧
      ((∃ certificateId, selection.certificate = some certificateId ∧ c.id = certificateId ∧
          (certs.find? fun cert => decide (cert.id = certificateId)) = some c) ∨
        (selection.certificate = none ∧
          ∀ usages, filter.certificateKeyUsage = some usages → c.Carries lib usages)) := by
  unfold Identifier.selectCertificate at h
  split at h
  · next certificateId hsome =>
    simp only [ok_iffs, exists_unit_iff] at h
    obtain ⟨_, hfind, hst, rfl⟩ := h
    have hid := find?_some hfind
    exact ⟨mem_of_find?_eq_some hfind, hst,
      .inl ⟨certificateId, hsome, of_decide_eq_true hid, hfind⟩⟩
  · next hnone =>
    have hfind := okOr_eq_ok.1 h
    have hmatc := find?_some hfind
    rw [Bool.and_eq_true, decide_eq_true_eq, Certificate.hasMatchingKey_iff] at hmatc
    exact ⟨mem_of_find?_eq_some hfind, hmatc.1, .inr ⟨hnone, hmatc.2.1⟩⟩

lemma Identifier.selectCertificateKey_eq_ok
    (h : identifier.selectCertificateKey lib selection filter = .ok selected) :
    ∃ c k certs, selected = .certificate c k ∧ identifier.certificates = some certs ∧
      identifier.selectCertificate lib selection filter certs = .ok c ∧ selection.did = none ∧
      c.key = some k ∧ filter.matchesKey k = true ∧ ∀ keyId ∈ selection.key, keyId = k.id := by
  simp only [Identifier.selectCertificateKey, Identifier.throwOnDidId, ok_iffs,
    exists_unit_iff] at h
  tauto

lemma algorithm_of_matchesKey {key : Key}
    (h : (selection.keyFilter.getD {}).matchesKey key = true) :
    ∀ filter algorithms, selection.keyFilter = some filter → filter.algorithms = some algorithms →
      ∃ algorithm ∈ algorithms, key.keyAlgorithmType = some algorithm := by
  intro filter algorithms hflt halgo
  rw [hflt] at h
  exact KeyFilter.matchesKey_iff.1 h algorithms halgo

lemma respects_of_selectOwnKey (htype : identifier.type = .key)
    (h : identifier.selectOwnKey selection (selection.keyFilter.getD {}) = .ok selected) :
    Respects lib identifier selection selected := by
  obtain ⟨k, rfl, hkey, hdid, hcerti, hmatc, hid⟩ := Identifier.selectOwnKey_eq_ok h
  exact {
    belongs := ⟨htype, hkey⟩
    key := fun keyId hkeyId => (hid keyId hkeyId).symm
    did := fun didId hdidId => absurd (hdid.symm.trans hdidId) nofun
    certificate := fun certificateId hcert => absurd (hcerti.symm.trans hcert) nofun
    algorithm := algorithm_of_matchesKey hmatc
    role := fun _ _ _ _ _ _ => nofun
    activeDid := fun _ => nofun
    activeCertificate := fun _ => nofun
    usage := fun _ _ _ _ _ => nofun }

lemma respects_of_selectDidKey (htype : identifier.type = .did)
    (h : identifier.selectDidKey selection (selection.keyFilter.getD {}) = .ok selected) :
    Respects lib identifier selection selected := by
  obtain ⟨d, k, rfl, hd, hact, hid, hcerti, hk⟩ := Identifier.selectDidKey_eq_ok h
  obtain ⟨keys, hkeys, hmem, hmatc, hkid⟩ := Identifier.findRelatedKey_eq_ok hk
  obtain ⟨hrole, hmatc⟩ := KeyFilter.matchesRelatedKey_iff.1 hmatc
  exact {
    belongs := ⟨htype, hd, keys, hkeys, hmem⟩
    key := hkid
    did := fun didId hdidId => ⟨d, rfl, hid didId hdidId⟩
    certificate := fun certificateId hcert => absurd (hcerti.symm.trans hcert) nofun
    algorithm := algorithm_of_matchesKey hmatc
    role := by
      rintro filter role _ _ hflt hsome ⟨⟩
      rw [hflt] at hrole
      exact hrole role hsome
    activeDid := by
      rintro _ ⟨⟩
      exact hact
    activeCertificate := fun _ => nofun
    usage := fun _ _ _ _ _ => nofun }

/-- The key of a certificate carries the key usage that is asked for, exactly if a certificate that is
named does. -/
lemma carries_iff_of_selectCertificateKey {k : Key} (h : identifier.selectCertificateKey lib selection
      (selection.keyFilter.getD {}) = .ok (.certificate c k)) :
    (∀ filter usages, selection.keyFilter = some filter → filter.certificateKeyUsage = some usages →
      c.Carries lib usages) ↔ NamedCertificateCarries lib identifier selection := by
  obtain ⟨_, _, certs, heq, hcerts, hsel, -⟩ := Identifier.selectCertificateKey_eq_ok h
  cases heq
  obtain ⟨-, -, hcases⟩ := Identifier.selectCertificate_eq_ok hsel
  constructor
  · intro hcarr filter usages certificateId certs' c' hflt husages hnamed hcerts' hfind
    obtain rfl := mem_unique hcerts hcerts'
    rcases hcases with ⟨certificateId', hnamed', -, hfind'⟩ | ⟨hnone, -⟩
    · obtain rfl := mem_unique hnamed hnamed'
      obtain rfl := mem_unique hfind hfind'
      exact hcarr filter usages hflt husages
    · exact absurd (hnone.symm.trans hnamed) nofun
  · intro hcarr filter usages hflt husages
    rcases hcases with ⟨certificateId, hnamed, -, hfind⟩ | ⟨-, hsear⟩
    · exact hcarr filter usages certificateId certs c hflt husages hnamed hcerts hfind
    · rw [hflt] at hsear
      exact hsear usages husages

lemma respects_iff_of_selectCertificateKey
    (htype : identifier.type = .certificate ∨ identifier.type = .certificateAuthority)
    (h : identifier.selectCertificateKey lib selection (selection.keyFilter.getD {}) = .ok selected) :
    Respects lib identifier selection selected ↔
      NamedCertificateCarries lib identifier selection := by
  obtain ⟨c, k, certs, rfl, hcerts, hsel, hdid, hk, hmatc, hkid⟩ :=
    Identifier.selectCertificateKey_eq_ok h
  obtain ⟨hmem, hact, hcases⟩ := Identifier.selectCertificate_eq_ok hsel
  rw [← carries_iff_of_selectCertificateKey h]
  refine ⟨fun hresp filter usages hflt husages => hresp.usage filter usages c hflt husages rfl,
    fun hcarr => ?_⟩
  refine {
    belongs := ⟨htype, ⟨certs, hcerts, hmem⟩, hk⟩
    key := fun keyId hkeyId => (hkid keyId hkeyId).symm
    did := fun didId hdidId => absurd (hdid.symm.trans hdidId) nofun
    certificate := fun certificateId hnamed => ?_
    algorithm := algorithm_of_matchesKey hmatc
    role := fun _ _ _ _ _ _ => nofun
    activeDid := fun _ => nofun
    activeCertificate := ?_
    usage := ?_ }
  · rcases hcases with ⟨certificateId', hnamed', hid, -⟩ | ⟨hnone, -⟩
    · obtain rfl := mem_unique hnamed hnamed'
      exact ⟨c, rfl, hid⟩
    · exact absurd (hnone.symm.trans hnamed) nofun
  · rintro _ ⟨⟩
    exact hact
  · rintro filter usages _ hflt husages ⟨⟩
    exact hcarr filter usages hflt husages

lemma namedCertificateCarries_of_none (h : selection.certificate = none) :
    NamedCertificateCarries lib identifier selection :=
  fun _ _ _ _ _ _ _ hsome => absurd (h.symm.trans hsome) nofun

lemma selectKey_eq_ok_cases (h : identifier.selectKey lib selection = .ok selected) :
    identifier.isRemote = false ∧
    ((identifier.type = .key ∧
        identifier.selectOwnKey selection (selection.keyFilter.getD {}) = .ok selected) ∨
      (identifier.type = .did ∧
        identifier.selectDidKey selection (selection.keyFilter.getD {}) = .ok selected) ∨
      ((identifier.type = .certificate ∨ identifier.type = .certificateAuthority) ∧
        identifier.selectCertificateKey lib selection (selection.keyFilter.getD {}) =
          .ok selected)) := by
  simp only [Identifier.selectKey, ok_iffs, exists_unit_iff] at h
  obtain ⟨hlocal, h⟩ := h
  refine ⟨hlocal, ?_⟩
  split at h
  · next htype => exact .inl ⟨htype, h⟩
  · next htype => exact .inr (.inl ⟨htype, h⟩)
  · next htype => exact .inr (.inr ⟨.inl htype, h⟩)
  · next htype => exact .inr (.inr ⟨.inr htype, h⟩)

lemma respects_iff_of_selectKey (h : identifier.selectKey lib selection = .ok selected) :
    Respects lib identifier selection selected ↔
      NamedCertificateCarries lib identifier selection := by
  obtain ⟨-, ⟨htype, h⟩ | ⟨htype, h⟩ | ⟨htype, h⟩⟩ := selectKey_eq_ok_cases h
  · obtain ⟨_, -, -, -, hcert, -⟩ := Identifier.selectOwnKey_eq_ok h
    exact iff_of_true (respects_of_selectOwnKey htype h) (namedCertificateCarries_of_none hcert)
  · obtain ⟨_, _, -, -, -, -, hcert, -⟩ := Identifier.selectDidKey_eq_ok h
    exact iff_of_true (respects_of_selectDidKey htype h) (namedCertificateCarries_of_none hcert)
  · exact respects_iff_of_selectCertificateKey htype h

lemma carries_iff_of_selectKey {k : Key}
    (h : identifier.selectKey lib selection = .ok (.certificate c k))
    (hflt : selection.keyFilter = some filter)
    (husages : filter.certificateKeyUsage = some usages) :
    c.Carries lib usages ↔ NamedCertificateCarries lib identifier selection := by
  obtain ⟨-, ⟨-, h⟩ | ⟨-, h⟩ | ⟨-, h⟩⟩ := selectKey_eq_ok_cases h
  · obtain ⟨_, heq, -⟩ := Identifier.selectOwnKey_eq_ok h
    cases heq
  · obtain ⟨_, _, heq, -⟩ := Identifier.selectDidKey_eq_ok h
    cases heq
  · rw [← carries_iff_of_selectCertificateKey h]
    refine ⟨fun hcarr filter' usages' hflt' husages' => ?_, fun hcarr => hcarr _ _ hflt husages⟩
    obtain rfl := mem_unique hflt hflt'
    obtain rfl := mem_unique husages husages'
    exact hcarr

end

/-! ### A certificate that is named -/

/-- Every text is one block with a certificate that may sign data, and nothing else. -/
def sampleLibrary : X509Library Unit Unit where
  iterFromBuffer _ := [.ok ()]
  parseX509 _ := .ok ()
  keyUsage _ := .ok (some ⟨true, false, false, false, false, false, false, false, false⟩)

def sampleCertificate : Certificate where
  id := "certificate"
  chain := "chain"
  state := .active
  key := some ⟨"key", "ECDSA", some [], some "organisation"⟩

def sampleAuthority : Identifier where
  id := "authority"
  type := .certificateAuthority
  isRemote := false
  organisation := some "organisation"
  did := none
  key := none
  certificates := some [sampleCertificate]

end OneCore.Identifiers
