/-
# The evidence of an activation

A wallet unit is to be activated on evidence: the platform attests, with a certificate that reaches a
CA of the configuration, a key of the configured application for the nonce of this unit; the key has
signed a proof for the nonce and this service; and the key that is recorded is the attested one or has
signed a proof itself.

The evidence is complete exactly if the service has an address, which the proofs can name, and the
Android attestation lists a signing certificate.  The service does not ask for either.
-/
import OneCore.WalletProvider.Units

namespace OneCore.WalletProvider

open Option

variable {Key Der : Type}

/-! ### Cryptography -/

/-- What is assumed of the cryptography.  `Signed key msg` says that the owner of the key has signed
the message, `ChainsTo cert ca` that the certificate was issued under the CA. -/
structure SoundCryptography (env : Environment Key Der) (Signed : Key → Bytes → Prop)
    (ChainsTo : AttestationCertificate Key → String → Prop) : Prop where
  unforgeable : ∀ key msg signature, env.verify key msg signature = .ok () → Signed key msg
  chain : ∀ chain ca options cert, options.validation.integrityCheck = true →
    options.validation.requireRootTermination = true →
    env.lib.validateChainAgainstCaChain chain ca options = .ok cert → ChainsTo cert ca
  hash_injective : ∀ a b hash, env.lib.sha256 a = .ok hash → env.lib.sha256 b = .ok hash → a = b
  hash_length : ∀ a hash, env.lib.sha256 a = .ok hash → hash.length = 32

/-- The hash of some data, followed by the hash of a text or a token. -/
def HashesTo (lib : IntegrityLibrary Key Der) (data content hash : Bytes) : Prop :=
  ∃ inner, lib.sha256 content = .ok inner ∧ lib.sha256 (data ++ inner) = .ok hash

lemma HashesTo.content_eq {env : Environment Key Der} {Signed : Key → Bytes → Prop}
    {ChainsTo : AttestationCertificate Key → String → Prop}
    (hsound : SoundCryptography env Signed ChainsTo) {data data' content content' hash : Bytes}
    (h : HashesTo env.lib data content hash) (h' : HashesTo env.lib data' content' hash) :
    content' = content := by
  obtain ⟨inner, hinner, houter⟩ := h
  obtain ⟨inner', hinner', houter'⟩ := h'
  have happ : data' ++ inner' = data ++ inner := hsound.hash_injective _ _ _ houter' houter
  have hlen : inner'.length = inner.length :=
    (hsound.hash_length _ _ hinner').trans (hsound.hash_length _ _ hinner).symm
  obtain ⟨-, rfl⟩ := List.append_inj' happ hlen
  exact hsound.hash_injective _ _ _ hinner' hinner

/-! ### The evidence -/

/-- A proof that is valid now, for this service and for the nonce. -/
structure ValidProof (env : Environment Key Der) (now : Timestamp) (leeway : Nat) (nonce : String)
    (proof : ProofToken) : Prop where
  issued : ∀ t ∈ proof.payload.issuedAt, t ≤ now + seconds leeway
  notBefore : ∃ t, proof.payload.custom.invalidBefore = some t ∧ t ≤ now + seconds leeway
  expires : ∃ t, proof.payload.expiresAt = some t ∧ now - seconds leeway ≤ t
  nonce : proof.payload.custom.nonce = some nonce
  audience : ∃ url audience, env.lists.baseUrl = some url ∧ proof.payload.audience = some audience ∧
    url ∈ audience

/-- The attestation of the platform for the nonce and the configured application. -/
inductive PlatformEvidence (env : Environment Key Der)
    (ChainsTo : AttestationCertificate Key → String → Prop) (params : WalletProviderParams)
    (nonce : String) (attestation : List String) (cert : AttestationCertificate Key) :
    WalletUnitOs → Prop
  | android {bundle : AndroidBundle} {chain ca : String}
      {parsed : Android.ParsedAttestationExtension}
      (hbundle : params.walletInstanceAttestation.integrityCheck.android = some bundle)
      (hchain : env.lib.x5cIntoPemChain attestation = .ok chain)
      (hcert : Android.checkCaCerts env.lib chain bundle.trustedAttestationCas = .ok cert)
      (hca : ca ∈ bundle.trustedAttestationCas) (hchains : ChainsTo cert ca)
      (hparsed : Android.readExtension env.lib cert = .ok parsed)
      (hnonce : parsed.attestationChallenge = nonce)
      (hpackage : parsed.packageName = bundle.bundleId)
      (hsigner : parsed.signatureDigests ≠ [])
      (hsigners : ∀ digest ∈ parsed.signatureDigests,
        digest ∈ bundle.signingCertificateFingerprints) :
      PlatformEvidence env ChainsTo params nonce attestation cert .android
  | ios {bundle : IOSBundle} {encoded ca : String} {decoded : IosAttestation}
      {certHash appIdHash : Bytes}
      (hbundle : params.walletInstanceAttestation.integrityCheck.ios = some bundle)
      (hencoded : attestation.head? = some encoded)
      (hdecoded : env.lib.decodeCborBase64 encoded = .ok decoded)
      (hca : ca ∈ bundle.trustedAttestationCas) (hchains : ChainsTo cert ca)
      (hcertHash : Ios.certNonce env.lib cert = .ok certHash)
      (hnonce : HashesTo env.lib decoded.authData (utf8 nonce) certHash)
      (honly : ∀ data other, HashesTo env.lib data (utf8 other) certHash → other = nonce)
      (happId : env.lib.sha256 (utf8 bundle.bundleId) = .ok appIdHash)
      (hrpId : Ios.slice decoded.authData 0 32 = some appIdHash) :
      PlatformEvidence env ChainsTo params nonce attestation cert .ios

/-- The key has signed the proof; on iOS it has signed a hash that is the one of no other token. -/
def SignsProof (env : Environment Key Der) (Signed : Key → Bytes → Prop) (os : WalletUnitOs)
    (key : Key) (proof : ProofToken) : Prop :=
  match os with
  | .ios => ∃ data msg, HashesTo env.lib data proof.unverifiedJwt msg ∧ Signed key msg ∧
      ∀ data' token, HashesTo env.lib data' token msg → token = proof.unverifiedJwt
  | _ => Signed key proof.unverifiedJwt

/-- The recorded key is the attested one, or it has signed a proof for the same nonce. -/
def RecordedKey (env : Environment Key Der) (Signed : Key → Bytes → Prop) (now : Timestamp)
    (leeway : Nat) (nonce : String) (attested : Key) (request : WalletUnitActivationRequest)
    (jwk : PublicJwk) : Prop :=
  env.publicKeyAsJwk attested = .ok jwk ∨
    ∃ token proof algorithm key, request.deviceSigningKeyProof = some token ∧
      env.decomposeToken token = .ok proof ∧ proof.header.jwk = some jwk ∧
      env.parseKeyOf algorithm jwk = .ok key ∧ Signed key proof.unverifiedJwt ∧
      ValidProof env now leeway nonce proof

def Evidence (env : Environment Key Der) (Signed : Key → Bytes → Prop)
    (ChainsTo : AttestationCertificate Key → String → Prop) (now : Timestamp)
    (params : WalletProviderParams) (os : WalletUnitOs) (nonce : String)
    (request : WalletUnitActivationRequest) (jwk : PublicJwk) : Prop :=
  ∃ cert proof, PlatformEvidence env ChainsTo params nonce request.attestation cert os ∧
    env.decomposeToken request.attestationKeyProof = .ok proof ∧
    ValidProof env now params.deviceAuthLeeway nonce proof ∧
    SignsProof env Signed os cert.publicKey proof ∧
    RecordedKey env Signed now params.deviceAuthLeeway nonce cert.publicKey request jwk

/-- On Android, the attestation lists a certificate that the application is signed with. -/
def ListsSigner (env : Environment Key Der) (params : WalletProviderParams)
    (attestation : List String) (os : WalletUnitOs) : Prop :=
  os = .android → ∃ bundle chain cert parsed,
    params.walletInstanceAttestation.integrityCheck.android = some bundle ∧
    env.lib.x5cIntoPemChain attestation = .ok chain ∧
    Android.checkCaCerts env.lib chain bundle.trustedAttestationCas = .ok cert ∧
    Android.readExtension env.lib cert = .ok parsed ∧ parsed.signatureDigests ≠ []

/-! ### What the checks establish -/

section Checks

variable {env : Environment Key Der} {Signed : Key → Bytes → Prop}
  {ChainsTo : AttestationCertificate Key → String → Prop} {now : Timestamp} {leeway : Nat}
  {nonce : String} {proof : ProofToken}

lemma expectAudience_eq_ok_iff {baseUrl : Option String} {audience : List String} :
    expectAudience baseUrl audience = .ok () ↔ ∀ url ∈ baseUrl, url ∈ audience := by
  cases baseUrl with
  | none => simp [expectAudience]
  | some url => simp [expectAudience, validateAudience]

lemma validProof_of_validateProofPayload (hurl : env.lists.baseUrl.isSome)
    (h : validateProofPayload now proof leeway env.lists.baseUrl (some nonce) = .ok ()) :
    ValidProof env now leeway nonce proof := by
  simp only [validateProofPayload, expectNonce, ok_iffs, exists_unit_iff,
    validateIssuanceTime_eq_ok_iff, validateExpirationTime_eq_ok_iff, expectAudience_eq_ok_iff] at h
  obtain ⟨hiss, hnbf, hnotB, hexp, hexpi, audience, haudi, hnamed, hnonce⟩ := h
  obtain ⟨url, hurl⟩ := isSome_iff_exists.1 hurl
  obtain ⟨nbf, hnbf⟩ := isSome_iff_exists.1 hnbf
  obtain ⟨exp, hexp⟩ := isSome_iff_exists.1 hexp
  refine ⟨hiss, ⟨nbf, hnbf, ?_⟩, ⟨exp, hexp, hexpi exp hexp⟩, hnonce,
    url, audience, hurl, haudi, hnamed url hurl⟩
  rw [hnbf, validateNotBeforeTime, validateBound_eq_ok_iff] at hnotB
  exact Int.not_lt.1 (hnotB nbf rfl)

variable {os : WalletUnitOs} {key : Key} (hsound : SoundCryptography env Signed ChainsTo)
include hsound

lemma signsProof_of_verifyAttestationProof {nonce : Option String}
    (h : verifyAttestationProof env now proof key os true leeway nonce = .ok ()) :
    SignsProof env Signed os key proof ∧
      validateProofPayload now proof leeway env.lists.baseUrl nonce = .ok () := by
  simp only [verifyAttestationProof, ok_iffs, Prod.exists, exists_unit_iff] at h
  obtain ⟨msg, signature, hmsg, hvfy, hpay⟩ := h
  have hsgn := hsound.unforgeable _ _ _ hvfy
  refine ⟨?_, hpay⟩
  cases os with
  | ios =>
    simp only [attestationMessage, Ios.webauthnSignedJwtToMsgAndSig, ok_iffs, Prod.mk.injEq] at hmsg
    obtain ⟨webauthn, -, inner, hinner, _, houter, _, -, rfl, -⟩ := hmsg
    have hhash : HashesTo env.lib webauthn.authenticatorData proof.unverifiedJwt _ :=
      ⟨inner, hinner, houter⟩
    exact ⟨_, _, hhash, hsgn, fun data' token htok => hhash.content_eq hsound htok⟩
  | android =>
    cases hmsg
    exact hsgn
  | web =>
    cases hmsg
    exact hsgn

variable {params : WalletProviderParams} {request : WalletUnitActivationRequest} {jwk : PublicJwk}

lemma recordedKey_of_authenticationKey (hurl : env.lists.baseUrl.isSome) {attested : Key}
    (h : authenticationKey env now params nonce attested request = .ok jwk) :
    RecordedKey env Signed now params.deviceAuthLeeway nonce attested request jwk := by
  unfold authenticationKey at h
  split at h
  · next token htok =>
    simp only [proveDeviceSigningKey, verifyDeviceSigningProof, decompose, ok_iffs,
      exists_unit_iff] at h
    obtain ⟨proof, hprf, algorithm, -, jwk', hjwk, key, hkey, ⟨hvfy, hpay⟩, rfl⟩ := h
    exact .inr ⟨token, proof, algorithm, key, htok, hprf, hjwk, hkey,
      hsound.unforgeable _ _ _ hvfy, validProof_of_validateProofPayload hurl hpay⟩
  · exact .inl (mapError_eq_ok.1 h)

/-- The attestation that was accepted is evidence if it lists a signing certificate. -/
lemma exists_platformEvidence {attestation : List String}
    (hsigner : ListsSigner env params attestation os)
    (h : validateAttestation env attestation os nonce params = .ok key) :
    ∃ cert, key = cert.publicKey ∧ PlatformEvidence env ChainsTo params nonce attestation cert os := by
  cases os with
  | ios =>
    simp only [validateAttestation, ok_iffs] at h
    obtain ⟨encoded, hencoded, bundle, hbundle, h⟩ := h
    obtain ⟨accepted⟩ := Ios.nonempty_accepted env.lib h
    have hhash : HashesTo env.lib accepted.attestation.authData (utf8 nonce) accepted.certHash :=
      ⟨accepted.nonceHash, accepted.nonceHash_eq, accepted.certHash_eq⟩
    refine ⟨accepted.cert, accepted.key_eq, .ios hbundle hencoded accepted.decoded accepted.mem_cas
      (hsound.chain _ _ _ _ rfl rfl accepted.validated) accepted.certNonce_eq hhash ?_
      accepted.appIdHash_eq accepted.rpId_eq⟩
    exact fun data other hoth => utf8_injective (hhash.content_eq hsound hoth)
  | android =>
    simp only [validateAttestation, ok_iffs, exists_unit_iff] at h
    obtain ⟨-, bundle, hbundle, h⟩ := h
    obtain ⟨accepted⟩ := Android.nonempty_accepted env.lib h
    obtain ⟨bundle', chain, cert, parsed, hbundle', hchain, hcert, hparsed, hdigs⟩ := hsigner rfl
    -- the certificate that lists the signer is the one that was accepted
    obtain rfl := mem_unique hbundle hbundle'
    obtain rfl := ok_unique accepted.chain_eq hchain
    obtain rfl := ok_unique accepted.checked hcert
    obtain rfl := ok_unique accepted.parsed_eq hparsed
    exact ⟨accepted.cert, accepted.key_eq, .android hbundle hchain hcert accepted.mem_cas
      (hsound.chain _ _ _ _ rfl rfl accepted.validated) hparsed accepted.challenge accepted.package
      hdigs accepted.fingerprints⟩
  | web => cases h

omit hsound in
lemma complete_of_evidence (h : Evidence env Signed ChainsTo now params os nonce request jwk) :
    env.lists.baseUrl.isSome ∧ ListsSigner env params request.attestation os := by
  obtain ⟨cert, proof, hplat, -, hvalid, -, -⟩ := h
  obtain ⟨url, -, hurl, -⟩ := hvalid.audience
  refine ⟨isSome_iff_exists.2 ⟨url, hurl⟩, ?_⟩
  rintro rfl
  cases hplat with
  | android hbundle hchain hcert _ _ hparsed _ _ hsigner _ =>
    exact ⟨_, _, cert, _, hbundle, hchain, hcert, hparsed, hsigner⟩

/-- What an accepted request presents is evidence if the service has an address and the attestation
lists a signing certificate. -/
lemma evidence_of_complete
    (henb : params.walletInstanceAttestation.integrityCheck.enabled = true)
    (hatn : validateAttestation env request.attestation os nonce params = .ok key)
    (hproofs : proveKeys env now params os nonce key request = .ok jwk)
    (hurl : env.lists.baseUrl.isSome) (hsigner : ListsSigner env params request.attestation os) :
    Evidence env Signed ChainsTo now params os nonce request jwk := by
  obtain ⟨cert, rfl, hplat⟩ := exists_platformEvidence hsound hsigner hatn
  simp only [proveKeys, decompose, ok_iffs, exists_unit_iff, henb] at hproofs
  obtain ⟨proof, hprf, hvfy, hkey⟩ := hproofs
  obtain ⟨hsigns, hpay⟩ := signsProof_of_verifyAttestationProof hsound hvfy
  exact ⟨cert, proof, hplat, hprf, validProof_of_validateProofPayload hurl hpay, hsigns,
    recordedKey_of_authenticationKey hsound hurl hkey⟩

end Checks

end OneCore.WalletProvider
