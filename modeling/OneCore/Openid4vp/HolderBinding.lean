/-
# Holder binding

A credential is bound to the keys of its holder: to a key that it names itself, or to the keys of
its subject, which is a key or a DID with a document.  A presentation of the credential should be
signed with one of these keys.

The verifier looks at the signature and at the subject apart from each other.  The signature is
checked with the verification method that the presenter's key id selects in the presenter's DID
document.  The subject is compared with the presenter's DID through the first verification method
of that document, or through any of them.  So a DID document that lists a key of the subject next
to a key of somebody else lets somebody else sign: `holderBound_iff` says that holder binding
depends on the selected method alone.
-/
import OneCore.Openid4vp.ProofResult
import OneCore.Presentation.Signer

namespace OneCore.Openid4vp

open Presentation Option
open Mdoc (ExtractedPresentation MobileSecurityObject)

variable {Key : Type} (env : ValidatorEnvironment Key)

/-- The keys that a credential is bound to: one that it names, or one of its subject. -/
inductive BoundKey (token : String) : IdentifierDetails → PublicJwk → Prop
  | carried {subject : IdentifierDetails} {jwk : PublicJwk} :
      CarriesKey env.formats token jwk → BoundKey token subject jwk
  | key (jwk : PublicJwk) : BoundKey token (.key jwk) jwk
  | did {did : String} {document : DidDocument} {jwk : PublicJwk} :
      env.keys.resolve did = .ok document → HasKey document jwk → BoundKey token (.did did) jwk

def IsBoundKey (token : String) (subject : IdentifierDetails) (algorithm : KeyAlgorithmType)
    (key : Key) : Prop :=
  ∃ jwk, BoundKey env token subject jwk ∧ env.keys.parseJwk algorithm jwk = .ok key

/-- The presenter's signature for a credential that was checked. -/
abbrev PresentedWith (submitted : SubmittedPresentation) (token : String)
    (signed : SignedMessage) : Prop :=
  VerifiedBy env.formats (env.keys.verify .authentication) submitted.context
    submitted.presentation submitted.format token signed

variable {submitted : SubmittedPresentation} {token : String} {jwk : PublicJwk}

section Submission

variable (interaction : InteractionContent) (protocolType : VerificationProtocolType)
  (submission : SubmissionRequestData) (proof : Proof)

/-- A credential of the given subject is checked as part of the given presentation. -/
def Presents (c : CheckedCredential) (submitted : SubmittedPresentation)
    (subject : IdentifierDetails) : Prop :=
  Checks env interaction protocolType submission proof c ∧ submitted ∈ c.presented ∧
    ∃ credential mso schema formatter,
      Reads env c.token c.input credential mso schema formatter ∧
      credential.subject = some subject

/-- Every presented credential comes with a signature, and each key that such a signature was
checked with is one that the credential is bound to. -/
def HolderBound : Prop :=
  ∀ c submitted subject, Presents env interaction protocolType submission proof c submitted
      subject →
    (∃ signed, PresentedWith env submitted c.token signed) ∧
    ∀ signed, PresentedWith env submitted c.token signed →
      ∃ key, env.keys.publicKey .authentication signed.source signed.algorithm = .ok key ∧
        env.keys.verifySignature key signed.message signed.signature = .ok () ∧
        IsBoundKey env c.token subject signed.algorithm key

/-- The presenter has a DID of their own, with a document of its own. -/
def ForeignDid (subject : IdentifierDetails) (did : String) (document : DidDocument) : Prop :=
  subject ≠ .did did ∧ ∀ did', subject = .did did' → env.keys.resolve did' ≠ .ok document

/-- Whoever signs under a DID that is not the subject's does so with a verification method whose
key the credential is bound to. -/
def SelectsBoundKey : Prop :=
  ∀ c submitted subject, Presents env interaction protocolType submission proof c submitted
      subject →
    ∀ signed did keyId document method, PresentedWith env submitted c.token signed →
      signed.source = .did did keyId → env.keys.resolve did = .ok document →
      document.signingMethod .authentication keyId = .ok method →
      ForeignDid env subject did document →
      ∃ jwk, BoundKey env c.token subject jwk ∧
        env.keys.parseJwk signed.algorithm jwk =
          env.keys.parseJwk signed.algorithm method.publicKeyJwk

/-! ### The signature and the subject -/

variable {env interaction protocolType submission proof}

lemma holderBindingCtx_presentationContext (isMdoc : Bool) (mdocNonce : Option String) :
    (SdJwt.holderBindingCtx
      (presentationContext interaction protocolType isMdoc mdocNonce)).isSome := by
  cases isMdoc <;> rfl

variable {c : CheckedCredential}

lemma Checks.holderBindingCtx
    (h : Checks env interaction protocolType submission proof c) (hsub : submitted ∈ c.presented) :
    (SdJwt.holderBindingCtx submitted.context).isSome := by
  rcases h with ⟨-, -, -, -, hc⟩ | ⟨-, -, -, -, -, hc⟩
  · rcases hc with ⟨-, -, -, -, -, -⟩ | ⟨-, -, -, -⟩
    · obtain rfl := mem_some_iff.1 hsub
      exact holderBindingCtx_presentationContext _ _
    · cases hsub
  · obtain ⟨-, hpres, -, -, -, -⟩ := hc
    obtain rfl := mem_some_iff.1 hsub
    simp only [descriptorPresentation, ok_iffs] at hpres
    obtain ⟨_, -, _, -, _, -, rfl⟩ := hpres
    exact holderBindingCtx_presentationContext _ _

lemma validatePresentation_eq_ok {nonce : String} {extracted : ExtractedPresentation}
    (h : validatePresentation env submitted nonce = .ok extracted) :
    ∃ extract, extractPresentation? env.formats (env.keys.verify .authentication)
        submitted.format = some extract ∧
      extract submitted.presentation submitted.context = .ok extracted ∧
      extracted.nonce = some nonce := by
  simp only [validatePresentation, ok_iffs] at h
  obtain ⟨extract, hext, _, hpres, ⟨⟩, -, ⟨⟩, hnon, rfl⟩ := h
  exact ⟨extract, hext, hpres, hnon⟩

variable {subject : IdentifierDetails}

/-- A presenter who is known by a key is so by a key of the subject. -/
lemma boundKey_of_checkMatchingIdentifiers {allowed : List DidType}
    (h : checkMatchingIdentifiers env subject (.key jwk) allowed = .ok ()) :
    BoundKey env token subject jwk := by
  unfold checkMatchingIdentifiers at h
  by_cases heq : subject = .key jwk
  · subst heq
    exact .key jwk
  · rw [if_neg heq] at h
    cases subject with
    | did did =>
      simp only [checkMatchingKeyWithDid, resolveDid, ok_iffs] at h
      obtain ⟨⟨⟩, -, document, hdoc, hkey⟩ := h
      exact .did hdoc hkey
    | certificate details => cases h
    | key jwk' => cases h

/-- The key that was checked with is bound to the credential, unless the presenter signs under a
DID. -/
lemma boundKey_or_did {credential : DetailCredential} {formatter : CredentialFormatter}
    {signed : SignedMessage} (hround : RoundTrip env.formats)
    (hholder : HolderChecked env interaction c credential formatter)
    (hsub : submitted ∈ c.presented) (hsbj : credential.subject = some subject)
    (hsgn : PresentedWith env submitted c.token signed) :
    (∃ jwk, signed.source = .jwk jwk ∧ BoundKey env c.token subject jwk) ∨
      ∃ did keyId, signed.source = .did did keyId := by
  obtain ⟨extracted, holder, subject', hvalid, -, hissuer, hsbj', hmatc⟩ :=
    hholder submitted hsub
  obtain rfl := mem_unique hsbj hsbj'
  obtain ⟨extract, hext, hpres, -⟩ := validatePresentation_eq_ok hvalid
  rcases signer_of_verifiedBy hext hpres hround hissuer hsgn with
    hsgr | ⟨jwk, hsrc, hcarr⟩
  · generalize signed.source = source at hsgr ⊢
    cases hsgr with
    | did did keyId => exact Or.inr ⟨did, keyId, rfl⟩
    | key jwk => exact Or.inl ⟨jwk, rfl, boundKey_of_checkMatchingIdentifiers hmatc⟩
  · exact Or.inl ⟨jwk, hsrc, .carried hcarr⟩

variable {did : String} {keyId : Option String}

/-- A verification method of a DID that is the subject's, or has the document of the subject's,
has a key that the credential is bound to. -/
lemma boundKey_of_not_foreignDid {document : DidDocument} {method : DidVerificationMethod}
    (hdoc : env.keys.resolve did = .ok document)
    (hmth : document.signingMethod .authentication keyId = .ok method)
    (h : ¬ForeignDid env subject did document) :
    BoundKey env token subject method.publicKeyJwk := by
  have hkey : HasKey document method.publicKeyJwk :=
    ⟨method, DidDocument.mem_of_signingMethod hmth, rfl⟩
  simp only [ForeignDid, not_and_or, not_not, not_forall, exists_prop] at h
  rcases h with rfl | ⟨did', rfl, hdoc'⟩
  · exact .did hdoc hkey
  · exact .did hdoc' hkey

lemma PresentedWith.key {signed : SignedMessage} (h : PresentedWith env submitted token signed) :
    ∃ key, env.keys.publicKey .authentication signed.source signed.algorithm = .ok key ∧
      env.keys.verifySignature key signed.message signed.signature = .ok () :=
  env.keys.verify_eq_ok_iff.1 (VerifiedBy.check _ _ h)

lemma publicKey_did_eq_ok {algorithm : KeyAlgorithmType} {key : Key}
    (h : env.keys.publicKey .authentication (.did did keyId) algorithm = .ok key) :
    ∃ document method, env.keys.resolve did = .ok document ∧
      document.signingMethod .authentication keyId = .ok method ∧
      env.keys.parseJwk algorithm method.publicKeyJwk = .ok key :=
  env.keys.publicKeyFromDid_eq_ok_iff.1 h

section Accepted

variable {claims : List ValidatedProofClaimDTO}
  (h : processProofSubmission env interaction protocolType submission proof = .ok claims)
  (hpresents : Presents env interaction protocolType submission proof c submitted subject)

include h hpresents

lemma exists_holderChecked : ∃ credential formatter,
    HolderChecked env interaction c credential formatter ∧ credential.subject = some subject := by
  obtain ⟨hc, -, credential, mso, schema, formatter, hreads, hsbj⟩ := hpresents
  obtain ⟨credential', mso', schema', formatter', hacc⟩ :=
    (processProofSubmission_collected h).accepted c hc
  obtain ⟨rfl, -, -, rfl⟩ := hreads.unique env hacc.reads
  exact ⟨credential, formatter, hacc.holder, hsbj⟩

lemma exists_presentedWith : ∃ signed, PresentedWith env submitted c.token signed := by
  obtain ⟨credential, formatter, hholder, -⟩ := exists_holderChecked h hpresents
  obtain ⟨extracted, _, _, hvalid, htok, -⟩ := hholder submitted hpresents.2.1
  obtain ⟨extract, hext, hpres, -⟩ := validatePresentation_eq_ok hvalid
  exact exists_verifiedBy hext hpres (hpresents.1.holderBindingCtx hpresents.2.1) htok

end Accepted

/-- The credentials of an accepted submission are presented with keys that they are bound to
exactly if every presenter under a foreign DID has selected such a key. -/
lemma holderBound_iff_selectsBoundKey (hround : RoundTrip env.formats)
    {claims : List ValidatedProofClaimDTO}
    (h : processProofSubmission env interaction protocolType submission proof = .ok claims) :
    HolderBound env interaction protocolType submission proof ↔
      SelectsBoundKey env interaction protocolType submission proof := by
  constructor
  · intro hbound c submitted subject hpresents signed did keyId document method hsgn hsrc
      hdoc hmth _
    obtain ⟨key, hkey, -, jwk, hjwk, hpar⟩ :=
      (hbound c submitted subject hpresents).2 signed hsgn
    rw [hsrc] at hkey
    obtain ⟨document', method', hdoc', hmth', hpar'⟩ := publicKey_did_eq_ok hkey
    obtain rfl := ok_unique hdoc hdoc'
    obtain rfl := ok_unique hmth hmth'
    exact ⟨jwk, hjwk, hpar.trans hpar'.symm⟩
  · intro hsels c submitted subject hpresents
    refine ⟨exists_presentedWith h hpresents, fun signed hsgn => ?_⟩
    obtain ⟨credential, formatter, hholder, hsbj⟩ := exists_holderChecked h hpresents
    obtain ⟨key, hkey, hvfy⟩ := hsgn.key
    refine ⟨key, hkey, hvfy, ?_⟩
    rcases boundKey_or_did hround hholder hpresents.2.1 hsbj hsgn with
      ⟨jwk, hsrc, hjwk⟩ | ⟨did, keyId, hsrc⟩
    · rw [hsrc] at hkey
      exact ⟨jwk, hjwk, hkey⟩
    · rw [hsrc] at hkey
      obtain ⟨document, method, hdoc, hmth, hpar⟩ := publicKey_did_eq_ok hkey
      by_cases hfore : ForeignDid env subject did document
      · obtain ⟨jwk, hjwk, heq⟩ := hsels c submitted subject hpresents signed did keyId document
          method hsgn hsrc hdoc hmth hfore
        exact ⟨jwk, hjwk, heq.trans hpar⟩
      · exact ⟨_, boundKey_of_not_foreignDid hdoc hmth hfore, hpar⟩

/-- Where signatures cannot be forged, such a presentation was signed by the owner of a key that
the credential is bound to. -/
lemma HolderBound.signed {Signed : Key → Bytes → Prop}
    (hunf : ∀ key message signature,
      env.keys.verifySignature key message signature = .ok () → Signed key message)
    (h : HolderBound env interaction protocolType submission proof)
    (hpresents : Presents env interaction protocolType submission proof c submitted subject) :
    ∃ signed key, PresentedWith env submitted c.token signed ∧
      IsBoundKey env c.token subject signed.algorithm key ∧ Signed key signed.message := by
  obtain ⟨⟨signed, hsgn⟩, hall⟩ := h c submitted subject hpresents
  obtain ⟨key, -, hvfy, hkey⟩ := hall signed hsgn
  exact ⟨signed, key, hsgn, hkey, hunf key _ _ hvfy⟩

/-- **Holder binding.**  An accepted submission shows its credentials with keys that they are
bound to if and only if every presenter who signs under a foreign DID has selected a verification
method with such a key.  Then, if signatures cannot be forged, the owner of such a key has signed
the presentation. -/
theorem holderBound_iff (hround : RoundTrip env.formats) {claims : List ValidatedProofClaimDTO}
    (h : processProofSubmission env interaction protocolType submission proof = .ok claims) :
    (HolderBound env interaction protocolType submission proof ↔
      SelectsBoundKey env interaction protocolType submission proof) ∧
    ∀ Signed : Key → Bytes → Prop,
      (∀ key message signature,
        env.keys.verifySignature key message signature = .ok () → Signed key message) →
      SelectsBoundKey env interaction protocolType submission proof →
      ∀ c submitted subject,
        Presents env interaction protocolType submission proof c submitted subject →
        ∃ signed key, PresentedWith env submitted c.token signed ∧
          IsBoundKey env c.token subject signed.algorithm key ∧ Signed key signed.message := by
  have hiff := holderBound_iff_selectsBoundKey hround h
  exact ⟨hiff, fun Signed hunf hsels c submitted subject hpresents =>
    (hiff.2 hsels).signed hunf hpresents⟩

end Submission

/-! ### Another's key next to one of the subject -/

section Sample

def sampleKey (x : String) : PublicJwk := .okp ⟨none, none, none, "Ed25519", x, none⟩

def sampleMethod (id x : String) : DidVerificationMethod := ⟨id, "JsonWebKey2020", "", sampleKey x⟩

/-- The document of the subject has one key; that of the presenter has it too, and then one of
the presenter's own. -/
def sampleDidDocument (did : String) : DidDocument :=
  let methods := if did = "did:key:b" then [sampleMethod "1" "S", sampleMethod "2" "P"]
    else [sampleMethod "1" "S"]
  ⟨did, methods, some ["1", "2"], none, none, none, none, ""⟩

def sampleKeys (signer : String) : KeyVerification PublicJwk where
  resolve did := .ok (sampleDidDocument did)
  keyAlgorithmFromType _ := some .ok
  certificateKey _ := .error ""
  verifySignature key _ _ := if key = sampleKey signer then .ok () else .error ""

def sampleHolderEnvironment (keyId signer : String) : ValidatorEnvironment PublicJwk :=
  .fixed (sampleKeys signer) (fun _ => .ok (sampleVp keyId ["credential"]))
    ⟨.jwt, fun _ _ _ => .ok (sampleCredential (.did "did:key:i") (.did "did:key:a")), 0, [.key]⟩

def samplePresented : SubmittedPresentation :=
  ⟨.jwt, "presentation", presentationContext (sampleInteraction (sampleQuery .jwtVc false true))
    .openId4VpFinal1_0 false none⟩

lemma sample_presents :
    Presents (sampleHolderEnvironment "2" "P") (sampleInteraction (sampleQuery .jwtVc false true))
      .openId4VpFinal1_0 (sampleSubmission ["presentation"]) (sampleProof "JWT")
      ⟨some samplePresented, "credential", sampleInput "JWT"⟩ samplePresented (.did "did:key:a") :=
  ⟨.query rfl rfl rfl List.mem_cons_self (.bound rfl rfl rfl rfl rfl List.mem_cons_self), rfl,
    _, _, _, _, ⟨rfl, rfl, rfl, rfl⟩, rfl⟩

variable {keyId signer : String}

lemma sample_boundKey
    (h : BoundKey (sampleHolderEnvironment keyId signer) "credential" (.did "did:key:a") jwk) :
    jwk = sampleKey "S" := by
  rcases h with h | _ | ⟨hdoc, vm, hvm, rfl⟩
  · -- nothing decodes to a credential that names a key
    rcases h with h | h <;> cases h
  · cases hdoc
    obtain rfl := List.mem_singleton.1 hvm
    rfl

/-- Somebody who has none of the subject's keys lists the subject's key in their own DID document,
next to a key of their own, and presents the subject's credential. -/
theorem foreign_key_accepted :
    (∃ result, validateSubmission (sampleHolderEnvironment "2" "P") .listed
      (sampleInteraction (sampleQuery .jwtVc false true)) .openId4VpFinal1_0
      (sampleSubmission ["presentation"]) (sampleProof "JWT") = .ok result) ∧
    ¬HolderBound (sampleHolderEnvironment "2" "P") (sampleInteraction (sampleQuery .jwtVc false true))
      .openId4VpFinal1_0 (sampleSubmission ["presentation"]) (sampleProof "JWT") := by
  refine ⟨⟨_, rfl⟩, fun h => ?_⟩
  obtain ⟨key, hkey, -, jwk, hjwk, hpar⟩ :=
    (h _ _ _ sample_presents).2 _ (.jwt rfl rfl rfl)
  obtain rfl : sampleKey "P" = key := Except.ok.inj hkey
  obtain rfl := sample_boundKey hjwk
  exact absurd (Except.ok.inj hpar) (by decide)

lemma sample_roundTrip : RoundTrip (sampleHolderEnvironment keyId signer).formats := by
  intro presentation documents h
  cases h

lemma sample_source {signed : SignedMessage}
    (h : PresentedWith (sampleHolderEnvironment keyId signer) submitted token signed) :
    signed.source = .did "did:key:b" (some keyId) := by
  obtain ⟨format, presentation, context⟩ := submitted
  rcases h with ⟨hdeco, hsgn, -⟩ | ⟨hdeco, -⟩ | ⟨-, hdeco, -⟩ | ⟨hdec, -⟩ |
    ⟨hdec, -⟩
  · cases hdeco
    cases hsgn
    rfl
  all_goals contradiction

/-- The presenter who signs with the subject's key is bound to it. -/
theorem holderBound_sample :
    HolderBound (sampleHolderEnvironment "1" "S") (sampleInteraction (sampleQuery .jwtVc false true))
      .openId4VpFinal1_0 (sampleSubmission ["presentation"]) (sampleProof "JWT") := by
  refine (holderBound_iff sample_roundTrip rfl).1.2 ?_
  rintro c submitted subject ⟨-, -, credential, mso, schema, formatter, hreads, hsbj⟩
    signed did keyId document method hsgn hsrc hdoc hmth -
  obtain rfl := some.inj hreads.formatter_eq
  obtain rfl := Except.ok.inj hreads.credential_eq
  cases hsbj
  obtain ⟨rfl, rfl⟩ := PublicKeySource.did.inj ((sample_source hsgn).symm.trans hsrc)
  cases hdoc
  obtain rfl : sampleMethod "1" "S" = method := Except.ok.inj hmth
  exact ⟨sampleKey "S", .did rfl ⟨sampleMethod "1" "S", List.mem_cons_self, rfl⟩, rfl⟩

end Sample

end OneCore.Openid4vp
